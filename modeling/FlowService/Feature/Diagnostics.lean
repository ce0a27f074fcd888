import FlowService.Checker.Question
import FlowService.Checker.Reply.Fields
import FlowService.Feature.Report
import FlowService.Path.Order

/-! The errors of a project are grouped by the file that they point at. -/

namespace FlowService

/-- What to publish after the state of the project was asked for. -/
inductive DiagnosticsUpdate
  /-- All that was published before is replaced. -/
  | report (report : DiagnosticsReport)
  /-- The question itself failed. -/
  | checkFailed (message : String)
  deriving DecidableEq, Repr, Inhabited

namespace Diagnostic

/-- The extensions of the files that the checker knows. -/
def checkedExtensions : List String := ["js", "jsx", "mjs", "es6"]

/-- Whether the checker says anything about a file. -/
def isCheckedFile (path : Path) : Bool :=
  path.absolute && path.extension?.any checkedExtensions.contains

/-- The text of a piece of a message, with the place that it points at. -/
def partText (part : Reply.MessagePart) : String :=
  if part.isBlame then
    s!"{part.description} ({Path.baseName part.path}:{part.line}:{part.start})"
  else part.description

/-- The text of a whole message. -/
def messageText (error : Reply.Error) : String := " ".intercalate (error.message.map partText)

/-- The range that a piece of a message points at; the checker counts the last character within. -/
def blameRange (part : Reply.MessagePart) : Range :=
  ⟨Position.ofChecker part.line part.start, ⟨Position.before part.endLine, part.stop⟩⟩

/-- The piece that an error is shown at, and its text; the operation goes before the message. -/
def anchor? (error : Reply.Error) : Option (Reply.MessagePart × String) :=
  match error.blamedOperation? with
  | some operation => some (operation, partText operation ++ " error: " ++ messageText error)
  | none => error.firstBlame?.map fun blame => (blame, messageText error)

/-- The file and the diagnostic of an error that points at some place. -/
def ofError? (error : Reply.Error) : Option (Path × Diagnostic) :=
  (anchor? error).map fun (part, message) =>
    (Path.ofText part.path,
      ⟨blameRange part, message, Severity.ofLevel error.level, "flow"⟩)

end Diagnostic

namespace DiagnosticsReport

/-- Adds a diagnostic to the group of its file. -/
def add (files : List (Path × List Diagnostic)) (path : Path) (diagnostic : Diagnostic) :
    List (Path × List Diagnostic) :=
  -- The first spelling of a path stays the name of its group.
  if files.any (·.1.sameAs path) then
    files.map fun entry =>
      if entry.1.sameAs path then (entry.1, entry.2 ++ [diagnostic]) else entry
  else files ++ [(path, [diagnostic])]

/-- Whether a group holds an error. -/
def hasErrors (entry : Path × List Diagnostic) : Bool :=
  entry.2.any fun diagnostic => diagnostic.severity.isError

/-- Whether a group comes no later than another: those with errors first, and then by path. -/
def notAfter (left right : Path × List Diagnostic) : Bool :=
  if hasErrors left == hasErrors right then (left.1.compare right.1).isLE else hasErrors left

/-- Groups the errors of a project. -/
def ofStatus (status : Reply.Status) : DiagnosticsReport :=
  let found := status.errors.filterMap Diagnostic.ofError?
  let groups := found.foldl (fun files entry => add files entry.1 entry.2) []
  ⟨groups.mergeSort notAfter⟩

end DiagnosticsReport

namespace DiagnosticsUpdate

/-- What to publish for what came of the question; a cancellation changes nothing. -/
def ofResult? (result : CheckerResult) : Option DiagnosticsUpdate :=
  match result.decode Reply.Status.ofJson? with
  | .ok reply => reply.map fun status => .report (DiagnosticsReport.ofStatus status)
  | .error error => if error.isCanceled then none else some (.checkFailed error.message)

/-- What to publish, as a value. -/
def toJson : DiagnosticsUpdate → Json
  | .report groups => .object [("status", .string "report"), ("files", groups.filesToJson)]
  | .checkFailed message =>
    .object [("status", .string "check_failed"), ("message", .string message)]

end DiagnosticsUpdate

/-- Asks for the state of the project of a file; for a file that the checker does not know it asks
nothing. -/
def diagnostics (path : Path) : Plan (Option DiagnosticsUpdate) :=
  if Diagnostic.isCheckedFile path then .ask (.status path) DiagnosticsUpdate.ofResult?
  else .answer none

end FlowService
