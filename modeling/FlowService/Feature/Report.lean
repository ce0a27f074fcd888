import FlowService.Path.Basic
import FlowService.Text.Place

/-! A report lists diagnostics by the file that they point at. -/

namespace FlowService

/-- How grave a diagnostic is. -/
inductive Severity
  | error
  | warning
  deriving DecidableEq, Repr, Inhabited

namespace Severity

/-- Reads the checker's level, of which only one is an error. -/
def ofLevel (level : String) : Severity := if level == "error" then .error else .warning

/-- Whether a severity is that of an error. -/
def isError : Severity → Bool
  | .error => true
  | .warning => false

/-- The name of a severity. -/
def name : Severity → String
  | .error => "error"
  | .warning => "warning"

end Severity

/-- A message about a range of a file. -/
structure Diagnostic where
  range : Range
  message : String
  severity : Severity
  source : String
  deriving DecidableEq, Repr, Inhabited

/-- A diagnostic as a value. -/
def Diagnostic.toJson (diagnostic : Diagnostic) : Json :=
  .object [("range", diagnostic.range.toJson), ("message", .string diagnostic.message),
    ("severity", .string diagnostic.severity.name), ("source", .string diagnostic.source)]

/-- Diagnostics grouped by file. -/
structure DiagnosticsReport where
  files : List (Path × List Diagnostic)
  deriving DecidableEq, Repr, Inhabited

namespace DiagnosticsReport

/-- The diagnostics of a file, whatever the spelling of its path. -/
def forFile? (report : DiagnosticsReport) (path : Path) : Option (List Diagnostic) :=
  (report.files.find? fun entry => entry.1.sameAs path).map (·.2)

/-- Whether a report has no file. -/
def isEmpty (report : DiagnosticsReport) : Bool := report.files.isEmpty

/-- How many diagnostics of a report are errors. -/
def errorCount (report : DiagnosticsReport) : Nat :=
  (report.files.flatMap (·.2)).countP fun diagnostic => diagnostic.severity.isError

/-- The groups of a report as a value. -/
def filesToJson (report : DiagnosticsReport) : Json :=
  Json.ofList (fun entry : Path × List Diagnostic =>
    .array [.string entry.1.text, Json.ofList Diagnostic.toJson entry.2]) report.files

end DiagnosticsReport

end FlowService
