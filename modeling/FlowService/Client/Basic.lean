import FlowService.Checker.Invocation
import FlowService.Checker.Options
import FlowService.Checker.Question
import FlowService.Project.Discovery
import FlowService.Project.Locator

/-! When the turn of a question comes, it is answered at once or becomes a run of the checker. -/

namespace FlowService

variable {platform : Option String}

/-- What does not change while questions are asked. -/
structure Client (platform : Option String := Platform.built) where
  options : CheckerOptions
  environment : Environment
  /-- What kind of watches the locator can make. -/
  source : WatchSource
  deriving Repr, Inhabited

/-- What is to be done about a question. -/
inductive Decision
  | done (result : CheckerResult)
  | run (invocation : Invocation)
  deriving Repr

namespace Client

/-- How the binary is looked for. -/
def discovery (client : Client platform) : Discovery platform :=
  ⟨client.options.package, client.options.binary, client.options.searchPath⟩

/-- The binary for the files in a directory that the locator knows or finds. -/
def located (client : Client platform) (disk : Disk) (locator : Locator) (directory : Path) :
    Option Path × Locator :=
  locator.resolve client.source disk (client.discovery.discovered? disk client.environment)
    directory

/-- The binary for the files in a directory; one that is set goes first as long as it exists. -/
def binaryFor (client : Client platform) (disk : Disk) (locator : Locator) (directory : Path) :
    Option Path × Locator :=
  match client.options.binaryOverride with
  | some binary =>
    if disk.isFile binary then (some binary, locator) else client.located disk locator directory
  | none => client.located disk locator directory

/-- Decides about a question whose turn has come. -/
def decide (client : Client platform) (disk : Disk) (locator : Locator) (question : Question)
    (canceled : Bool) : Decision × Locator :=
  -- A cancellation goes before every reason to leave the checker alone.
  if canceled then (.done (.error .canceled), locator)
  else if !client.options.enabled then (.done (.ok (.skipped .disabled)), locator)
  else if !disk.exists? question.file then (.done (.ok (.skipped .fileMissing)), locator)
  else
    let directory := Project.directoryOf question.file
    match client.binaryFor disk locator directory with
    | (none, locator) => (.done (.ok (.skipped .binaryMissing)), locator)
    | (some binary, locator) =>
      (.run ⟨binary, question.arguments, directory, question.contents?⟩, locator)

end Client

end FlowService
