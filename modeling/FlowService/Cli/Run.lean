import FlowService.Cli.Arguments
import FlowService.Cli.LogFile
import FlowService.Client.Session
import FlowService.Config.Load
import FlowService.Feature.Completion
import FlowService.Feature.Coverage
import FlowService.Feature.Definition
import FlowService.Feature.Diagnostics
import FlowService.Feature.Hover
import FlowService.Feature.Signature
import FlowService.Json.Printer

/-!
A command prints one JSON value, or fails with a message before it has printed anything or run the
checker. It waits as long as the checker does.
-/

namespace FlowService.Cli

variable {platform : Option String}

/-- Why a command fails. -/
inductive Failure
  | config (error : ConfigError)
  | statusFromStdin
  | pathUnresolved (file : String)
  | stdinUnreadable
  | fileUnreadable (path : Path)
  | position (invalid : InvalidPosition)
  deriving DecidableEq, Repr

/-- The text shown for a command that fails. -/
def Failure.message : Failure → String
  | .config _ => "loading flowide config"
  | .statusFromStdin => "status checks the saved project; --stdin is not supported"
  | .pathUnresolved file => s!"resolving {file}"
  | .stdinUnreadable => "reading buffer from stdin"
  | .fileUnreadable path => s!"reading {path.text}"
  | .position invalid => invalid.message

/-- What a process is given when it starts. -/
structure Surroundings (platform : Option String := Platform.built) where
  disk : Disk
  environment : Environment
  /-- The home directory of the account. -/
  accountHome : Option Path
  stdin : Bytes

/-- How a command came out. -/
inductive Outcome
  /-- The command line is not understood. -/
  | usage
  | failed (failure : Failure)
  | printed (text : String)
  /-- It waits for a checker that does not come to an end. -/
  | waiting
  deriving DecidableEq, Repr

namespace Outcome

/-- The code with which the process ends; none as long as it waits. -/
def exitCode? : Outcome → Option Nat
  | .usage => some 2
  | .failed _ => some 1
  | .printed _ => some 0
  | .waiting => none

/-- The code with which the process ends, or zero when nobody gets to see one. -/
def code (outcome : Outcome) : Nat := outcome.exitCode?.getD 0

/-- What stands on the standard output. -/
def stdout : Outcome → String
  | .printed text => text
  | _ => ""

/-- The line about the failure, if there was one; a text of several lines shows its first. -/
def errorLine? : Outcome → Option String
  | .failed failure =>
    some (String.ofList (("Error: " ++ failure.message).toList.takeWhile (· != '\n')))
  | _ => none

end Outcome

/-- The names of a path without dots and doubled slashes, the innermost first; a slash at the end
stays. -/
def plainSegments (path : Path) : List String :=
  let names := (path.components.filterMap fun component => match component with
    | .name text => some text
    | .above => some ".."
    | _ => none).reverse
  match path.segments with
  | "" :: _ => "" :: names
  | _ => names

/-- A path as it is seen from the root, without being looked up on the disk. -/
def absolutePath (workingDirectory : Location) (path : Path) : Path :=
  ⟨true, plainSegments path ++ if path.absolute then [] else workingDirectory⟩

/-- A path as it is seen from the root, when it has one: an empty path has none, and a relative one
has none once the working directory is gone. -/
def absolutePath? (disk : Disk) (path : Path) : Option Path :=
  if path = Path.empty then none
  else if path.absolute || disk.tree.isDirectoryAt disk.workingDirectory then
    some (absolutePath disk.workingDirectory path)
  else none

/-- The path of the file that a command is about. -/
def Target.path (target : Target) (disk : Disk) : Except Failure Path :=
  match absolutePath? disk (Path.ofText target.file) with
  | some path => .ok path
  | none => .error (.pathUnresolved target.file)

/-- The text of the buffer; a file that does not exist reads as empty. -/
def contents (surroundings : Surroundings platform) (target : Target) (path : Path) :
    Except Failure String :=
  if target.stdin then
    match Utf8.decode? surroundings.stdin with
    | some text => .ok text
    | none => .error .stdinUnreadable
  else if surroundings.disk.exists? path then
    match surroundings.disk.readText? path with
    | some text => .ok text
    | none => .error (.fileUnreadable path)
  else .ok ""

/-- The position of a place, which may not lie on a line or in a column of number zero. -/
def Place.position (place : Place) : Except Failure Position :=
  match Position.ofOneBased place.line place.column with
  | .ok position => .ok position
  | .error invalid => .error (.position invalid)

/-- What is to be worked out for a query about a buffer. -/
def BufferQuery.plan (settings : FeatureSettings) (document : Document) :
    BufferQuery → Except Failure (Plan Json)
  | .complete place => do
    let position ← place.position
    return (document.completions settings.functionSnippets position).map
      (Json.ofOption (Json.ofList CompletionItem.toJson))
  | .hover place => do
    let position ← place.position
    return (document.hover position).map (Json.ofOption Hover.toJson)
  | .definition place => do
    let position ← place.position
    return (document.definition position).map (Json.ofOption SourceLocation.toJson)
  | .coverage =>
    .ok ((document.coverage settings.coverageDecorations).map (Json.ofOption CoverageReport.toJson))
  | .signature place => do
    let position ← place.position
    return (document.signature position).map (Json.ofOption SignatureHelp.toJson)

/-- What is to be worked out for a command. -/
def Command.plan (surroundings : Surroundings platform) (settings : FeatureSettings) :
    Command → Except Failure (Plan Json)
  | .status target =>
    if target.stdin then .error .statusFromStdin
    else do
      let path ← target.path surroundings.disk
      return (diagnostics path).map (Json.ofOption DiagnosticsUpdate.toJson)
  | .buffer target query => do
    let path ← target.path surroundings.disk
    let text ← contents surroundings target path
    query.plan settings ⟨path, text⟩

/-- The configuration, with defaults where there is no file. -/
def loadConfig (surroundings : Surroundings platform) : Except Failure Config :=
  match Config.location? surroundings.environment surroundings.accountHome with
  | none => .ok Config.default
  | some path => match Config.load surroundings.disk path with
    | .ok config => .ok (config.getD Config.default)
    | .error error => .error (.config error)

/-- The client of a command, which lives too short for watches to matter. -/
def clientOf (surroundings : Surroundings platform) (config : Config) : Client platform :=
  ⟨config.checkerOptions surroundings.environment, surroundings.environment, .none⟩

/-- Carries out a command that was understood. -/
def execute (behaviour : Behaviour) (surroundings : Surroundings platform) (command : Command) :
    Outcome × Session :=
  let session := Session.start surroundings.disk
  match loadConfig surroundings with
  | .error failure => (.failed failure, session)
  | .ok config => match command.plan surroundings config.featureSettings with
    | .error failure => (.failed failure, session)
    | .ok plan =>
      match session.workOut (clientOf surroundings config) behaviour plan none with
      | (some value, session) => (.printed (value.pretty ++ "\n"), session)
      | (none, session) => (.waiting, session)

/-- What a process is given, with the log opened. -/
def Surroundings.logged (surroundings : Surroundings platform) : Surroundings platform :=
  let candidates := logCandidates surroundings.environment surroundings.accountHome
  { surroundings with disk := openFirstLog surroundings.disk candidates }

/-- Runs the command line: the log is opened first, even when the arguments are not understood. -/
def run (behaviour : Behaviour) (surroundings : Surroundings platform) (arguments : List String) :
    Outcome × Session :=
  match Command.ofArguments? arguments with
  | none => (.usage, Session.start surroundings.logged.disk)
  | some command => execute behaviour surroundings.logged command

end FlowService.Cli
