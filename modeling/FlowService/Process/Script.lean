import FlowService.Process.Run

/-! A scripted checker answers each command with programs that are written down beforehand. -/

namespace FlowService

/-- The programs for each first argument, the first one for the first call. -/
abbrev CheckerScript := List (String × List Program)

namespace CheckerScript

/-- The name under which the programs for all other first arguments are written. -/
def otherwise : String := "*"

/-- The first argument of an invocation. -/
def command (invocation : Invocation) : String := invocation.arguments.head?.getD ""

/-- A program that reads its input and says nothing. -/
def silent : Program := ⟨[.readAll], .code 0, false⟩

/-- The program of a call behind the given earlier ones; the last one answers all later calls. -/
def behaviour (script : CheckerScript) : Behaviour := fun earlier invocation =>
  let name := command invocation
  let count := earlier.countP fun other => command other == name
  let named (name : String) : Option (List Program) := (script.find? (·.1 == name)).map (·.2)
  match (named name).orElse fun _ => named otherwise with
  | none => silent
  | some programs => (programs[count]?).getD (programs.getLast?.getD silent)

end CheckerScript

/-- A call as a checker sees it. -/
structure CheckerCall where
  arguments : List String
  directory : Path
  /-- What it read, if it read to the end. -/
  stdin : Option String
  deriving DecidableEq, Repr, Inhabited

namespace RunningChecker

/-- The call that a checker has seen; a script of the shell sees none. -/
def call? (running : RunningChecker) : Option CheckerCall :=
  if running.executable = .checker then
    some ⟨running.invocation.arguments, Location.path running.directory,
      if running.listens then some (Utf8.decodeLossy running.conversation.heard) else none⟩
  else none

end RunningChecker

end FlowService
