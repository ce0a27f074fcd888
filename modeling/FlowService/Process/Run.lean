import FlowService.Checker.Invocation
import FlowService.Process.Conversation

/-! The checker is run as a process whose behaviour is given from outside. -/

namespace FlowService

/-- A process that was started. -/
structure RunningChecker where
  invocation : Invocation
  executable : Executable
  /-- Its working directory. -/
  directory : Location
  /-- Whether it reads to the end of its input. -/
  listens : Bool
  conversation : Conversation
  /-- Whether an interrupt was sent to it. -/
  interrupted : Bool
  deriving DecidableEq, Repr, Inhabited

/-- How the checker behaves: the program of an invocation, given the earlier ones. -/
abbrev Behaviour := List Invocation → Invocation → Program

namespace RunningChecker

/-- What a script that does nothing does. -/
def idleProgram : Program := ⟨[], .code 0, false⟩

/-- Starts the checker. -/
def start (disk : Disk) (environment : Environment) (behaviour : Behaviour)
    (earlier : List Invocation) (invocation : Invocation) : Except CheckerError RunningChecker :=
  match invocation.spawn disk environment with
  | .error failure => .error (.spawn invocation.binary failure.message)
  | .ok (executable, directory) =>
    let program := match executable with
      | .checker => behaviour earlier invocation
      | .emptyScript => idleProgram
    let payload := Utf8.encode (invocation.stdin.getD "")
    .ok ⟨invocation, executable, directory, program.instructions.contains .readAll,
      Conversation.start program payload, false⟩

/-- Goes on until the process waits or is over. -/
def run (isOpen : String → Bool) (running : RunningChecker) : RunningChecker :=
  { running with conversation := running.conversation.run isOpen }

/-- Sends an interrupt to a process that is not over, once. -/
def interrupt (running : RunningChecker) : RunningChecker :=
  if running.interrupted || running.conversation.ended.isSome then running
  else { running with conversation := running.conversation.interrupt, interrupted := true }

/-- What a process comes to, once it is over. -/
def result? (running : RunningChecker) (wording : Wording := .plain) : Option CheckerResult :=
  running.conversation.ended.map fun exit =>
    CheckerResult.ofEnding (if running.interrupted then .interrupted exit else .exited exit)
      running.conversation.output running.conversation.errors wording

end RunningChecker

end FlowService
