import FlowService.Process.Conversation

/-!
A process is waited for until it ends or is called off. One that is called off is interrupted, and
it is killed when it does not end in time. When a process has ended and was called off as well, it
is up to chance which of the two is noticed.
-/

namespace FlowService

/-- The status that the system reports for a process that is over. -/
abbrev WaitStatus := Nat

namespace WaitStatus

/-- The code that a process returned. -/
def code? (status : WaitStatus) : Option Nat :=
  -- None of the low seven bits is set for a process that returned.
  if status % 0x80 = 0 then some (status / 0x100 % 0x100) else none

/-- The signal that a process died from. -/
def signal? (status : WaitStatus) : Option Nat :=
  -- All of the low seven bits are set for a process that has only stopped.
  if status % 0x80 = 0 ∨ status % 0x80 = 0x7F then none else some (status % 0x80)

/-- Whether a process died from an interrupt. -/
def isInterrupt (status : WaitStatus) : Bool := status.signal? == some ExitReason.interrupt

/-- The status of a process that was killed. -/
def killed : WaitStatus := 9

end WaitStatus

/-- What waiting for a process came to. -/
inductive Waited
  | exited (status : WaitStatus)
  /-- It ended after it was interrupted. -/
  | interrupted (status : WaitStatus)
  /-- It did not heed the interrupt in time. -/
  | killed
  deriving DecidableEq, Repr, Inhabited

/-- The status that tells what the process comes to; none for a process that was called off. -/
def Waited.status? : Waited → Option WaitStatus
  | .exited status => some status
  -- A process may end in its own way although it was interrupted.
  | .interrupted status => if status.isInterrupt then none else some status
  | .killed => none

namespace Conversation

/-- What a process is about to print to an output: as much as fits, or all that nobody reads. -/
def printing (capacity : Nat) (conversation : Conversation) (channel : Channel) : Bytes :=
  match conversation.program.instructions with
  | .write other bytes :: _ =>
    if other ≠ channel then []
    else if !(conversation.pipe channel).readerOpen then bytes
    else bytes.take (capacity - (conversation.pipe channel).buffer.length)
  | _ => []

/-- What is printed to an output in a move. -/
def printed (capacity : Nat) (conversation : Conversation) (channel : Channel) : Move → Bytes
  | .child => conversation.printing capacity channel
  -- The pumps print nothing.
  | _ => []

end Conversation

/-- How far the wait for a process has come. -/
inductive WaitStage
  /-- The end of the process and its being called off are both waited for. -/
  | watching
  /-- The process was interrupted and has some time to end. -/
  | grace
  /-- The time is up, and the process is to be killed. -/
  | killing
  | concluded (waited : Waited)
  deriving DecidableEq, Repr, Inhabited

/-- A process that is waited for. -/
structure Supervision where
  conversation : Conversation
  /-- Whether the process was called off; nothing where that is not possible. -/
  token : Option Bool
  stage : WaitStage
  /-- All that the process has printed to its output, read or not. -/
  out : Bytes
  /-- All that it has printed to its errors. -/
  err : Bytes
  deriving DecidableEq, Repr, Inhabited

namespace Supervision

/-- The program of a process that does these things and ends with a status. -/
def programOf (instructions : List Instruction) (status : WaitStatus) (catches : Bool) : Program :=
  ⟨instructions, .ofStatus status, catches⟩

/-- A process that has just been started. -/
def start (program : Program) (payload : Bytes) (token : Option Bool) : Supervision :=
  ⟨.start program payload, token, .watching, [], []⟩

/-- Something that may happen next. -/
inductive Action
  /-- The process or one of the pumps does one thing. -/
  | move (isOpen : String → Bool) (move : Conversation.Move)
  /-- The process makes up its mind anew about what it does, how it ends, and whether it ends when
  it is interrupted. -/
  | turn (instructions : List Instruction) (status : WaitStatus) (catches : Bool)
  /-- The process is called off. -/
  | cancel
  /-- The end of the process is noticed, with its status. -/
  | notice (status : WaitStatus)
  /-- It is noticed that the process was called off, and the process is interrupted. -/
  | heed
  /-- The process has not ended in time. -/
  | giveUp
  | kill

/-- The supervision after something has happened, if that is possible. -/
def act? (capacity : Nat) (supervision : Supervision) : Action → Option Supervision
  | .move isOpen move =>
    (supervision.conversation.step? capacity isOpen move).map fun conversation =>
      { supervision with
        conversation := conversation
        out := supervision.out ++ supervision.conversation.printed capacity .out move
        err := supervision.err ++ supervision.conversation.printed capacity .err move }
  | .turn instructions status catches =>
    if supervision.conversation.ended.isSome then none
    else some { supervision with
      conversation := { supervision.conversation with
        program := programOf instructions status catches } }
  | .cancel =>
    -- A process is called off at any time, also before it is waited for and after its end.
    if supervision.token.isSome then some { supervision with token := some true } else none
  | .notice status =>
    if supervision.conversation.ended ≠ some (.ofStatus status) then none
    else match supervision.stage with
      | .watching => some { supervision with stage := .concluded (.exited status) }
      | .grace => some { supervision with stage := .concluded (.interrupted status) }
      | .killing => some { supervision with stage := .concluded .killed }
      | .concluded _ => none
  | .heed =>
    -- An interrupt does nothing to a process that is over.
    if supervision.stage = .watching ∧ supervision.token = some true then
      some { supervision with
        conversation := supervision.conversation.interrupt
        stage := .grace }
    else none
  | .giveUp =>
    if supervision.stage = .grace ∧ supervision.conversation.ended = none then
      some { supervision with stage := .killing }
    else none
  | .kill =>
    if supervision.stage = .killing ∧ supervision.conversation.ended = none then
      some { supervision with
        conversation := supervision.conversation.finish (.ofStatus WaitStatus.killed) }
    else none

/-- The supervision after all this has happened in turn, if all of it is possible. -/
def after? (capacity : Nat) (supervision : Supervision) (actions : List Action) :
    Option Supervision :=
  actions.foldlM (act? capacity) supervision

/-- What comes of the process, once the wait is over and all that it printed was read. -/
def outcome? (supervision : Supervision) (wording : Wording := .plain) : Option CheckerResult :=
  match supervision.stage with
  | .concluded waited => match waited.status? with
    -- Nobody goes on reading what a process printed that was called off.
    | none => some (.error .canceled)
    | some status =>
      if supervision.conversation.stdout.readerOpen || supervision.conversation.stderr.readerOpen
      then none
      else some (CheckerResult.ofExit (.ofStatus status) supervision.conversation.output
        supervision.conversation.errors wording)
  | _ => none

end Supervision

end FlowService
