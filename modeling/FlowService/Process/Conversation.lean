import FlowService.Checker.Output
import FlowService.Process.Pipe
import FlowService.Process.Program

/-!
A conversation is a process together with the three pumps at the other ends of its pipes, which work
side by side: one writes the input, one reads the output, and one reads the head of the errors.
-/

namespace FlowService

/-- A process, its pipes, and what the pumps have done. -/
structure Conversation where
  /-- What the process has still to do. -/
  program : Program
  /-- What it has read. -/
  heard : Bytes
  stdin : Pipe
  stdout : Pipe
  stderr : Pipe
  /-- The input that is still to be written. -/
  payload : Bytes
  /-- The output that was read. -/
  output : Bytes
  /-- The head of the errors that was read. -/
  errors : Bytes
  /-- How the process ended. -/
  ended : Option ExitReason
  deriving DecidableEq, Repr, Inhabited

namespace Conversation

/-- A process that has just been started, with the input that is meant for it. -/
def start (program : Program) (payload : Bytes) : Conversation :=
  ⟨program, [], Pipe.new, Pipe.new, Pipe.new, payload, [], [], none⟩

/-- Something that may happen next. -/
inductive Move
  /-- The process does something. -/
  | child
  /-- The first pump writes input. -/
  | feed
  /-- The second pump reads output. -/
  | drainOutput
  /-- The third pump reads errors. -/
  | drainErrors
  deriving DecidableEq, Repr, Inhabited

/-- The process ends, and its ends of the pipes are closed. -/
def finish (conversation : Conversation) (exit : ExitReason) : Conversation :=
  { conversation with
    ended := some exit
    stdin := conversation.stdin.closeReader
    stdout := conversation.stdout.closeWriter
    stderr := conversation.stderr.closeWriter }

/-- The process with other things to do. -/
def continueWith (conversation : Conversation) (instructions : List Instruction) : Conversation :=
  { conversation with program := { conversation.program with instructions := instructions } }

/-- The pipe of an output. -/
def pipe (conversation : Conversation) : Channel → Pipe
  | .out => conversation.stdout
  | .err => conversation.stderr

/-- Puts a pipe in the place of that of an output. -/
def setPipe (conversation : Conversation) (channel : Channel) (pipe : Pipe) : Conversation :=
  match channel with
  | .out => { conversation with stdout := pipe }
  | .err => { conversation with stderr := pipe }

/-- The process reads at most so many bytes and goes on with the given things to do. -/
def hear (conversation : Conversation) (count : Nat) (later : List Instruction) : Conversation :=
  let (bytes, stdin) := conversation.stdin.read count
  { conversation with
    heard := conversation.heard ++ bytes
    stdin := stdin }.continueWith later

/-- What the process does next; nothing when it is over or has to wait. -/
def childStep? (capacity : Nat) (isOpen : String → Bool) (conversation : Conversation) :
    Option Conversation :=
  if conversation.ended.isSome then none
  else match conversation.program.instructions with
    | [] => some (conversation.finish conversation.program.exit)
    | .write channel bytes :: later =>
      let pipe := conversation.pipe channel
      if bytes.isEmpty || !pipe.readerOpen then some (conversation.continueWith later)
      else (pipe.write? capacity bytes).map fun (rest, pipe) =>
        (conversation.setPipe channel pipe).continueWith (.write channel rest :: later)
    | .read count :: later =>
      -- An empty pipe is waited for, unless nothing more can come.
      if conversation.stdin.buffer.isEmpty && conversation.stdin.writerOpen && count != 0 then none
      else some (conversation.hear count later)
    | .readAll :: later =>
      if conversation.stdin.atEnd then some (conversation.continueWith later)
      else if conversation.stdin.buffer.isEmpty then none
      else some (conversation.hear conversation.stdin.buffer.length (.readAll :: later))
    | .pause gate :: later =>
      if isOpen gate then some (conversation.continueWith later) else none

/-- What the pump of the input does next; it closes the pipe when all is written, and gives up when
nobody reads. -/
def feedStep? (capacity : Nat) (conversation : Conversation) : Option Conversation :=
  if !conversation.stdin.writerOpen then none
  else if conversation.payload.isEmpty || !conversation.stdin.readerOpen then
    some { conversation with payload := [], stdin := conversation.stdin.closeWriter }
  else (conversation.stdin.write? capacity conversation.payload).map fun (rest, stdin) =>
    { conversation with payload := rest, stdin := stdin }

/-- What the pump of the output does next; it stops at the end. -/
def drainOutputStep? (conversation : Conversation) : Option Conversation :=
  if !conversation.stdout.readerOpen then none
  else if conversation.stdout.atEnd then
    some { conversation with stdout := conversation.stdout.closeReader }
  else if conversation.stdout.buffer.isEmpty then none
  else
    let (bytes, stdout) := conversation.stdout.read conversation.stdout.buffer.length
    some { conversation with output := conversation.output ++ bytes, stdout := stdout }

/-- What the pump of the errors does next; it stops at the end, and when it has read its fill. -/
def drainErrorsStep? (conversation : Conversation) : Option Conversation :=
  let wanted := CheckerResult.stderrLimit - conversation.errors.length
  if !conversation.stderr.readerOpen then none
  else if conversation.stderr.atEnd || wanted = 0 then
    some { conversation with stderr := conversation.stderr.closeReader }
  else if conversation.stderr.buffer.isEmpty then none
  else
    let (bytes, stderr) := conversation.stderr.read wanted
    some { conversation with errors := conversation.errors ++ bytes, stderr := stderr }

/-- The conversation after a move, if the move is possible. -/
def step? (capacity : Nat) (isOpen : String → Bool) (conversation : Conversation) :
    Move → Option Conversation
  | .child => conversation.childStep? capacity isOpen
  | .feed => conversation.feedStep? capacity
  | .drainOutput => conversation.drainOutputStep?
  | .drainErrors => conversation.drainErrorsStep?

/-- Tries a move, and remembers whether any was possible. -/
def tryMove (isOpen : String → Bool) (state : Conversation × Bool) (move : Move) :
    Conversation × Bool :=
  match state.1.step? Pipe.standardCapacity isOpen move with
  | some next => (next, true)
  | none => state

/-- Tries every move in turn as often as the first number says, or until none is possible. -/
def runFor (isOpen : String → Bool) : Nat → Conversation → Conversation
  | 0, conversation => conversation
  | rounds + 1, conversation =>
    match [Move.child, .feed, .drainOutput, .drainErrors].foldl (tryMove isOpen)
        (conversation, false) with
    | (next, true) => runFor isOpen rounds next
    | (next, false) => next

/-- How many bytes an instruction writes. -/
def bytesOf : Instruction → Nat
  | .write _ bytes => bytes.length
  | _ => 0

/-- No more rounds are possible: each moves bytes, ends an instruction or closes a pipe. -/
def roundLimit (conversation : Conversation) : Nat :=
  let ahead :=
    conversation.program.instructions.foldr (fun entry bytes => bytesOf entry + 1 + bytes) 0
  let inside := conversation.stdin.buffer.length + conversation.stdout.buffer.length +
    conversation.stderr.buffer.length
  2 * (conversation.payload.length + ahead + inside) + 10

/-- Goes on until everything waits or is over. -/
def run (isOpen : String → Bool) (conversation : Conversation) : Conversation :=
  runFor isOpen conversation.roundLimit conversation

/-- Sends an interrupt to the process, which ends a pause or the process itself. -/
def interrupt (conversation : Conversation) : Conversation :=
  if conversation.ended.isSome then conversation
  else if conversation.program.catchesInterrupt then
    match conversation.program.instructions with
    | .pause _ :: later => conversation.continueWith later
    | _ => conversation
  else conversation.finish (.signal ExitReason.interrupt)

end Conversation

end FlowService
