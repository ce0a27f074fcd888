import FlowService.Text.Utf8

/-! A pipe holds a bounded number of bytes between an end that writes and an end that reads. -/

namespace FlowService

/-- A pipe with what is in it. -/
structure Pipe where
  buffer : Bytes
  writerOpen : Bool
  readerOpen : Bool
  deriving DecidableEq, Repr, Inhabited

namespace Pipe

/-- A new pipe. -/
def new : Pipe := ⟨[], true, true⟩

/-- How many bytes fit into a pipe on Linux. -/
def standardCapacity : Nat := 64 * 1024

/-- Writes as much as fits, and gives what is left over; nothing can be done about a full pipe. -/
def write? (capacity : Nat) (pipe : Pipe) (bytes : Bytes) : Option (Bytes × Pipe) :=
  let free := capacity - pipe.buffer.length
  if free = 0 then none
  else some (bytes.drop free, { pipe with buffer := pipe.buffer ++ bytes.take free })

/-- Takes out at most so many bytes. -/
def read (pipe : Pipe) (count : Nat) : Bytes × Pipe :=
  (pipe.buffer.take count, { pipe with buffer := pipe.buffer.drop count })

/-- Closes the end that writes. -/
def closeWriter (pipe : Pipe) : Pipe := { pipe with writerOpen := false }

/-- Closes the end that reads; what is in the pipe is lost. -/
def closeReader (pipe : Pipe) : Pipe := { pipe with readerOpen := false, buffer := [] }

/-- Whether a reader has come to the end. -/
def atEnd (pipe : Pipe) : Bool := pipe.buffer.isEmpty && !pipe.writerOpen

end Pipe

end FlowService
