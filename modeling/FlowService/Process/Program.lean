import FlowService.Checker.Error
import FlowService.Text.Utf8

/-! A process is known by what it does to its three pipes, one thing after the other. -/

namespace FlowService

/-- An output of a process. -/
inductive Channel
  | out
  | err
  deriving DecidableEq, Repr, Inhabited

/-- One thing that a process does. -/
inductive Instruction
  /-- It writes bytes; what a closed pipe refuses is lost. -/
  | write (channel : Channel) (bytes : Bytes)
  /-- It reads once, at most so many bytes. -/
  | read (count : Nat)
  /-- It reads to the end of its input. -/
  | readAll
  /-- It waits until a gate is opened, or until it is interrupted. -/
  | pause (gate : String)
  deriving DecidableEq, Repr, Inhabited

/-- What a process does from its start to its end. -/
structure Program where
  instructions : List Instruction
  /-- How it ends when nothing is left to do. -/
  exit : ExitReason
  /-- Whether an interrupt only ends a pause and not the process. -/
  catchesInterrupt : Bool
  deriving DecidableEq, Repr, Inhabited

end FlowService
