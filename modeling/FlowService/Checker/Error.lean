import FlowService.Path.Basic

/-! A question to the checker fails for one of a few reasons, each with a text of its own. -/

namespace FlowService

/-- How a process ended. -/
inductive ExitReason
  | code (value : Nat)
  | signal (number : Nat)
  | unknown
  deriving DecidableEq, Repr, Inhabited

namespace ExitReason

/-- The signal of an interrupt from the keyboard. -/
def interrupt : Nat := 2

/-- Reads the status that the system reports for a process. -/
def ofStatus (status : Nat) : ExitReason :=
  -- The low seven bits hold the signal, with all of them set for a process that has only stopped.
  let low := status % 0x80
  if low = 0 then .code (status / 0x100 % 0x100)
  else if low = 0x7F then .unknown
  else .signal low

/-- The code that a process returned. -/
def code? : ExitReason → Option Nat
  | .code value => some value
  | _ => none

/-- The text shown for an ending. -/
def message : ExitReason → String
  | .code value => s!"code {value}"
  | .signal number => s!"signal {number}"
  | .unknown => "unknown status"

end ExitReason

/-- Why a question to the checker failed. -/
inductive CheckerError
  | canceled
  | toolFailure (exit : ExitReason) (stderr : String)
  | spawn (binary : Path) (detail : String)
  | malformedOutput (detail : String)
  | taskFailed (detail : String)
  deriving DecidableEq, Repr, Inhabited

namespace CheckerError

/-- Whether a failure is a cancellation, which is no fault. -/
def isCanceled : CheckerError → Bool
  | .canceled => true
  | _ => false

/-- How the checker ended, when the failure is its own. -/
def exit? : CheckerError → Option ExitReason
  | .toolFailure exit _ => some exit
  | _ => none

/-- The text shown for a failure. -/
def message : CheckerError → String
  | .canceled => "operation canceled"
  | .toolFailure exit stderr => s!"flow exited with {exit.message}: {stderr}"
  | .spawn binary detail => s!"failed to run {binary.text}: {detail}"
  | .malformedOutput detail => s!"malformed checker output: {detail}"
  | .taskFailed detail => s!"checker task failed: {detail}"

end CheckerError

end FlowService
