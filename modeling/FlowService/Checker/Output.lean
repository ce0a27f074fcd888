import FlowService.Checker.Error
import FlowService.Json.Written
import FlowService.Text.Utf8

/-! What a run of the checker comes to, from its ending and from the bytes that it printed. -/

namespace FlowService

/-- Why the checker was not run. -/
inductive SkipReason
  | fileMissing
  | binaryMissing
  | disabled
  deriving DecidableEq, Repr, Inhabited

/-- What came of a question that did not fail. -/
inductive CheckerOutput
  | skipped (reason : SkipReason)
  /-- The checker ran and printed nothing. -/
  | empty
  | json (value : Json)
  deriving Repr, Inhabited

/-- What came of a question. -/
abbrev CheckerResult := Except CheckerError CheckerOutput

/-- How a process was seen to end. -/
inductive Ending
  | exited (exit : ExitReason)
  /-- It ended after an interrupt was sent to it. -/
  | interrupted (exit : ExitReason)
  /-- It did not heed the interrupt and was killed. -/
  | killed
  deriving DecidableEq, Repr, Inhabited

/-- What the reader of JSON says about what it refuses, in words of its own. -/
structure Wording where
  /-- About a text that is not JSON. -/
  text : String → String
  /-- About a value that is no reply of the wanted shape. -/
  value : Json → String
  deriving Inhabited

/-- Words that stand in for those of the reader where nothing depends on them. -/
def Wording.plain : Wording :=
  ⟨fun _ => "the output is not JSON", fun _ => "the output has another shape"⟩

namespace CheckerResult

/-- How many bytes of the error output are kept. -/
def stderrLimit : Nat := 64 * 1024

/-- What a process that ended by itself comes to: error output is a failure, whatever the exit. -/
def ofExit (exit : ExitReason) (stdout stderr : Bytes) (wording : Wording := .plain) :
    CheckerResult :=
  let complaint := Utf8.decodeLossy (stderr.take stderrLimit)
  let answer := Utf8.decodeLossy stdout
  if complaint ≠ "" then .error (.toolFailure exit complaint)
  else if answer = "" then .ok .empty
  else match Json.parse? answer with
    | some value => .ok (.json value)
    | none => .error (.malformedOutput (wording.text answer))

/-- What a process comes to: an interrupt counts only when the process died from it. -/
def ofEnding (ending : Ending) (stdout stderr : Bytes) (wording : Wording := .plain) :
    CheckerResult :=
  match ending with
  | .exited exit => ofExit exit stdout stderr wording
  | .interrupted exit =>
    if exit = .signal ExitReason.interrupt then .error .canceled
    else ofExit exit stdout stderr wording
  | .killed => .error .canceled

/-- Reads a result as a reply; nothing for a checker that did not run or printed nothing. -/
def decode {α : Type} (read : Json → Option α) (result : CheckerResult)
    (wording : Wording := .plain) : Except CheckerError (Option α) :=
  match result with
  | .error error => .error error
  | .ok (.skipped _) => .ok none
  | .ok .empty => .ok none
  | .ok (.json value) =>
    match read value with
    | some reply => .ok (some reply)
    | none => .error (.malformedOutput (wording.value value))

/-- Reads a result as a reply, with nothing in place of a failure. -/
def settle {α : Type} (read : Json → Option α) (result : CheckerResult) : Option α :=
  match result.decode read with
  | .ok reply => reply
  | .error _ => none

end CheckerResult

end FlowService
