import FlowService.Client.Traffic
import FlowService.Process.Supervision

/-!
What a process comes to that was not called off is told by its status and by the bytes it printed:
any error at all is a failure, no output is no answer, and all other output is read as JSON.
-/

namespace FlowService

namespace Utf8

/-- A reader has seen something if it has read a piece or is in the middle of one. -/
def Reader.Started (reader : Reader) : Prop := reader.read ≠ [] ∨ reader.pending ≠ none

/-- Every byte begins a piece or is one. -/
theorem Reader.started_begin (done : List (Option Char)) (byte : UInt8) :
    (Reader.begin done byte).Started := by
  unfold Reader.begin Reader.Started
  cases lead byte <;> simp

/-- A reader that reads a byte has seen something. -/
theorem Reader.started_step (reader : Reader) (byte : UInt8) : (reader.step byte).Started := by
  unfold Reader.step
  split
  · exact started_begin ..
  · split
    · -- The byte ends the character, or more of the character is waited for.
      dsimp only
      split
      · exact Or.inl (List.cons_ne_nil _ _)
      · exact Or.inr (Option.some_ne_none _)
    · exact started_begin ..

/-- Bytes make no text only where there are none. -/
theorem decodeLossy_eq_empty {bytes : Bytes} : decodeLossy bytes = "" ↔ bytes = [] := by
  constructor
  · intro silent
    -- The last byte has left something behind that is shown as a character.
    rcases List.eq_nil_or_concat bytes with none | ⟨before, last, rfl⟩
    · exact none
    · have started := Reader.started_step (before.foldl Reader.step ⟨[], none⟩) last
      have shown : pieces (before ++ [last]) = [] := by
        have empty : (pieces (before ++ [last])).map (·.getD replacement) = [] := by
          simpa [decodeLossy] using congrArg String.toList silent
        exact List.map_eq_nil_iff.mp empty
      simp only [pieces, List.foldl_append, List.foldl_cons,
        List.foldl_nil, Reader.close] at shown
      split at shown
      · rename_i settled
        exact absurd settled (started.resolve_left fun unread => unread (by simpa using shown))
      · simp at shown
  · rintro rfl
    rfl

end Utf8

namespace WaitStatus

/-- What a status tells is a code, or else a signal, or else nothing. -/
theorem ofStatus_eq (status : WaitStatus) : ExitReason.ofStatus status =
    match status.code?, status.signal? with
    | some code, _ => .code code
    | none, some signal => .signal signal
    | none, none => .unknown := by
  unfold ExitReason.ofStatus code? signal?
  by_cases returned : status % 0x80 = 0
  · simp [returned]
  · by_cases stopped : status % 0x80 = 0x7F
    · simp [stopped]
    · simp [returned, stopped]

/-- What a status tells stands in its low seven bits, and the code of a process that returned in the
eight bits above the lowest eight. -/
theorem ofStatus_eq_bits (status : WaitStatus) : ExitReason.ofStatus status =
    if status % 0x80 = 0 then .code (status / 0x100 % 0x100)
    else if status % 0x80 = 0x7F then .unknown
    else .signal (status % 0x80) := rfl

/-- A process died from an interrupt exactly if that is what its status tells. -/
theorem isInterrupt_iff {status : WaitStatus} :
    status.isInterrupt ↔ ExitReason.ofStatus status = .signal ExitReason.interrupt := by
  rw [ofStatus_eq]
  unfold isInterrupt code? signal?
  by_cases returned : status % 0x80 = 0
  · simp [returned]
  · by_cases stopped : status % 0x80 = 0x7F
    · simp [stopped]
    · simp [returned, stopped]

/-- The low seven bits of the status of a process that died from an interrupt hold that signal. -/
theorem isInterrupt_iff_mod {status : WaitStatus} : status.isInterrupt ↔ status % 0x80 = 2 := by
  unfold isInterrupt signal? ExitReason.interrupt
  by_cases apart : status % 0x80 = 0 ∨ status % 0x80 = 0x7F
  · rw [if_pos apart]
    constructor
    · intro none
      cases none
    · intro two
      rw [two] at apart
      simp at apart
  · rw [if_neg apart]
    simp

end WaitStatus

namespace CheckerResult

/-- Only the head of the errors counts. -/
theorem ofExit_take (exit : ExitReason) (stdout stderr : Bytes) (wording : Wording) :
    ofExit exit stdout (stderr.take stderrLimit) wording = ofExit exit stdout stderr wording := by
  simp only [ofExit, List.take_take, Nat.min_self]

/-- Whatever a process printed, it was not left out. -/
theorem ofExit_ne_skipped (exit : ExitReason) (stdout stderr : Bytes) (wording : Wording)
    (reason : SkipReason) : ofExit exit stdout stderr wording ≠ .ok (.skipped reason) := by
  simp only [ofExit]
  split
  · simp
  · split
    · simp
    · split <;> simp

/-- A process that ends by itself was not canceled. -/
theorem ofExit_ne_canceled (exit : ExitReason) (stdout stderr : Bytes) (wording : Wording) :
    ofExit exit stdout stderr wording ≠ .error .canceled := by
  simp only [ofExit]
  split
  · simp
  · split
    · simp
    · split <;> simp

/-- What a process comes to that ended with a status and printed these bytes. -/
def verdict (wording : Wording) (status : WaitStatus) (out err : Bytes) : CheckerResult :=
  -- Complaints count more than an answer and a good ending.
  if err ≠ [] then
    .error (.toolFailure (.ofStatus status) (Utf8.decodeLossy (err.take stderrLimit)))
  else if out = [] then .ok .empty
  else match Json.parse? (Utf8.decodeLossy out) with
    | some value => .ok (.json value)
    | none => .error (.malformedOutput (wording.text (Utf8.decodeLossy out)))

/-- The head of what was printed is enough to tell what a process comes to. -/
theorem ofExit_eq_verdict (wording : Wording) (status : WaitStatus) (out err : Bytes) :
    ofExit (.ofStatus status) out (err.take stderrLimit) wording =
      verdict wording status out err := by
  have complaint : Utf8.decodeLossy (err.take stderrLimit) ≠ "" ↔ err ≠ [] := by
    rw [ne_eq, Utf8.decodeLossy_eq_empty, List.take_eq_nil_iff]
    have some : stderrLimit ≠ 0 := by decide
    simp [some]
  rw [ofExit_take]
  unfold ofExit verdict
  dsimp only
  by_cases complained : err ≠ []
  · rw [if_pos complained, if_pos (complaint.mpr complained)]
  · rw [if_neg complained, if_neg (mt complaint.mp complained)]
    by_cases quiet : out = []
    · rw [if_pos quiet, if_pos (Utf8.decodeLossy_eq_empty.mpr quiet)]
    · have shown : Utf8.decodeLossy out ≠ "" := mt Utf8.decodeLossy_eq_empty.mp quiet
      exact (if_neg shown).trans (if_neg quiet).symm

/-- What a process printed never counts as a cancellation. -/
theorem verdict_ne_canceled (wording : Wording) (status : WaitStatus) (out err : Bytes) :
    verdict wording status out err ≠ .error .canceled := by
  rw [← ofExit_eq_verdict]
  exact ofExit_ne_canceled _ _ _ _

end CheckerResult

/-- A checker that runs comes to what comes of waiting for it, unless it had to be killed. -/
theorem RunningChecker.outcome?_eq_supervised (wording : Wording) {running : RunningChecker}
    {supervision : Supervision} (same : running.conversation = supervision.conversation)
    {status : WaitStatus}
    (ended : supervision.conversation.ended = some (.ofStatus status))
    (stage : supervision.stage =
      .concluded (if running.interrupted then .interrupted status else .exited status)) :
    running.outcome? wording = supervision.outcome? wording := by
  have counted : ∀ result : CheckerResult, result ≠ .error .canceled →
      running.result? wording = some result → running.outcome? wording =
        if supervision.conversation.stdout.readerOpen || supervision.conversation.stderr.readerOpen
        then none else some result := by
    intro result other known
    unfold outcome?
    rw [known, same]
    -- Only a cancellation is told before everything was read.
    split
    · rename_i canceled
      exact absurd (Option.some.inj canceled) other
    · rename_i told
      rw [Option.some.inj told]
    · rename_i none
      cases none
  have known : running.result? wording = some (CheckerResult.ofEnding
      (if running.interrupted then .interrupted (.ofStatus status) else .exited (.ofStatus status))
      supervision.conversation.output supervision.conversation.errors wording) := by
    unfold result?
    rw [same, ended]
    rfl
  have other := CheckerResult.ofExit_ne_canceled (.ofStatus status) supervision.conversation.output
    supervision.conversation.errors wording
  unfold Supervision.outcome?
  rw [stage]
  by_cases interrupted : running.interrupted
  · simp only [interrupted, if_true, CheckerResult.ofEnding] at known ⊢
    by_cases died : status.isInterrupt
    · rw [if_pos (WaitStatus.isInterrupt_iff.mp died)] at known
      simp [outcome?, known, Waited.status?, died]
    · rw [if_neg (mt WaitStatus.isInterrupt_iff.mpr died)] at known
      simp only [Waited.status?, died]
      exact counted _ other known
  · simp only [interrupted] at known ⊢
    exact counted _ other known

end FlowService
