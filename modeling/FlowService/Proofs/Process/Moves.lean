import FlowService.Process.Conversation

/-! What a process and its pumps can do in one move, and what they leave as it is. -/

namespace FlowService

namespace Pipe

/-- What is written is taken from the front of the bytes and put at the end of the pipe. -/
theorem write?_eq_some {capacity : Nat} {pipe after : Pipe} {bytes rest : Bytes}
    (written : pipe.write? capacity bytes = some (rest, after)) :
    ∃ free, 0 < free ∧ rest = bytes.drop free ∧
      after = { pipe with buffer := pipe.buffer ++ bytes.take free } := by
  unfold write? at written
  dsimp only at written
  split at written
  · cases written
  · rename_i room
    cases written
    exact ⟨_, Nat.pos_of_ne_zero room, rfl, rfl⟩

/-- Nothing is lost when something is written. -/
theorem write?_length {capacity : Nat} {pipe after : Pipe} {bytes rest : Bytes}
    (written : pipe.write? capacity bytes = some (rest, after)) :
    rest.length + after.buffer.length = bytes.length + pipe.buffer.length := by
  obtain ⟨free, _, rfl, rfl⟩ := write?_eq_some written
  simp only [List.length_drop, List.length_append, List.length_take]
  omega

/-- Of bytes that are there some are written. -/
theorem write?_lt {capacity : Nat} {pipe after : Pipe} {bytes rest : Bytes}
    (written : pipe.write? capacity bytes = some (rest, after)) (useful : bytes ≠ []) :
    rest.length < bytes.length := by
  obtain ⟨free, room, rfl, _⟩ := write?_eq_some written
  have present : 0 < bytes.length := List.length_pos_iff.mpr useful
  rw [List.length_drop]
  omega

end Pipe

namespace Conversation

/-- What a move makes of a conversation in which it is possible. -/
inductive Step (capacity : Nat) (isOpen : String → Bool) (conversation : Conversation) :
    Move → Conversation → Prop
  | exit (alive : conversation.ended = none) (done : conversation.program.instructions = []) :
    Step capacity isOpen conversation .child (conversation.finish conversation.program.exit)
  -- A write of nothing is over at once, and so is one to a pipe that nobody reads.
  | lose {channel : Channel} {bytes : Bytes} {later : List Instruction}
    (alive : conversation.ended = none)
    (first : conversation.program.instructions = .write channel bytes :: later)
    (vain : bytes = [] ∨ (conversation.pipe channel).readerOpen = false) :
    Step capacity isOpen conversation .child (conversation.continueWith later)
  | write {channel : Channel} {bytes rest : Bytes} {later : List Instruction} {pipe : Pipe}
    (alive : conversation.ended = none)
    (first : conversation.program.instructions = .write channel bytes :: later)
    (useful : bytes ≠ []) (reads : (conversation.pipe channel).readerOpen)
    (written : (conversation.pipe channel).write? capacity bytes = some (rest, pipe)) :
    Step capacity isOpen conversation .child
      ((conversation.setPipe channel pipe).continueWith (.write channel rest :: later))
  | hear {count : Nat} {later : List Instruction} (alive : conversation.ended = none)
    (first : conversation.program.instructions = .read count :: later)
    (there : conversation.stdin.buffer ≠ [] ∨ conversation.stdin.writerOpen = false ∨ count = 0) :
    Step capacity isOpen conversation .child (conversation.hear count later)
  | hearEnd {later : List Instruction} (alive : conversation.ended = none)
    (first : conversation.program.instructions = .readAll :: later)
    (atEnd : conversation.stdin.atEnd) :
    Step capacity isOpen conversation .child (conversation.continueWith later)
  | hearOn {later : List Instruction} (alive : conversation.ended = none)
    (first : conversation.program.instructions = .readAll :: later)
    (there : conversation.stdin.buffer ≠ []) :
    Step capacity isOpen conversation .child
      (conversation.hear conversation.stdin.buffer.length (.readAll :: later))
  | pass {gate : String} {later : List Instruction} (alive : conversation.ended = none)
    (first : conversation.program.instructions = .pause gate :: later) (free : isOpen gate) :
    Step capacity isOpen conversation .child (conversation.continueWith later)
  | hangUp (writes : conversation.stdin.writerOpen)
    (vain : conversation.payload = [] ∨ conversation.stdin.readerOpen = false) :
    Step capacity isOpen conversation .feed
      { conversation with payload := [], stdin := conversation.stdin.closeWriter }
  | feed {rest : Bytes} {pipe : Pipe} (writes : conversation.stdin.writerOpen)
    (useful : conversation.payload ≠ []) (reads : conversation.stdin.readerOpen)
    (written : conversation.stdin.write? capacity conversation.payload = some (rest, pipe)) :
    Step capacity isOpen conversation .feed { conversation with payload := rest, stdin := pipe }
  | stopOutput (reads : conversation.stdout.readerOpen) (atEnd : conversation.stdout.atEnd) :
    Step capacity isOpen conversation .drainOutput
      { conversation with stdout := conversation.stdout.closeReader }
  | drainOutput (reads : conversation.stdout.readerOpen)
    (there : conversation.stdout.buffer ≠ []) :
    Step capacity isOpen conversation .drainOutput { conversation with
      output := conversation.output ++
        (conversation.stdout.read conversation.stdout.buffer.length).1
      stdout := (conversation.stdout.read conversation.stdout.buffer.length).2 }
  | stopErrors (reads : conversation.stderr.readerOpen)
    (enough : conversation.stderr.atEnd ∨
      CheckerResult.stderrLimit - conversation.errors.length = 0) :
    Step capacity isOpen conversation .drainErrors
      { conversation with stderr := conversation.stderr.closeReader }
  | drainErrors (reads : conversation.stderr.readerOpen)
    (wanted : CheckerResult.stderrLimit - conversation.errors.length ≠ 0)
    (there : conversation.stderr.buffer ≠ []) :
    Step capacity isOpen conversation .drainErrors { conversation with
      errors := conversation.errors ++ (conversation.stderr.read
        (CheckerResult.stderrLimit - conversation.errors.length)).1
      stderr := (conversation.stderr.read
        (CheckerResult.stderrLimit - conversation.errors.length)).2 }

variable {capacity : Nat} {isOpen : String → Bool} {conversation next : Conversation}

/-- What the process does is one of the steps that are listed. -/
theorem step_of_childStep? (stepped : conversation.childStep? capacity isOpen = some next) :
    Step capacity isOpen conversation .child next := by
  unfold childStep? at stepped
  split at stepped
  · cases stepped
  rename_i living
  have alive : conversation.ended = none := by simpa using living
  -- Each instruction has its own ways to go on.
  split at stepped
  · rename_i first
    cases stepped
    exact .exit alive first
  · rename_i channel bytes later first
    dsimp only at stepped
    split at stepped
    · rename_i vain
      cases stepped
      exact .lose alive first (by simpa using vain)
    · rename_i useful
      obtain ⟨⟨rest, pipe⟩, written, rfl⟩ := Option.map_eq_some_iff.mp stepped
      simp only [Bool.or_eq_true, List.isEmpty_iff, Bool.not_eq_true', not_or,
        Bool.not_eq_false] at useful
      exact .write alive first useful.1 useful.2 written
  · rename_i count later first
    split at stepped
    · cases stepped
    · rename_i there
      cases stepped
      refine .hear alive first ?_
      simp only [Bool.and_eq_true, List.isEmpty_iff, bne_iff_ne, ne_eq, not_and, Decidable.not_not] at there
      by_cases empty : conversation.stdin.buffer = []
      · by_cases writes : conversation.stdin.writerOpen
        · exact Or.inr (Or.inr (there ⟨empty, writes⟩))
        · exact Or.inr (Or.inl (by simpa using writes))
      · exact Or.inl empty
  · rename_i later first
    split at stepped
    · rename_i atEnd
      cases stepped
      exact .hearEnd alive first atEnd
    · split at stepped
      · cases stepped
      · rename_i there
        cases stepped
        exact .hearOn alive first (by simpa using there)
  · rename_i gate later first
    split at stepped
    · rename_i free
      cases stepped
      exact .pass alive first free
    · cases stepped

/-- A move that is possible is one of the steps that are listed. -/
theorem step_of_step? {move : Move}
    (stepped : conversation.step? capacity isOpen move = some next) :
    Step capacity isOpen conversation move next := by
  -- Each pump first asks whether its own end of the pipe is still open.
  cases move with
  | child => exact step_of_childStep? stepped
  | feed =>
    simp only [step?, feedStep?] at stepped
    split at stepped
    · cases stepped
    rename_i writes
    split at stepped
    · rename_i vain
      cases stepped
      exact .hangUp (by simpa using writes) (by simpa using vain)
    · rename_i useful
      obtain ⟨⟨rest, pipe⟩, written, rfl⟩ := Option.map_eq_some_iff.mp stepped
      simp only [Bool.or_eq_true, List.isEmpty_iff, Bool.not_eq_true', not_or,
        Bool.not_eq_false] at useful
      exact .feed (by simpa using writes) useful.1 useful.2 written
  | drainOutput =>
    simp only [step?, drainOutputStep?] at stepped
    split at stepped
    · cases stepped
    rename_i reads
    split at stepped
    · rename_i atEnd
      cases stepped
      exact .stopOutput (by simpa using reads) atEnd
    · split at stepped
      · cases stepped
      · rename_i there
        cases stepped
        exact .drainOutput (by simpa using reads) (by simpa using there)
  | drainErrors =>
    simp only [step?, drainErrorsStep?] at stepped
    split at stepped
    · cases stepped
    rename_i reads
    split at stepped
    · rename_i enough
      cases stepped
      exact .stopErrors (by simpa using reads) (by simpa using enough)
    · rename_i unsated
      split at stepped
      · cases stepped
      · rename_i there
        cases stepped
        simp only [Bool.or_eq_true, decide_eq_true_eq, not_or] at unsated
        exact .drainErrors (by simpa using reads) unsated.2 (by simpa using there)

@[simp] theorem setPipe_ended (channel : Channel) (pipe : Pipe) :
    (conversation.setPipe channel pipe).ended = conversation.ended := by
  cases channel <;> rfl

/-- No move brings a process back to life. -/
theorem Step.alive {move : Move} (step : Step capacity isOpen conversation move next)
    (alive : next.ended = none) : conversation.ended = none := by
  -- A process that is over does nothing more, and the pumps do nothing to it.
  cases step with
  | exit living | lose living | write living | hear living | hearEnd living | hearOn living
  | pass living => exact living
  | _ => exact alive

/-- The outputs of a process that is over are closed on its side. -/
def IsHungUp (conversation : Conversation) : Prop :=
  conversation.ended ≠ none →
    conversation.stdout.writerOpen = false ∧ conversation.stderr.writerOpen = false

/-- A process hangs up when it ends. -/
theorem isHungUp_finish (conversation : Conversation) (exit : ExitReason) :
    (conversation.finish exit).IsHungUp := fun _ => ⟨rfl, rfl⟩

/-- No move opens an output again. -/
theorem IsHungUp.step (hungUp : conversation.IsHungUp) {move : Move}
    (step : Step capacity isOpen conversation move next) : next.IsHungUp := by
  -- The pumps only close the ends that read, and a process that still writes is not over.
  cases step with
  | exit => exact isHungUp_finish conversation _
  | lose living | hear living | hearEnd living | hearOn living | pass living =>
    exact fun ended => absurd living ended
  | write living => exact fun ended => absurd (by simpa [continueWith] using living) ended
  | hangUp | feed | stopOutput | drainOutput | stopErrors | drainErrors => exact hungUp

/-- An interrupt leaves a process alive as it was, or ends it. -/
theorem IsHungUp.interrupt (hungUp : conversation.IsHungUp) : conversation.interrupt.IsHungUp := by
  unfold Conversation.interrupt
  split
  · exact hungUp
  · rename_i living
    have alive : conversation.ended = none := by simpa using living
    split
    · split
      · exact fun ended => absurd alive ended
      · exact hungUp
    · exact isHungUp_finish conversation _

end Conversation

end FlowService
