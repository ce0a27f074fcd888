import FlowService.Process.Supervision
import FlowService.Proofs.Process.Rest
import FlowService.Proofs.Process.Delivery

/-!
Whatever a process makes up its mind to do, what it has printed is in its pipes or was read, and a
pump that has stopped has read all of it, or as much as it keeps.
-/

namespace FlowService

/-- A pipe that can be written to takes as much as there is room for. -/
theorem Pipe.write?_takes {capacity : Nat} {pipe after : Pipe} {bytes rest : Bytes}
    (written : pipe.write? capacity bytes = some (rest, after)) :
    after = { pipe with buffer := pipe.buffer ++ bytes.take (capacity - pipe.buffer.length) } := by
  unfold write? at written
  dsimp only at written
  split at written
  · cases written
  · cases written
    rfl

namespace Conversation

variable {capacity : Nat} {isOpen : String → Bool} {conversation next : Conversation}
variable {said : Channel → Bytes}

/-- What a process has printed is accounted for. -/
structure Holds (said : Channel → Bytes) (conversation : Conversation) : Prop where
  alive : conversation.ended = none → ∀ channel, (conversation.pipe channel).writerOpen
  hungUp : conversation.IsHungUp
  -- Every byte that was printed was read or is in the pipe.
  carried : ∀ channel, (conversation.pipe channel).readerOpen →
    conversation.taken channel ++ (conversation.pipe channel).buffer = said channel
  kept : ∀ channel, (conversation.pipe channel).readerOpen = false →
    conversation.taken channel = channel.keep (said channel)
  -- As long as the process can print more, a pump has only stopped because it has its fill.
  sated : ∀ channel, (conversation.pipe channel).readerOpen = false → conversation.ended = none →
    ∀ more, channel.keep (said channel ++ more) = channel.keep (said channel)
  bounded : conversation.errors.length ≤ CheckerResult.stderrLimit

namespace Holds

/-- A process that has just been started has printed nothing. -/
theorem start (program : Program) (payload : Bytes) :
    (Conversation.start program payload).Holds fun _ => [] where
  alive _ channel := by cases channel <;> rfl
  hungUp ended := absurd rfl ended
  carried channel _ := by cases channel <;> rfl
  kept channel closed := by cases channel <;> cases closed
  sated channel closed := by cases channel <;> cases closed
  bounded := Nat.zero_le _

/-- What does not touch the outputs leaves them accounted for. -/
theorem of_same (holds : conversation.Holds said) (ended : next.ended = conversation.ended)
    (pipes : ∀ channel, next.pipe channel = conversation.pipe channel)
    (taken : ∀ channel, next.taken channel = conversation.taken channel) : next.Holds said where
  alive alive channel := by
    rw [ended] at alive
    rw [pipes]
    exact holds.alive alive channel
  hungUp dead := by
    rw [ended] at dead
    have output := pipes .out
    have errors := pipes .err
    simp only [Conversation.pipe] at output errors
    rw [output, errors]
    exact holds.hungUp dead
  carried channel reads := by
    rw [pipes] at reads ⊢
    rw [taken]
    exact holds.carried channel reads
  kept channel closed := by
    rw [pipes] at closed
    rw [taken]
    exact holds.kept channel closed
  sated channel closed alive := by
    rw [pipes] at closed
    rw [ended] at alive
    exact holds.sated channel closed alive
  bounded := by
    have errors := taken .err
    simp only [Conversation.taken] at errors
    rw [errors]
    exact holds.bounded

/-- A process that ends, in whatever way, prints nothing on the occasion. -/
theorem finish (holds : conversation.Holds said) (exit : ExitReason) :
    (conversation.finish exit).Holds said where
  alive alive := nomatch alive
  hungUp := isHungUp_finish conversation exit
  carried channel reads := by
    cases channel with
    | out => exact holds.carried .out reads
    | err => exact holds.carried .err reads
  kept channel closed := by
    cases channel with
    | out => exact holds.kept .out closed
    | err => exact holds.kept .err closed
  sated _ _ alive := nomatch alive
  bounded := holds.bounded

/-- An interrupt prints nothing, whether the process ends of it or not. -/
theorem interrupt (holds : conversation.Holds said) : conversation.interrupt.Holds said := by
  unfold Conversation.interrupt
  split
  · exact holds
  · split
    · split
      · exact holds.of_same rfl (fun channel => by cases channel <;> rfl)
          fun channel => by cases channel <;> rfl
      · exact holds
    · exact holds.finish _

/-- What is printed to an output that nobody reads any more is lost, and was not wanted. -/
theorem lose (holds : conversation.Holds said) (alive : conversation.ended = none)
    {more : Channel → Bytes}
    (vain : ∀ channel, (conversation.pipe channel).readerOpen → more channel = []) :
    conversation.Holds fun channel => said channel ++ more channel where
  alive := holds.alive
  hungUp := holds.hungUp
  carried channel reads := by
    rw [vain channel reads, List.append_nil]
    exact holds.carried channel reads
  kept channel closed := by
    rw [holds.sated channel closed alive]
    exact holds.kept channel closed
  sated channel closed alive later := by
    rw [List.append_assoc, holds.sated channel closed alive, holds.sated channel closed alive]
  bounded := holds.bounded

/-- What a process prints goes into the pipe. -/
theorem print (holds : conversation.Holds said) (alive : conversation.ended = none)
    {channel : Channel} {bytes : Bytes} (reads : (conversation.pipe channel).readerOpen)
    {pipe : Pipe} (printed : pipe = { conversation.pipe channel with
      buffer := (conversation.pipe channel).buffer ++ bytes }) :
    (conversation.setPipe channel pipe).Holds fun other =>
      said other ++ if channel = other then bytes else [] := by
  subst printed
  refine ⟨fun _ other => ?_, fun dead => ?_, fun other open' => ?_, fun other closed => ?_,
    fun other closed _ more => ?_, ?_⟩
  · rw [pipe_setPipe]
    split
    · exact holds.alive alive channel
    · exact holds.alive alive other
  · exact absurd alive (by simpa using dead)
  · rw [pipe_setPipe] at open' ⊢
    rw [taken_setPipe]
    by_cases same : channel = other
    · subst same
      have before := holds.carried channel reads
      simp only [if_true]
      rw [← before, List.append_assoc]
    · rw [if_neg same] at open' ⊢
      rw [if_neg same, List.append_nil]
      exact holds.carried other open'
  · rw [pipe_setPipe] at closed
    by_cases same : channel = other
    · subst same
      simp only [if_true] at closed
      exact absurd (closed.symm.trans reads) Bool.false_ne_true
    · rw [if_neg same] at closed
      rw [taken_setPipe, if_neg same, List.append_nil]
      exact holds.kept other closed
  · rw [pipe_setPipe] at closed
    by_cases same : channel = other
    · subst same
      simp only [if_true] at closed
      exact absurd (closed.symm.trans reads) Bool.false_ne_true
    · rw [if_neg same] at closed
      rw [if_neg same, List.append_nil]
      exact holds.sated other closed alive more
  · cases channel <;> exact holds.bounded

/-- A pump that stops closes its end of a pipe from which nothing more is wanted. -/
theorem stop (holds : conversation.Holds said) (channel : Channel)
    (all : conversation.taken channel = channel.keep (said channel))
    (enough : conversation.ended = none →
      ∀ more, channel.keep (said channel ++ more) = channel.keep (said channel)) :
    (conversation.setPipe channel (conversation.pipe channel).closeReader).Holds said := by
  refine ⟨fun alive other => ?_, fun dead => ?_, fun other reads => ?_, fun other closed => ?_,
    fun other closed alive => ?_, ?_⟩
  · rw [setPipe_ended] at alive
    rw [pipe_setPipe]
    split
    · exact holds.alive alive channel
    · exact holds.alive alive other
  · rw [setPipe_ended] at dead
    cases channel <;> exact holds.hungUp dead
  · -- The pump that stopped does not read, so this is the other one.
    rw [pipe_setPipe] at reads ⊢
    rw [taken_setPipe]
    split at reads
    · cases reads
    · rename_i apart
      rw [if_neg apart]
      exact holds.carried other reads
  · rw [pipe_setPipe] at closed
    rw [taken_setPipe]
    split at closed
    · rename_i same
      exact same ▸ all
    · exact holds.kept other closed
  · rw [pipe_setPipe] at closed
    rw [setPipe_ended] at alive
    split at closed
    · rename_i same
      exact same ▸ enough alive
    · exact holds.sated other closed alive
  · cases channel <;> exact holds.bounded

/-- At the end of an output the process is over and all that it printed was read. -/
theorem of_atEnd (holds : conversation.Holds said) (channel : Channel)
    (reads : (conversation.pipe channel).readerOpen) (atEnd : (conversation.pipe channel).atEnd) :
    conversation.ended ≠ none ∧ conversation.taken channel = said channel := by
  simp only [Pipe.atEnd, Bool.and_eq_true, List.isEmpty_iff, Bool.not_eq_true'] at atEnd
  constructor
  · intro alive
    have writes := holds.alive alive channel
    rw [atEnd.2] at writes
    cases writes
  · have carried := holds.carried channel reads
    rwa [atEnd.1, List.append_nil] at carried

/-- The pump of the output stops at its end. -/
theorem stopOutput (holds : conversation.Holds said) (reads : conversation.stdout.readerOpen)
    (atEnd : conversation.stdout.atEnd) :
    { conversation with stdout := conversation.stdout.closeReader }.Holds said := by
  obtain ⟨dead, all⟩ := holds.of_atEnd .out reads atEnd
  exact holds.stop .out all fun alive => absurd alive dead

/-- The pump of the errors stops at their end, or when it has its fill. -/
theorem stopErrors (holds : conversation.Holds said) (reads : conversation.stderr.readerOpen)
    (enough : conversation.stderr.atEnd ∨
      CheckerResult.stderrLimit - conversation.errors.length = 0) :
    { conversation with stderr := conversation.stderr.closeReader }.Holds said := by
  have bounded := holds.bounded
  have carried : conversation.errors ++ conversation.stderr.buffer = said .err :=
    holds.carried .err reads
  rcases enough with atEnd | full
  · obtain ⟨dead, all⟩ := holds.of_atEnd .err reads atEnd
    refine holds.stop .err ?_ fun alive => absurd alive dead
    rw [all]
    -- No more was read than is kept.
    have short : (said .err).length ≤ CheckerResult.stderrLimit := all ▸ bounded
    exact (List.take_of_length_le short).symm
  · have length : conversation.errors.length = CheckerResult.stderrLimit := by omega
    refine holds.stop .err ?_ fun _ more => ?_
    · show conversation.errors = (said .err).take _
      rw [← carried, ← length, List.take_left]
    · show (said .err ++ more).take _ = (said .err).take _
      rw [← carried, ← length, List.append_assoc, List.take_left, List.take_left]

/-- A pump that takes something out of its pipe has it, and touches nothing else. -/
theorem drain (holds : conversation.Holds said) (channel : Channel)
    (reads : (conversation.pipe channel).readerOpen) (count : Nat)
    (ended : next.ended = conversation.ended)
    (left : next.pipe channel = ((conversation.pipe channel).read count).2)
    (got : next.taken channel =
      conversation.taken channel ++ ((conversation.pipe channel).read count).1)
    (others : ∀ other, other ≠ channel →
      next.pipe other = conversation.pipe other ∧ next.taken other = conversation.taken other)
    (bounded : next.errors.length ≤ CheckerResult.stderrLimit) : next.Holds said := by
  -- Taking something out of a pipe leaves both its ends as they were.
  have ends : ∀ other, (next.pipe other).readerOpen = (conversation.pipe other).readerOpen ∧
      (next.pipe other).writerOpen = (conversation.pipe other).writerOpen := by
    intro other
    by_cases same : other = channel
    · rw [same, left]
      exact ⟨rfl, rfl⟩
    · rw [(others other same).1]
      exact ⟨rfl, rfl⟩
  refine ⟨fun alive other => ?_, fun dead => ?_, fun other stillReads => ?_, fun other closed => ?_,
    fun other closed alive => ?_, bounded⟩
  · rw [ended] at alive
    rw [(ends other).2]
    exact holds.alive alive other
  · rw [ended] at dead
    obtain ⟨output, errors⟩ := holds.hungUp dead
    exact ⟨(ends .out).2.trans output, (ends .err).2.trans errors⟩
  · by_cases same : other = channel
    · subst same
      rw [left, got, Pipe.read, List.append_assoc, List.take_append_drop]
      exact holds.carried other reads
    · rw [(others other same).1] at stillReads ⊢
      rw [(others other same).2]
      exact holds.carried other stillReads
  · -- The pump still reads, so it is the other one that has stopped.
    have apart : other ≠ channel := by
      rintro rfl
      rw [(ends other).1, reads] at closed
      cases closed
    rw [(ends other).1] at closed
    rw [(others other apart).2]
    exact holds.kept other closed
  · rw [(ends other).1] at closed
    rw [ended] at alive
    exact holds.sated other closed alive

/-- The pump of the output takes out all that is in the pipe. -/
theorem drainOutput (holds : conversation.Holds said) (reads : conversation.stdout.readerOpen)
    (count : Nat) :
    { conversation with
      output := conversation.output ++ (conversation.stdout.read count).1
      stdout := (conversation.stdout.read count).2 }.Holds said := by
  refine holds.drain .out reads count rfl rfl rfl (fun other apart => ?_) holds.bounded
  cases other with
  | out => exact absurd rfl apart
  | err => exact ⟨rfl, rfl⟩

/-- The pump of the errors takes out no more than it still wants. -/
theorem drainErrors (holds : conversation.Holds said) (reads : conversation.stderr.readerOpen) :
    { conversation with
      errors := conversation.errors ++ (conversation.stderr.read
        (CheckerResult.stderrLimit - conversation.errors.length)).1
      stderr := (conversation.stderr.read
        (CheckerResult.stderrLimit - conversation.errors.length)).2 }.Holds said := by
  refine holds.drain .err reads _ rfl rfl rfl (fun other apart => ?_) ?_
  · cases other with
    | out => exact ⟨rfl, rfl⟩
    | err => exact absurd rfl apart
  · have bounded := holds.bounded
    simp only [Pipe.read, List.length_append, List.length_take]
    omega

/-- Every move adds to what was printed what the process prints in it, and keeps it accounted
for. -/
theorem step (holds : conversation.Holds said) {move : Move}
    (step : Step capacity isOpen conversation move next) :
    next.Holds fun channel => said channel ++ conversation.printed capacity channel move := by
  have silent : (∀ channel, conversation.printed capacity channel move = []) → next.Holds said →
      next.Holds fun channel => said channel ++ conversation.printed capacity channel move := by
    intro nothing after
    simpa only [nothing, List.append_nil] using after
  -- Only a write prints something; the other steps leave what was printed where it is or move it
  -- out of a pipe.
  cases step with
  | exit alive done =>
    exact silent (fun channel => by simp [printed, printing, done]) (holds.finish _)
  | @lose channel bytes later alive first vain =>
    have lost : ∀ other, (conversation.pipe other).readerOpen →
        conversation.printed capacity other .child = [] := by
      intro other reads
      simp only [printed, printing, first]
      split
      · rfl
      · rename_i same
        obtain rfl : channel = other := by simpa using same
        rcases vain with rfl | closed
        · simp
        · exact absurd (closed.symm.trans reads) Bool.false_ne_true
    refine (holds.lose alive lost).of_same rfl (fun other => ?_) fun other => ?_
    · exact pipe_continueWith ..
    · exact taken_continueWith ..
  | @write channel bytes rest later pipe alive first useful reads written =>
    have printed : ∀ other, conversation.printed capacity other .child =
        if channel = other then
          bytes.take (capacity - (conversation.pipe channel).buffer.length) else [] := by
      intro other
      by_cases same : channel = other
      · subst same
        simp [Conversation.printed, printing, first, reads]
      · simp [Conversation.printed, printing, first, same]
    have after := holds.print alive reads (Pipe.write?_takes written)
    simp only [printed]
    refine after.of_same rfl (fun other => ?_) fun other => ?_
    · exact pipe_continueWith ..
    · exact taken_continueWith ..
  | hear alive first there | hearOn alive first there =>
    refine silent (fun channel => by simp [printed, printing, first]) (holds.of_same rfl ?_ ?_)
    · exact fun channel => by cases channel <;> rfl
    · exact fun channel => by cases channel <;> rfl
  | hearEnd alive first | pass alive first =>
    refine silent (fun channel => by simp [printed, printing, first]) (holds.of_same rfl ?_ ?_)
    · exact fun channel => pipe_continueWith ..
    · exact fun channel => taken_continueWith ..
  | hangUp | feed =>
    refine silent (fun _ => rfl) (holds.of_same rfl ?_ ?_)
    · exact fun channel => by cases channel <;> rfl
    · exact fun channel => by cases channel <;> rfl
  | stopOutput reads atEnd => exact silent (fun _ => rfl) (holds.stopOutput reads atEnd)
  | drainOutput reads there => exact silent (fun _ => rfl) (holds.drainOutput reads _)
  | stopErrors reads enough => exact silent (fun _ => rfl) (holds.stopErrors reads enough)
  | drainErrors reads wanted there => exact silent (fun _ => rfl) (holds.drainErrors reads)

end Holds

end Conversation

end FlowService
