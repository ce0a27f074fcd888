import FlowService.Proofs.Process.Moves
import Mathlib.Algebra.GroupWithZero.Nat

/-!
A conversation goes on until no move is possible: each move lessens what is still to be done, and
there is never more to do than rounds that are tried.
-/

namespace FlowService.Conversation

variable {capacity : Nat} {isOpen : String → Bool} {conversation next : Conversation}

/-- What is still to be done for instructions. A byte is counted twice until it is in a pipe. -/
def ahead (instructions : List Instruction) : Nat :=
  (instructions.map fun entry => 2 * bytesOf entry + 1).sum

/-- How many bytes are in the pipes. -/
def inside (conversation : Conversation) : Nat :=
  conversation.stdin.buffer.length + conversation.stdout.buffer.length +
    conversation.stderr.buffer.length

/-- How many ends are still open, with the process for one of them. -/
def openEnds (conversation : Conversation) : Nat :=
  conversation.ended.isNone.toNat + conversation.stdin.writerOpen.toNat +
    conversation.stdout.readerOpen.toNat + conversation.stderr.readerOpen.toNat

/-- What is still to be done before everything is over. -/
def effort (conversation : Conversation) : Nat :=
  2 * conversation.payload.length + ahead conversation.program.instructions +
    conversation.inside + conversation.openEnds

@[simp] theorem ahead_cons (entry : Instruction) (later : List Instruction) :
    ahead (entry :: later) = 2 * bytesOf entry + 1 + ahead later := by
  simp [ahead]

/-- Reading leaves what was not read. -/
theorem length_drop_lt {bytes : Bytes} {count : Nat} (there : bytes ≠ []) (wanted : count ≠ 0) :
    (bytes.drop count).length < bytes.length := by
  have present : 0 < bytes.length := List.length_pos_iff.mpr there
  rw [List.length_drop]
  omega

/-- The bytes of the pipe of an output are some of those in the pipes. -/
theorem inside_setPipe (conversation : Conversation) (channel : Channel) (pipe : Pipe) :
    (conversation.setPipe channel pipe).inside + (conversation.pipe channel).buffer.length =
      conversation.inside + pipe.buffer.length := by
  cases channel <;> simp only [setPipe, Conversation.pipe, inside] <;> omega

/-- What is written leaves the ends of a pipe as they are. -/
theorem openEnds_setPipe {channel : Channel} {bytes rest : Bytes} {pipe : Pipe}
    (written : (conversation.pipe channel).write? capacity bytes = some (rest, pipe)) :
    (conversation.setPipe channel pipe).openEnds = conversation.openEnds := by
  obtain ⟨free, _, _, rfl⟩ := Pipe.write?_eq_some written
  cases channel <;> rfl

/-- Every move lessens what is still to be done. -/
theorem Step.effort_lt {move : Move} (step : Step capacity isOpen conversation move next) :
    next.effort < conversation.effort := by
  cases step with
  | exit alive done =>
    -- The process counts as long as it is not over.
    simp [effort, inside, openEnds, finish, Pipe.closeReader, Pipe.closeWriter, alive]
    omega
  | @lose channel bytes later alive first vain =>
    simp only [effort, continueWith, first, ahead_cons, inside, openEnds]
    omega
  | @write channel bytes rest later pipe alive first useful reads written =>
    -- A byte that is written counts twice before and once after.
    have shorter := Pipe.write?_lt written useful
    have kept := Pipe.write?_length written
    have moved := conversation.inside_setPipe channel pipe
    have ends := openEnds_setPipe written
    have payload : (conversation.setPipe channel pipe).payload = conversation.payload := by
      cases channel <;> rfl
    show 2 * (conversation.setPipe channel pipe).payload.length +
      ahead (.write channel rest :: later) + (conversation.setPipe channel pipe).inside +
        (conversation.setPipe channel pipe).openEnds < _
    rw [payload, ends, ahead_cons]
    simp only [effort, first, ahead_cons, bytesOf]
    omega
  | @hear count later alive first there =>
    have fewer := List.length_drop (i := count) (l := conversation.stdin.buffer)
    simp only [effort, Conversation.hear, Pipe.read, continueWith, first, ahead_cons, inside, openEnds]
    omega
  | hearEnd alive first atEnd =>
    simp only [effort, continueWith, first, ahead_cons, inside, openEnds]
    omega
  | hearOn alive first there =>
    have fewer := length_drop_lt there (by simpa using there : conversation.stdin.buffer.length ≠ 0)
    simp only [effort, Conversation.hear, Pipe.read, continueWith, first, inside, openEnds]
    omega
  | pass alive first free =>
    simp only [effort, continueWith, first, ahead_cons, inside, openEnds]
    omega
  | hangUp writes vain =>
    simp only [effort, inside, openEnds, Pipe.closeWriter, writes, List.length_nil,
      Bool.toNat_true, Bool.toNat_false]
    omega
  | @feed rest pipe writes useful reads written =>
    have shorter := Pipe.write?_lt written useful
    have kept := Pipe.write?_length written
    obtain ⟨free, _, _, rfl⟩ := Pipe.write?_eq_some written
    simp only [effort, inside, openEnds] at kept ⊢
    omega
  | stopOutput reads atEnd =>
    simp only [effort, inside, openEnds, Pipe.closeReader, reads, List.length_nil,
      Bool.toNat_true, Bool.toNat_false]
    omega
  | drainOutput reads there =>
    have fewer := length_drop_lt there
      (by simpa using there : conversation.stdout.buffer.length ≠ 0)
    simp only [effort, inside, openEnds, Pipe.read]
    omega
  | stopErrors reads enough =>
    simp only [effort, inside, openEnds, Pipe.closeReader, reads, List.length_nil,
      Bool.toNat_true, Bool.toNat_false]
    omega
  | drainErrors reads wanted there =>
    have fewer := length_drop_lt there wanted
    simp only [effort, inside, openEnds, Pipe.read]
    omega

/-- The rounds that are tried are enough for all that is to be done. -/
theorem effort_le_roundLimit (conversation : Conversation) :
    conversation.effort ≤ conversation.roundLimit := by
  -- The limit counts instructions and bytes twice wherever they are, and adds more than all ends.
  have counted : ahead conversation.program.instructions ≤ 2 *
      conversation.program.instructions.foldr (fun entry bytes => bytesOf entry + 1 + bytes) 0 := by
    induction conversation.program.instructions with
    | nil => exact Nat.le_refl 0
    | cons entry later ih =>
      rw [ahead_cons, List.foldr_cons]
      omega
  have ends : conversation.openEnds ≤ 4 := by
    have process := Bool.toNat_le conversation.ended.isNone
    have input := Bool.toNat_le conversation.stdin.writerOpen
    have output := Bool.toNat_le conversation.stdout.readerOpen
    have errors := Bool.toNat_le conversation.stderr.readerOpen
    unfold openEnds
    omega
  simp only [effort, inside, roundLimit]
  omega

/-- The conversation after moves one after the other, if all of them are possible in turn. -/
def after? (capacity : Nat) (isOpen : String → Bool) (conversation : Conversation)
    (moves : List Move) : Option Conversation :=
  moves.foldlM (step? capacity isOpen) conversation

/-- No move is possible. -/
def AtRest (capacity : Nat) (isOpen : String → Bool) (conversation : Conversation) : Prop :=
  ∀ move, conversation.step? capacity isOpen move = none

/-- Moves are made one after the other. -/
theorem after?_append (moves more : List Move) :
    conversation.after? capacity isOpen (moves ++ more) =
      (conversation.after? capacity isOpen moves).bind (·.after? capacity isOpen more) := by
  simp only [after?, List.foldlM_append]
  rfl

/-- No conversation makes more moves than there is to be done. -/
theorem effort_add_length_le {moves : List Move}
    (moved : conversation.after? capacity isOpen moves = some next) :
    next.effort + moves.length ≤ conversation.effort := by
  induction moves generalizing conversation with
  | nil =>
    cases moved
    exact Nat.le_refl _
  | cons move moves ih =>
    obtain ⟨middle, stepped, moved⟩ := Option.bind_eq_some_iff.mp moved
    have less := (step_of_step? stepped).effort_lt
    have rest := ih moved
    rw [List.length_cons]
    omega

/-- Of moves that are tried some are made. When it is seen that none was, none was possible. -/
theorem tries (isOpen : String → Bool) (moves : List Move) (state : Conversation × Bool) :
    ∃ made, state.1.after? Pipe.standardCapacity isOpen made =
        some (moves.foldl (tryMove isOpen) state).1 ∧
      ((moves.foldl (tryMove isOpen) state).2 = true → state.2 = true ∨ made ≠ []) ∧
      ((moves.foldl (tryMove isOpen) state).2 = false → state.2 = false ∧ made = [] ∧
        ∀ move ∈ moves, state.1.step? Pipe.standardCapacity isOpen move = none) := by
  induction moves generalizing state with
  | nil => exact ⟨[], rfl, Or.inl, fun nothing => ⟨nothing, rfl, fun _ member => nomatch member⟩⟩
  | cons move moves ih =>
    rw [List.foldl_cons]
    cases stepped : state.1.step? Pipe.standardCapacity isOpen move with
    | none =>
      -- A move that is not possible is left out.
      have same : tryMove isOpen state move = state := by simp [tryMove, stepped]
      obtain ⟨made, moved, seen, unseen⟩ := ih state
      rw [same]
      refine ⟨made, moved, seen, fun nothing => ?_⟩
      obtain ⟨before, unmade, stuck⟩ := unseen nothing
      refine ⟨before, unmade, ?_⟩
      rintro other (_ | ⟨_, later⟩)
      · exact stepped
      · exact stuck other later
    | some middle =>
      have moved : tryMove isOpen state move = (middle, true) := by simp [tryMove, stepped]
      obtain ⟨made, others, seen, unseen⟩ := ih (middle, true)
      rw [moved]
      refine ⟨move :: made, ?_, fun _ => Or.inr (List.cons_ne_nil _ _), fun nothing => ?_⟩
      · exact (congrArg (·.bind (·.after? Pipe.standardCapacity isOpen made)) stepped).trans others
      · -- What was seen once is not forgotten.
        exact nomatch (unseen nothing).1

/-- Every move is among those that are tried in a round. -/
theorem mem_round (move : Move) :
    move ∈ [Move.child, .feed, .drainOutput, .drainErrors] := by
  cases move <;> simp

/-- As many rounds as there is to be done are enough to come to rest. -/
theorem atRest_runFor (isOpen : String → Bool) {rounds : Nat} {conversation : Conversation}
    (enough : conversation.effort ≤ rounds) :
    AtRest Pipe.standardCapacity isOpen (runFor isOpen rounds conversation) ∧
      ∃ moves, conversation.after? Pipe.standardCapacity isOpen moves =
        some (runFor isOpen rounds conversation) := by
  -- A round either makes a move, which leaves less to be done, or finds that none is possible.
  induction rounds generalizing conversation with
  | zero =>
    refine ⟨fun move => ?_, [], rfl⟩
    -- With nothing to be done no move is possible.
    cases stepped : conversation.step? Pipe.standardCapacity isOpen move with
    | none => exact stepped
    | some next => exact absurd (step_of_step? stepped).effort_lt (by omega)
  | succ rounds ih =>
    obtain ⟨made, moved, seen, unseen⟩ :=
      tries isOpen [Move.child, .feed, .drainOutput, .drainErrors] (conversation, false)
    unfold runFor
    split
    · rename_i next round
      rw [round] at moved seen
      have useful : made ≠ [] := (seen rfl).resolve_left Bool.false_ne_true
      have less := effort_add_length_le moved
      have count := List.length_pos_iff.mpr useful
      have fewer : next.effort ≤ rounds := by
        dsimp only at less
        omega
      obtain ⟨rest, moves, others⟩ := ih fewer
      exact ⟨rest, made ++ moves, by rw [after?_append, moved]; exact others⟩
    · rename_i next round
      rw [round] at moved unseen
      obtain ⟨_, rfl, stuck⟩ := unseen rfl
      obtain rfl := Option.some.inj moved
      exact ⟨fun move => stuck move (mem_round move), [], rfl⟩

/-- A conversation that is run comes to rest by moves that are possible. -/
theorem run_atRest (isOpen : String → Bool) (conversation : Conversation) :
    AtRest Pipe.standardCapacity isOpen (conversation.run isOpen) ∧
      ∃ moves, conversation.after? Pipe.standardCapacity isOpen moves =
        some (conversation.run isOpen) :=
  atRest_runFor isOpen conversation.effort_le_roundLimit

/-- Nothing more is read at rest once the process is over. -/
theorem AtRest.readersClosed (rest : AtRest capacity isOpen conversation)
    (hungUp : conversation.IsHungUp) (dead : conversation.ended ≠ none) :
    conversation.stdout.readerOpen = false ∧ conversation.stderr.readerOpen = false := by
  obtain ⟨output, errors⟩ := hungUp dead
  -- A pump that still reads could either take something out or see the end.
  constructor
  · have stuck := rest .drainOutput
    simp only [step?, drainOutputStep?, Pipe.atEnd, output, Bool.not_false, Bool.and_true] at stuck
    split at stuck
    · rename_i closed
      simpa using closed
    · split at stuck <;> cases stuck
  · have stuck := rest .drainErrors
    simp only [step?, drainErrorsStep?, Pipe.atEnd, errors, Bool.not_false, Bool.and_true] at stuck
    split at stuck
    · rename_i closed
      simpa using closed
    · split at stuck
      · cases stuck
      · rename_i unsated
        -- A pump that is not sated has found something to read.
        simp only [Bool.or_eq_true, not_or] at unsated
        rw [if_neg unsated.1] at stuck
        cases stuck

end FlowService.Conversation
