import FlowService.Proofs.Process.Delivery
import FlowService.Proofs.Process.Rest

/-!
A process that waits for one of its pipes is always helped on by the pump at the other end, so talking
to it cannot get stuck, and when it is over the pumps have what it wrote.
-/

namespace FlowService.Conversation

variable {capacity : Nat} {isOpen : String → Bool} {program : Program} {payload : Bytes}
variable {conversation next : Conversation}

/-- A conversation that comes about by moves alone, while gates may open and close as they like. -/
inductive Reached (capacity : Nat) (program : Program) (payload : Bytes) : Conversation → Prop
  | start : Reached capacity program payload (.start program payload)
  | move {isOpen : String → Bool} {move : Move} {conversation next : Conversation}
    (reached : Reached capacity program payload conversation)
    (stepped : conversation.step? capacity isOpen move = some next) :
    Reached capacity program payload next

/-- The process waits for one of its pipes, and not for a gate. -/
def Blocked (capacity : Nat) (isOpen : String → Bool) (conversation : Conversation) : Prop :=
  conversation.ended = none ∧ conversation.childStep? capacity isOpen = none ∧
    ∀ gate later, conversation.program.instructions ≠ .pause gate :: later

/-- No output holds more than fits into a pipe. -/
def Fits (capacity : Nat) (conversation : Conversation) : Prop :=
  ∀ channel, (conversation.pipe channel).buffer.length ≤ capacity

/-- The pump at the other end of an output. -/
def pumpOf : Channel → Move
  | .out => .drainOutput
  | .err => .drainErrors

/-- What is written fits into the pipe. -/
theorem write?_fits {pipe after : Pipe} {bytes rest : Bytes}
    (fits : pipe.buffer.length ≤ capacity)
    (written : pipe.write? capacity bytes = some (rest, after)) :
    after.buffer.length ≤ capacity := by
  unfold Pipe.write? at written
  dsimp only at written
  split at written
  · cases written
  · cases written
    simp only [List.length_append, List.length_take]
    omega

/-- The pipes of a conversation that has just begun are empty. -/
theorem fits_start (capacity : Nat) (program : Program) (payload : Bytes) :
    (start program payload).Fits capacity := by
  intro channel
  cases channel <;> exact Nat.zero_le _

/-- No move puts more into an output than fits. -/
theorem Fits.step (fits : conversation.Fits capacity) {move : Move}
    (step : Step capacity isOpen conversation move next) : next.Fits capacity := by
  intro channel
  have before := fits channel
  -- Only a write puts something into an output; a pump takes out or stops.
  cases step with
  | @write written bytes rest later pipe alive first useful reads into =>
    rw [pipe_continueWith, pipe_setPipe]
    split
    · exact write?_fits (fits written) into
    · exact before
  | exit | lose | hear | hearEnd | hearOn | pass | hangUp | feed =>
    cases channel <;> exact before
  | stopOutput | stopErrors | drainOutput | drainErrors =>
    cases channel <;>
      simp only [Conversation.pipe, Pipe.closeReader, Pipe.read, List.length_nil,
        List.length_drop] at before ⊢ <;> omega

/-- No move makes up a pause. -/
theorem Step.mem_of_pause {move : Move} (step : Step capacity isOpen conversation move next)
    {gate : String} (waits : .pause gate ∈ next.program.instructions) :
    .pause gate ∈ conversation.program.instructions := by
  cases step with
  | lose alive first | hear alive first | hearEnd alive first | pass alive first =>
    rw [first]
    exact List.mem_cons_of_mem _ waits
  | write alive first =>
    rw [first]
    exact List.mem_cons_of_mem _ ((List.mem_cons.mp waits).resolve_left (by simp))
  | hearOn alive first =>
    rw [first]
    exact waits
  | _ => exact waits

/-- A process pauses only where its program says so. -/
theorem Reached.mem_of_pause (reached : Reached capacity program payload conversation)
    {gate : String} (waits : .pause gate ∈ conversation.program.instructions) :
    .pause gate ∈ program.instructions := by
  induction reached with
  | start => exact waits
  | move reached stepped ih => exact ih ((step_of_step? stepped).mem_of_pause waits)

/-- A conversation that is reached delivers what its process writes, through pipes that hold it. -/
theorem Reached.delivers (reached : Reached capacity program payload conversation) :
    Delivers program conversation ∧ conversation.Fits capacity := by
  induction reached with
  | start => exact ⟨.start program payload, fits_start capacity program payload⟩
  | move reached stepped ih =>
    have step := step_of_step? stepped
    exact ⟨ih.1.step step, ih.2.step step⟩

/-- A process waits for one of its pipes when it would write to a full one that is read, or read from
an empty one that is written to. -/
theorem Blocked.cause (blocked : conversation.Blocked capacity isOpen) :
    (∃ channel bytes later, conversation.program.instructions = .write channel bytes :: later ∧
      (conversation.pipe channel).readerOpen ∧
        capacity ≤ (conversation.pipe channel).buffer.length) ∨
    (conversation.stdin.buffer = [] ∧ conversation.stdin.writerOpen ∧
      ((∃ count later, conversation.program.instructions = .read count :: later) ∨
        ∃ later, conversation.program.instructions = .readAll :: later)) := by
  obtain ⟨alive, stuck, noPause⟩ := blocked
  -- The instruction in front of the process tells what it waits for.
  cases first : conversation.program.instructions with
  | nil => simp [childStep?, alive, first] at stuck
  | cons entry later =>
    cases entry with
    | write channel bytes =>
      refine Or.inl ⟨channel, bytes, later, rfl, ?_⟩
      simp only [childStep?, alive, first, Option.isSome_none, Bool.false_eq_true, if_false] at stuck
      split at stuck
      · cases stuck
      · rename_i useful
        simp only [Bool.or_eq_true, not_or, Bool.not_eq_true', Bool.not_eq_false] at useful
        refine ⟨useful.2, ?_⟩
        simp only [Pipe.write?, Option.map_eq_none_iff] at stuck
        split at stuck
        · omega
        · cases stuck
    | read count =>
      simp only [childStep?, alive, first, Option.isSome_none, Bool.false_eq_true, if_false,
        ite_eq_left_iff, Bool.and_eq_true, List.isEmpty_iff, reduceCtorEq, imp_false,
        Decidable.not_not] at stuck
      exact Or.inr ⟨stuck.1.1, stuck.1.2, Or.inl ⟨count, later, rfl⟩⟩
    | readAll =>
      simp only [childStep?, alive, first, Option.isSome_none, Bool.false_eq_true, if_false,
        Pipe.atEnd] at stuck
      -- Only a pipe that is empty and not at its end is waited for.
      cases empty : conversation.stdin.buffer with
      | nil =>
        cases writes : conversation.stdin.writerOpen with
        | false => simp [empty, writes] at stuck
        | true => exact Or.inr ⟨rfl, rfl, Or.inr ⟨later, rfl⟩⟩
      | cons byte bytes => simp [empty] at stuck
    | pause gate => exact absurd first (noPause gate later)

/-- A process can write to a pipe that nobody reads, or in which there is room. -/
theorem childStep?_write (alive : conversation.ended = none) {channel : Channel} {bytes : Bytes}
    {later : List Instruction}
    (first : conversation.program.instructions = .write channel bytes :: later)
    (free : (conversation.pipe channel).readerOpen = false ∨
      (conversation.pipe channel).buffer.length < capacity) :
    (conversation.childStep? capacity isOpen).isSome := by
  simp only [childStep?, alive, first, Option.isSome_none, Bool.false_eq_true, if_false]
  split
  · rfl
  · rename_i useful
    have reads : (conversation.pipe channel).readerOpen = true := by
      simp only [Bool.or_eq_true, not_or, Bool.not_eq_true', Bool.not_eq_false] at useful
      exact useful.2
    have fewer := free.resolve_left (by simp [reads])
    have some : capacity - (conversation.pipe channel).buffer.length ≠ 0 := by omega
    simp [Pipe.write?, some]

/-- A process can read from a pipe in which there is something, or to which nobody writes. -/
theorem childStep?_hear (alive : conversation.ended = none) {later : List Instruction}
    (first : (∃ count, conversation.program.instructions = .read count :: later) ∨
      conversation.program.instructions = .readAll :: later)
    (there : conversation.stdin.buffer ≠ [] ∨ conversation.stdin.writerOpen = false) :
    (conversation.childStep? capacity isOpen).isSome := by
  rcases first with ⟨count, first⟩ | first
  · simp only [childStep?, alive, first, Option.isSome_none, Bool.false_eq_true, if_false]
    rcases there with there | closed
    · simp [there]
    · simp [closed]
  · simp only [childStep?, alive, first, Option.isSome_none, Bool.false_eq_true, if_false,
      Pipe.atEnd]
    by_cases empty : conversation.stdin.buffer = []
    · simp [empty, there.resolve_left (absurd empty)]
    · simp [empty]

/-- The pump of an output that is full makes room, or stops to read it. -/
theorem makes_room (room : 0 < capacity) (alive : conversation.ended = none)
    (bounded : conversation.errors.length ≤ CheckerResult.stderrLimit)
    (fits : conversation.Fits capacity) {channel : Channel} {bytes : Bytes}
    {later : List Instruction}
    (first : conversation.program.instructions = .write channel bytes :: later)
    (reads : (conversation.pipe channel).readerOpen)
    (full : capacity ≤ (conversation.pipe channel).buffer.length) :
    ∃ next, conversation.step? capacity isOpen (pumpOf channel) = some next ∧
      next.program = conversation.program ∧ (next.childStep? capacity isOpen).isSome := by
  have held := fits channel
  have there : (conversation.pipe channel).buffer ≠ [] :=
    List.length_pos_iff.mp (by omega)
  -- The pump of the output takes all there is, that of the errors only what is still wanted.
  cases channel with
  | out =>
    simp only [Conversation.pipe] at reads there
    refine ⟨{ conversation with
        output := conversation.output ++
          (conversation.stdout.read conversation.stdout.buffer.length).1
        stdout := (conversation.stdout.read conversation.stdout.buffer.length).2 }, ?_, rfl,
      childStep?_write alive first (Or.inr ?_)⟩
    · simp [pumpOf, step?, drainOutputStep?, reads, there, Pipe.atEnd]
    · simpa [Conversation.pipe, Pipe.read] using room
  | err =>
    simp only [Conversation.pipe] at reads there full held
    by_cases sated : CheckerResult.stderrLimit - conversation.errors.length = 0
    · -- Whoever has its fill stops, and then nothing is in the way of a write.
      refine ⟨{ conversation with stderr := conversation.stderr.closeReader }, ?_, rfl,
        childStep?_write alive first (Or.inl rfl)⟩
      simp [pumpOf, step?, drainErrorsStep?, reads, sated]
    · refine ⟨{ conversation with
          errors := conversation.errors ++ (conversation.stderr.read
            (CheckerResult.stderrLimit - conversation.errors.length)).1
          stderr := (conversation.stderr.read
            (CheckerResult.stderrLimit - conversation.errors.length)).2 }, ?_, rfl,
        childStep?_write alive first (Or.inr ?_)⟩
      · simp [pumpOf, step?, drainErrorsStep?, reads, sated, there, Pipe.atEnd]
      · simp only [Conversation.pipe, Pipe.read, List.length_drop]
        omega

/-- The pump of the input gives a process that waits for it something to read, or the end. -/
theorem brings_input (room : 0 < capacity) (alive : conversation.ended = none)
    (reads : conversation.stdin.readerOpen) {later : List Instruction}
    (first : (∃ count, conversation.program.instructions = .read count :: later) ∨
      conversation.program.instructions = .readAll :: later)
    (empty : conversation.stdin.buffer = []) (writes : conversation.stdin.writerOpen) :
    ∃ next, conversation.step? capacity isOpen .feed = some next ∧
      next.program = conversation.program ∧ (next.childStep? capacity isOpen).isSome := by
  -- With nothing left to feed, the pump closes the pipe, and its end can be read.
  cases left : conversation.payload with
  | nil =>
    refine ⟨{ conversation with payload := [], stdin := conversation.stdin.closeWriter }, ?_, rfl,
      childStep?_hear alive first (Or.inr rfl)⟩
    simp [step?, feedStep?, writes, left]
  | cons byte bytes =>
    refine ⟨{ conversation with
        payload := conversation.payload.drop capacity
        stdin := { conversation.stdin with
          buffer := conversation.stdin.buffer ++ conversation.payload.take capacity } }, ?_, rfl,
      childStep?_hear alive first (Or.inl ?_)⟩
    · have some : capacity ≠ 0 := by omega
      simp [step?, feedStep?, writes, reads, left, Pipe.write?, empty, some]
    · have some : capacity ≠ 0 := by omega
      simp [left, some]

/-- A process that waits for one of its pipes goes on after one move of a pump. -/
theorem Blocked.helped (blocked : conversation.Blocked capacity isOpen) (room : 0 < capacity)
    (delivers : Delivers program conversation) (fits : conversation.Fits capacity) :
    ∃ pump next, pump ≠ .child ∧ conversation.step? capacity isOpen pump = some next ∧
      next.program = conversation.program ∧ (next.childStep? capacity isOpen).isSome := by
  have alive := blocked.1
  have helps : ∀ pump ≠ .child, (∃ next, conversation.step? capacity isOpen pump = some next ∧
      next.program = conversation.program ∧ (next.childStep? capacity isOpen).isSome) →
      ∃ pump next, pump ≠ .child ∧ conversation.step? capacity isOpen pump = some next ∧
        next.program = conversation.program ∧ (next.childStep? capacity isOpen).isSome :=
    fun pump apart ⟨next, helped⟩ => ⟨pump, next, apart, helped⟩
  rcases blocked.cause with ⟨channel, bytes, later, first, reads, full⟩ |
    ⟨empty, writes, first⟩
  · exact helps (pumpOf channel) (by cases channel <;> simp [pumpOf])
      (makes_room room alive delivers.bounded fits first reads full)
  · obtain ⟨later, first⟩ : ∃ later,
        (∃ count, conversation.program.instructions = .read count :: later) ∨
          conversation.program.instructions = .readAll :: later := by
      rcases first with ⟨count, later, first⟩ | ⟨later, first⟩
      · exact ⟨later, Or.inl ⟨count, first⟩⟩
      · exact ⟨later, Or.inr first⟩
    exact helps .feed (by simp)
      (brings_input room alive (delivers.alive alive).1 first empty writes)

/-- At rest a process is over or waits for a gate, for no pump leaves it waiting for a pipe. -/
theorem AtRest.over_or_pauses (rest : AtRest capacity isOpen conversation) (room : 0 < capacity)
    (delivers : Delivers program conversation) (fits : conversation.Fits capacity) :
    conversation.ended ≠ none ∨
      ∃ gate later, conversation.program.instructions = .pause gate :: later ∧
        isOpen gate = false := by
  by_cases alive : conversation.ended = none
  · right
    have stuck := rest .child
    by_cases waits : ∃ gate later, conversation.program.instructions = .pause gate :: later
    · obtain ⟨gate, later, first⟩ := waits
      -- An open gate would let the process pass.
      exact ⟨gate, later, first, by simpa [step?, childStep?, alive, first] using stuck⟩
    · have blocked : conversation.Blocked capacity isOpen :=
        ⟨alive, stuck, fun gate later first => waits ⟨gate, later, first⟩⟩
      obtain ⟨pump, next, _, stepped, _⟩ := blocked.helped room delivers fits
      rw [rest pump] at stepped
      cases stepped
  · exact Or.inl alive

/-- Moves lead from one conversation that is reached to another one. -/
theorem Reached.after? (reached : Reached capacity program payload conversation)
    {moves : List Move} (moved : conversation.after? capacity isOpen moves = some next) :
    Reached capacity program payload next := by
  -- The induction is on the moves, each of which leads to a conversation that is reached.
  induction moves generalizing conversation with
  | nil =>
    cases moved
    exact reached
  | cons move moves ih =>
    obtain ⟨middle, stepped, moved⟩ := Option.bind_eq_some_iff.mp moved
    exact ih (reached.move stepped) moved

/-- Every conversation comes to rest after some moves, since each of them lessens what is left. -/
theorem exists_atRest (capacity : Nat) (isOpen : String → Bool) (conversation : Conversation) :
    ∃ moves next, conversation.after? capacity isOpen moves = some next ∧
      AtRest capacity isOpen next := by
  -- The induction is on what is left to be done, which every move lessens.
  induction left : conversation.effort using Nat.strongRecOn generalizing conversation with
  | ind effort ih =>
    by_cases rest : AtRest capacity isOpen conversation
    · exact ⟨[], conversation, rfl, rest⟩
    · obtain ⟨move, possible⟩ := Classical.not_forall.mp rest
      obtain ⟨middle, stepped⟩ := Option.ne_none_iff_exists'.mp possible
      obtain ⟨moves, next, moved, rest⟩ :=
        ih middle.effort (left ▸ (step_of_step? stepped).effort_lt) middle rfl
      exact ⟨move :: moves, next, Option.bind_eq_some_iff.mpr ⟨middle, stepped, moved⟩, rest⟩

/-- At rest the pumps of a process that is over have all of its output and the head of its errors. -/
theorem AtRest.delivered (rest : AtRest capacity isOpen conversation)
    (delivers : Delivers program conversation) (dead : conversation.ended ≠ none) :
    conversation.ended = some program.exit ∧
      conversation.output = written .out program.instructions ∧
      conversation.errors =
        (written .err program.instructions).take CheckerResult.stderrLimit := by
  obtain ⟨exit, ended⟩ := Option.ne_none_iff_exists'.mp dead
  obtain ⟨output, errors⟩ := rest.readersClosed delivers.hungUp dead
  rw [ended, (delivers.done exit ended).1]
  exact ⟨rfl, delivers.kept .out output, delivers.kept .err errors⟩

/-- Talking to a process cannot get stuck. Whenever the process waits for a pipe, one of the pumps
can make a move after which the process goes on. However the moves come, there are only so many of
them, and when no more are possible the process is over, unless its program waits for a gate that is
closed. Once it is over, whatever pump has stopped has all of its output, or the head of its errors,
and at rest all of them have stopped. -/
theorem pumps_keep_process_going (room : 0 < capacity)
    (reached : Reached capacity program payload conversation) (isOpen : String → Bool) :
    (conversation.Blocked capacity isOpen →
      ∃ pump next, pump ≠ .child ∧ conversation.step? capacity isOpen pump = some next ∧
        next.program = conversation.program ∧ (next.childStep? capacity isOpen).isSome) ∧
    (∃ moves next, conversation.after? capacity isOpen moves = some next ∧
      AtRest capacity isOpen next) ∧
    (∀ moves next, conversation.after? capacity isOpen moves = some next →
      moves.length ≤ conversation.effort ∧
      (AtRest capacity isOpen next →
        (∃ gate, .pause gate ∈ program.instructions ∧ isOpen gate = false) ∨
        next.ended = some program.exit ∧ next.output = written .out program.instructions ∧
          next.errors = (written .err program.instructions).take CheckerResult.stderrLimit)) ∧
    ∀ exit, conversation.ended = some exit → exit = program.exit ∧
      (conversation.stdout.readerOpen = false →
        conversation.output = written .out program.instructions) ∧
      (conversation.stderr.readerOpen = false → conversation.errors =
        (written .err program.instructions).take CheckerResult.stderrLimit) := by
  obtain ⟨delivers, fits⟩ := reached.delivers
  refine ⟨fun blocked => blocked.helped room delivers fits,
    exists_atRest capacity isOpen conversation, fun moves next moved => ?_, fun exit ended => ?_⟩
  · have fewer := effort_add_length_le moved
    refine ⟨by omega, fun rest => ?_⟩
    have later := reached.after? moved
    obtain ⟨delivers, fits⟩ := later.delivers
    rcases rest.over_or_pauses room delivers fits with dead | ⟨gate, others, first, closed⟩
    · exact Or.inr (rest.delivered delivers dead)
    · exact Or.inl ⟨gate, later.mem_of_pause (by simp [first]), closed⟩
  · exact ⟨(delivers.done exit ended).1, delivers.kept .out, delivers.kept .err⟩

/-- A process that has complained before it read anything, with the smallest of pipes. -/
def complaining : Conversation :=
  ⟨⟨[.write .err [98], .readAll, .write .out [99]], .code 0, false⟩, [], Pipe.new, Pipe.new,
    ⟨[97], true, true⟩, [120, 121], [], [], none⟩

/-- A process that fills a pipe before it reads its input still comes to its end, and all that it
said was read. -/
theorem pumps_keep_process_going_complaining :
    Reached 1 ⟨[.write .err [97, 98], .readAll, .write .out [99]], .code 0, false⟩ [120, 121]
      complaining ∧
    complaining.Blocked 1 (fun _ => false) ∧
    (∃ pump next, pump ≠ .child ∧ complaining.step? 1 (fun _ => false) pump = some next ∧
      next.program = complaining.program ∧ (next.childStep? 1 (fun _ => false)).isSome) ∧
    ∃ moves next, complaining.after? 1 (fun _ => false) moves = some next ∧
      next.ended = some (.code 0) ∧ next.output = [99] ∧ next.errors = [97, 98] := by
  have complains : (Conversation.start ⟨[.write .err [97, 98], .readAll, .write .out [99]], .code 0,
      false⟩ [120, 121]).step? 1 (fun _ => false) .child = some complaining := rfl
  have reached : Reached 1 ⟨[.write .err [97, 98], .readAll, .write .out [99]], .code 0, false⟩
      [120, 121] complaining :=
    .move .start complains
  have blocked : complaining.Blocked 1 (fun _ => false) :=
    ⟨rfl, rfl, fun _ _ => by simp [complaining]⟩
  obtain ⟨helped, ⟨moves, next, moved, rest⟩, comes, _⟩ :=
    pumps_keep_process_going (Nat.le_refl 1) reached fun _ => false
  refine ⟨reached, blocked, helped blocked, moves, next, moved, ?_⟩
  exact ((comes moves next moved).2 rest).resolve_left (by simp)

end FlowService.Conversation
