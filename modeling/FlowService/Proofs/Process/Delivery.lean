import FlowService.Proofs.Process.Moves

/-!
What a process writes to an output is in the pipe or was read, so once the pump of the output has
stopped it holds all of it, and the pump of the errors holds the head of them.
-/

namespace FlowService

/-- What an instruction writes to an output. -/
def Instruction.writes (channel : Channel) : Instruction → Bytes
  | .write other bytes => if other = channel then bytes else []
  | _ => []

/-- What of all that is written to an output is kept. -/
def Channel.keep : Channel → Bytes → Bytes
  | .out, bytes => bytes
  | .err, bytes => bytes.take CheckerResult.stderrLimit

namespace Conversation

/-- What instructions write to an output, one after the other. -/
def written (channel : Channel) (instructions : List Instruction) : Bytes :=
  instructions.flatMap (Instruction.writes channel)

/-- What was read of an output. -/
def taken (conversation : Conversation) : Channel → Bytes
  | .out => conversation.output
  | .err => conversation.errors

@[simp] theorem written_nil (channel : Channel) : written channel [] = [] := rfl

@[simp] theorem written_cons (channel : Channel) (entry : Instruction)
    (later : List Instruction) :
    written channel (entry :: later) = entry.writes channel ++ written channel later :=
  List.flatMap_cons ..

/-- Only the pipe of one output is replaced. -/
@[simp] theorem pipe_setPipe (conversation : Conversation) (channel other : Channel)
    (pipe : Pipe) : (conversation.setPipe channel pipe).pipe other =
      if channel = other then pipe else conversation.pipe other := by
  cases channel <;> cases other <;> rfl

@[simp] theorem taken_setPipe (conversation : Conversation) (channel other : Channel)
    (pipe : Pipe) : (conversation.setPipe channel pipe).taken other = conversation.taken other := by
  cases channel <;> cases other <;> rfl

@[simp] theorem setPipe_program (conversation : Conversation) (channel : Channel) (pipe : Pipe) :
    (conversation.setPipe channel pipe).program = conversation.program := by
  cases channel <;> rfl

@[simp] theorem setPipe_stdin (conversation : Conversation) (channel : Channel) (pipe : Pipe) :
    (conversation.setPipe channel pipe).stdin = conversation.stdin := by
  cases channel <;> rfl

@[simp] theorem continueWith_instructions (conversation : Conversation)
    (instructions : List Instruction) :
    (conversation.continueWith instructions).program.instructions = instructions := rfl

@[simp] theorem pipe_continueWith (conversation : Conversation) (instructions : List Instruction)
    (channel : Channel) :
    (conversation.continueWith instructions).pipe channel = conversation.pipe channel := by
  cases channel <;> rfl

@[simp] theorem taken_continueWith (conversation : Conversation)
    (instructions : List Instruction) (channel : Channel) :
    (conversation.continueWith instructions).taken channel = conversation.taken channel := by
  cases channel <;> rfl

/-- A conversation with a process that was started with a program and has not been interrupted. -/
structure Delivers (program : Program) (conversation : Conversation) : Prop where
  exit : conversation.program.exit = program.exit
  -- A process only ends when it has nothing left to do.
  done : ∀ exit, conversation.ended = some exit →
    exit = program.exit ∧ conversation.program.instructions = []
  alive : conversation.ended = none →
    conversation.stdin.readerOpen ∧ ∀ channel, (conversation.pipe channel).writerOpen
  hungUp : conversation.IsHungUp
  -- Every byte is read, in the pipe or still to be written.
  carried : ∀ channel, (conversation.pipe channel).readerOpen →
    conversation.taken channel ++ (conversation.pipe channel).buffer ++
      written channel conversation.program.instructions = written channel program.instructions
  kept : ∀ channel, (conversation.pipe channel).readerOpen = false →
    conversation.taken channel = channel.keep (written channel program.instructions)
  bounded : conversation.errors.length ≤ CheckerResult.stderrLimit

namespace Delivers

variable {program : Program} {capacity : Nat} {isOpen : String → Bool}
variable {conversation next : Conversation}

/-- A conversation that has just begun has delivered nothing. -/
theorem start (program : Program) (payload : Bytes) :
    Delivers program (Conversation.start program payload) where
  exit := rfl
  done _ ended := nomatch ended
  alive _ := ⟨rfl, fun channel => by cases channel <;> rfl⟩
  hungUp ended := absurd rfl ended
  carried channel _ := by cases channel <;> rfl
  kept channel closed := by cases channel <;> cases closed
  bounded := Nat.zero_le _

/-- A process that is not over goes on with instructions that write what those before them did. -/
theorem goOn (delivers : Delivers program conversation) (alive : conversation.ended = none)
    {instructions : List Instruction}
    (same : ∀ channel, (conversation.pipe channel).readerOpen →
      written channel instructions = written channel conversation.program.instructions) :
    Delivers program (conversation.continueWith instructions) where
  exit := delivers.exit
  done exit ended := nomatch alive.symm.trans ended
  alive := delivers.alive
  hungUp := delivers.hungUp
  carried channel reads := by
    -- What is in front of the process is all that changes of an output.
    have carried := delivers.carried channel reads
    rw [← same channel reads] at carried
    exact carried
  kept := delivers.kept
  bounded := delivers.bounded

/-- What happens on the input has nothing to do with the outputs. -/
theorem withInput (delivers : Delivers program conversation) (heard payload : Bytes) {stdin : Pipe}
    (reads : stdin.readerOpen = conversation.stdin.readerOpen) :
    Delivers program
      { conversation with heard := heard, payload := payload, stdin := stdin } where
  exit := delivers.exit
  done := delivers.done
  alive alive := ⟨reads.trans (delivers.alive alive).1, (delivers.alive alive).2⟩
  hungUp := delivers.hungUp
  carried := delivers.carried
  kept := delivers.kept
  bounded := delivers.bounded

/-- What a process reads has nothing to do with the outputs. -/
theorem hear (delivers : Delivers program conversation) (alive : conversation.ended = none)
    (count : Nat) {later : List Instruction}
    (same : ∀ channel, written channel later =
      written channel conversation.program.instructions) :
    Delivers program (conversation.hear count later) := by
  have heard : Delivers program { conversation with
      heard := conversation.heard ++ (conversation.stdin.read count).1
      stdin := (conversation.stdin.read count).2 } := delivers.withInput _ _ rfl
  exact heard.goOn alive fun channel _ => same channel

/-- What a process writes goes into the pipe, and the rest of it is still to be written. -/
theorem write (delivers : Delivers program conversation) (alive : conversation.ended = none)
    {channel : Channel} {bytes rest : Bytes} {later : List Instruction} {pipe : Pipe}
    (first : conversation.program.instructions = .write channel bytes :: later)
    (written : (conversation.pipe channel).write? capacity bytes = some (rest, pipe)) :
    Delivers program
      ((conversation.setPipe channel pipe).continueWith (.write channel rest :: later)) := by
  -- The pipe takes what there is room for, and the rest stays in front of the process.
  obtain ⟨free, _, rfl, rfl⟩ := Pipe.write?_eq_some written
  have ends := delivers.alive alive
  have carried := delivers.carried
  rw [first] at carried
  refine ⟨?_, ?_, fun _ => ⟨?_, fun other => ?_⟩, ?_, fun other reads => ?_, fun other closed => ?_,
    ?_⟩
  · simpa [continueWith] using delivers.exit
  · intro exit ended
    simp [continueWith, alive] at ended
  · simpa [continueWith] using ends.1
  · by_cases same : channel = other
    · simpa [same] using ends.2 other
    · simpa [same] using ends.2 other
  · intro ended
    simp [continueWith, alive] at ended
  · -- Of this output the bytes only moved on, and of the other one nothing changed.
    by_cases same : channel = other
    · subst same
      have kept := carried channel (by simpa using reads)
      have whole : bytes.take free ++ (bytes.drop free ++ Conversation.written channel later) =
          bytes ++ Conversation.written channel later := by
        rw [← List.append_assoc, List.take_append_drop]
      simpa [Instruction.writes, whole] using kept
    · have kept := carried other (by simpa [same] using reads)
      simpa [Instruction.writes, same] using kept
  · by_cases same : channel = other
    · subst same
      simpa using delivers.kept channel (by simpa using closed)
    · simpa using delivers.kept other (by simpa [same] using closed)
  · cases channel <;> exact delivers.bounded

/-- A process that has nothing left to do ends and closes its ends of the pipes. -/
theorem finish (delivers : Delivers program conversation)
    (done : conversation.program.instructions = []) :
    Delivers program (conversation.finish conversation.program.exit) where
  exit := delivers.exit
  done exit ended := ⟨(Option.some.inj ended).symm.trans delivers.exit, done⟩
  alive alive := nomatch alive
  hungUp := isHungUp_finish conversation _
  carried channel reads := by
    cases channel with
    | out => exact delivers.carried .out reads
    | err => exact delivers.carried .err reads
  kept channel closed := by
    cases channel with
    | out => exact delivers.kept .out closed
    | err => exact delivers.kept .err closed
  bounded := delivers.bounded

/-- At the end of an output everything that was written to it was read. -/
theorem taken_of_atEnd (delivers : Delivers program conversation) (channel : Channel)
    (reads : (conversation.pipe channel).readerOpen) (atEnd : (conversation.pipe channel).atEnd) :
    conversation.taken channel = written channel program.instructions := by
  simp only [Pipe.atEnd, Bool.and_eq_true, List.isEmpty_iff, Bool.not_eq_true'] at atEnd
  -- Only a process that is over has closed its end.
  have dead : conversation.ended ≠ none := by
    intro alive
    have writes := (delivers.alive alive).2 channel
    rw [atEnd.2] at writes
    cases writes
  obtain ⟨exit, ended⟩ := Option.ne_none_iff_exists'.mp dead
  have carried := delivers.carried channel reads
  rwa [atEnd.1, (delivers.done exit ended).2, written_nil, List.append_nil, List.append_nil]
    at carried

/-- A pump touches nothing but its own pipe and what it has read. -/
theorem pump (delivers : Delivers program conversation) (channel : Channel)
    (program_eq : next.program = conversation.program) (ended : next.ended = conversation.ended)
    (stdin : next.stdin = conversation.stdin)
    (writer : (next.pipe channel).writerOpen = (conversation.pipe channel).writerOpen)
    (others : ∀ other, other ≠ channel →
      next.pipe other = conversation.pipe other ∧ next.taken other = conversation.taken other)
    (moved : (next.pipe channel).readerOpen → (conversation.pipe channel).readerOpen ∧
      next.taken channel ++ (next.pipe channel).buffer =
        conversation.taken channel ++ (conversation.pipe channel).buffer)
    (stopped : (next.pipe channel).readerOpen = false →
      next.taken channel = channel.keep (written channel program.instructions))
    (bounded : next.errors.length ≤ CheckerResult.stderrLimit) : Delivers program next := by
  -- Whoever writes to an output keeps its end as it was.
  have writers : ∀ other, (next.pipe other).writerOpen = (conversation.pipe other).writerOpen := by
    intro other
    by_cases same : other = channel
    · rw [same, writer]
    · rw [(others other same).1]
  refine ⟨?_, ?_, ?_, ?_, fun other reads => ?_, fun other closed => ?_, bounded⟩
  · rw [program_eq]
    exact delivers.exit
  · rw [program_eq, ended]
    exact delivers.done
  · intro alive
    rw [ended] at alive
    refine ⟨stdin ▸ (delivers.alive alive).1, fun other => ?_⟩
    rw [writers other]
    exact (delivers.alive alive).2 other
  · intro dead
    rw [ended] at dead
    exact ⟨(writers .out).trans (delivers.hungUp dead).1,
      (writers .err).trans (delivers.hungUp dead).2⟩
  · rw [program_eq]
    by_cases same : other = channel
    · subst same
      rw [(moved reads).2]
      exact delivers.carried other (moved reads).1
    · rw [(others other same).1] at reads
      rw [(others other same).1, (others other same).2]
      exact delivers.carried other reads
  · by_cases same : other = channel
    · subst same
      exact stopped closed
    · rw [(others other same).1] at closed
      rw [(others other same).2]
      exact delivers.kept other closed

/-- A pump stops when it has read everything, and that of the errors also when it has its fill. -/
theorem keep_of_stop (delivers : Delivers program conversation)
    (reads : conversation.stderr.readerOpen)
    (enough : conversation.stderr.atEnd ∨
      CheckerResult.stderrLimit - conversation.errors.length = 0) :
    conversation.errors = (written .err program.instructions).take CheckerResult.stderrLimit := by
  have bounded := delivers.bounded
  rcases enough with atEnd | full
  · have all : conversation.errors = written .err program.instructions :=
      delivers.taken_of_atEnd .err reads atEnd
    rw [← all]
    exact (List.take_of_length_le bounded).symm
  · -- What was read is as long as the head that is wanted.
    have length : conversation.errors.length = CheckerResult.stderrLimit := by omega
    have carried : conversation.errors ++ conversation.stderr.buffer ++ _ = _ :=
      delivers.carried .err reads
    rw [← carried, List.append_assoc, ← length]
    exact List.take_left.symm

/-- Every move keeps to what the process delivers. -/
theorem step (delivers : Delivers program conversation) {move : Move}
    (step : Step capacity isOpen conversation move next) : Delivers program next := by
  -- The process moves bytes into a pipe, a pump moves them out, and nothing else touches them.
  cases step with
  | exit alive done => exact delivers.finish done
  | @lose channel bytes later alive first vain =>
    refine delivers.goOn alive fun other reads => ?_
    -- A write to a pipe that nobody reads is lost, and nobody counts on it.
    rw [first, written_cons, Instruction.writes]
    split
    · rename_i same
      subst same
      rcases vain with rfl | closed
      · rfl
      · rw [reads] at closed
        cases closed
    · rfl
  | write alive first useful reads written => exact delivers.write alive first written
  | hear alive first there =>
    exact delivers.hear alive _ fun channel => by simp [first, Instruction.writes]
  | hearEnd alive first atEnd =>
    exact delivers.goOn alive fun channel _ => by simp [first, Instruction.writes]
  | hearOn alive first there =>
    exact delivers.hear alive _ fun channel => by rw [first]
  | pass alive first free =>
    exact delivers.goOn alive fun channel _ => by simp [first, Instruction.writes]
  | hangUp writes vain => exact delivers.withInput _ _ rfl
  | feed writes useful reads written =>
    obtain ⟨free, _, rfl, rfl⟩ := Pipe.write?_eq_some written
    exact delivers.withInput _ _ rfl
  | stopOutput reads atEnd =>
    refine delivers.pump .out rfl rfl rfl rfl ?_ (fun reads => absurd reads Bool.false_ne_true)
      (fun _ => ?_) delivers.bounded
    · rintro (_ | _) apart
      · exact absurd rfl apart
      · exact ⟨rfl, rfl⟩
    · exact delivers.taken_of_atEnd .out reads atEnd
  | drainOutput reads there =>
    refine delivers.pump .out rfl rfl rfl rfl ?_ (fun _ => ⟨reads, ?_⟩) (fun closed => ?_)
      delivers.bounded
    · rintro (_ | _) apart
      · exact absurd rfl apart
      · exact ⟨rfl, rfl⟩
    · simp [taken, Conversation.pipe, Pipe.read]
    · exact absurd (closed.symm.trans reads) Bool.false_ne_true
  | stopErrors reads enough =>
    refine delivers.pump .err rfl rfl rfl rfl ?_ (fun reads => absurd reads Bool.false_ne_true)
      (fun _ => ?_) delivers.bounded
    · rintro (_ | _) apart
      · exact ⟨rfl, rfl⟩
      · exact absurd rfl apart
    · exact delivers.keep_of_stop reads enough
  | drainErrors reads wanted there =>
    refine delivers.pump .err rfl rfl rfl rfl ?_ (fun _ => ⟨reads, ?_⟩) (fun closed => ?_) ?_
    · rintro (_ | _) apart
      · exact ⟨rfl, rfl⟩
      · exact absurd rfl apart
    · simp [taken, Conversation.pipe, Pipe.read]
    · exact absurd (closed.symm.trans reads) Bool.false_ne_true
    · -- It asks for no more than is still wanted.
      have bounded := delivers.bounded
      simp only [Pipe.read, List.length_append, List.length_take]
      omega

end Delivers

end Conversation

end FlowService
