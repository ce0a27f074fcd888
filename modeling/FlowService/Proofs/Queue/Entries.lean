import FlowService.Proofs.Queue.Polls
import FlowService.Proofs.Queue.Callers

/-! The table of entries and the queue of a gate agree at any time. -/

namespace FlowService

namespace Course

variable {α : Type} {ends : List (BodyEnd α)} {bodyResult : Option (Except CheckerError α)}
variable {stage : Stage α}

/-- Before its body runs, a poll has seen no end of it. -/
theorem idle (course : Course ends bodyResult stage) (unfinished : ¬stage.Over)
    (still : stage ≠ .running) : ends = [] ∧ bodyResult = none := by
  -- Only a running body can have an end of which its task does not know.
  cases course with
  | «open» => exact ⟨rfl, rfl⟩
  | leaving result => exact absurd rfl still
  | closed gives => simp [Stage.result?_eq_none.mpr unfinished] at gives

/-- A task whose body is over gives what the one end of the body brought. -/
theorem done (course : Course ends bodyResult stage) (passed : stage.Over) :
    ∃ bodyEnd, ends = [bodyEnd] ∧ bodyResult = bodyEnd.returned? ∧
      stage.result? = some bodyEnd.result := by
  -- In the other two courses the task has not come so far.
  cases course with
  | «open» unfinished => exact absurd passed unfinished
  | leaving result => simp at passed
  | closed gives => exact ⟨_, rfl, rfl, gives⟩

/-- A body has no end as long as nothing is noted of it, unless it died. -/
theorem unended (course : Course ends bodyResult stage) (unfinished : ¬stage.Over)
    (unknown : bodyResult = none) : ends = [] := by
  cases course with
  | «open» => rfl
  | leaving result => cases unknown
  | closed gives => simp [Stage.result?_eq_none.mpr unfinished] at gives

/-- A body whose result is noted returned it. -/
theorem left (course : Course ends bodyResult stage) (unfinished : ¬stage.Over)
    {result : Except CheckerError α} (noted : bodyResult = some result) :
    ends = [.returned result] := by
  cases course with
  | «open» => cases noted
  | leaving result => cases noted; rfl
  | closed gives => simp [Stage.result?_eq_none.mpr unfinished] at gives

/-- The end of its body takes a task as far as that end says. -/
theorem of_end (bodyEnd : BodyEnd α) : Course [bodyEnd] bodyEnd.returned? bodyEnd.stage :=
  .closed (Stage.result?_bodyEnd bodyEnd)

/-- A task that goes on after its body was over still gives the same. -/
theorem goOn (course : Course ends bodyResult stage) {later : Stage α} (passed : stage.Over)
    (same : later.result? = stage.result?) : Course ends bodyResult later := by
  obtain ⟨bodyEnd, rfl, rfl, gives⟩ := course.done passed
  exact .closed (same.trans gives)

end Course

namespace StatusGate

variable {κ α : Type}

/-- The task that an action is about, unless it is a poll. -/
def Action.task? : Action κ α → Option Nat
  | .poll _ => none
  | .wake task | .start task | .finish task _ | .leave task | .clear task | .settle task =>
    some task

/-- An action ends no body but that of its own task. -/
theorem Action.endOf?_of_ne {action : Action κ α} {task other : Nat}
    (about : action.task? = some task) (apart : other ≠ task) : action.endOf? other = none := by
  -- Only the end of a body is one, and it names its task.
  cases action <;> simp [endOf?]
  exact fun same => apart (same.symm.trans (Option.some.inj about))

/-- What is seen of an action is about its task. -/
theorem Action.event_ticket {action : Action κ α} {task : Nat} (about : action.task? = some task) :
    ∀ event ∈ action.event?.toList, event.ticket = task := by
  -- Of most actions nothing is seen at all.
  cases action <;> simp [event?, QueueEvent.ticket]
  all_goals exact Option.some.inj about

/-- The poll that is found by a task belongs to it. -/
theorem mem_of_run? {gate : StatusGate κ α} {task : Nat} {run : PollRun κ α}
    (found : gate.run? task = some run) : run ∈ gate.runs ∧ run.task = task := by
  have member := List.mem_of_find?_eq_some found
  have named := List.find?_some found
  exact ⟨member, by simpa using named⟩

/-- Whether the body of the poll of a task ended. -/
def hasEnded (actions : List (Action κ α)) (task : Nat) : Bool := !(ends task actions).isEmpty

variable [DecidableEq κ]

/-- A poll that may still be joined. -/
def Outstanding (gate : StatusGate κ α) (run : PollRun κ α) : Prop :=
  ∃ task, gate.queue.task? run.task = some task ∧ run.Out task.stage

/-- What holds of a gate at any time, given the actions that led to it. -/
structure Sound (actions : List (Action κ α)) (gate : StatusGate κ α) : Prop where
  orderly : gate.queue.Orderly
  -- A body that returned shows its end while its task still counts as running.
  tells : ProjectQueue.Tells (events actions) (hasEnded actions) gate.queue
  -- Each task of the queue is that of one poll.
  lined : gate.runs.map (fun run => (run.task, run.root)) =
    gate.queue.tasks.map fun task => (task.ticket, task.root)
  distinct : (gate.runs.map (·.ticket)).Nodup
  bounded : ∀ run ∈ gate.runs, run.ticket < gate.nextTicket
  courses : ∀ run ∈ gate.runs, ∃ task, gate.queue.task? run.task = some task ∧
    Course (ends run.task actions) run.bodyResult task.stage
  -- The entries are those of the polls that may still be joined.
  entries : ∀ root entry, gate.outstanding? root = some entry ↔
    ∃ run ∈ gate.runs, run.root = root ∧ entry = ⟨run.ticket, run.task⟩ ∧ gate.Outstanding run

/-- A gate without polls is sound. -/
theorem sound_empty : Sound [] (empty : StatusGate κ α) where
  -- Nothing happened, so there is neither a poll nor an entry.
  orderly := ProjectQueue.orderly_empty
  tells := ⟨by simp [events], fun _ => rfl⟩
  lined := rfl
  distinct := List.nodup_nil
  bounded := by simp [empty]
  courses := by simp [empty]
  entries := by simp [empty, outstanding?]

namespace Sound

variable {actions : List (Action κ α)} {gate : StatusGate κ α}

/-- The polls have their tasks in the order in which they were started. -/
theorem tasks (sound : Sound actions gate) :
    gate.runs.map (·.task) = gate.queue.tasks.map (·.ticket) := by
  simpa [Function.comp_def] using congrArg (List.map Prod.fst) sound.lined

/-- No two polls share a task. -/
theorem run_unique (sound : Sound actions gate) {one other : PollRun κ α}
    (oneMember : one ∈ gate.runs) (otherMember : other ∈ gate.runs)
    (same : one.task = other.task) : one = other := by
  -- The tasks of the polls are those of the queue, all with tickets of their own.
  have distinct : (gate.runs.map (·.task)).Nodup :=
    sound.tasks ▸ (List.nodup_append.mp sound.orderly.unique).1
  exact List.inj_on_of_nodup_map distinct oneMember otherMember same

/-- A poll and the task that is found for it are on one course. -/
theorem course (sound : Sound actions gate) {run : PollRun κ α} {task : QueueTask κ α}
    (member : run ∈ gate.runs) (found : gate.queue.task? run.task = some task) :
    Course (ends run.task actions) run.bodyResult task.stage := by
  obtain ⟨own, located, course⟩ := sound.courses run member
  rw [found] at located
  exact Option.some.inj located ▸ course

/-- Each task of the queue leads to its poll. -/
theorem run_of_task (sound : Sound actions gate) {ticket : Nat} {task : QueueTask κ α}
    (found : gate.queue.task? ticket = some task) :
    ∃ run ∈ gate.runs, run.task = ticket ∧
      Course (ends ticket actions) run.bodyResult task.stage := by
  -- The ticket is listed among those of the polls, and it leads back to the task.
  obtain ⟨member, named⟩ := ProjectQueue.mem_of_task? found
  have listed : task.ticket ∈ gate.runs.map (·.task) :=
    sound.tasks ▸ List.mem_map.mpr ⟨task, member, rfl⟩
  obtain ⟨run, runMember, same⟩ := List.mem_map.mp listed
  obtain rfl : run.task = ticket := same.trans named
  exact ⟨run, runMember, rfl, sound.course runMember found⟩

/-- Two polls of one root cannot both be joined. -/
theorem outstanding_unique (sound : Sound actions gate) {one other : PollRun κ α}
    (oneMember : one ∈ gate.runs) (otherMember : other ∈ gate.runs) (same : one.root = other.root)
    (oneOut : gate.Outstanding one) (otherOut : gate.Outstanding other) : one = other := by
  -- The root has one entry, and it names the task of either poll.
  have first := (sound.entries one.root _).mpr ⟨one, oneMember, rfl, rfl, oneOut⟩
  have second := (sound.entries one.root _).mpr ⟨other, otherMember, same.symm, rfl, otherOut⟩
  have entry := Option.some.inj (first.symm.trans second)
  exact sound.run_unique oneMember otherMember (congrArg InFlight.task entry)

/-- A poll whose body has not ended may be joined. -/
theorem outstanding_of_unended (sound : Sound actions gate) {run : PollRun κ α}
    (member : run ∈ gate.runs) (unended : ends run.task actions = []) : gate.Outstanding run := by
  -- Without an end nothing can be noted of the body.
  obtain ⟨task, found, course⟩ := sound.courses run member
  rw [unended] at course
  generalize bodyResult : run.bodyResult = noted at course
  cases course with
  | «open» unfinished => exact ⟨task, found, Or.inl bodyResult⟩

/-- The result of a poll is the one that its body brought, and the body ended only once. -/
theorem end_of_result (sound : Sound actions gate) {task : Nat} {result : Except CheckerError α}
    (known : gate.result? task = some result) :
    ∃ bodyEnd, ends task actions = [bodyEnd] ∧ bodyEnd.result = result := by
  -- A settled task still carries what its body left it with.
  obtain ⟨own, found, settled⟩ := ProjectQueue.result?_eq_some.mp known
  obtain ⟨run, _, _, course⟩ := sound.run_of_task found
  obtain ⟨bodyEnd, ended, _, gives⟩ :=
    course.done (by simp [settled])
  rw [settled] at gives
  exact ⟨bodyEnd, ended, (Option.some.inj gives).symm⟩

/-- What is noted of a poll already may be noted once more. -/
theorem setBodyResult_self (sound : Sound actions gate) {run : PollRun κ α}
    (member : run ∈ gate.runs) :
    gate.runs.map (PollRun.note run.task run.bodyResult) = gate.runs := by
  -- Only the one poll of the task is meant, and that of it is noted already.
  refine (List.map_congr_left fun other otherMember => ?_).trans (List.map_id _)
  by_cases same : other.task = run.task
  · obtain rfl := sound.run_unique otherMember member same
    simp [PollRun.note]
  · exact PollRun.note_of_ne same _

/-- The body of a task that is not in the queue has no end. -/
theorem ends_of_unknown (sound : Sound actions gate) {task : Nat}
    (unknown : task ∉ gate.queue.tasks.map (·.ticket)) : ends task actions = [] := by
  -- An end is seen, and only tasks that are there have been seen.
  by_contra ended
  exact unknown (sound.tells.known _ (ended_mem_events ended))

/-- A gate stays sound when one poll and its task go on. -/
theorem goOn (sound : Sound actions gate) {action : Action κ α} {run : PollRun κ α}
    {task : QueueTask κ α} {stage : Stage α} {bodyResult : Option (Except CheckerError α)}
    {next : StatusGate κ α} (member : run ∈ gate.runs)
    (found : gate.queue.task? run.task = some task) (about : action.task? = some run.task)
    (orderly : next.queue.Orderly)
    (tasks : next.queue.tasks = gate.queue.tasks.map (·.restage run.task stage))
    (runs : next.runs = gate.runs.map (PollRun.note run.task bodyResult))
    (tickets : next.nextTicket = gate.nextTicket)
    (grown : ProjectQueue.shown (hasEnded (actions ++ [action])) (task.restage run.task stage) =
      ProjectQueue.shown (hasEnded actions) task ++ action.event?.toList)
    (unfinished : action.event?.toList = [] ∨ ¬task.stage.Over)
    (course : Course (ends run.task (actions ++ [action])) bodyResult stage)
    (entries : ∀ root entry, next.outstanding? root = some entry ↔
      gate.outstanding? root = some entry ∧
        (entry.task = run.task → bodyResult = none ∨ ¬stage.Over))
    (stays : (bodyResult = none ∨ ¬stage.Over) → run.Out task.stage) :
    Sound (actions ++ [action]) next := by
  -- The bodies of all other polls have the ends that they had, and their tasks stay.
  have others : ∀ other, other ≠ run.task →
      ends other (actions ++ [action]) = ends other actions := by
    intro other apart
    simp [ends_concat, Action.endOf?_of_ne about apart]
  have locate : ∀ ticket, next.queue.task? ticket =
      (gate.queue.task? ticket).map (·.restage run.task stage) := by
    intro ticket
    rw [← ProjectQueue.setStage_task?]
    simp [ProjectQueue.task?, ProjectQueue.setStage, tasks]
  -- So only the poll that goes on can stop being one that may be joined.
  have outstanding : ∀ other ∈ gate.runs, (next.Outstanding (other.note run.task bodyResult) ↔
      gate.Outstanding other ∧ (other.task = run.task → bodyResult = none ∨ ¬stage.Over)) := by
    intro other otherMember
    unfold Outstanding
    rw [PollRun.note_task, locate]
    by_cases same : other.task = run.task
    · obtain rfl := sound.run_unique otherMember member same
      have meant := (ProjectQueue.mem_of_task? found).2
      simpa [found, PollRun.Out, PollRun.note, QueueTask.restage, meant] using stays
    · rw [PollRun.note_of_ne same]
      have kept : ∀ own, gate.queue.task? other.task = some own →
          own.restage run.task stage = own := fun own located =>
        QueueTask.restage_of_ne ((ProjectQueue.mem_of_task? located).2 ▸ same) _
      cases located : gate.queue.task? other.task with
      | none => simp
      | some own => simp [kept own located, same]
  refine ⟨orderly, ?_, ?_, ?_, ?_, ?_, ?_⟩
  · rw [events_concat]
    have ended : ∀ other, other ≠ run.task →
        hasEnded (actions ++ [action]) other = hasEnded actions other := fun other apart => by
      rw [hasEnded, others other apart, hasEnded]
    have told := sound.tells.goOn sound.orderly found stage ended (Action.event_ticket about)
      grown unfinished
    exact told.of_tasks tasks
  · rw [runs, tasks, List.map_map, List.map_map]
    simpa [Function.comp_def] using sound.lined
  · rw [runs, List.map_map]
    simpa [Function.comp_def] using sound.distinct
  · rw [runs, tickets]
    simpa using sound.bounded
  · rw [runs]
    intro noted notedMember
    obtain ⟨other, otherMember, rfl⟩ := List.mem_map.mp notedMember
    obtain ⟨own, located, before⟩ := sound.courses other otherMember
    rw [PollRun.note_task, locate, located]
    refine ⟨_, rfl, ?_⟩
    have named := (ProjectQueue.mem_of_task? located).2
    show Course _ _ (own.restage run.task stage).stage
    by_cases same : other.task = run.task
    · simpa [PollRun.note, same, QueueTask.restage_stage_same (named.trans same)] using course
    · rwa [others other.task same, PollRun.note_of_ne same,
        QueueTask.restage_of_ne (named ▸ same)]
  · intro root entry
    rw [entries, sound.entries, runs]
    constructor
    · rintro ⟨⟨other, otherMember, rooted, rfl, out⟩, holds⟩
      refine ⟨_, List.mem_map_of_mem otherMember, by simpa using rooted, by simp, ?_⟩
      exact (outstanding other otherMember).mpr ⟨out, holds⟩
    · rintro ⟨noted, notedMember, rooted, rfl, out⟩
      obtain ⟨other, otherMember, rfl⟩ := List.mem_map.mp notedMember
      obtain ⟨out, holds⟩ := (outstanding other otherMember).mp out
      exact ⟨⟨other, otherMember, by simpa using rooted, by simp, out⟩, by simpa using holds⟩

/-- A poll that is asked for brings no end of a body and is not seen. -/
theorem asked (sound : Sound actions gate) (root : κ) : Sound (actions ++ [.poll root]) gate := by
  -- What the invariant says of actions is said of ends and of what is seen.
  have same : ∀ task, ends task (actions ++ [.poll root]) = ends task actions := fun task => by
    simp [ends_concat, Action.endOf?]
  have ended : hasEnded (actions ++ [.poll root]) = hasEnded actions := funext fun task => by
    rw [hasEnded, same, hasEnded]
  have seen : events (actions ++ [.poll root]) = events actions := by
    simp [events_concat, Action.event?]
  exact ⟨sound.orderly, by simpa only [seen, ended] using sound.tells, sound.lined, sound.distinct,
    sound.bounded, by simpa only [same] using sound.courses, sound.entries⟩

/-- A gate stays sound when a poll is started for a root that no entry stands for. -/
theorem begin (sound : Sound actions gate) {root : κ} (free : gate.outstanding? root = none) :
    Sound actions (gate.begun root) := by
  have drawn : gate.queue.nextTicket ∈ gate.queue.draw.drawn := by simp [ProjectQueue.draw]
  have orderly := sound.orderly.draw.enter drawn root
  have unknown : gate.queue.nextTicket ∉ gate.queue.tasks.map (·.ticket) := fun listed =>
    Nat.lt_irrefl _ (sound.orderly.bounded _ (List.mem_append_left _ listed))
  -- The polls before it find their tasks where they were.
  have kept : ∀ ticket task, gate.queue.task? ticket = some task →
      (gate.begun root).queue.task? ticket = some task := by
    intro ticket task found
    obtain ⟨member, rfl⟩ := ProjectQueue.mem_of_task? found
    exact ProjectQueue.task?_of_mem orderly.unique (List.mem_append_left _ member)
  have located : (gate.begun root).queue.task? gate.queue.nextTicket =
      some ⟨gate.queue.nextTicket, root, gate.queue.draw.tail? root, .waiting⟩ :=
    ProjectQueue.task?_of_mem orderly.unique (List.mem_append_right _ (List.mem_singleton_self _))
  have outstanding : ∀ run ∈ gate.runs,
      ((gate.begun root).Outstanding run ↔ gate.Outstanding run) := by
    intro run member
    obtain ⟨task, found, _⟩ := sound.courses run member
    simp [Outstanding, found, kept _ _ found]
  refine ⟨orderly, ?_, ?_, ?_, ?_, ?_, ?_⟩
  · have told : ProjectQueue.Tells (events actions) (hasEnded actions) gate.queue.draw :=
      sound.tells.of_tasks rfl
    exact told.enter sound.orderly.draw drawn root
  · simpa [begun, ProjectQueue.enter, ProjectQueue.draw] using sound.lined
  · -- The new ticket is greater than every ticket before it.
    simp only [begun, List.map_append, List.map_cons, List.map_nil]
    refine List.nodup_append.mpr ⟨sound.distinct, List.nodup_singleton _, ?_⟩
    intro ticket listed new isNew
    obtain ⟨run, member, rfl⟩ := List.mem_map.mp listed
    exact Nat.ne_of_lt (List.mem_singleton.mp isNew ▸ sound.bounded run member)
  · intro run member
    rcases List.mem_append.mp member with old | new
    · exact Nat.lt_succ_of_lt (sound.bounded run old)
    · rw [List.mem_singleton.mp new]
      exact Nat.lt_succ_self _
  · intro run member
    rcases List.mem_append.mp member with old | new
    · obtain ⟨task, found, course⟩ := sound.courses run old
      exact ⟨task, kept _ _ found, course⟩
    · obtain rfl := List.mem_singleton.mp new
      refine ⟨_, located, ?_⟩
      rw [sound.ends_of_unknown unknown]
      exact .open (by simp)
  · intro other entry
    rw [begun_outstanding? free]
    by_cases same : other = root
    · rw [if_pos same]
      constructor
      · intro new
        obtain rfl := Option.some.inj new
        refine ⟨_, List.mem_append_right _ (List.mem_singleton_self _), same.symm, rfl, ?_⟩
        exact ⟨_, located, Or.inl rfl⟩
      · rintro ⟨run, member, rooted, rfl, out⟩
        rcases List.mem_append.mp member with old | new
        · -- A poll before it that could be joined would have an entry.
          have entry := (sound.entries root _).mpr
            ⟨run, old, rooted.trans same, rfl, (outstanding run old).mp out⟩
          simp [free] at entry
        · rw [List.mem_singleton.mp new]
    · rw [if_neg same, sound.entries]
      constructor
      · rintro ⟨run, member, rooted, rfl, out⟩
        exact ⟨run, List.mem_append_left _ member, rooted, rfl, (outstanding run member).mpr out⟩
      · rintro ⟨run, member, rooted, rfl, out⟩
        rcases List.mem_append.mp member with old | new
        · exact ⟨run, old, rooted, rfl, (outstanding run old).mp out⟩
        · rw [List.mem_singleton.mp new] at rooted
          exact absurd rooted.symm same

/-- The poll that an entry stands for may be joined. -/
theorem out_of_entry (sound : Sound actions gate) {run : PollRun κ α} {task : QueueTask κ α}
    (member : run ∈ gate.runs) (found : gate.queue.task? run.task = some task) {root : κ}
    {entry : InFlight} (out : gate.outstanding? root = some entry) (named : entry.task = run.task) :
    run.Out task.stage := by
  -- The entry is that of a poll with the same task, which is this one.
  obtain ⟨other, otherMember, _, rfl, own, located, may⟩ := (sound.entries root entry).mp out
  obtain rfl := sound.run_unique otherMember member named
  rw [found] at located
  exact Option.some.inj located ▸ may

/-- A body has no end while nothing is noted of it and its task is not over. -/
theorem ends_of_unended (sound : Sound actions gate) {run : PollRun κ α} {task : QueueTask κ α}
    (member : run ∈ gate.runs) (found : gate.queue.task? run.task = some task)
    (unknown : run.bodyResult = none) (unfinished : ¬task.stage.Over) :
    ends run.task actions = [] := by
  -- Its course tells of an end only through what is noted or through the task.
  exact (sound.course member found).unended unfinished unknown

/-- A gate stays sound when only its queue goes on with a task and no end of a body is seen. -/
theorem queued (sound : Sound actions gate) {action : Action κ α} {task : QueueTask κ α}
    {ticket : Nat} {stage : Stage α} {queue : ProjectQueue κ α}
    (found : gate.queue.task? ticket = some task) (about : action.task? = some ticket)
    (orderly : queue.Orderly) (tasks : queue.tasks = gate.queue.tasks.map (·.restage ticket stage))
    (grown : ∀ ended, ended ticket = hasEnded actions ticket →
      ProjectQueue.shown ended (task.restage ticket stage) =
        ProjectQueue.shown (hasEnded actions) task ++ action.event?.toList)
    (unfinished : action.event?.toList = [] ∨ ¬task.stage.Over)
    (endless : action.endOf? ticket = none)
    (course : ∀ bodyResult, Course (ends ticket actions) bodyResult task.stage →
      Course (ends ticket actions) bodyResult stage)
    (passed : task.stage.Over ↔ stage.Over) :
    Sound (actions ++ [action]) { gate with queue := queue } := by
  -- Nothing new is noted of the poll of the task, which counts as noting the same again.
  obtain ⟨run, member, rfl, before⟩ := sound.run_of_task found
  have same : ends run.task (actions ++ [action]) = ends run.task actions := by
    simp [ends_concat, endless]
  refine sound.goOn member found about orderly tasks (sound.setBodyResult_self member).symm rfl
    (grown _ (by rw [hasEnded, same, hasEnded])) unfinished (same ▸ course _ before) ?_ ?_
  · intro root entry
    refine ⟨fun out => ⟨out, fun named => ?_⟩, And.left⟩
    exact (sound.out_of_entry member found out named).imp_right (mt passed.mpr)
  · exact fun out => out.imp_right (mt passed.mp)

/-- A gate stays sound when a body returns, which only the poll itself notices so far. -/
theorem noted (sound : Sound actions gate) {task : Nat} {run : PollRun κ α}
    {result : Except CheckerError α} (found : gate.run? task = some run)
    (unknown : run.bodyResult = none) (runs : gate.queue.stage? task = some .running) :
    Sound (actions ++ [.finish task (.returned result)])
      (gate.setBodyResult task (some result)) := by
  obtain ⟨member, rfl⟩ := mem_of_run? found
  obtain ⟨own, located, isRunning⟩ := Option.map_eq_some_iff.mp runs
  have named := (ProjectQueue.mem_of_task? located).2
  have unfinished : ¬own.stage.Over := by simp [isRunning]
  have endless := sound.ends_of_unended member located unknown unfinished
  -- The queue does not notice, so its task is set to the stage that it has.
  have tasks := congrArg (·.tasks)
    (ProjectQueue.setStage_self sound.orderly.unique located).symm
  refine sound.goOn member located rfl sound.orderly tasks rfl rfl ?_ (Or.inr unfinished) ?_ ?_ ?_
  · simp [QueueTask.restage, named, ProjectQueue.shown, isRunning, hasEnded, ends_concat,
      endless, Action.endOf?, Action.event?, QueueEvent.turn]
  · simpa [ends_concat, endless, Action.endOf?, isRunning] using Course.leaving result
  · -- The entry is there as long as the task runs.
    intro root entry
    exact ⟨fun out => ⟨out, fun _ => Or.inr unfinished⟩, And.left⟩
  · exact fun _ => Or.inl unknown

/-- A gate stays sound when a body dies, and with it the task that would take its entry away. -/
theorem died (sound : Sound actions gate) {task : Nat} {run : PollRun κ α} {detail : String}
    {queue : ProjectQueue κ α} (found : gate.run? task = some run)
    (unknown : run.bodyResult = none)
    (step : gate.queue.Step (.finish task (.panicked detail)) queue) :
    Sound (actions ++ [.finish task (.panicked detail)]) { gate with queue := queue } := by
  have orderly := sound.orderly.step step
  obtain ⟨member, rfl⟩ := mem_of_run? found
  cases step with
  | @finish _ own _ located runs =>
    have named := (ProjectQueue.mem_of_task? located).2
    have unfinished : ¬own.stage.Over := by simp [runs]
    have endless := sound.ends_of_unended member located unknown unfinished
    -- Nothing is noted of the body, so the entry stays for good.
    refine sound.goOn member located rfl orderly rfl (sound.setBodyResult_self member).symm rfl
      ?_ (Or.inr unfinished) ?_ ?_ ?_
    · rw [ProjectQueue.shown_of_over _
        (by simp [QueueTask.restage, named, Stage.over_of_bodyEnd])]
      simp [ProjectQueue.shown, runs, hasEnded, named, endless, Action.event?, QueueEvent.turn]
    · rw [unknown, ends_concat, endless]
      simpa [Action.endOf?, BodyEnd.returned?] using Course.of_end (.panicked detail : BodyEnd α)
    · exact fun root entry => ⟨fun out => ⟨out, fun _ => Or.inl unknown⟩, And.left⟩
    · exact fun _ => Or.inl unknown

/-- A gate stays sound when a poll whose body returned takes its entry away. -/
theorem left (sound : Sound actions gate) {task : Nat} {run : PollRun κ α}
    {result : Except CheckerError α} {queue : ProjectQueue κ α}
    (found : gate.run? task = some run) (returned : run.bodyResult = some result)
    (step : gate.queue.Step (.finish task (.returned result)) queue) :
    Sound (actions ++ [.leave task])
      { gate.clearEntry run.root run.ticket with queue := queue } := by
  have orderly := sound.orderly.step step
  obtain ⟨member, rfl⟩ := mem_of_run? found
  cases step with
  | @finish _ own _ located runs =>
    have named := (ProjectQueue.mem_of_task? located).2
    have unfinished : ¬own.stage.Over := by simp [runs]
    have ended : ends run.task actions = [.returned result] :=
      (sound.course member located).left unfinished returned
    have entry := (sound.entries run.root _).mpr
      ⟨run, member, rfl, rfl, own, located, Or.inr unfinished⟩
    refine sound.goOn member located rfl orderly rfl
      ((clearEntry_runs ..).trans (sound.setBodyResult_self member).symm)
      (clearEntry_nextTicket ..) ?_ (Or.inl rfl) ?_ ?_ ?_
    · rw [ProjectQueue.shown_of_over _
        (by simp [QueueTask.restage, named, Stage.over_of_bodyEnd])]
      simp [ProjectQueue.shown, runs, hasEnded, named, ended, Action.event?]
    · simpa [ends_concat, ended, Action.endOf?, BodyEnd.returned?, returned] using
        Course.of_end (.returned result)
    · -- Exactly the entry of this poll is taken away.
      intro root other
      show (gate.clearEntry run.root run.ticket).outstanding? root = some other ↔ _
      rw [clearEntry_outstanding?, entry]
      by_cases same : root = run.root
      · subst root
        simp [entry, Stage.over_of_bodyEnd]
        rintro rfl
        exact ⟨rfl, by simp [returned]⟩
      · -- A poll of another root has a task of its own.
        simp only [same, false_and, if_false]
        refine ⟨fun out => ⟨out, fun shared => absurd ?_ same⟩, And.left⟩
        obtain ⟨owner, ownerMember, rooted, rfl, _⟩ := (sound.entries root other).mp out
        rw [← rooted, sound.run_unique ownerMember member shared]
    · exact fun _ => Or.inr unfinished

/-- Every action keeps a gate sound. -/
theorem step (sound : Sound actions gate) {action : Action κ α} {next : StatusGate κ α}
    (step : Step gate action next) : Sound (actions ++ [action]) next := by
  -- Where only the queue goes on, nothing is asked but what is seen of the task and its course.
  cases step with
  | join out => exact sound.asked _
  | begin free => exact (sound.begin free).asked _
  | note found unknown runs => exact sound.noted found unknown runs
  | die found unknown step => exact sound.died found unknown step
  | leave found returned step => exact sound.left found returned step
  | wake step =>
    have orderly := sound.orderly.step step
    cases step with
    | wake found waits ready =>
      have named := (ProjectQueue.mem_of_task? found).2
      refine sound.queued found rfl orderly rfl ?_ (Or.inl rfl) rfl ?_ ?_
      · intro ended _
        simp [QueueTask.restage, named, ProjectQueue.shown, waits, Action.event?]
      · intro bodyResult course
        obtain ⟨endless, rfl⟩ := course.idle (by simp [waits]) (by simp [waits])
        exact endless ▸ .open (by simp)
      · simp [waits]
  | start step =>
    have orderly := sound.orderly.step step
    cases step with
    | start found awake =>
      have named := (ProjectQueue.mem_of_task? found).2
      -- A body that is called has no end yet, so its start is all that is seen of it.
      obtain ⟨run, _, _, before⟩ := sound.run_of_task found
      obtain ⟨endless, _⟩ := before.idle (by simp [awake]) (by simp [awake])
      refine sound.queued found rfl orderly rfl ?_ (Or.inr (by simp [awake])) rfl ?_ ?_
      · intro ended same
        simp [QueueTask.restage, named, ProjectQueue.shown, awake, Action.event?, same, hasEnded,
          endless]
      · intro bodyResult course
        obtain ⟨_, rfl⟩ := course.idle (by simp [awake]) (by simp [awake])
        exact endless ▸ .open (by simp)
      · simp [awake]
  | clear step =>
    have orderly := sound.orderly.step step
    cases step with
    | clear found ended =>
      have named := (ProjectQueue.mem_of_task? found).2
      refine sound.queued found rfl orderly (ProjectQueue.clearTail_setStage_tasks ..) ?_
        (Or.inl rfl) rfl ?_ ?_
      · intro _ _
        simp [QueueTask.restage, named, ProjectQueue.shown, ended, Action.event?]
      · intro bodyResult course
        exact course.goOn (by simp [ended]) (by rw [ended]; rfl)
      · simp [ended]
  | settle step =>
    have orderly := sound.orderly.step step
    cases step with
    | settle found cleared =>
      have named := (ProjectQueue.mem_of_task? found).2
      refine sound.queued found rfl orderly rfl ?_ (Or.inl rfl) rfl ?_ ?_
      · intro _ _
        simp [QueueTask.restage, named, ProjectQueue.shown, cleared, Action.event?]
      · intro bodyResult course
        exact course.goOn (by simp [cleared]) (by rw [cleared]; rfl)
      · simp [cleared]

/-- Every gate that a service can come to is sound. -/
theorem of_run {schedule : List (Occurrence (Action κ α))} {served : Served (StatusGate κ α) α}
    (ran : service.run? (.fresh empty) schedule = some served) :
    Sound (Occurrence.actions schedule) served.state := by
  -- Callers change nothing of the gate, so only its own actions count.
  refine Service.actions_induction (motive := Sound) sound_empty ?_ ran
  intro actions gate action next sound stepped
  exact sound.step (step_of_step? stepped)

end Sound

end StatusGate

end FlowService
