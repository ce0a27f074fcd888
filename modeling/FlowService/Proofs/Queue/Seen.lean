import FlowService.Proofs.Queue.Order
import FlowService.Queue.Progress
import Mathlib.Data.List.Basic

/-! What is seen of the bodies of a line are whole turns, the last of which may still go on. -/

namespace FlowService

namespace QueueEvent

/-- The task that an event is about. -/
def ticket : QueueEvent → Nat
  | .started ticket => ticket
  | .ended ticket => ticket

/-- The task whose body started, if that is what was seen. -/
def started? : QueueEvent → Option Nat
  | .started ticket => some ticket
  | .ended _ => none

/-- The turn of one body. -/
def turn (ticket : Nat) : List QueueEvent := [.started ticket, .ended ticket]

/-- The starts of turns that follow each other are those of their tasks. -/
theorem filterMap_started?_turns (tickets : List Nat) :
    (tickets.flatMap turn).filterMap started? = tickets := by
  -- Each turn has one start, and its end is dropped.
  induction tickets with
  | nil => rfl
  | cons ticket rest ih => simpa [turn, started?, List.filterMap_cons] using ih

end QueueEvent

namespace ProjectQueue

variable {κ α : Type}

/-- What was seen of a task, given which bodies ended before their tasks took notice of it. -/
def shown (ended : Nat → Bool) (task : QueueTask κ α) : List QueueEvent :=
  -- A body that ended is seen to have ended before its task goes on.
  match task.stage with
  | .waiting => []
  | .awake => []
  | .running => if ended task.ticket then QueueEvent.turn task.ticket else [.started task.ticket]
  | _ => QueueEvent.turn task.ticket

/-- Nothing is seen of a task before it is called. -/
theorem shown_of_not_called (ended : Nat → Bool) {task : QueueTask κ α}
    (uncalled : ¬task.stage.Called) : shown ended task = [] := by
  -- That leaves only the stage in which a task waits.
  unfold shown
  cases stage : task.stage <;> simp [stage] at uncalled ⊢

/-- A task whose body is over showed its whole turn. -/
theorem shown_of_over (ended : Nat → Bool) {task : QueueTask κ α} (passed : task.stage.Over) :
    shown ended task = QueueEvent.turn task.ticket := by
  -- From the end of the body on, all stages show the same.
  unfold shown
  cases stage : task.stage <;> simp [stage] at passed ⊢

/-- A task shows a part of its turn. -/
theorem shown_isPrefix (ended : Nat → Bool) (task : QueueTask κ α) :
    shown ended task <+: QueueEvent.turn task.ticket := by
  -- Only while the body runs can less than the turn, and more than nothing, be seen.
  unfold shown
  cases task.stage with
  | running => by_cases passed : ended task.ticket <;> simp [passed, QueueEvent.turn]
  | _ => simp

/-- A line in which no task is called before the tasks ahead of it are over. -/
def InTurn (line : List (QueueTask κ α)) : Prop :=
  line.Pairwise fun earlier later => later.stage.Called → earlier.stage.Over

/-- Something new to be seen of a task comes after all that was seen of its line. -/
theorem flatMap_shown_grows {line : List (QueueTask κ α)} (distinct : (line.map (·.ticket)).Nodup)
    (inTurn : InTurn line) {task : QueueTask κ α} (member : task ∈ line) {ended : Nat → Bool}
    {after : QueueTask κ α → List QueueEvent} {added : List QueueEvent}
    (others : ∀ other ∈ line, other.ticket ≠ task.ticket → after other = shown ended other)
    (grown : after task = shown ended task ++ added)
    (unfinished : added = [] ∨ ¬task.stage.Over) :
    line.flatMap after = line.flatMap (shown ended) ++ added := by
  -- The tasks ahead of and behind the one that goes on show what they showed before.
  obtain ⟨ahead, behind, rfl⟩ := List.append_of_mem member
  have apart : ∀ other ∈ ahead ++ behind, other.ticket ≠ task.ticket := by
    have moved : (ahead ++ task :: behind).Perm (task :: (ahead ++ behind)) := List.perm_middle
    have split := List.nodup_cons.mp ((moved.map (·.ticket)).nodup_iff.mp distinct)
    intro other otherMember same
    exact split.1 (List.mem_map.mpr ⟨other, otherMember, same⟩)
  have aheadSame : ahead.flatMap after = ahead.flatMap (shown ended) :=
    List.flatMap_congr fun other otherMember =>
      others other (by simp [otherMember]) (apart other (by simp [otherMember]))
  have behindSame : behind.flatMap after = behind.flatMap (shown ended) :=
    List.flatMap_congr fun other otherMember =>
      others other (by simp [otherMember]) (apart other (by simp [otherMember]))
  simp only [List.flatMap_append, List.flatMap_cons, aheadSame, behindSame, grown]
  rcases unfinished with rfl | unfinished
  · simp
  · -- Behind a task that is not over no task was called, so the new events come last.
    have silent : behind.flatMap (shown ended) = [] := by
      refine List.flatMap_eq_nil_iff.mpr fun other otherMember => ?_
      refine shown_of_not_called ended fun called => unfinished ?_
      have order := (List.pairwise_append.mp inTurn).2.1
      exact (List.pairwise_cons.mp order).1 other otherMember called
    simp [silent]

/-- What was seen of a line are whole turns, the last of which may still go on. -/
theorem flatMap_shown_isPrefix (ended : Nat → Bool) {line : List (QueueTask κ α)}
    (inTurn : InTurn line) :
    line.flatMap (shown ended) <+: (line.map (·.ticket)).flatMap QueueEvent.turn := by
  -- Behind the first task that is not over nothing was seen at all.
  induction line with
  | nil => exact List.prefix_rfl
  | cons task rest ih =>
    obtain ⟨first, later⟩ := List.pairwise_cons.mp inTurn
    simp only [List.flatMap_cons, List.map_cons]
    by_cases passed : task.stage.Over
    · rw [shown_of_over ended passed, List.prefix_append_right_inj]
      exact ih later
    · have silent : rest.flatMap (shown ended) = [] :=
        List.flatMap_eq_nil_iff.mpr fun other member =>
          shown_of_not_called ended fun called => passed (first other member called)
      rw [silent, List.append_nil]
      exact (shown_isPrefix ended task).trans (List.prefix_append _ _)

/-- The body of a task runs when the task is at that stage. -/
theorem isRunning_iff {queue : ProjectQueue κ α} (unique : queue.tickets.Nodup)
    {task : QueueTask κ α} (member : task ∈ queue.tasks) :
    queue.isRunning task.ticket ↔ task.stage = .running := by
  -- The ticket leads back to the task.
  simp only [isRunning, stage?, task?_of_mem unique member, Option.map_some]
  cases task.stage <;> simp

variable [DecidableEq κ]

/-- What was seen of the tasks of a root. -/
def seenOf (queue : ProjectQueue κ α) (root : κ) (seen : List QueueEvent) : List QueueEvent :=
  seen.filter fun event => event.ticket ∈ (queue.line root).map (·.ticket)

/-- The stages of the tasks tell what was seen so far. -/
structure Tells (seen : List QueueEvent) (ended : Nat → Bool) (queue : ProjectQueue κ α) :
    Prop where
  -- Nothing was ever seen of a task that is still to be admitted.
  known : ∀ event ∈ seen, event.ticket ∈ queue.tasks.map (·.ticket)
  told : ∀ root, queue.seenOf root seen = (queue.line root).flatMap (shown ended)

namespace Orderly

variable {queue : ProjectQueue κ α}

/-- No two tasks of a line share a ticket. -/
theorem distinct_line (orderly : Orderly queue) (root : κ) :
    ((queue.line root).map (·.ticket)).Nodup := by
  -- A line is a part of all tasks, none of which share a ticket.
  have distinct := (List.nodup_append.mp orderly.unique).1
  exact distinct.sublist (List.filter_sublist.map _)

/-- The task that a ticket leads to stands in the line of its root and in no other. -/
theorem ticket_mem_line (orderly : Orderly queue) {ticket : Nat} {task : QueueTask κ α}
    (found : queue.task? ticket = some task) (root : κ) :
    ticket ∈ (queue.line root).map (·.ticket) ↔ task.root = root := by
  obtain ⟨member, named⟩ := mem_of_task? found
  constructor
  · intro listed
    obtain ⟨other, otherMember, same⟩ := List.mem_map.mp listed
    obtain ⟨otherMember, rooted⟩ := mem_line.mp otherMember
    -- Two tasks that bear the ticket are the same one.
    rwa [← eq_of_task? orderly.unique found otherMember same]
  · intro rooted
    exact List.mem_map.mpr ⟨task, mem_line.mpr ⟨member, rooted⟩, named⟩

/-- No two tasks of a line run at the same time. -/
theorem running_unique (orderly : Orderly queue) {root : κ} {one other : QueueTask κ α}
    (oneMember : one ∈ queue.line root) (otherMember : other ∈ queue.line root)
    (oneRuns : one.stage = .running) (otherRuns : other.stage = .running) : one = other := by
  -- Whichever stands ahead would have to be over before the other is called.
  by_contra apart
  have never : (queue.line root).Pairwise fun earlier later =>
      ¬(earlier.stage = .running ∧ later.stage = .running) := by
    refine (orderly.pairwise root).imp fun inTurn both => ?_
    have passed := inTurn (by simp [both.2])
    simp [both.1] at passed
  have symmetric : Std.Symm fun earlier later : QueueTask κ α =>
      ¬(earlier.stage = .running ∧ later.stage = .running) := ⟨fun _ _ no both => no both.symm⟩
  exact never.forall oneMember otherMember apart ⟨oneRuns, otherRuns⟩

end Orderly

namespace Tells

variable {seen : List QueueEvent} {ended : Nat → Bool} {queue : ProjectQueue κ α}

/-- What was seen of a root are whole turns in the order of admission, the last of which may still
go on. -/
theorem isPrefix (tells : Tells seen ended queue) (orderly : Orderly queue) (root : κ) :
    queue.seenOf root seen <+: ((queue.line root).map (·.ticket)).flatMap QueueEvent.turn := by
  -- What was seen is what the stages show, and in a line whose tasks are in turn these fit.
  rw [tells.told root]
  exact flatMap_shown_isPrefix ended (orderly.pairwise root)

/-- Only the tasks of a queue tell what was seen. -/
theorem of_tasks (tells : Tells seen ended queue) {other : ProjectQueue κ α}
    (same : other.tasks = queue.tasks) : Tells seen ended other := by
  -- The marks and the tickets that are drawn do not matter.
  have lines : ∀ root, other.line root = queue.line root := fun root => by
    rw [line, same, line]
  refine ⟨by simpa [same] using tells.known, fun root => ?_⟩
  rw [seenOf, lines]
  exact tells.told root

/-- When a task goes on, what is seen of that is added to what was seen of its root. -/
theorem goOn (tells : Tells seen ended queue) (orderly : Orderly queue) {ticket : Nat}
    {task : QueueTask κ α} (found : queue.task? ticket = some task) (stage : Stage α)
    {after : Nat → Bool} {added : List QueueEvent}
    (others : ∀ other, other ≠ ticket → after other = ended other)
    (about : ∀ event ∈ added, event.ticket = ticket)
    (grown : shown after (task.restage ticket stage) = shown ended task ++ added)
    (unfinished : added = [] ∨ ¬task.stage.Over) :
    Tells (seen ++ added) after (queue.setStage ticket stage) := by
  obtain ⟨member, named⟩ := mem_of_task? found
  -- The tickets in a line stay, and all other tasks show what they showed before.
  have lines : ∀ root, ((queue.setStage ticket stage).line root).map (·.ticket) =
      (queue.line root).map (·.ticket) := by
    intro root
    simp [setStage_line, Function.comp_def]
  have rest : ∀ other : QueueTask κ α, other.ticket ≠ task.ticket →
      shown after (other.restage ticket stage) = shown ended other := by
    intro other apart
    rw [QueueTask.restage_of_ne (named ▸ apart)]
    unfold shown
    rw [others other.ticket (named ▸ apart)]
  constructor
  · -- The new events are about a task that is there.
    intro event seen
    have tickets : (queue.setStage ticket stage).tasks.map (·.ticket) =
        queue.tasks.map (·.ticket) := by simp [setStage, Function.comp_def]
    rw [tickets]
    rcases List.mem_append.mp seen with old | fresh
    · exact tells.known event old
    · exact List.mem_map.mpr ⟨task, member, named.trans (about event fresh).symm⟩
  · intro root
    have told := tells.told root
    have listed := orderly.ticket_mem_line found root
    unfold seenOf at told ⊢
    rw [lines, List.filter_append, told, setStage_line, List.flatMap_map]
    by_cases rooted : task.root = root
    · -- All that is new concerns the root, and it comes last in its line.
      have kept : added.filter (fun event => event.ticket ∈ (queue.line root).map (·.ticket)) =
          added := List.filter_eq_self.mpr fun event fresh => by
        simpa [about event fresh] using List.mem_map.mp (listed.mpr rooted)
      rw [kept]
      exact (flatMap_shown_grows (orderly.distinct_line root) (orderly.pairwise root)
        (mem_line.mpr ⟨member, rooted⟩) (fun other _ => rest other) grown unfinished).symm
    · -- The line of another root holds no task with this ticket.
      have none : added.filter (fun event => event.ticket ∈ (queue.line root).map (·.ticket)) =
          [] := List.filter_eq_nil_iff.mpr fun event fresh listedEvent => by
        rw [about event fresh] at listedEvent
        exact rooted (listed.mp (of_decide_eq_true listedEvent))
      rw [none, List.append_nil]
      refine List.flatMap_congr fun other otherMember => (rest other fun same => ?_).symm
      exact rooted (listed.mp (List.mem_map.mpr ⟨other, otherMember, same.trans named⟩))

/-- Nothing is seen of an admission, and nothing was seen of the task before. -/
theorem enter (tells : Tells seen ended queue) (orderly : Orderly queue) {ticket : Nat}
    (drawn : ticket ∈ queue.drawn) (root : κ) : Tells seen ended (queue.enter ticket root) := by
  -- A ticket that is only drawn is not that of a task, so no event is about it.
  have unseen : ∀ event ∈ seen, event.ticket ≠ ticket := by
    intro event known same
    have apart := (List.nodup_append.mp orderly.unique).2.2
    exact apart _ (tells.known event known) ticket drawn same
  constructor
  · intro event known
    have before := tells.known event known
    simp only [ProjectQueue.enter, List.map_append, List.mem_append]
    exact Or.inl before
  · intro other
    have told := tells.told other
    unfold seenOf at told ⊢
    rw [enter_line]
    by_cases same : root = other
    · -- The new task stands in the line now, but no event is about it.
      simp only [if_pos same, List.flatMap_append, List.flatMap_cons, List.flatMap_nil, shown,
        List.append_nil]
      rw [← told]
      refine List.filter_congr fun event known => ?_
      simp [unseen event known]
    · simpa only [if_neg same] using told

end Tells

end ProjectQueue

end FlowService
