import FlowService.Proofs.Queue.Turns

/-! A body ends at most once, and its task gives what that one end brought. -/

namespace FlowService.ProjectQueue

variable {κ α : Type}

/-- How the body of a task ended, if that is what an action is. -/
def Action.endOf? (ticket : Nat) : Action κ α → Option (BodyEnd α)
  | .finish ended bodyEnd => if ended = ticket then some bodyEnd else none
  | _ => none

/-- All ends of the body of a task. -/
def ends (ticket : Nat) (actions : List (Action κ α)) : List (BodyEnd α) :=
  actions.filterMap (Action.endOf? ticket)

/-- One more action can only bring the last end. -/
theorem ends_concat (ticket : Nat) (actions : List (Action κ α)) (action : Action κ α) :
    ends ticket (actions ++ [action]) =
      ends ticket actions ++ (action.endOf? ticket).toList := by
  -- Either the last action is an end, or it adds nothing.
  cases bodyEnd : action.endOf? ticket <;> simp [ends, bodyEnd]

/-- Whatever ended was seen to end. -/
theorem ended_mem_events {ticket : Nat} {actions : List (Action κ α)}
    (ended : ends ticket actions ≠ []) : .ended ticket ∈ events actions := by
  -- The action that is the end of the body is the one that is seen as such.
  obtain ⟨bodyEnd, member⟩ := List.exists_mem_of_ne_nil _ ended
  obtain ⟨action, taken, isEnd⟩ := List.mem_filterMap.mp member
  refine List.mem_filterMap.mpr ⟨action, taken, ?_⟩
  cases action with
  | finish other bodyEnd =>
    obtain ⟨same, _⟩ := Option.ite_none_right_eq_some.mp isEnd
    simp [Action.event?, same]
  | _ => cases isEnd

/-- What is seen of a task is about it. -/
theorem filter_shown (ended : Nat → Bool) (task : QueueTask κ α) (ticket : Nat) :
    (shown ended task).filter (·.ticket = ticket) =
      if task.ticket = ticket then shown ended task else [] := by
  -- It is a part of the turn of the task, and both events of a turn are about one task.
  have about : ∀ event ∈ shown ended task, event.ticket = task.ticket := by
    intro event member
    have inTurn := (shown_isPrefix ended task).subset member
    simp only [QueueEvent.turn, List.mem_cons, List.not_mem_nil, or_false] at inTurn
    rcases inTurn with rfl | rfl <;> rfl
  split
  · rename_i same
    exact List.filter_eq_self.mpr fun event member => decide_eq_true ((about event member).trans same)
  · rename_i apart
    refine List.filter_eq_nil_iff.mpr fun event member same => apart ?_
    exact (about event member).symm.trans (of_decide_eq_true same)

/-- Only one task of a line has something to add that is asked of its ticket. -/
theorem flatMap_own {line : List (QueueTask κ α)} (distinct : (line.map (·.ticket)).Nodup)
    {task : QueueTask κ α} (member : task ∈ line) (added : QueueTask κ α → List QueueEvent) :
    (line.flatMap fun other => if other.ticket = task.ticket then added other else []) =
      added task := by
  -- Either the task comes first, and no other bears its ticket, or another one comes before it.
  induction line with
  | nil => cases member
  | cons first rest ih =>
    obtain ⟨absent, distinct⟩ := List.nodup_cons.mp distinct
    rw [List.flatMap_cons]
    rcases List.mem_cons.mp member with rfl | member
    · have silent : (rest.flatMap fun other => if other.ticket = task.ticket then added other
          else []) = [] :=
        List.flatMap_eq_nil_iff.mpr fun other otherMember =>
          if_neg fun same => absent (List.mem_map.mpr ⟨other, otherMember, same⟩)
      simp [silent]
    · have apart : first.ticket ≠ task.ticket := fun same =>
        absent (List.mem_map.mpr ⟨task, member, same.symm⟩)
      rw [if_neg apart, ih distinct member, List.nil_append]

variable [DecidableEq κ]

/-- A queue pays what the bodies of its tasks brought. -/
structure Pays (actions : List (Action κ α)) (queue : ProjectQueue κ α) : Prop where
  accounts : Accounts actions queue
  -- Before its end a body brought nothing, and afterwards there is one result and no other.
  paid : ∀ task ∈ queue.tasks,
    (ends task.ticket actions).map BodyEnd.result = task.stage.result?.toList

namespace Pays

variable {actions : List (Action κ α)} {queue : ProjectQueue κ α}

/-- What a task pays when it goes on, given that no other body ends. -/
theorem goOn (pays : Pays actions queue) {action : Action κ α} {ticket : Nat}
    {task : QueueTask κ α} {stage : Stage α} {next : ProjectQueue κ α}
    (accounts : Accounts (actions ++ [action]) next) (found : queue.task? ticket = some task)
    (tasks : next.tasks = queue.tasks.map (·.restage ticket stage))
    (others : ∀ other, other ≠ ticket → action.endOf? other = none)
    (brought : task.stage.result?.toList ++
      (action.endOf? ticket).toList.map BodyEnd.result = stage.result?.toList) :
    Pays (actions ++ [action]) next := by
  -- Every other task stays at its stage, and no end of its body is added.
  refine ⟨accounts, fun moved member => ?_⟩
  rw [tasks] at member
  obtain ⟨before, beforeMember, rfl⟩ := List.mem_map.mp member
  have paid := pays.paid before beforeMember
  rw [QueueTask.restage_ticket, ends_concat, List.map_append, paid]
  by_cases same : before.ticket = ticket
  · obtain rfl := eq_of_task? pays.accounts.orderly.unique found beforeMember same
    rw [QueueTask.restage_stage_same same, same, brought]
  · rw [QueueTask.restage_of_ne same, others before.ticket same]
    simp

/-- A new task has brought nothing so far. -/
theorem enter (pays : Pays actions queue) {ticket : Nat} (drawn : ticket ∈ queue.drawn) (root : κ) :
    Pays (actions ++ [.enter ticket root]) (queue.enter ticket root) := by
  refine ⟨pays.accounts.step (.enter drawn), fun task member => ?_⟩
  have same : ends task.ticket (actions ++ [.enter ticket root]) = ends task.ticket actions := by
    simp [ends_concat, Action.endOf?]
  rw [same]
  rcases List.mem_append.mp member with old | new
  · exact pays.paid task old
  · -- Its ticket was only drawn before, and whatever is seen belongs to a task that is there.
    obtain rfl := List.mem_singleton.mp new
    have unended : ends ticket actions = [] := by
      by_contra ended
      have known := pays.accounts.tells.known _ (ended_mem_events ended)
      exact (List.nodup_append.mp pays.accounts.orderly.unique).2.2 _ known _ drawn rfl
    simp [unended, Stage.result?]

/-- A queue pays after every action. -/
theorem step (pays : Pays actions queue) {action : Action κ α} {next : ProjectQueue κ α}
    (step : Step queue action next) : Pays (actions ++ [action]) next := by
  have accounts := pays.accounts.step step
  -- Only the end of a body brings something, and it takes the task to the stage that carries it.
  cases step with
  | draw =>
    refine ⟨accounts, fun task member => ?_⟩
    simpa [ends_concat, Action.endOf?] using pays.paid task member
  | enter drawn => exact pays.enter drawn _
  | wake found waits ready =>
    exact pays.goOn accounts found rfl (fun _ _ => rfl)
      (by simp [waits, Stage.result?, Action.endOf?])
  | start found awake =>
    exact pays.goOn accounts found rfl (fun _ _ => rfl)
      (by simp [awake, Stage.result?, Action.endOf?])
  | finish found runs =>
    refine pays.goOn accounts found rfl (fun other apart => ?_) ?_
    · simp [Action.endOf?, Ne.symm apart]
    · rw [runs, Stage.result?_bodyEnd]
      simp [Stage.result?, Action.endOf?]
  | clear found ended =>
    exact pays.goOn accounts found (clearTail_setStage_tasks ..) (fun _ _ => rfl)
      (by simp [ended, Stage.result?, Action.endOf?])
  | settle found cleared =>
    exact pays.goOn accounts found rfl (fun _ _ => rfl)
      (by simp [cleared, Stage.result?, Action.endOf?])

/-- Every queue that a service can come to pays what the bodies brought. -/
theorem of_run {schedule : List (Occurrence (Action κ α))} {served : Served (ProjectQueue κ α) α}
    (ran : service.run? (.fresh empty) schedule = some served) :
    Pays (Occurrence.actions schedule) served.state := by
  -- Callers change nothing of the queue, so only its own actions count.
  have ranNothing : service.run? (.fresh (empty : ProjectQueue κ α)) [] = some (.fresh empty) := rfl
  refine Service.actions_induction (motive := Pays) ?_ ?_ ran
  · exact ⟨Accounts.of_run ranNothing, fun task member => nomatch member⟩
  · intro actions queue action next pays stepped
    exact pays.step (step_of_step? stepped)

/-- A body that is over ended once, and what it brought is what its task has to give. -/
theorem end_of_over (pays : Pays actions queue) {task : QueueTask κ α} (member : task ∈ queue.tasks)
    {result : Except CheckerError α} (gives : task.stage.result? = some result) :
    ∃ bodyEnd, ends task.ticket actions = [bodyEnd] ∧ bodyEnd.result = result := by
  have paid := pays.paid task member
  rw [gives] at paid
  obtain ⟨bodyEnd, rest, split, brought, restEmpty⟩ := List.map_eq_cons_iff.mp paid
  rw [List.map_eq_nil_iff.mp restEmpty] at split
  exact ⟨bodyEnd, split, brought⟩

/-- The result that a caller may have is the one that the body brought at its only end. -/
theorem end_of_result (pays : Pays actions queue) {ticket : Nat} {result : Except CheckerError α}
    (known : queue.result? ticket = some result) :
    ∃ bodyEnd, ends ticket actions = [bodyEnd] ∧ bodyEnd.result = result := by
  obtain ⟨task, found, settled⟩ := result?_eq_some.mp known
  obtain ⟨member, rfl⟩ := mem_of_task? found
  exact pays.end_of_over member (by rw [settled]; rfl)

end Pays

/-- What is seen of one task is what its stage shows. -/
theorem Accounts.seen_of_task {actions : List (Action κ α)} {queue : ProjectQueue κ α}
    (accounts : Accounts actions queue) {task : QueueTask κ α} (member : task ∈ queue.tasks) :
    (events actions).filter (·.ticket = task.ticket) = shown (fun _ => false) task := by
  -- Of what is seen of its root, only what it shows itself is about the task.
  have inLine : task ∈ queue.line task.root := mem_line.mpr ⟨member, rfl⟩
  have listed : task.ticket ∈ (queue.line task.root).map (·.ticket) := List.mem_map_of_mem inLine
  calc (events actions).filter (·.ticket = task.ticket)
    _ = (queue.seenOf task.root (events actions)).filter (·.ticket = task.ticket) := by
      rw [seenOf, List.filter_filter]
      refine List.filter_congr fun event _ => ?_
      by_cases same : event.ticket = task.ticket
      · simpa [same] using listed
      · simp [same]
    _ = ((queue.line task.root).flatMap (shown fun _ => false)).filter
          (·.ticket = task.ticket) := by rw [accounts.tells.told task.root]
    _ = shown (fun _ => false) task := by
      rw [List.filter_flatMap]
      simp only [filter_shown]
      exact flatMap_own (accounts.orderly.distinct_line task.root) inLine _

end FlowService.ProjectQueue
