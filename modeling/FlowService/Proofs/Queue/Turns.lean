import FlowService.Proofs.Queue.Callers
import FlowService.Proofs.Queue.Seen

/-! The bodies of a root take turns in the order in which their tasks were admitted. -/

namespace FlowService.ProjectQueue

variable {κ α : Type}

/-- What is seen of actions. -/
def events (actions : List (Action κ α)) : List QueueEvent := actions.filterMap Action.event?

/-- One more action is seen after all the others. -/
theorem events_concat (actions : List (Action κ α)) (action : Action κ α) :
    events (actions ++ [action]) = events actions ++ action.event?.toList := by
  -- Either the last action is seen, or it adds nothing.
  cases event : action.event? <;> simp [events, event]

variable [DecidableEq κ]

/-- The ticket of the task that an action admits for a root. -/
def Action.admits? (root : κ) : Action κ α → Option Nat
  | .enter ticket other => if other = root then some ticket else none
  | _ => none

/-- The tickets of the tasks that actions admit for a root, in order. -/
def admitted (root : κ) (actions : List (Action κ α)) : List Nat :=
  actions.filterMap (Action.admits? root)

/-- One more action can only admit the last task. -/
theorem admitted_concat (root : κ) (actions : List (Action κ α)) (action : Action κ α) :
    admitted root (actions ++ [action]) =
      admitted root actions ++ (Action.admits? root action).toList := by
  cases ticket : Action.admits? root action <;> simp [admitted, ticket]

/-- What is seen of the tasks that actions admit for a root. -/
def eventsOf (root : κ) (actions : List (Action κ α)) : List QueueEvent :=
  (events actions).filter fun event => event.ticket ∈ admitted root actions

/-- A queue keeps account of the actions that led to it. -/
structure Accounts (actions : List (Action κ α)) (queue : ProjectQueue κ α) : Prop where
  orderly : Orderly queue
  -- The order of admission is that of the entries, not that in which the tickets were drawn.
  lined : ∀ root, (queue.line root).map (·.ticket) = admitted root actions
  -- A task of a plain queue knows of the end of its body at once.
  tells : Tells (events actions) (fun _ => false) queue

namespace Accounts

variable {actions : List (Action κ α)} {queue : ProjectQueue κ α}

/-- Accounts are kept when a task goes on, whatever is seen of that. -/
theorem goOn (accounts : Accounts actions queue) {action : Action κ α} {ticket : Nat}
    {task : QueueTask κ α} {stage : Stage α} (found : queue.task? ticket = some task)
    (orderly : Orderly (queue.setStage ticket stage))
    (about : ∀ event ∈ action.event?.toList, event.ticket = ticket)
    (unadmitting : ∀ root, Action.admits? root action = none)
    (grown : shown (fun _ => false) (task.restage ticket stage) =
      shown (fun _ => false) task ++ action.event?.toList)
    (unfinished : action.event?.toList = [] ∨ ¬task.stage.Over) :
    Accounts (actions ++ [action]) (queue.setStage ticket stage) := by
  -- A change of stage moves no task in its line.
  refine ⟨orderly, ?_, ?_⟩
  · intro root
    rw [admitted_concat, unadmitting, setStage_line, List.map_map]
    simpa [Function.comp_def] using accounts.lined root
  · rw [events_concat]
    exact accounts.tells.goOn accounts.orderly found stage (fun _ _ => rfl) about grown unfinished

/-- Accounts are kept through every action. -/
theorem step (accounts : Accounts actions queue) {action : Action κ α} {next : ProjectQueue κ α}
    (step : Step queue action next) : Accounts (actions ++ [action]) next := by
  have orderly := accounts.orderly.step step
  -- Starts and ends of bodies are seen; drawing, entering, waking, clearing and settling are not.
  cases step with
  | draw =>
    refine ⟨orderly, ?_, ?_⟩
    · intro root
      rw [admitted_concat]
      simpa [Action.admits?] using accounts.lined root
    · have drawn : Tells (events actions) (fun _ => false) queue.draw :=
        accounts.tells.of_tasks rfl
      simpa [events_concat, Action.event?] using drawn
  | @enter ticket root drawn =>
    refine ⟨orderly, ?_, ?_⟩
    · intro other
      rw [admitted_concat, enter_line, ← accounts.lined other]
      by_cases same : root = other <;> simp [Action.admits?, same]
    · rw [events_concat]
      simpa [Action.event?] using accounts.tells.enter accounts.orderly drawn root
  | @wake ticket task found waits ready =>
    have named := (mem_of_task? found).2
    exact accounts.goOn found orderly (by simp [Action.event?]) (fun _ => rfl)
      (by simp [QueueTask.restage, named, shown, waits, Action.event?]) (Or.inl rfl)
  | @start ticket task found awake =>
    have named := (mem_of_task? found).2
    exact accounts.goOn found orderly (by simp [Action.event?, QueueEvent.ticket]) (fun _ => rfl)
      (by simp [QueueTask.restage, named, shown, awake, Action.event?])
      (Or.inr (by simp [awake]))
  | @finish ticket task bodyEnd found runs =>
    have named := (mem_of_task? found).2
    refine accounts.goOn found orderly (by simp [Action.event?, QueueEvent.ticket]) (fun _ => rfl)
      ?_ (Or.inr (by simp [runs]))
    rw [shown_of_over _ (by simp [QueueTask.restage, named, Stage.over_of_bodyEnd])]
    simp [shown, runs, named, QueueEvent.turn, Action.event?]
  | @clear ticket task result found ended =>
    have named := (mem_of_task? found).2
    have cleared : Accounts actions (queue.clearTail task.root ticket) := by
      have passed : task.stage.Over := by simp [ended]
      exact ⟨accounts.orderly.clearTail found passed, by simpa using accounts.lined,
        accounts.tells.of_tasks (clearTail_tasks ..)⟩
    exact cleared.goOn (by simpa using found) orderly (by simp [Action.event?]) (fun _ => rfl)
      (by simp [QueueTask.restage, named, shown, ended, Action.event?]) (Or.inl rfl)
  | @settle ticket task result found cleared =>
    have named := (mem_of_task? found).2
    exact accounts.goOn found orderly (by simp [Action.event?]) (fun _ => rfl)
      (by simp [QueueTask.restage, named, shown, cleared, Action.event?]) (Or.inl rfl)

/-- Every queue that a service can come to keeps account of the actions that led to it. -/
theorem of_run {schedule : List (Occurrence (Action κ α))} {served : Served (ProjectQueue κ α) α}
    (ran : service.run? (.fresh empty) schedule = some served) :
    Accounts (Occurrence.actions schedule) served.state := by
  -- Callers change nothing of the queue, so only its own actions count.
  refine Service.actions_induction (motive := Accounts) ?_ ?_ ran
  · exact ⟨orderly_empty, fun _ => rfl, by simp [events], fun _ => rfl⟩
  · intro actions queue action next accounts stepped
    exact accounts.step (step_of_step? stepped)

end Accounts

/-- Whatever bodies and callers do, the bodies of a root run one at a time in the order of their
admission, and each starts only after the one before it ended. -/
theorem bodies_take_turns {schedule : List (Occurrence (Action κ α))}
    {served : Served (ProjectQueue κ α) α}
    (ran : service.run? (.fresh empty) schedule = some served) (root : κ) :
    (admitted root (Occurrence.actions schedule)).Nodup ∧
    (∀ one ∈ admitted root (Occurrence.actions schedule),
      ∀ other ∈ admitted root (Occurrence.actions schedule),
        served.state.isRunning one → served.state.isRunning other → one = other) ∧
    (eventsOf root (Occurrence.actions schedule)).filterMap QueueEvent.started? <+:
      admitted root (Occurrence.actions schedule) ∧
    eventsOf root (Occurrence.actions schedule) <+:
      (admitted root (Occurrence.actions schedule)).flatMap QueueEvent.turn := by
  -- The line of the root holds its tasks in the order of admission, each with what was seen of it.
  have accounts := Accounts.of_run ran
  have orderly := accounts.orderly
  have lined := accounts.lined root
  have turns : eventsOf root (Occurrence.actions schedule) <+:
      (admitted root (Occurrence.actions schedule)).flatMap QueueEvent.turn := by
    have told := accounts.tells.isPrefix orderly root
    rw [seenOf, lined] at told
    exact told
  refine ⟨?_, ?_, ?_, turns⟩
  · rw [← lined]
    exact orderly.distinct_line root
  · -- Both tickets lead to running tasks of the line, of which there is one at most.
    intro one oneAdmitted other otherAdmitted oneRuns otherRuns
    rw [← lined] at oneAdmitted otherAdmitted
    obtain ⟨first, firstMember, rfl⟩ := List.mem_map.mp oneAdmitted
    obtain ⟨second, secondMember, rfl⟩ := List.mem_map.mp otherAdmitted
    have firstRuns := (isRunning_iff orderly.unique (mem_line.mp firstMember).1).mp oneRuns
    have secondRuns := (isRunning_iff orderly.unique (mem_line.mp secondMember).1).mp otherRuns
    rw [orderly.running_unique firstMember secondMember firstRuns secondRuns]
  · -- Reading off the starts of whole turns gives the tickets in their order.
    have starts := turns.filterMap QueueEvent.started?
    rwa [QueueEvent.filterMap_started?_turns] at starts

/-- Two admissions that enter in the other order than they drew their tickets; the body that goes
first dies after its caller left. -/
def overtaking : List (Occurrence (Action Nat Nat)) :=
  [.act .draw, .act .draw, .act (.enter 1 7), .act (.enter 0 7), .drop 0, .act (.wake 1),
    .act (.start 1), .act (.finish 1 (.panicked "out of memory")), .act (.settle 1),
    .act (.wake 0), .act (.start 0)]

/-- The later ticket goes first, and the earlier one takes its turn after that body died. -/
theorem bodies_take_turns_overtaking :
    ∃ served, service.run? (.fresh empty) overtaking = some served ∧
      admitted 7 (Occurrence.actions overtaking) = [1, 0] ∧ served.state.isRunning 0 ∧
      [QueueEvent.started 1, .ended 1, .started 0] <+: [1, 0].flatMap QueueEvent.turn :=
  ⟨_, rfl, rfl, rfl, (@bodies_take_turns Nat Nat _ overtaking _ rfl 7).2.2.2⟩

end FlowService.ProjectQueue
