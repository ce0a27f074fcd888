import FlowService.Proofs.Queue.Seen
import FlowService.Queue.Callers

/-! A gate has an entry for each poll that may still be joined, and for no other. -/

namespace FlowService

/-- What a body that did not die gave back. -/
def BodyEnd.returned? {α : Type} : BodyEnd α → Option (Except CheckerError α)
  | .returned result => some result
  | .panicked _ => none

/-- How far the body of a poll and its task have come, given all ends of the body. -/
inductive Course {α : Type} :
    List (BodyEnd α) → Option (Except CheckerError α) → Stage α → Prop
  | open {stage : Stage α} (unfinished : ¬stage.Over) : Course [] none stage
  -- The body is over, and the task has yet to take its entry away.
  | leaving (result : Except CheckerError α) : Course [.returned result] (some result) .running
  -- A body that died has nothing noted of it for good, since nothing comes after its end.
  | closed {bodyEnd : BodyEnd α} {stage : Stage α} (gives : stage.result? = some bodyEnd.result) :
    Course [bodyEnd] bodyEnd.returned? stage

namespace PollRun

variable {κ α : Type}

/-- A poll keeps its entry until its body has returned and its task has noticed. -/
def Out (run : PollRun κ α) (stage : Stage α) : Prop :=
  -- A body that died never returned, so its poll keeps the entry although the task is over.
  run.bodyResult = none ∨ ¬stage.Over

@[simp] theorem note_task (task : Nat) (bodyResult : Option (Except CheckerError α))
    (run : PollRun κ α) : (run.note task bodyResult).task = run.task := by
  unfold note
  split <;> rfl

@[simp] theorem note_ticket (task : Nat) (bodyResult : Option (Except CheckerError α))
    (run : PollRun κ α) : (run.note task bodyResult).ticket = run.ticket := by
  unfold note
  split <;> rfl

@[simp] theorem note_root (task : Nat) (bodyResult : Option (Except CheckerError α))
    (run : PollRun κ α) : (run.note task bodyResult).root = run.root := by
  unfold note
  split <;> rfl

/-- Nothing is noted of any other poll. -/
theorem note_of_ne {task : Nat} {run : PollRun κ α} (other : run.task ≠ task)
    (bodyResult : Option (Except CheckerError α)) : run.note task bodyResult = run := by
  simp [note, other]

end PollRun

namespace StatusGate

variable {κ α : Type}

/-- How the body of the poll of a task ended, if that is what an action is. -/
def Action.endOf? (task : Nat) : Action κ α → Option (BodyEnd α)
  | .finish ended bodyEnd => if ended = task then some bodyEnd else none
  | _ => none

/-- All ends of the body of the poll of a task. -/
def ends (task : Nat) (actions : List (Action κ α)) : List (BodyEnd α) :=
  actions.filterMap (Action.endOf? task)

/-- What is seen of actions. -/
def events (actions : List (Action κ α)) : List QueueEvent := actions.filterMap Action.event?

/-- One more action can only bring the last end. -/
theorem ends_concat (task : Nat) (actions : List (Action κ α)) (action : Action κ α) :
    ends task (actions ++ [action]) = ends task actions ++ (Action.endOf? task action).toList := by
  -- Either the last action is an end, or it adds nothing.
  cases bodyEnd : Action.endOf? task action <;> simp [ends, bodyEnd]

/-- One more action is seen after all the others. -/
theorem events_concat (actions : List (Action κ α)) (action : Action κ α) :
    events (actions ++ [action]) = events actions ++ action.event?.toList := by
  cases event : action.event? <;> simp [events, event]

/-- The end of a body is seen. -/
theorem ended_mem_events {task : Nat} {actions : List (Action κ α)}
    (ended : ends task actions ≠ []) : .ended task ∈ events actions := by
  -- The action that is the end of the body is the one that is seen as such.
  obtain ⟨bodyEnd, member⟩ := List.exists_mem_of_ne_nil _ ended
  obtain ⟨action, taken, isEnd⟩ := List.mem_filterMap.mp member
  refine List.mem_filterMap.mpr ⟨action, taken, ?_⟩
  cases action <;> simp [Action.endOf?, Action.event?] at isEnd ⊢
  exact isEnd.1

variable [DecidableEq κ]

/-- The gate after a poll of a root that no entry stands for. -/
def begun (gate : StatusGate κ α) (root : κ) : StatusGate κ α :=
  -- The entry and the poll bear a ticket of the gate, the task one of the queue.
  ⟨gate.nextTicket + 1, gate.inFlight ++ [(root, ⟨gate.nextTicket, gate.queue.nextTicket⟩)],
    gate.runs ++ [⟨gate.queue.nextTicket, gate.nextTicket, root, none⟩],
    gate.queue.draw.enter gate.queue.nextTicket root⟩

/-- A caller joins the poll that an entry stands for. -/
theorem poll_of_outstanding {gate : StatusGate κ α} {root : κ} {entry : InFlight}
    (out : gate.outstanding? root = some entry) : gate.poll root = (entry.task, false, gate) := by
  simp [poll, out]

/-- Without an entry a caller starts a new poll. -/
theorem poll_of_free {gate : StatusGate κ α} {root : κ} (free : gate.outstanding? root = none) :
    gate.poll root = (gate.queue.nextTicket, true, gate.begun root) := by
  simp [poll, free, begun, ProjectQueue.accept]

/-- A new poll gets an entry of its own. -/
theorem begun_outstanding? {gate : StatusGate κ α} {root : κ} (free : gate.outstanding? root = none)
    (other : κ) : (gate.begun root).outstanding? other =
      if other = root then some ⟨gate.nextTicket, gate.queue.nextTicket⟩
      else gate.outstanding? other := by
  -- The new entry comes last in the table, where no other one stands in front of it.
  unfold outstanding? at free ⊢
  unfold begun
  rw [List.find?_append]
  by_cases same : other = root
  · subst other
    simp [Option.map_eq_none_iff.mp free]
  · simp [same, Ne.symm same]

/-- Only the entry of the given root can be taken away, and only while it bears the ticket. -/
theorem clearEntry_outstanding? (gate : StatusGate κ α) (root : κ) (ticket : Nat) (other : κ) :
    (gate.clearEntry root ticket).outstanding? other =
      if other = root ∧ (gate.outstanding? root).any (·.ticket == ticket) then none
      else gate.outstanding? other := by
  have taken : ({ gate with inFlight := gate.inFlight.filter (·.1 != root) } :
      StatusGate κ α).outstanding? other =
        if other = root then none else gate.outstanding? other := by
    unfold outstanding?
    rw [find?_filter_key]
    split <;> rfl
  -- An entry with another ticket is that of a later poll, and it stays.
  unfold clearEntry
  by_cases bears : (gate.outstanding? root).any (·.ticket == ticket)
  · rw [if_pos bears, taken]
    simp only [bears, and_true]
  · rw [if_neg bears, if_neg fun both => bears both.2]

theorem clearEntry_runs (gate : StatusGate κ α) (root : κ) (ticket : Nat) :
    (gate.clearEntry root ticket).runs = gate.runs := by
  unfold clearEntry
  split <;> rfl

theorem clearEntry_queue (gate : StatusGate κ α) (root : κ) (ticket : Nat) :
    (gate.clearEntry root ticket).queue = gate.queue := by
  unfold clearEntry
  split <;> rfl

theorem clearEntry_nextTicket (gate : StatusGate κ α) (root : κ) (ticket : Nat) :
    (gate.clearEntry root ticket).nextTicket = gate.nextTicket := by
  unfold clearEntry
  split <;> rfl

/-- What an action makes of a gate in which it can happen. -/
inductive Step (gate : StatusGate κ α) : Action κ α → StatusGate κ α → Prop
  -- A caller who joins changes nothing, and a body that returns is not noticed by its task.
  | join {root : κ} {entry : InFlight} (out : gate.outstanding? root = some entry) :
    Step gate (.poll root) gate
  | begin {root : κ} (free : gate.outstanding? root = none) :
    Step gate (.poll root) (gate.begun root)
  | wake {task : Nat} {queue : ProjectQueue κ α} (step : gate.queue.Step (.wake task) queue) :
    Step gate (.wake task) { gate with queue := queue }
  | start {task : Nat} {queue : ProjectQueue κ α} (step : gate.queue.Step (.start task) queue) :
    Step gate (.start task) { gate with queue := queue }
  | note {task : Nat} {run : PollRun κ α} {result : Except CheckerError α}
    (found : gate.run? task = some run) (unfinished : run.bodyResult = none)
    (runs : gate.queue.stage? task = some .running) :
    Step gate (.finish task (.returned result)) (gate.setBodyResult task (some result))
  | die {task : Nat} {run : PollRun κ α} {detail : String} {queue : ProjectQueue κ α}
    (found : gate.run? task = some run) (unfinished : run.bodyResult = none)
    (step : gate.queue.Step (.finish task (.panicked detail)) queue) :
    Step gate (.finish task (.panicked detail)) { gate with queue := queue }
  | leave {task : Nat} {run : PollRun κ α} {result : Except CheckerError α}
    {queue : ProjectQueue κ α} (found : gate.run? task = some run)
    (returned : run.bodyResult = some result)
    (step : gate.queue.Step (.finish task (.returned result)) queue) :
    Step gate (.leave task) { gate.clearEntry run.root run.ticket with queue := queue }
  | clear {task : Nat} {queue : ProjectQueue κ α} (step : gate.queue.Step (.clear task) queue) :
    Step gate (.clear task) { gate with queue := queue }
  | settle {task : Nat} {queue : ProjectQueue κ α} (step : gate.queue.Step (.settle task) queue) :
    Step gate (.settle task) { gate with queue := queue }

/-- A gate takes a step of its queue as the queue takes it. -/
theorem step_of_withQueue {gate next : StatusGate κ α} {action : ProjectQueue.Action κ α}
    (stepped : gate.withQueue action = some next) :
    ∃ queue, gate.queue.Step action queue ∧ next = { gate with queue := queue } := by
  -- All else of the gate stays as it was.
  obtain ⟨queue, moved, rfl⟩ := Option.map_eq_some_iff.mp stepped
  exact ⟨queue, ProjectQueue.step_of_step? moved, rfl⟩

/-- A step that the gate takes is one of those that are listed. -/
theorem step_of_step? {gate next : StatusGate κ α} {action : Action κ α}
    (stepped : gate.step? action = some next) : Step gate action next := by
  -- A poll asks for the entry, a body for what is known of it, all others only for the queue.
  cases action with
  | poll root =>
    obtain rfl := Option.some.inj stepped
    cases out : gate.outstanding? root with
    | none => rw [poll_of_free out]; exact .begin out
    | some entry => rw [poll_of_outstanding out]; exact .join out
  | wake task =>
    obtain ⟨queue, step, rfl⟩ := step_of_withQueue stepped
    exact .wake step
  | start task =>
    obtain ⟨queue, step, rfl⟩ := step_of_withQueue stepped
    exact .start step
  | finish task bodyEnd =>
    cases bodyEnd with
    | returned result =>
      simp only [step?] at stepped
      split at stepped
      · rename_i runs found
        obtain rfl := Option.some.inj stepped
        exact .note found rfl runs
      · cases stepped
    | panicked detail =>
      simp only [step?] at stepped
      split at stepped
      · rename_i found
        obtain ⟨queue, step, rfl⟩ := step_of_withQueue stepped
        exact .die found rfl step
      · cases stepped
  | leave task =>
    simp only [step?] at stepped
    split at stepped
    · rename_i found
      obtain ⟨queue, step, rfl⟩ := step_of_withQueue stepped
      rw [clearEntry_queue] at step
      exact .leave found rfl step
    · cases stepped
  | clear task =>
    obtain ⟨queue, step, rfl⟩ := step_of_withQueue stepped
    exact .clear step
  | settle task =>
    obtain ⟨queue, step, rfl⟩ := step_of_withQueue stepped
    exact .settle step

end StatusGate

end FlowService
