import FlowService.Proofs.Queue.Kept
import FlowService.Proofs.Queue.Requests

/-!
A task that was called had nothing to wait for any more. So when a task is left out of a queue, the
one behind it has waited long enough for the one before it.
-/

namespace FlowService.ProjectQueue

variable {κ α : Type} {queue next : ProjectQueue κ α}

/-- No task is called that still has something to wait for. -/
def Patient (queue : ProjectQueue κ α) : Prop :=
  ∀ task ∈ queue.tasks, task.stage.Called → queue.isReady task

/-- A queue without tasks is patient. -/
theorem patient_empty : Patient (empty : ProjectQueue κ α) := fun _ member => nomatch member

/-- Who waits for a ticket that is not kept waits for whatever that one waited for. -/
inductive Behind (keep : Nat → Bool) (queue : ProjectQueue κ α) : Option Nat → Nat → Prop
  | next {earlier : Nat} : Behind keep queue (some earlier) earlier
  -- A task that is settled is waited for by everybody.
  | settled {previous : Option Nat} {earlier : Nat} (settled : queue.isSettled earlier) :
    Behind keep queue previous earlier
  | past {gone earlier : Nat} {task : QueueTask κ α} (left : keep gone = false)
    (found : queue.task? gone = some task) (behind : Behind keep queue task.previous earlier) :
    Behind keep queue (some gone) earlier

/-- Once there is nothing left to wait for, everything before is settled. -/
theorem Behind.isSettled {keep : Nat → Bool} {previous : Option Nat} {earlier : Nat}
    (behind : Behind keep queue previous earlier) (patient : Patient queue)
    (ready : previous.all queue.isSettled) : queue.isSettled earlier := by
  induction behind with
  | next => exact ready
  | settled settled => exact settled
  | @past gone earlier task left found behind ih =>
    -- The task that is left out is settled, so it was called, and had nothing to wait for.
    have ended : queue.isSettled gone := ready
    obtain ⟨result, known⟩ := result_of_isSettled ended
    obtain ⟨own, located, stage⟩ := result?_eq_some.mp known
    obtain rfl := Option.some.inj (found.symm.trans located)
    exact ih (patient task (mem_of_task? found).1 (by simp [stage]))

/-- Who comes after a ticket is seen from the tasks alone. -/
theorem Behind.of_tasks {keep : Nat → Bool} {previous : Option Nat} {earlier : Nat}
    (same : next.tasks = queue.tasks) (behind : Behind keep queue previous earlier) :
    Behind keep next previous earlier := by
  -- Tickets lead to the same tasks.
  have located : ∀ ticket, next.task? ticket = queue.task? ticket :=
    fun ticket => by rw [task?, same, task?]
  induction behind with
  | next => exact .next
  | settled settled =>
    exact .settled (by simpa [ProjectQueue.isSettled, stage?, located] using settled)
  | past left found behind ih => exact .past left ((located _).trans found) ih

variable [DecidableEq κ]

@[simp] theorem clearTail_nextTicket (queue : ProjectQueue κ α) (root : κ) (ticket : Nat) :
    (queue.clearTail root ticket).nextTicket = queue.nextTicket := by
  unfold clearTail
  split <;> rfl

@[simp] theorem clearTail_drawn (queue : ProjectQueue κ α) (root : κ) (ticket : Nat) :
    (queue.clearTail root ticket).drawn = queue.drawn := by
  unfold clearTail
  split <;> rfl

/-- No task is lost, and each one waits for the same one as before. -/
theorem Step.task_stays {action : Action κ α} (step : Step queue action next) {ticket : Nat}
    {task : QueueTask κ α} (known : queue.task? ticket = some task) :
    ∃ later, next.task? ticket = some later ∧ later.previous = task.previous := by
  have goOn : ∀ (queue : ProjectQueue κ α) moved stage, queue.task? ticket = some task →
      ∃ later, (queue.setStage moved stage).task? ticket = some later ∧
        later.previous = task.previous := by
    intro queue moved stage known
    exact ⟨task.restage moved stage, by rw [setStage_task?, known]; rfl,
      QueueTask.restage_previous ..⟩
  cases step with
  | draw => exact ⟨task, known, rfl⟩
  | enter => exact ⟨task, enter_task? known, rfl⟩
  | wake | start | finish | settle => exact goOn _ _ _ known
  | clear => exact goOn _ _ _ ((clearTail_task? ..).trans known)

/-- A task that is settled stays so. -/
theorem Step.isSettled_lasts {action : Action κ α} (step : Step queue action next) {ticket : Nat}
    (settled : queue.isSettled ticket) : next.isSettled ticket := by
  obtain ⟨result, known⟩ := result_of_isSettled settled
  obtain ⟨task, found, stage⟩ := result?_eq_some.mp (step.result_lasts known)
  simp [isSettled, stage?, found, stage]

/-- A task that has nothing to wait for never has again. -/
theorem Step.isReady_lasts {action : Action κ α} (step : Step queue action next)
    {task later : QueueTask κ α} (same : later.previous = task.previous)
    (ready : queue.isReady task) : next.isReady later := by
  -- A task waits for one end only, and what is settled stays so.
  unfold isReady at ready ⊢
  rw [same]
  cases previous : task.previous with
  | none => rfl
  | some earlier =>
    rw [previous] at ready
    exact step.isSettled_lasts ready

/-- A queue stays patient whatever happens. -/
theorem Patient.step (patient : Patient queue) (unique : queue.tickets.Nodup) {action : Action κ α}
    (step : Step queue action next) : Patient next := by
  -- A task that goes on had nothing to wait for, and neither had any other that was called.
  have goOn : ∀ {ticket : Nat} {moved : QueueTask κ α} {stage : Stage α},
      queue.task? ticket = some moved → queue.isReady moved →
      next.tasks = queue.tasks.map (·.restage ticket stage) → Patient next := by
    intro ticket moved stage found ready tasks later member called
    rw [tasks] at member
    obtain ⟨task, before, rfl⟩ := List.mem_map.mp member
    refine step.isReady_lasts (QueueTask.restage_previous ..) ?_
    by_cases meant : task.ticket = ticket
    · rwa [eq_of_task? unique found before meant]
    · rw [QueueTask.restage_of_ne meant] at called
      exact patient task before called
  have called : ∀ {ticket : Nat} {task : QueueTask κ α}, queue.task? ticket = some task →
      task.stage.Called → queue.isReady task :=
    fun found => patient _ (mem_of_task? found).1
  have lasts : ∀ task ∈ queue.tasks, task.stage.Called → next.isReady task :=
    fun task member called => step.isReady_lasts rfl (patient task member called)
  cases step with
  | draw => exact lasts
  | enter =>
    intro task member begun
    rcases List.mem_append.mp member with old | new
    · exact lasts task old begun
    · obtain rfl := List.mem_singleton.mp new
      exact absurd begun (by simp)
  | wake found waits ready => exact goOn found ready rfl
  | start found awake => exact goOn found (called found (by simp [awake])) rfl
  | finish found runs => exact goOn found (called found (by simp [runs])) rfl
  | clear found ended =>
    exact goOn found (called found (by simp [ended])) (clearTail_setStage_tasks ..)
  | settle found cleared => exact goOn found (called found (by simp [cleared])) rfl

/-- Who comes after a ticket does so for good. -/
theorem Behind.step {keep : Nat → Bool} {previous : Option Nat} {earlier : Nat}
    (behind : Behind keep queue previous earlier) {action : Action κ α}
    (step : Step queue action next) : Behind keep next previous earlier := by
  -- Each link leads from a task to the one before it, which never changes.
  induction behind with
  | next => exact .next
  | settled settled => exact .settled (step.isSettled_lasts settled)
  | past left found behind ih =>
    obtain ⟨later, located, same⟩ := step.task_stays found
    exact .past left located (same ▸ ih)

end FlowService.ProjectQueue
