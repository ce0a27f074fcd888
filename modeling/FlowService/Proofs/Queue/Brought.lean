import FlowService.Proofs.Queue.Order

/-! A task has nothing to give but what its body brought at its end. -/

namespace FlowService.ProjectQueue

variable {κ α : Type}

/-- What a task has to give so far. -/
def outcome? (queue : ProjectQueue κ α) (ticket : Nat) : Option (Except CheckerError α) :=
  (queue.stage? ticket).bind Stage.result?

/-- A task that gives a result has it to give. -/
theorem outcome?_of_result {queue : ProjectQueue κ α} {ticket : Nat}
    {result : Except CheckerError α} (known : queue.result? ticket = some result) :
    queue.outcome? ticket = some result := by
  obtain ⟨task, found, settled⟩ := result?_eq_some.mp known
  simp [outcome?, ProjectQueue.stage?, found, settled, Stage.result?]

/-- What a task that is found has to give is seen from its stage. -/
theorem outcome?_of_task {queue : ProjectQueue κ α} {ticket : Nat} {task : QueueTask κ α}
    (found : queue.task? ticket = some task) : queue.outcome? ticket = task.stage.result? := by
  simp [outcome?, ProjectQueue.stage?, found]

/-- Only the task that goes on may have something else to give. -/
theorem setStage_outcome? {queue : ProjectQueue κ α} {moved : Nat} {task : QueueTask κ α}
    (found : queue.task? moved = some task) (stage : Stage α) (ticket : Nat) :
    (queue.setStage moved stage).outcome? ticket =
      if ticket = moved then stage.result? else queue.outcome? ticket := by
  unfold outcome? ProjectQueue.stage?
  rw [setStage_task?]
  split
  · rename_i same
    rw [same, found]
    simp [QueueTask.restage_stage_same (mem_of_task? found).2]
  · rename_i apart
    cases located : queue.task? ticket with
    | none => rfl
    | some other =>
      have unmeant : other.ticket ≠ moved := (mem_of_task? located).2 ▸ apart
      simp [QueueTask.restage_of_ne unmeant]

/-- A task that is taken to a stage is found at it. -/
theorem setStage_task?_self {queue : ProjectQueue κ α} {ticket : Nat} {task : QueueTask κ α}
    (found : queue.task? ticket = some task) (stage : Stage α) :
    ∃ later, (queue.setStage ticket stage).task? ticket = some later ∧ later.stage = stage :=
  ⟨task.restage ticket stage, by rw [setStage_task?, found]; rfl,
    QueueTask.restage_stage_same (mem_of_task? found).2 stage⟩

variable [DecidableEq κ]

/-- What a task has to give came with the end of its body. -/
theorem Step.outcome? {queue next : ProjectQueue κ α} {action : Action κ α}
    (step : Step queue action next) (orderly : queue.Orderly) {ticket : Nat}
    {result : Except CheckerError α} (known : next.outcome? ticket = some result) :
    queue.outcome? ticket = some result ∨
      ∃ bodyEnd, action = .finish ticket bodyEnd ∧ bodyEnd.result = result := by
  -- A task that goes on otherwise keeps what it has to give.
  have goOn : ∀ {moved : Nat} {task : QueueTask κ α} {stage : Stage α},
      queue.task? moved = some task → (queue.setStage moved stage).outcome? ticket = some result →
      (stage.result? = some result → task.stage.result? = some result) →
      queue.outcome? ticket = some result := by
    intro moved task stage found known same
    rw [setStage_outcome? found] at known
    split at known
    · rename_i meant
      rw [meant, outcome?_of_task found]
      exact same known
    · exact known
  cases step with
  | draw => exact Or.inl known
  | @enter entered root drawn =>
    left
    by_cases same : ticket = entered
    · subst same
      rw [outcome?_of_task (enter_task?_self root (orderly.task?_drawn drawn))] at known
      cases known
    · have located : (queue.enter entered root).task? ticket = queue.task? ticket := by
        simp [task?, ProjectQueue.enter, Ne.symm same]
      simpa [ProjectQueue.outcome?, ProjectQueue.stage?, located] using known
  | wake found | start found => exact Or.inl (goOn found known (by simp [Stage.result?]))
  | @finish ended task bodyEnd found runs =>
    rw [setStage_outcome? found] at known
    split at known
    · rename_i same
      rw [Stage.result?_bodyEnd] at known
      exact Or.inr ⟨bodyEnd, by rw [same], Option.some.inj known⟩
    · exact Or.inl known
  | @clear cleared task brought found ended =>
    left
    -- A mark has nothing to do with what tasks have to give.
    have same : ∀ wanted, (queue.clearTail task.root cleared).outcome? wanted =
        queue.outcome? wanted := fun wanted => by
      simp [ProjectQueue.outcome?, ProjectQueue.stage?]
    rw [setStage_outcome? (by simpa using found), same] at known
    rw [← setStage_outcome? found] at known
    exact goOn found known (by simp [ended, Stage.result?])
  | settle found cleared => exact Or.inl (goOn found known (by simp [cleared, Stage.result?]))

/-- A task whose body ends comes to its result in two steps of its own. -/
theorem settles_of_running {queue : ProjectQueue κ α} {ticket : Nat} {task : QueueTask κ α}
    (found : queue.task? ticket = some task) (runs : task.stage = .running)
    (result : Except CheckerError α) :
    ∃ ended cleared settled, queue.step? (.finish ticket (.returned result)) = some ended ∧
      ended.step? (.clear ticket) = some cleared ∧ cleared.step? (.settle ticket) = some settled ∧
      settled.result? ticket = some result := by
  -- Each of the three steps finds the task at the stage to which the one before took it.
  let ended := queue.setStage ticket (.ended result)
  obtain ⟨first, firstFound, firstStage⟩ := setStage_task?_self found (.ended result)
  have unmarked : (ended.clearTail first.root ticket).task? ticket = some first := by
    rw [clearTail_task?, firstFound]
  obtain ⟨second, secondFound, secondStage⟩ := setStage_task?_self unmarked (.cleared result)
  obtain ⟨third, thirdFound, thirdStage⟩ := setStage_task?_self secondFound (.settled result)
  refine ⟨ended, (ended.clearTail first.root ticket).setStage ticket (.cleared result), _, ?_, ?_,
    ?_, result?_eq_some.mpr ⟨third, thirdFound, thirdStage⟩⟩
  · simp [step?, found, runs, BodyEnd.stage, ended]
  · simp [step?, firstFound, firstStage, ended]
  · simp [step?, secondFound, secondStage]

end FlowService.ProjectQueue
