import FlowService.Queue.Basic
import Mathlib.Data.List.Nodup

/-! A queue knows its tasks by their tickets, and each action changes the stage of at most one. -/

namespace FlowService

namespace Stage

variable {α : Type}

/-- How many stages of its way a task has behind it. -/
def rank : Stage α → Nat
  -- A body that dies skips the end that it would announce itself, but no task ever goes back.
  | .waiting => 0
  | .awake => 1
  | .running => 2
  | .ended _ => 3
  | .cleared _ => 4
  | .settled _ => 5

/-- The task waits for nothing any more. -/
def Called (stage : Stage α) : Prop := 1 ≤ stage.rank

/-- The body of the task is over. -/
def Over (stage : Stage α) : Prop := 3 ≤ stage.rank

@[simp] theorem not_called_waiting : ¬(waiting : Stage α).Called := by simp [Called, rank]

@[simp] theorem called_awake : (awake : Stage α).Called := by simp [Called, rank]

@[simp] theorem called_running : (running : Stage α).Called := by simp [Called, rank]

@[simp] theorem called_ended (result : Except CheckerError α) : (ended result).Called := by
  simp [Called, rank]

@[simp] theorem called_cleared (result : Except CheckerError α) : (cleared result).Called := by
  simp [Called, rank]

@[simp] theorem called_settled (result : Except CheckerError α) : (settled result).Called := by
  simp [Called, rank]

@[simp] theorem not_over_waiting : ¬(waiting : Stage α).Over := by simp [Over, rank]

@[simp] theorem not_over_awake : ¬(awake : Stage α).Over := by simp [Over, rank]

@[simp] theorem not_over_running : ¬(running : Stage α).Over := by simp [Over, rank]

@[simp] theorem over_ended (result : Except CheckerError α) : (ended result).Over := by
  simp [Over, rank]

@[simp] theorem over_cleared (result : Except CheckerError α) : (cleared result).Over := by
  simp [Over, rank]

@[simp] theorem over_settled (result : Except CheckerError α) : (settled result).Over := by
  simp [Over, rank]

/-- A body that is over was called before. -/
theorem Over.called {stage : Stage α} (passed : stage.Over) : stage.Called := by
  -- The stages in which a body is over come after the one in which it is called.
  unfold Over at passed
  unfold Called
  omega

/-- A task that goes on is still over. -/
theorem Over.mono {earlier later : Stage α} (passed : earlier.Over)
    (onwards : earlier.rank ≤ later.rank) : later.Over := by
  -- A body is over from some stage on, and no task goes back.
  apply Nat.le_trans passed
  exact onwards

/-- What a task whose body is over has to give. -/
def result? : Stage α → Option (Except CheckerError α)
  | .ended result => some result
  | .cleared result => some result
  | .settled result => some result
  | _ => none

/-- A task has nothing to give exactly while its body is not over. -/
theorem result?_eq_none {stage : Stage α} : stage.result? = none ↔ ¬stage.Over := by
  -- A result is carried by the stages from the end of the body on.
  cases stage <;> simp [result?]

/-- A body that ended leaves the task with what it has to give. -/
theorem result?_bodyEnd (bodyEnd : BodyEnd α) : bodyEnd.stage.result? = some bodyEnd.result := by
  cases bodyEnd <;> rfl

/-- However a body ends, it is over. -/
theorem over_of_bodyEnd (bodyEnd : BodyEnd α) : bodyEnd.stage.Over := by
  -- A body that died only skips a stage on the way.
  cases bodyEnd <;> simp [BodyEnd.stage]

end Stage

/-- Looking for a key in a table without another key. -/
theorem find?_filter_key {κ β : Type} [DecidableEq κ] (table : List (κ × β)) (gone key : κ) :
    (table.filter (·.1 != gone)).find? (·.1 == key) =
      if key = gone then none else table.find? (·.1 == key) := by
  -- An entry under the sought key is kept unless that key is the one taken out.
  induction table with
  | nil => simp
  | cons entry rest ih =>
    by_cases same : entry.1 = gone
    · by_cases sought : key = gone
      · simp [sought]
      · have other : entry.1 ≠ key := fun equal => sought (equal.symm.trans same)
        simpa [same, sought, List.find?_cons, show gone ≠ key from Ne.symm sought] using ih
    · by_cases sought : entry.1 = key
      · simp [sought, show key ≠ gone from sought ▸ same]
      · simpa [same, List.find?_cons, sought] using ih

namespace QueueTask

variable {κ α : Type}

@[simp] theorem restage_ticket (ticket : Nat) (stage : Stage α) (task : QueueTask κ α) :
    (task.restage ticket stage).ticket = task.ticket := by
  unfold restage
  split <;> rfl

@[simp] theorem restage_root (ticket : Nat) (stage : Stage α) (task : QueueTask κ α) :
    (task.restage ticket stage).root = task.root := by
  unfold restage
  split <;> rfl

@[simp] theorem restage_previous (ticket : Nat) (stage : Stage α) (task : QueueTask κ α) :
    (task.restage ticket stage).previous = task.previous := by
  unfold restage
  split <;> rfl

/-- The task that is meant comes to the stage that is given. -/
theorem restage_stage_same {ticket : Nat} {task : QueueTask κ α} (meant : task.ticket = ticket)
    (stage : Stage α) : (task.restage ticket stage).stage = stage := by
  simp [restage, meant]

/-- Every other task stays as it was. -/
theorem restage_of_ne {ticket : Nat} {task : QueueTask κ α} (other : task.ticket ≠ ticket)
    (stage : Stage α) : task.restage ticket stage = task := by
  simp [restage, other]

end QueueTask

namespace ProjectQueue

variable {κ α : Type}

/-- All tickets that were ever drawn, whether or not a task was admitted with them. -/
def tickets (queue : ProjectQueue κ α) : List Nat := queue.tasks.map (·.ticket) ++ queue.drawn

/-- A task that is found by a ticket bears it. -/
theorem mem_of_task? {queue : ProjectQueue κ α} {ticket : Nat} {task : QueueTask κ α}
    (found : queue.task? ticket = some task) : task ∈ queue.tasks ∧ task.ticket = ticket := by
  have member := List.mem_of_find?_eq_some found
  have named := List.find?_some found
  exact ⟨member, by simpa using named⟩

/-- A ticket leads to the one task that bears it. -/
theorem task?_of_mem {queue : ProjectQueue κ α} (unique : queue.tickets.Nodup)
    {task : QueueTask κ α} (member : task ∈ queue.tasks) :
    queue.task? task.ticket = some task := by
  -- Some task with the ticket is found, and no two tasks share a ticket.
  have distinct : (queue.tasks.map (·.ticket)).Nodup := (List.nodup_append.mp unique).1
  cases found : queue.task? task.ticket with
  | none =>
    have absent := List.find?_eq_none.mp found task member
    simp at absent
  | some other =>
    obtain ⟨otherMember, same⟩ := mem_of_task? found
    rw [List.inj_on_of_nodup_map distinct otherMember member same]

/-- No other task bears the ticket of one that is found. -/
theorem eq_of_task? {queue : ProjectQueue κ α} (unique : queue.tickets.Nodup) {ticket : Nat}
    {task other : QueueTask κ α} (found : queue.task? ticket = some task)
    (member : other ∈ queue.tasks) (named : other.ticket = ticket) : other = task := by
  -- The ticket leads to either of them.
  have located := task?_of_mem unique member
  rw [named, found] at located
  exact (Option.some.inj located).symm

/-- A change of stage does not change where a ticket leads. -/
theorem setStage_task? (queue : ProjectQueue κ α) (ticket wanted : Nat) (stage : Stage α) :
    (queue.setStage ticket stage).task? wanted =
      (queue.task? wanted).map (·.restage ticket stage) := by
  -- A task keeps its ticket, so the first one with the wanted ticket stands where it stood.
  have same : (fun task : QueueTask κ α => task.ticket == wanted) ∘ QueueTask.restage ticket stage =
      fun task => task.ticket == wanted := by
    funext task
    simp
  rw [task?, setStage, List.find?_map, same, task?]

/-- A task gives a result when it is settled with it. -/
theorem result?_eq_some {queue : ProjectQueue κ α} {ticket : Nat}
    {result : Except CheckerError α} :
    queue.result? ticket = some result ↔
      ∃ task, queue.task? ticket = some task ∧ task.stage = .settled result := by
  -- The ticket has to lead to a task, and that one has to be at the last stage.
  unfold result? stage?
  cases queue.task? ticket with
  | none => simp
  | some task => cases stage : task.stage <;> simp [stage]

/-- A result that is there stays the same while a task goes on that is not settled. -/
theorem setStage_result {queue : ProjectQueue κ α} {moved ticket : Nat} {task : QueueTask κ α}
    (found : queue.task? moved = some task) (unsettled : ∀ result, task.stage ≠ .settled result)
    (stage : Stage α) {result : Except CheckerError α}
    (known : queue.result? ticket = some result) :
    (queue.setStage moved stage).result? ticket = some result := by
  -- A result is there once a task is settled, and the task that goes on is not.
  obtain ⟨settled, located, gives⟩ := result?_eq_some.mp known
  by_cases same : ticket = moved
  · -- The task that goes on would be the settled one.
    rw [same, found] at located
    exact absurd gives (Option.some.inj located ▸ unsettled result)
  · refine result?_eq_some.mpr ⟨settled, ?_, gives⟩
    rw [setStage_task?, located, Option.map_some, QueueTask.restage_of_ne]
    exact (mem_of_task? located).2 ▸ same

/-- Setting the stage that a task has changes nothing. -/
theorem setStage_self {queue : ProjectQueue κ α} (unique : queue.tickets.Nodup) {ticket : Nat}
    {task : QueueTask κ α} (found : queue.task? ticket = some task) :
    queue.setStage ticket task.stage = queue := by
  -- Only the one task that bears the ticket is set, and that one to its own stage.
  have same : queue.tasks.map (·.restage ticket task.stage) = queue.tasks := by
    refine (List.map_congr_left fun other member => ?_).trans (List.map_id _)
    by_cases named : other.ticket = ticket
    · obtain rfl := eq_of_task? unique found member named
      simp [QueueTask.restage]
    · exact QueueTask.restage_of_ne named _
  rw [setStage, same]

@[simp] theorem setStage_tickets (queue : ProjectQueue κ α) (ticket : Nat) (stage : Stage α) :
    (queue.setStage ticket stage).tickets = queue.tickets := by
  simp [tickets, setStage, Function.comp_def]

variable [DecidableEq κ]

@[simp] theorem setStage_tail? (queue : ProjectQueue κ α) (ticket : Nat) (stage : Stage α)
    (root : κ) : (queue.setStage ticket stage).tail? root = queue.tail? root := rfl

@[simp] theorem clearTail_tasks (queue : ProjectQueue κ α) (root : κ) (ticket : Nat) :
    (queue.clearTail root ticket).tasks = queue.tasks := by
  unfold clearTail
  split <;> rfl

/-- A task that takes off the mark of its root goes on like any other. -/
theorem clearTail_setStage_tasks (queue : ProjectQueue κ α) (root : κ) (ticket : Nat)
    (stage : Stage α) : ((queue.clearTail root ticket).setStage ticket stage).tasks =
      queue.tasks.map (·.restage ticket stage) := by
  rw [setStage, clearTail_tasks]

@[simp] theorem clearTail_tickets (queue : ProjectQueue κ α) (root : κ) (ticket : Nat) :
    (queue.clearTail root ticket).tickets = queue.tickets := by
  unfold clearTail
  split <;> rfl

@[simp] theorem clearTail_task? (queue : ProjectQueue κ α) (root : κ) (ticket wanted : Nat) :
    (queue.clearTail root ticket).task? wanted = queue.task? wanted := by
  simp [task?]

/-- Only the mark of the given root can be taken off, and only while it bears the ticket. -/
theorem clearTail_tail? (queue : ProjectQueue κ α) (root : κ) (ticket : Nat) (other : κ) :
    (queue.clearTail root ticket).tail? other =
      if other = root ∧ queue.tail? root = some ticket then none else queue.tail? other := by
  have taken : ({ queue with tails := queue.tails.filter (·.1 != root) } : ProjectQueue κ α).tail?
      other = if other = root then none else queue.tail? other := by
    unfold tail?
    rw [find?_filter_key]
    split <;> rfl
  -- A mark that bears another ticket was left by a later task, and it stays.
  unfold clearTail
  by_cases marked : queue.tail? root = some ticket
  · rw [if_pos marked, taken]
    simp only [marked, and_true]
  · simp only [marked, and_false, if_false]

/-- An admission marks its root with the ticket and leaves the other marks. -/
theorem enter_tail? (queue : ProjectQueue κ α) (ticket : Nat) (root other : κ) :
    (queue.enter ticket root).tail? other =
      if other = root then some ticket else queue.tail? other := by
  -- The mark that the root had is replaced by the new one at the end of the table.
  unfold tail? enter
  rw [List.find?_append, find?_filter_key]
  by_cases same : other = root
  · simp [same]
  · simp [same, Ne.symm same]

/-- A task that is found is found first, also among one task more. -/
theorem enter_task? {queue : ProjectQueue κ α} {ticket wanted : Nat} {root : κ}
    {task : QueueTask κ α} (known : queue.task? wanted = some task) :
    (queue.enter ticket root).task? wanted = some task := by
  unfold task? at known ⊢
  exact (List.find?_append ..).trans (by rw [known]; rfl)

/-- A task is found by the ticket with which it is admitted. -/
theorem enter_task?_self {queue : ProjectQueue κ α} {ticket : Nat} (root : κ)
    (free : queue.task? ticket = none) :
    (queue.enter ticket root).task? ticket = some ⟨ticket, root, queue.tail? root, .waiting⟩ := by
  unfold task? at free ⊢
  exact (List.find?_append ..).trans (by simp [free])

/-- What an action makes of a queue in which it can happen. -/
inductive Step (queue : ProjectQueue κ α) : Action κ α → ProjectQueue κ α → Prop
  | draw : Step queue .draw queue.draw
  | enter {ticket : Nat} {root : κ} (drawn : ticket ∈ queue.drawn) :
    Step queue (.enter ticket root) (queue.enter ticket root)
  | wake {ticket : Nat} {task : QueueTask κ α} (found : queue.task? ticket = some task)
    (waits : task.stage = .waiting) (ready : queue.isReady task) :
    Step queue (.wake ticket) (queue.setStage ticket .awake)
  | start {ticket : Nat} {task : QueueTask κ α} (found : queue.task? ticket = some task)
    (awake : task.stage = .awake) : Step queue (.start ticket) (queue.setStage ticket .running)
  | finish {ticket : Nat} {task : QueueTask κ α} {bodyEnd : BodyEnd α}
    (found : queue.task? ticket = some task) (runs : task.stage = .running) :
    Step queue (.finish ticket bodyEnd) (queue.setStage ticket bodyEnd.stage)
  | clear {ticket : Nat} {task : QueueTask κ α} {result : Except CheckerError α}
    (found : queue.task? ticket = some task) (ended : task.stage = .ended result) :
    Step queue (.clear ticket)
      ((queue.clearTail task.root ticket).setStage ticket (.cleared result))
  | settle {ticket : Nat} {task : QueueTask κ α} {result : Except CheckerError α}
    (found : queue.task? ticket = some task) (cleared : task.stage = .cleared result) :
    Step queue (.settle ticket) (queue.setStage ticket (.settled result))

/-- A step that the queue takes is one of those that are listed. -/
theorem step_of_step? {queue next : ProjectQueue κ α} {action : Action κ α}
    (stepped : queue.step? action = some next) : Step queue action next := by
  -- Each action first looks its task up and then asks for the one stage in which it can happen.
  cases action with
  | draw => cases stepped; exact .draw
  | enter ticket root =>
    simp only [step?, List.contains_eq_mem, decide_eq_true_eq, Option.ite_none_right_eq_some,
      Option.some.injEq] at stepped
    obtain ⟨drawn, rfl⟩ := stepped
    exact .enter drawn
  | wake ticket =>
    obtain ⟨task, found, stepped⟩ := Option.bind_eq_some_iff.mp stepped
    split at stepped
    · rename_i waits
      simp only [Option.ite_none_right_eq_some, Option.some.injEq] at stepped
      obtain ⟨ready, rfl⟩ := stepped
      exact .wake found waits ready
    · cases stepped
  | start ticket =>
    obtain ⟨task, found, stepped⟩ := Option.bind_eq_some_iff.mp stepped
    split at stepped
    · rename_i awake
      cases stepped
      exact .start found awake
    · cases stepped
  | finish ticket bodyEnd =>
    obtain ⟨task, found, stepped⟩ := Option.bind_eq_some_iff.mp stepped
    split at stepped
    · rename_i runs
      cases stepped
      exact .finish found runs
    · cases stepped
  | clear ticket =>
    obtain ⟨task, found, stepped⟩ := Option.bind_eq_some_iff.mp stepped
    split at stepped
    · rename_i ended
      cases stepped
      exact .clear found ended
    · cases stepped
  | settle ticket =>
    obtain ⟨task, found, stepped⟩ := Option.bind_eq_some_iff.mp stepped
    split at stepped
    · rename_i cleared
      cases stepped
      exact .settle found cleared
    · cases stepped

/-- No action changes a result that is there. -/
theorem Step.result_lasts {queue next : ProjectQueue κ α} {action : Action κ α}
    (step : Step queue action next) {ticket : Nat} {result : Except CheckerError α}
    (known : queue.result? ticket = some result) : next.result? ticket = some result := by
  -- Only tasks that are not settled go on, and a new task comes after those that are found.
  cases step with
  | draw => exact known
  | enter drawn =>
    obtain ⟨task, found, gives⟩ := result?_eq_some.mp known
    exact result?_eq_some.mpr ⟨task, enter_task? found, gives⟩
  | wake found waits ready => exact setStage_result found (by simp [waits]) _ known
  | start found awake => exact setStage_result found (by simp [awake]) _ known
  | finish found runs => exact setStage_result found (by simp [runs]) _ known
  | clear found ended =>
    have unmarked := result?_eq_some.mp known
    exact setStage_result (by simpa using found) (by simp [ended]) _
      (result?_eq_some.mpr (by simpa using unmarked))
  | settle found cleared => exact setStage_result found (by simp [cleared]) _ known

end ProjectQueue

end FlowService
