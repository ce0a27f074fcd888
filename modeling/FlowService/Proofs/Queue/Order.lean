import FlowService.Proofs.Queue.Tasks
import Mathlib.Data.List.Chain

/-! The tasks of a root stand in a line in which each of them waits for the one before it. -/

namespace FlowService.ProjectQueue

variable {κ α : Type}

/-- A task waits for the one before it in its line, or that one was over at its admission. -/
structure Follows (earlier later : QueueTask κ α) : Prop where
  -- A mark that is still there names the one to wait for, a missing one tells that it is over.
  waits : later.previous = some earlier.ticket ∨ later.previous = none ∧ earlier.stage.Over
  -- Nothing calls a task while the body before it is not over.
  inTurn : later.stage.Called → earlier.stage.Over

/-- The mark of a root names the last task of its line; without a mark that task is over. -/
def Marks : Option Nat → Option (QueueTask κ α) → Prop
  -- A body that dies leaves the mark of its task behind, so a marked task may be over as well.
  | some ticket, last => last.map (·.ticket) = some ticket
  | none, last => ∀ task ∈ last, task.stage.Over

/-- The task before a task that may go on is over. -/
theorem over_of_isReady {queue : ProjectQueue κ α} (unique : queue.tickets.Nodup)
    {earlier later : QueueTask κ α} (member : earlier ∈ queue.tasks)
    (follows : Follows earlier later) (ready : queue.isReady later) : earlier.stage.Over := by
  rcases follows.waits with waits | ⟨_, passed⟩
  · -- The end that is waited for is the end of the task with the ticket.
    have settled : queue.isSettled earlier.ticket := by simpa [isReady, waits] using ready
    simp only [isSettled, stage?, task?_of_mem unique member, Option.map_some] at settled
    cases stage : earlier.stage <;> simp [stage] at settled ⊢
  · exact passed

variable [DecidableEq κ]

/-- The tasks of a root in the order of their admission. -/
def line (queue : ProjectQueue κ α) (root : κ) : List (QueueTask κ α) :=
  queue.tasks.filter (·.root = root)

/-- What holds of a queue at any time. -/
structure Orderly (queue : ProjectQueue κ α) : Prop where
  -- No ticket is given to two tasks or drawn once more.
  unique : queue.tickets.Nodup
  bounded : ∀ ticket ∈ queue.tickets, ticket < queue.nextTicket
  linked : ∀ root, (queue.line root).IsChain Follows
  -- The next admission learns from the mark which task it has to follow.
  marked : ∀ root, Marks (queue.tail? root) (queue.line root).getLast?

/-- A line holds exactly the tasks of its root. -/
theorem mem_line {queue : ProjectQueue κ α} {root : κ} {task : QueueTask κ α} :
    task ∈ queue.line root ↔ task ∈ queue.tasks ∧ task.root = root := by
  simp [line]

/-- A change of stage keeps every task at its place in line. -/
theorem setStage_line (queue : ProjectQueue κ α) (ticket : Nat) (stage : Stage α) (root : κ) :
    (queue.setStage ticket stage).line root =
      (queue.line root).map (·.restage ticket stage) := by
  simp [line, setStage, List.filter_map, Function.comp_def]

@[simp] theorem draw_line (queue : ProjectQueue κ α) (root : κ) :
    queue.draw.line root = queue.line root := rfl

@[simp] theorem clearTail_line (queue : ProjectQueue κ α) (marked root : κ) (ticket : Nat) :
    (queue.clearTail marked ticket).line root = queue.line root := by
  simp [line]

/-- An admission puts the task at the end of the line of its root. -/
theorem enter_line (queue : ProjectQueue κ α) (ticket : Nat) (root other : κ) :
    (queue.enter ticket root).line other =
      if root = other then queue.line other ++ [⟨ticket, root, queue.tail? root, .waiting⟩]
      else queue.line other := by
  -- The new task comes last of all, so it comes last in its line too.
  by_cases same : root = other <;> simp [line, enter, same]

/-- A queue without tasks is orderly. -/
theorem orderly_empty : Orderly (empty : ProjectQueue κ α) where
  -- There is no ticket and no line to speak of, and no root is marked.
  unique := List.nodup_nil
  bounded := by simp [tickets, empty]
  linked _ := .nil
  marked _ := by simp [tail?, line, empty, Marks]

namespace Orderly

variable {queue : ProjectQueue κ α}

/-- A task that goes on keeps a queue orderly, unless it goes on before its turn. -/
theorem setStage (orderly : Orderly queue) {ticket : Nat} {task : QueueTask κ α} {stage : Stage α}
    (found : queue.task? ticket = some task) (onwards : task.stage.rank ≤ stage.rank)
    (inTurn : task.stage.Called ∨ queue.isReady task) : Orderly (queue.setStage ticket stage) := by
  -- The ticket names one task, so a task that is over stays over whichever one goes on.
  have named : ∀ other ∈ queue.tasks, other.ticket = ticket → other = task :=
    fun other member same => eq_of_task? orderly.unique found member same
  have stays : ∀ other ∈ queue.tasks, other.stage.Over →
      (other.restage ticket stage).stage.Over := by
    intro other member passed
    by_cases same : other.ticket = ticket
    · rw [QueueTask.restage_stage_same same]
      exact passed.mono (named other member same ▸ onwards)
    · rwa [QueueTask.restage_of_ne same]
  constructor
  · simpa using orderly.unique
  · intro other member
    exact orderly.bounded other (by simpa using member)
  · intro root
    rw [setStage_line, List.isChain_map]
    -- The neighbours stay neighbours, so each pair of them is looked at by itself.
    refine (orderly.linked root).imp_of_mem_imp ?_
    intro earlier later earlierMember laterMember follows
    have earlierMember := (mem_line.mp earlierMember).1
    have laterMember := (mem_line.mp laterMember).1
    constructor
    · simpa using follows.waits.imp_right fun absent =>
        ⟨absent.1, stays earlier earlierMember absent.2⟩
    · intro called
      apply stays earlier earlierMember
      by_cases same : later.ticket = ticket
      · -- The task that goes on was called before, or its turn has come just now.
        rw [← named later laterMember same] at inTurn
        rcases inTurn with before | ready
        · exact follows.inTurn before
        · exact over_of_isReady orderly.unique earlierMember follows ready
      · rw [QueueTask.restage_of_ne same] at called
        exact follows.inTurn called
  · intro root
    -- The last task of the line is the same, and it has its ticket and stays over.
    have marked := orderly.marked root
    rw [setStage_line, setStage_tail?, List.getLast?_map]
    cases tail : queue.tail? root with
    | some mark =>
      rw [tail] at marked
      simpa [Marks, Function.comp_def] using marked
    | none =>
      rw [tail] at marked
      intro last member
      obtain ⟨before, beforeMember, rfl⟩ := Option.map_eq_some_iff.mp member
      have inLine := List.mem_of_getLast? beforeMember
      exact stays before (mem_line.mp inLine).1 (marked before beforeMember)

/-- Drawing a ticket keeps a queue orderly. -/
theorem draw (orderly : Orderly queue) : Orderly queue.draw := by
  -- The new ticket is greater than every ticket before it.
  have grown : queue.draw.tickets = queue.tickets ++ [queue.nextTicket] := by
    simp [tickets, ProjectQueue.draw]
  constructor
  · rw [grown]
    refine List.nodup_append.mpr ⟨orderly.unique, List.nodup_singleton _, ?_⟩
    intro ticket member other fresh
    have below := orderly.bounded ticket member
    simp only [List.mem_singleton] at fresh
    omega
  · intro ticket member
    rw [grown] at member
    simp only [List.mem_append, List.mem_singleton] at member
    show ticket < queue.nextTicket + 1
    rcases member with old | fresh
    · have below := orderly.bounded ticket old
      omega
    · omega
  · exact orderly.linked
  · exact orderly.marked

/-- An admission only passes a ticket on from the drawn ones to a task. -/
theorem enter_perm {ticket : Nat} (drawn : ticket ∈ queue.drawn) (root : κ) :
    (queue.enter ticket root).tickets.Perm queue.tickets := by
  -- Taken out of the drawn ones, the ticket stands in front of those that are left.
  have moved := (List.perm_cons_erase drawn).symm
  simpa [tickets, ProjectQueue.enter] using moved.append_left (queue.tasks.map (·.ticket))

/-- Admitting a task keeps a queue orderly. -/
theorem enter (orderly : Orderly queue) {ticket : Nat} (drawn : ticket ∈ queue.drawn) (root : κ) :
    Orderly (queue.enter ticket root) := by
  -- The tickets are the same as before in another order, and only the one line grows.
  have moved := enter_perm drawn root
  constructor
  · exact moved.nodup_iff.mpr orderly.unique
  · exact fun other member => orderly.bounded other (moved.mem_iff.mp member)
  · intro other
    rw [enter_line]
    split
    · -- The mark of the root tells the new task which one it has to wait for.
      rename_i same
      subst other
      refine List.isChain_append.mpr ⟨orderly.linked root, .singleton _, ?_⟩
      intro last lastMember task taskMember
      obtain rfl : _ = task := by simpa using taskMember
      have marked := orderly.marked root
      rw [Option.mem_def.mp lastMember] at marked
      refine ⟨?_, fun called => absurd called (by simp)⟩
      cases tail : queue.tail? root with
      | some mark => rw [tail] at marked; exact Or.inl marked.symm
      | none => rw [tail] at marked; exact Or.inr ⟨rfl, marked last rfl⟩
    · exact orderly.linked other
  · intro other
    rw [enter_line, enter_tail?]
    by_cases same : root = other
    · simp [same, Marks]
    · simpa [same, Ne.symm same] using orderly.marked other

/-- Taking the mark off a root keeps a queue orderly once the task that left it is over. -/
theorem clearTail (orderly : Orderly queue) {ticket : Nat} {task : QueueTask κ α}
    (found : queue.task? ticket = some task) (passed : task.stage.Over) :
    Orderly (queue.clearTail task.root ticket) := by
  -- The tasks are as before, so only what the missing mark tells has to be shown.
  constructor
  · simpa using orderly.unique
  · intro other member
    have below := orderly.bounded other (by simpa using member)
    unfold ProjectQueue.clearTail
    split <;> exact below
  · intro root
    simpa using orderly.linked root
  · intro root
    rw [clearTail_line, clearTail_tail?]
    split
    · -- The mark was taken off by the last task of the line, which is over.
      rename_i taken
      intro last member
      have marked := orderly.marked root
      rw [taken.1, taken.2, ← taken.1, Option.mem_def.mp member] at marked
      have inLine := List.mem_of_getLast? (Option.mem_def.mp member)
      have same : last.ticket = ticket := Option.some.inj marked
      rwa [eq_of_task? orderly.unique found (mem_line.mp inLine).1 same]
    · exact orderly.marked root

/-- Every action keeps a queue orderly. -/
theorem step (orderly : Orderly queue) {action : Action κ α} {next : ProjectQueue κ α}
    (step : Step queue action next) : Orderly next := by
  -- A task goes on stage by stage, and only waking it asks for the task before it.
  cases step with
  | draw => exact orderly.draw
  | enter drawn => exact orderly.enter drawn _
  | wake found waits ready =>
    exact orderly.setStage found (by simp [waits, Stage.rank]) (Or.inr ready)
  | start found awake =>
    exact orderly.setStage found (by simp [awake, Stage.rank])
      (Or.inl (by simp [awake]))
  | finish found runs =>
    exact orderly.setStage found (by rw [runs]; exact Nat.le_of_succ_le (Stage.over_of_bodyEnd _))
      (Or.inl (by simp [runs]))
  | clear found ended =>
    have unmarked := orderly.clearTail found (by simp [ended])
    exact unmarked.setStage (by simpa using found) (by simp [ended, Stage.rank])
      (Or.inl (by simp [ended]))
  | settle found cleared =>
    exact orderly.setStage found (by simp [cleared, Stage.rank])
      (Or.inl (by simp [cleared]))

/-- In the line of a root no task is called before all tasks ahead of it are over. -/
theorem pairwise (orderly : Orderly queue) (root : κ) :
    (queue.line root).Pairwise fun earlier later => later.stage.Called → earlier.stage.Over := by
  -- A task that is over was called, so the order of neighbours carries over the whole line.
  let InTurn (earlier later : QueueTask κ α) : Prop := later.stage.Called → earlier.stage.Over
  have : Trans InTurn InTurn InTurn :=
    ⟨fun first second called => first (second called).called⟩
  exact ((orderly.linked root).imp fun _ _ follows => follows.inTurn).pairwise

/-- No task has a ticket that was not used yet. -/
theorem task?_fresh (orderly : Orderly queue) :
    queue.task? queue.nextTicket = none := by
  cases found : queue.task? queue.nextTicket with
  | none => rfl
  | some task =>
    obtain ⟨member, named⟩ := mem_of_task? found
    have bound := orderly.bounded task.ticket
      (List.mem_append_left _ (List.mem_map.mpr ⟨task, member, rfl⟩))
    omega

/-- No task has a ticket that is still to be used. -/
theorem task?_drawn (orderly : Orderly queue) {ticket : Nat}
    (drawn : ticket ∈ queue.drawn) : queue.task? ticket = none := by
  cases found : queue.task? ticket with
  | none => rfl
  | some task =>
    obtain ⟨member, rfl⟩ := mem_of_task? found
    exact absurd rfl ((List.nodup_append.mp orderly.unique).2.2 task.ticket
      (List.mem_map.mpr ⟨task, member, rfl⟩) task.ticket drawn)

end Orderly

end FlowService.ProjectQueue
