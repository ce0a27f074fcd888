import FlowService.Proofs.Queue.Kept

/-!
The tasks of one root make a queue of their own, with tickets counted anew. Whatever happens to one
of them happens in that queue as well, and nothing else does.
-/

namespace FlowService.ProjectQueue

variable {κ α : Type} [DecidableEq κ]

/-- Whether a ticket belongs to a root, given whose the tickets are. -/
def owns (owner : Nat → Option κ) (root : κ) (ticket : Nat) : Bool := owner ticket = some root

/-- The queue with only what belongs to a root, and with the tickets of the root counted anew. -/
def own (owner : Nat → Option κ) (root : κ) (queue : ProjectQueue κ α) : ProjectQueue κ α where
  nextTicket := place (owns owner root) queue.nextTicket
  drawn := (queue.drawn.filter (owns owner root)).map (place (owns owner root))
  tails := (queue.tails.filter (·.1 = root)).map (Prod.map id (place (owns owner root)))
  tasks := (queue.line root).map (QueueTask.rename (place (owns owner root)))

/-- The tickets of a queue belong to the roots that they were used for. -/
structure Owned (owner : Nat → Option κ) (queue : ProjectQueue κ α) : Prop where
  task : ∀ task ∈ queue.tasks, owner task.ticket = some task.root
  previous : ∀ task ∈ queue.tasks, ∀ ticket, task.previous = some ticket →
    owner ticket = some task.root
  tail : ∀ root ticket, queue.tail? root = some ticket → owner ticket = some root

/-- An action uses a ticket only for the root to which it belongs. -/
def Action.Fair (owner : Nat → Option κ) : Action κ α → Prop
  | .enter ticket root => owner ticket = some root
  | _ => True

instance (owner : Nat → Option κ) (action : Action κ α) : Decidable (action.Fair owner) :=
  match action with
  | .enter ticket root => inferInstanceAs (Decidable (owner ticket = some root))
  | .draw | .wake _ | .start _ | .finish _ _ | .clear _ | .settle _ => isTrue trivial

variable {owner : Nat → Option κ} {queue next : ProjectQueue κ α} {root : κ}

/-- Nothing belongs to anybody in a queue without tasks. -/
theorem owned_empty (owner : Nat → Option κ) : Owned owner (empty : ProjectQueue κ α) where
  task _ member := nomatch member
  previous _ member := nomatch member
  tail _ _ marked := nomatch marked

/-- The own part of a queue without tasks has none. -/
@[simp] theorem own_empty (owner : Nat → Option κ) (root : κ) :
    (empty : ProjectQueue κ α).own owner root = empty := by
  simp [own, empty, place, line]

/-- The own part is marked like the whole, with the ticket counted anew. -/
theorem own_tail? (owner : Nat → Option κ) (root : κ) (queue : ProjectQueue κ α) :
    (queue.own owner root).tail? root =
      (queue.tail? root).map (place (owns owner root)) := by
  unfold tail? own
  -- An entry of the root is kept under its new number, and no other one is looked at.
  induction queue.tails with
  | nil => rfl
  | cons entry rest ih =>
    by_cases same : entry.1 = root
    · simp [same]
    · simpa [same, List.find?_cons] using ih

/-- A ticket of the root leads to the same task in the own part. -/
theorem Owned.own_task? (owned : Owned owner queue) {ticket : Nat}
    (about : owner ticket = some root) :
    (queue.own owner root).task? (place (owns owner root) ticket) =
      (queue.task? ticket).map (QueueTask.rename (place (owns owner root))) := by
  have belongs := owned.task
  simp only [task?, own, line]
  -- The induction is on the tasks, of which the own part has some in the same order.
  generalize queue.tasks = tasks at belongs
  induction tasks with
  | nil => rfl
  | cons task rest ih =>
    have rest := ih fun other member => belongs other (List.mem_cons_of_mem _ member)
    have named := belongs task List.mem_cons_self
    by_cases same : task.ticket = ticket
    · -- The task with the ticket is one of the root.
      have rooted : task.root = root := by
        rw [same, about] at named
        exact (Option.some.inj named).symm
      simp [same, rooted, QueueTask.rename]
    · by_cases rooted : task.root = root
      · -- Two tickets of the root are told apart by their new numbers as well.
        have apart : place (owns owner root) task.ticket ≠ place (owns owner root) ticket :=
          fun equal =>
            same (place_inj (by simp [owns, named, rooted]) (by simp [owns, about]) equal)
        simpa [same, rooted, List.find?_cons, QueueTask.rename, apart] using rest
      · simpa [same, rooted, List.find?_cons] using rest

/-- A task of the root is settled in the own part when it is settled. -/
theorem Owned.own_stage? (owned : Owned owner queue) {ticket : Nat}
    (about : owner ticket = some root) :
    (queue.own owner root).stage? (place (owns owner root) ticket) = queue.stage? ticket := by
  rw [stage?, owned.own_task? about, Option.map_map]
  rfl

/-- Whether a task may go on is seen from the tasks of its root alone. -/
theorem Owned.own_isReady (owned : Owned owner queue) {task : QueueTask κ α}
    (member : task ∈ queue.tasks) (rooted : task.root = root) :
    (queue.own owner root).isReady (task.rename (place (owns owner root))) =
      queue.isReady task := by
  cases previous : task.previous with
  | none => simp [isReady, QueueTask.rename, previous]
  | some ticket =>
    -- Whoever is waited for has the same root.
    have about := owned.previous task member ticket previous
    simp [isReady, QueueTask.rename, previous, isSettled, owned.own_stage? (rooted ▸ about)]

/-- A change of stage of a task of the root is the same change in the own part. -/
theorem Owned.own_setStage (owned : Owned owner queue) {ticket : Nat}
    (about : owner ticket = some root) (stage : Stage α) :
    (queue.setStage ticket stage).own owner root =
      (queue.own owner root).setStage (place (owns owner root) ticket) stage := by
  -- On the tasks of the root it is all one whether they are renamed or go on first.
  have same : ∀ task ∈ queue.line root,
      (task.restage ticket stage).rename (place (owns owner root)) =
        (task.rename (place (owns owner root))).restage (place (owns owner root) ticket) stage := by
    intro task member
    obtain ⟨member, rooted⟩ := mem_line.mp member
    have named := owned.task task member
    by_cases meant : task.ticket = ticket
    · simp [QueueTask.restage, QueueTask.rename, meant]
    · have apart : place (owns owner root) task.ticket ≠ place (owns owner root) ticket :=
        fun equal => meant (place_inj (by simp [owns, named, rooted]) (by simp [owns, about]) equal)
      simp [QueueTask.restage, QueueTask.rename, meant, apart]
  simp only [own, setStage_line, List.map_map]
  simp only [setStage, List.map_map, List.map_inj_left, Function.comp_apply, mk.injEq, true_and]
  exact same

/-- What happens to a task of another root changes nothing of the own part. -/
theorem Owned.own_setStage_other (owned : Owned owner queue) {ticket : Nat}
    (about : owner ticket ≠ some root) (stage : Stage α) :
    (queue.setStage ticket stage).own owner root = queue.own owner root := by
  -- No task of the root bears the ticket.
  have same : (queue.line root).map (QueueTask.restage ticket stage) = queue.line root := by
    refine (List.map_congr_left fun task member => ?_).trans (List.map_id _)
    obtain ⟨member, rooted⟩ := mem_line.mp member
    refine QueueTask.restage_of_ne (fun meant => about ?_) stage
    rw [← meant, owned.task task member, rooted]
  simp only [own, setStage_line, same]
  rfl

/-- Names that are told apart are taken out of a list before or after they are changed. -/
theorem map_erase_of_inj {rename : Nat → Nat} {ticket : Nat} (tickets : List Nat)
    (apart : ∀ other ∈ tickets, rename other = rename ticket → other = ticket) :
    (tickets.erase ticket).map rename = (tickets.map rename).erase (rename ticket) := by
  -- Only the ticket itself has its new name, so the first match is in the same place.
  induction tickets with
  | nil => rfl
  | cons first rest ih =>
    have later := ih fun other member => apart other (List.mem_cons_of_mem _ member)
    by_cases same : first = ticket
    · simp [same]
    · have different : rename first ≠ rename ticket :=
        fun equal => same (apart first List.mem_cons_self equal)
      simp [same, different, later]

/-- What is done with a task of the root is done with the same task in the own part. -/
theorem Owned.own_bind (owned : Owned owner queue) {ticket : Nat}
    (about : owner ticket = some root) {one other : QueueTask κ α → Option (ProjectQueue κ α)}
    (same : ∀ task ∈ queue.tasks, task.root = root →
      one (task.rename (place (owns owner root))) = (other task).map (own owner root)) :
    ((queue.own owner root).task? (place (owns owner root) ticket)).bind one =
      ((queue.task? ticket).bind other).map (own owner root) := by
  rw [owned.own_task? about]
  cases found : queue.task? ticket with
  | none => rfl
  | some task =>
    obtain ⟨member, named⟩ := mem_of_task? found
    have belongs := owned.task task member
    rw [named, about] at belongs
    exact same task member (Option.some.inj belongs).symm

/-- Tickets still belong to their roots when a mark is taken off. -/
theorem Owned.clearTail (owned : Owned owner queue) (root : κ) (ticket : Nat) :
    Owned owner (queue.clearTail root ticket) where
  task task member := owned.task task (by simpa using member)
  previous task member := owned.previous task (by simpa using member)
  tail other mark marked := by
    rw [clearTail_tail?] at marked
    split at marked
    · cases marked
    · exact owned.tail other mark marked

/-- Tickets still belong to their roots when a task goes on. -/
theorem Owned.setStage (owned : Owned owner queue) (ticket : Nat) (stage : Stage α) :
    Owned owner (queue.setStage ticket stage) where
  task := by
    intro _ restaged
    obtain ⟨task, member, rfl⟩ := List.mem_map.mp restaged
    simpa using owned.task task member
  previous := by
    intro _ restaged
    obtain ⟨task, member, rfl⟩ := List.mem_map.mp restaged
    simpa using owned.previous task member
  tail := owned.tail

/-- Tickets still belong to their roots after an admission for the right one. -/
theorem Owned.enter (owned : Owned owner queue) {ticket : Nat} (about : owner ticket = some root) :
    Owned owner (queue.enter ticket root) where
  task := by
    intro task member
    rcases List.mem_append.mp member with old | new
    · exact owned.task task old
    · obtain rfl := List.mem_singleton.mp new
      exact about
  previous := by
    intro task member before waits
    rcases List.mem_append.mp member with old | new
    · exact owned.previous task old before waits
    · obtain rfl := List.mem_singleton.mp new
      exact owned.tail root before waits
  tail other mark marked := by
    rw [enter_tail?] at marked
    split at marked
    · rename_i same
      rw [← Option.some.inj marked, same]
      exact about
    · exact owned.tail other mark marked

/-- Tickets still belong to their roots after every action that is fair. -/
theorem Owned.step (owned : Owned owner queue) {action : Action κ α}
    (step : Step queue action next) (fair : action.Fair owner) : Owned owner next := by
  cases step with
  | draw => exact ⟨owned.task, owned.previous, owned.tail⟩
  | @enter ticket root drawn => exact owned.enter fair
  | clear found ended => exact (owned.clearTail _ _).setStage _ _
  | wake | start | finish | settle => exact owned.setStage _ _

/-- The mark is taken off in the own part when it is taken off in the whole. -/
theorem Owned.own_clearTail (owned : Owned owner queue) {ticket : Nat}
    (about : owner ticket = some root) :
    (queue.clearTail root ticket).own owner root =
      (queue.own owner root).clearTail root (place (owns owner root) ticket) := by
  -- The mark names the ticket in the own part exactly when it does so in the whole.
  have marked : (queue.own owner root).tail? root = some (place (owns owner root) ticket) ↔
      queue.tail? root = some ticket := by
    rw [own_tail?, Option.map_eq_some_iff]
    constructor
    · rintro ⟨mark, marked, same⟩
      have belongs := owned.tail root mark marked
      rw [marked, place_inj (by simp [owns, belongs]) (by simp [owns, about]) same]
    · exact fun marked => ⟨ticket, marked, rfl⟩
  simp only [ProjectQueue.clearTail, marked]
  split
  · simp [own, line, List.filter_map, Function.comp_def, Bool.and_comm]
  · rfl

/-- An admission for the root is the same admission to the own part. -/
theorem own_enter {ticket : Nat} (about : owner ticket = some root) (queue : ProjectQueue κ α) :
    (queue.enter ticket root).own owner root =
      (queue.own owner root).enter (place (owns owner root) ticket) root := by
  -- Of the tickets that were drawn only this one has its new number.
  have apart : ∀ drawn ∈ queue.drawn.filter (owns owner root),
      place (owns owner root) drawn = place (owns owner root) ticket → drawn = ticket :=
    fun drawn member => place_inj (List.mem_filter.mp member).2 (by simp [owns, about])
  have task : ((queue.enter ticket root).line root).map
      (QueueTask.rename (place (owns owner root))) =
        (queue.line root).map (QueueTask.rename (place (owns owner root))) ++
          [⟨place (owns owner root) ticket, root, (queue.own owner root).tail? root,
            .waiting⟩] := by
    simp [enter_line, own_tail?, QueueTask.rename]
  simp only [own, task]
  simp only [enter, mk.injEq, true_and, and_true]
  refine ⟨?_, ?_⟩
  · rw [← map_erase_of_inj _ apart, List.erase_filter]
  · simp [List.filter_map, Function.comp_def, Bool.and_comm]

/-- A ticket of the root is drawn in the own part when it is drawn in the whole. -/
theorem mem_own_drawn {ticket : Nat} (about : owner ticket = some root) :
    place (owns owner root) ticket ∈ (queue.own owner root).drawn ↔ ticket ∈ queue.drawn := by
  have mine : owns owner root ticket = true := by simp [owns, about]
  constructor
  · intro member
    obtain ⟨drawn, member, same⟩ := List.mem_map.mp member
    obtain ⟨member, also⟩ := List.mem_filter.mp member
    exact place_inj also mine same ▸ member
  · exact fun member => List.mem_map_of_mem (List.mem_filter.mpr ⟨member, mine⟩)

/-- A step for the root is the same step in the own part, and it is possible there exactly when it is
possible in the whole. -/
theorem Owned.own_step? (owned : Owned owner queue) {action : Action κ α}
    (about : owner (action.ticketAt queue.nextTicket) = some root) (fair : action.Fair owner) :
    (queue.own owner root).step? (action.rename (place (owns owner root))) =
      (queue.step? action).map (own owner root) := by
  -- Every action but a draw and an admission is decided on by the task that is found.
  cases action with
  | draw =>
    have mine : owns owner root queue.nextTicket = true := by
      simpa [owns, Action.ticketAt, Action.ticket?] using about
    simp [Action.rename, step?, own, ProjectQueue.draw, place_succ, mine, line]
  | enter ticket other =>
    obtain rfl : other = root := Option.some.inj (fair.symm.trans about)
    have about : owner ticket = some other := about
    simp only [Action.rename, step?, List.contains_eq_mem, mem_own_drawn about, ← own_enter about]
    split <;> rfl
  | wake ticket =>
    refine owned.own_bind about fun task member rooted => ?_
    have about : owner ticket = some root := about
    -- The task that is waited for is one of the root as well.
    have ready := owned.own_isReady member rooted
    cases stage : task.stage with
    | waiting =>
      simp only [QueueTask.rename, stage] at ready ⊢
      rw [ready, ← owned.own_setStage about]
      split <;> rfl
    | _ => simp [QueueTask.rename, stage]
  | start ticket =>
    refine owned.own_bind about fun task member rooted => ?_
    have about : owner ticket = some root := about
    cases stage : task.stage <;> simp [QueueTask.rename, stage, owned.own_setStage about]
  | finish ticket bodyEnd =>
    refine owned.own_bind about fun task member rooted => ?_
    have about : owner ticket = some root := about
    cases stage : task.stage <;> simp [QueueTask.rename, stage, owned.own_setStage about]
  | clear ticket =>
    refine owned.own_bind about fun task member rooted => ?_
    have about : owner ticket = some root := about
    subst rooted
    cases stage : task.stage with
    | ended result =>
      have cleared := (owned.clearTail task.root ticket).own_setStage about (.cleared result)
      simp [QueueTask.rename, stage, cleared, owned.own_clearTail about]
    | _ => simp [QueueTask.rename, stage]
  | settle ticket =>
    refine owned.own_bind about fun task member rooted => ?_
    have about : owner ticket = some root := about
    cases stage : task.stage <;> simp [QueueTask.rename, stage, owned.own_setStage about]

/-- The mark of the root stays when that of another root is taken off. -/
theorem filter_tails_other {elsewhere : κ} (apart : elsewhere ≠ root) (tails : List (κ × Nat)) :
    (tails.filter (·.1 != elsewhere)).filter (·.1 = root) = tails.filter (·.1 = root) := by
  rw [List.filter_filter]
  refine List.filter_congr fun entry _ => ?_
  by_cases same : entry.1 = root <;> simp [same, Ne.symm apart]

/-- What happens for another root changes nothing of the own part. -/
theorem Owned.own_step_other (owned : Owned owner queue) {action : Action κ α}
    (step : Step queue action next) (fair : action.Fair owner)
    (about : owner (action.ticketAt queue.nextTicket) ≠ some root) :
    next.own owner root = queue.own owner root := by
  cases step with
  | draw =>
    -- A ticket that is drawn for another root moves no number of this one.
    have other : owns owner root queue.nextTicket = false := by
      simpa [owns, Action.ticketAt, Action.ticket?] using about
    simp [own, ProjectQueue.draw, place_succ, other, line]
  | @enter ticket elsewhere drawn =>
    have about : owner ticket ≠ some root := about
    have apart : elsewhere ≠ root := fun same => about (same ▸ fair)
    have drawn : (queue.drawn.erase ticket).filter (owns owner root) =
        queue.drawn.filter (owns owner root) := by
      rw [← List.erase_filter, List.erase_of_not_mem]
      simp [owns, about]
    have line : (queue.enter ticket elsewhere).line root = queue.line root := by
      rw [enter_line, if_neg apart]
    simp only [own, line]
    simp [ProjectQueue.enter, drawn, filter_tails_other apart, apart]
  | @clear ticket task result found ended =>
    obtain ⟨member, named⟩ := mem_of_task? found
    have about : owner ticket ≠ some root := about
    have apart : task.root ≠ root := by
      intro same
      rw [← named, owned.task task member, same] at about
      exact about rfl
    rw [(owned.clearTail task.root ticket).own_setStage_other about]
    -- The mark that is taken off is that of another root.
    unfold ProjectQueue.clearTail
    split
    · simp only [own, filter_tails_other apart]
      rfl
    · rfl
  | wake | start | finish | settle => exact owned.own_setStage_other about _

end FlowService.ProjectQueue
