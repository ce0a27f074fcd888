import FlowService.Proofs.Queue.Own
import FlowService.Proofs.Queue.Turns

/-!
Roots are independent of each other. Of every run the actions for one root are a run by themselves,
and runs for different roots may be interleaved in any way.
-/

namespace FlowService.ProjectQueue

variable {κ α : Type} [DecidableEq κ]

/-- The queue after actions one after the other, if all of them can happen in turn. -/
def after? (queue : ProjectQueue κ α) (actions : List (Action κ α)) : Option (ProjectQueue κ α) :=
  actions.foldlM step? queue

/-- The actions for one root, with its tickets counted anew. -/
def ownActions (owner : Nat → Option κ) (root : κ) (actions : List (Action κ α)) :
    List (Action κ α) :=
  keptActions (owns owner root) 0 actions

variable {owner : Nat → Option κ} {queue next : ProjectQueue κ α} {root : κ}
variable {actions : List (Action κ α)}

/-- The actions for a root lead the own part where all of them lead the whole. -/
theorem Owned.own_after? (owned : Owned owner queue) (fair : ∀ action ∈ actions, action.Fair owner)
    (ran : queue.after? actions = some next) :
    Owned owner next ∧ (queue.own owner root).after?
      (keptActions (owns owner root) queue.nextTicket actions) = some (next.own owner root) := by
  -- The induction is on the actions; each one is mirrored in the own part or leaves it as it is.
  induction actions generalizing queue with
  | nil =>
    cases ran
    exact ⟨owned, rfl⟩
  | cons action later ih =>
    obtain ⟨middle, stepped, ran⟩ := Option.bind_eq_some_iff.mp ran
    have step := step_of_step? stepped
    have fairNow := fair action List.mem_cons_self
    obtain ⟨ownedAfter, rest⟩ := ih (owned.step step fairNow)
      (fun other member => fair other (List.mem_cons_of_mem _ member)) ran
    refine ⟨ownedAfter, ?_⟩
    rw [step.nextTicket] at rest
    rw [keptActions]
    by_cases about : owner (action.ticketAt queue.nextTicket) = some root
    · have mine := owned.own_step? about fairNow
      rw [stepped] at mine
      rw [if_pos (by simp [owns, about])]
      exact Option.bind_eq_some_iff.mpr ⟨_, mine, rest⟩
    · rw [if_neg (by simp [owns, about]), ← owned.own_step_other step fairNow about]
      exact rest

/-- An action admits no task for another root than the given one. -/
def Action.IsFor (root : κ) : Action κ α → Prop
  | .enter _ other => other = root
  | _ => True

instance (root : κ) (action : Action κ α) : Decidable (action.IsFor root) :=
  match action with
  | .enter _ other => inferInstanceAs (Decidable (other = root))
  | .draw | .wake _ | .start _ | .finish _ _ | .clear _ | .settle _ => isTrue trivial

/-- Actions of several queues, each told by the root that it is for, in the order in which they
happen. -/
abbrev Mixed (κ α : Type) := List (κ × Action κ α)

namespace Mixed

/-- The actions for one root. -/
def part (mixed : Mixed κ α) (root : κ) : List (Action κ α) :=
  (mixed.filter (·.1 = root)).map (·.2)

/-- The first action is either for the root or for another one. -/
theorem part_cons (root other : κ) (action : Action κ α) (later : Mixed κ α) :
    part ((other, action) :: later) root =
      if other = root then action :: part later root else part later root := by
  by_cases same : other = root <;> simp [part, same]

/-- The roots for which tickets are drawn, in order. -/
def drawers (mixed : Mixed κ α) : List κ :=
  mixed.filterMap fun (root, action) => match action with
    | .draw => some root
    | _ => none

/-- The root for which a ticket of the common counter is drawn. -/
def drawer (mixed : Mixed κ α) (ticket : Nat) : Option κ := mixed.drawers[ticket]?

/-- The ticket of the common counter that stands for a ticket of a root. -/
def common (mixed : Mixed κ α) (root : κ) (ticket : Nat) : Nat :=
  (((List.range mixed.drawers.length).filter (owns mixed.drawer root))[ticket]?).getD 0

/-- The actions as they happen to one queue that all roots share. -/
def merged (mixed : Mixed κ α) : List (Action κ α) :=
  mixed.map fun (root, action) => action.rename (mixed.common root)

end Mixed

/-- A ticket of a root is found again after it was counted anew. -/
theorem Mixed.common_place (mixed : Mixed κ α) {ticket : Nat}
    (about : mixed.drawer ticket = some root) :
    mixed.common root (place (owns mixed.drawer root) ticket) = ticket := by
  have below : ticket < mixed.drawers.length := (List.getElem?_eq_some_iff.mp about).1
  rw [common, getElem?_place (by simp [owns, about]) below, Option.getD_some]

/-- Every ticket of the own part stands for one of the root. -/
theorem Owned.of_own_tickets (owned : Owned owner queue) {ticket : Nat}
    (member : ticket ∈ (queue.own owner root).tickets) :
    ∃ whole, owner whole = some root ∧ place (owns owner root) whole = ticket := by
  rcases List.mem_append.mp member with used | drawn
  · obtain ⟨task, renamed, rfl⟩ := List.mem_map.mp used
    obtain ⟨whole, inLine, rfl⟩ := List.mem_map.mp renamed
    obtain ⟨member, rooted⟩ := mem_line.mp inLine
    exact ⟨whole.ticket, rooted ▸ owned.task whole member, rfl⟩
  · obtain ⟨whole, kept, rfl⟩ := List.mem_map.mp drawn
    exact ⟨whole, by simpa [owns] using (List.mem_filter.mp kept).2, rfl⟩

/-- An action that is possible in the own part is possible in the whole, whatever the other roots are
at, and leaves them as they are. -/
theorem Owned.lift_step (owned : Owned owner queue) {common : Nat → Nat}
    (back : ∀ ticket, owner ticket = some root →
      common (place (owns owner root) ticket) = ticket) {action : Action κ α}
    (draws : action = .draw → owner queue.nextTicket = some root)
    (single : action.IsFor root)
    {mine : ProjectQueue κ α} (stepped : (queue.own owner root).step? action = some mine) :
    ∃ next, queue.step? (action.rename common) = some next ∧ Owned owner next ∧
      next.own owner root = mine ∧
      ∀ other, other ≠ root → next.own owner other = queue.own owner other := by
  -- Every ticket that the action names stands for one of the root, so its name can be taken back.
  have whole : ∀ ticket, action.ticket? = some ticket →
      ∃ whole, owner whole = some root ∧ place (owns owner root) whole = ticket :=
    fun ticket named => owned.of_own_tickets ((step_of_step? stepped).ticket_mem named)
  have same : (action.rename common).rename (place (owns owner root)) = action := by
    refine Action.rename_rename fun ticket named => ?_
    obtain ⟨ticket, about, rfl⟩ := whole ticket named
    rw [back ticket about]
  have about : owner ((action.rename common).ticketAt queue.nextTicket) = some root := by
    rw [Action.ticketAt, Action.ticket?_rename]
    cases named : action.ticket? with
    | none =>
      refine draws ?_
      cases action <;> first | rfl | cases named
    | some ticket =>
      obtain ⟨ticket, about, rfl⟩ := whole ticket named
      rw [Option.map_some, Option.getD_some, back ticket about, about]
  have fair : (action.rename common).Fair owner := by
    cases action with
    | enter ticket other =>
      obtain rfl : other = root := single
      exact about
    | _ => trivial
  have mirrored := owned.own_step? about fair
  rw [same, stepped] at mirrored
  obtain ⟨next, happened, rfl⟩ := Option.map_eq_some_iff.mp mirrored.symm
  have step := step_of_step? happened
  refine ⟨next, happened, owned.step step fair, rfl, fun other apart => ?_⟩
  -- A ticket of this root belongs to no other one.
  refine owned.own_step_other step fair fun others => apart ?_
  exact Option.some.inj (others.symm.trans about)

/-- Runs for different roots may be interleaved in any way. -/
theorem Owned.merged_after? (mixed rest : Mixed κ α) {queue : ProjectQueue κ α}
    (owned : Owned mixed.drawer queue)
    (drawn : ∀ ticket, rest.drawers[ticket]? = mixed.drawer (queue.nextTicket + ticket))
    (single : ∀ entry ∈ rest, entry.2.IsFor entry.1)
    (runs : ∀ root, ((queue.own mixed.drawer root).after? (rest.part root)).isSome) :
    ∃ next, queue.after? (rest.map fun (root, action) => action.rename (mixed.common root)) =
        some next ∧ Owned mixed.drawer next ∧
      ∀ root, (queue.own mixed.drawer root).after? (rest.part root) =
        some (next.own mixed.drawer root) := by
  induction rest generalizing queue with
  | nil => exact ⟨queue, rfl, owned, fun root => rfl⟩
  | cons entry later ih =>
    obtain ⟨root, action⟩ := entry
    -- The run of its own root tells that the first action is possible.
    obtain ⟨last, ran⟩ := Option.isSome_iff_exists.mp (runs root)
    rw [Mixed.part_cons, if_pos rfl] at ran
    obtain ⟨middle, stepped, ran⟩ := Option.bind_eq_some_iff.mp ran
    obtain ⟨next, happened, ownedNext, rfl, apart⟩ :=
      owned.lift_step (fun _ => mixed.common_place)
        (fun draws => by subst draws; exact (drawn 0).symm)
        (single _ List.mem_cons_self) stepped
    -- For its own root the rest is what comes after it, for all others nothing has happened.
    have parts : ∀ other, (queue.own mixed.drawer other).after?
        (Mixed.part ((root, action) :: later) other) =
          (next.own mixed.drawer other).after? (Mixed.part later other) := by
      intro other
      rw [Mixed.part_cons]
      by_cases same : root = other
      · subst same
        rw [if_pos rfl]
        exact congrArg (·.bind (·.after? (Mixed.part later root))) stepped
      · rw [if_neg same, apart other (Ne.symm same)]
    -- The tickets that are still to be drawn are those from the next one on.
    have counted : ∀ ticket, (Mixed.drawers later)[ticket]? =
        mixed.drawer (next.nextTicket + ticket) := by
      intro ticket
      rw [(step_of_step? happened).nextTicket]
      cases action with
      | draw =>
        rw [show (Action.draw.rename (mixed.common root)).nextAfter queue.nextTicket =
          queue.nextTicket + 1 from rfl, Nat.add_assoc, Nat.add_comm 1 ticket]
        exact drawn (ticket + 1)
      | _ => exact drawn ticket
    obtain ⟨final, ran, ownedFinal, ends⟩ := ih ownedNext counted
      (fun entry member => single entry (List.mem_cons_of_mem _ member))
      (fun other => parts other ▸ runs other)
    refine ⟨final, ?_, ownedFinal, fun other => (parts other).trans (ends other)⟩
    exact Option.bind_eq_some_iff.mpr ⟨next, happened, ran⟩

/-- A queue keeps account of all actions that happened to it. -/
theorem Accounts.of_after? (ran : empty.after? actions = some queue) : Accounts actions queue := by
  induction actions using List.reverseRecOn generalizing queue with
  | nil =>
    cases ran
    exact ⟨orderly_empty, fun _ => rfl, by simp [events], fun _ => rfl⟩
  | append_singleton actions action ih =>
    simp only [after?, List.foldlM_append, List.foldlM_cons, List.foldlM_nil] at ran
    obtain ⟨before, ranBefore, ran⟩ := Option.bind_eq_some_iff.mp ran
    obtain ⟨after, stepped, same⟩ := Option.bind_eq_some_iff.mp ran
    cases same
    exact (ih ranBefore).step (step_of_step? stepped)

/-- In every run the tickets that are used belong to one root each. -/
theorem exists_owner (ran : empty.after? actions = some queue) :
    ∃ owner : Nat → Option κ, ∀ action ∈ actions, action.Fair owner := by
  have accounts := Accounts.of_after? ran
  -- A ticket belongs to the root of the task that is found under it in the end.
  refine ⟨fun ticket => (queue.task? ticket).map (·.root), fun action member => ?_⟩
  cases action with
  | enter ticket root =>
    have admitted : ticket ∈ admitted root actions :=
      List.mem_filterMap.mpr ⟨_, member, by simp [Action.admits?]⟩
    rw [← accounts.lined root] at admitted
    obtain ⟨task, inLine, rfl⟩ := List.mem_map.mp admitted
    obtain ⟨there, rooted⟩ := mem_line.mp inLine
    simp [Action.Fair, task?_of_mem accounts.orderly.unique there, rooted]
  | _ => trivial

/-- Roots are independent of each other. Whichever roots the tickets of a run are drawn for, the
actions for one root, with its tickets counted anew, are a run by themselves. The same bodies start
and end, and the same tasks settle, in the same order and with the same results, and whatever can
happen next for the root in the one run can happen in the other. Conversely, runs for single roots
may be interleaved in any way, and each root comes to the same as by itself. -/
theorem roots_are_independent :
    (∀ (actions : List (Action κ α)) (queue : ProjectQueue κ α),
      empty.after? actions = some queue →
      (∃ owner : Nat → Option κ, ∀ action ∈ actions, action.Fair owner) ∧
      ∀ owner : Nat → Option κ, (∀ action ∈ actions, action.Fair owner) → ∀ root,
        empty.after? (ownActions owner root actions) = some (queue.own owner root) ∧
        (ownActions owner root actions).filter Action.isSeen =
          ((actions.filter Action.isSeen).filter fun action =>
            owns owner root (action.ticketAt 0)).map (Action.rename (place (owns owner root))) ∧
        (∀ ticket, owner ticket = some root →
          (queue.own owner root).stage? (place (owns owner root) ticket) = queue.stage? ticket) ∧
        ∀ action : Action κ α, action.Fair owner →
          owner (action.ticketAt queue.nextTicket) = some root →
          (queue.own owner root).step? (action.rename (place (owns owner root))) =
            (queue.step? action).map (own owner root)) ∧
    ∀ mixed : Mixed κ α,
      (∀ entry ∈ mixed, entry.2.IsFor entry.1) →
      (∀ root, (empty.after? (mixed.part root)).isSome) →
      ∃ queue, empty.after? mixed.merged = some queue ∧ ∀ root,
        empty.after? (mixed.part root) = some (queue.own mixed.drawer root) ∧
        ∀ ticket, mixed.drawer ticket = some root →
          (queue.own mixed.drawer root).stage? (place (owns mixed.drawer root) ticket) =
            queue.stage? ticket := by
  constructor
  · intro actions queue ran
    refine ⟨exists_owner ran, fun owner fair root => ?_⟩
    obtain ⟨owned, own⟩ : Owned owner queue ∧ (empty.own owner root).after?
        (keptActions (owns owner root) 0 actions) = some (queue.own owner root) :=
      (owned_empty owner).own_after? fair ran
    rw [own_empty] at own
    exact ⟨own, keptActions_filter_isSeen .., fun ticket => owned.own_stage?,
      fun action fair about => owned.own_step? about fair⟩
  · intro mixed single runs
    obtain ⟨queue, ran, owned, parts⟩ := Owned.merged_after? mixed mixed
      (owned_empty mixed.drawer) (fun ticket => by rw [Mixed.drawer]; simp [empty]) single
      (fun root => by rw [own_empty]; exact runs root)
    refine ⟨queue, ran, fun root => ⟨?_, fun ticket => owned.own_stage?⟩⟩
    rw [← own_empty (α := α) mixed.drawer root]
    exact parts root

/-- While a body of one root goes on and on, two tasks of another root come and go. -/
def parked : Mixed Nat Nat :=
  [(7, .draw), (8, .draw), (7, .enter 0 7), (8, .draw), (8, .enter 1 8), (7, .wake 0),
    (7, .start 0), (8, .enter 0 8), (8, .wake 1), (8, .start 1),
    (8, .finish 1 (.returned (.ok 5))), (8, .clear 1), (8, .settle 1), (8, .wake 0), (8, .start 0),
    (8, .finish 0 (.panicked "out of memory")), (8, .settle 0)]

/-- The body that goes on does not keep the tasks of the other root, which settle as they would by
themselves. -/
theorem roots_are_independent_parked :
    (∃ queue, empty.after? parked.merged = some queue ∧
      empty.after? (parked.part 8) = some (queue.own parked.drawer 8)) ∧
    ∃ queue : ProjectQueue Nat Nat, empty.after? parked.merged = some queue ∧
      queue.isRunning 0 ∧ queue.result? 2 = some (.ok 5) ∧
      empty.after? (ownActions parked.drawer 8 parked.merged) =
        some (queue.own parked.drawer 8) ∧
      (queue.own parked.drawer 8).stage? 1 = some (.settled (.ok 5)) := by
  constructor
  · have runs : ∀ root, (empty.after? (parked.part root)).isSome := by
      intro root
      by_cases seven : root = 7
      · subst seven
        rfl
      · by_cases eight : root = 8
        · subst eight
          rfl
        · simp [parked, Mixed.part, Ne.symm seven, Ne.symm eight]
          rfl
    obtain ⟨queue, ran, parts⟩ := roots_are_independent.2 parked (by decide) runs
    exact ⟨queue, ran, (parts 8).1⟩
  · have deleted := (roots_are_independent.1 parked.merged _ rfl).2 parked.drawer (by decide) 8
    exact ⟨_, rfl, rfl, rfl, deleted.1, deleted.2.2.1 2 rfl⟩

end FlowService.ProjectQueue
