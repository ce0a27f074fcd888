import FlowService.Proofs.Queue.Order
import Mathlib.Data.Nat.Count

/-!
Of a run some tickets may be kept and the others left out. The tickets that are kept are then counted
anew, since a queue hands out its tickets without gaps.
-/

namespace FlowService

/-- The same task with its tickets renamed. -/
def QueueTask.rename {κ α : Type} (rename : Nat → Nat) (task : QueueTask κ α) : QueueTask κ α :=
  { task with ticket := rename task.ticket, previous := task.previous.map rename }

/-- What is looked for in a list is found under another name among the entries that are kept. -/
theorem find?_map_filter {β γ : Type} {kept wanted : β → Bool} {rename : β → γ} {meant : γ → Bool}
    (same : ∀ entry, kept entry → meant (rename entry) = wanted entry)
    (only : ∀ entry, wanted entry → kept entry) (entries : List β) :
    ((entries.filter kept).map rename).find? meant = (entries.find? wanted).map rename := by
  rw [List.find?_map, List.find?_filter]
  congr 2
  funext entry
  cases isKept : kept entry with
  | true => simp [same entry isKept]
  | false =>
    have unwanted : wanted entry = false := by
      cases isWanted : wanted entry with
      | true => rw [only entry isWanted] at isKept; cases isKept
      | false => rfl
    simp [unwanted]

namespace ProjectQueue

variable {κ α : Type}

/-- The number of a ticket among those that are kept. -/
def place (keep : Nat → Bool) (ticket : Nat) : Nat := Nat.count (keep · = true) ticket

/-- A ticket that is kept moves the next one on. -/
theorem place_succ (keep : Nat → Bool) (ticket : Nat) :
    place keep (ticket + 1) = place keep ticket + if keep ticket then 1 else 0 :=
  Nat.count_succ ..

/-- No two tickets that are kept get the same number. -/
theorem place_inj {keep : Nat → Bool} {one other : Nat} (oneKept : keep one)
    (otherKept : keep other) (same : place keep one = place keep other) : one = other :=
  Nat.count_injective oneKept otherKept same

/-- The tickets that are kept stand in their places. -/
theorem getElem?_place {keep : Nat → Bool} {ticket : Nat} (kept : keep ticket) {count : Nat}
    (below : ticket < count) :
    ((List.range count).filter keep)[place keep ticket]? = some ticket := by
  -- As many tickets stand before a place as are kept of those below its ticket.
  have length : ∀ count, ((List.range count).filter keep).length = place keep count := by
    intro count
    induction count with
    | zero => rfl
    | succ count ih =>
      rw [List.range_succ, List.filter_append, List.length_append, ih, place_succ]
      by_cases last : keep count <;> simp [last]
  induction count with
  | zero => omega
  | succ count ih =>
    rw [List.range_succ, List.filter_append]
    by_cases last : ticket = count
    -- The last ticket stands behind all others, and every other one stood there before it.
    · subst last
      rw [List.getElem?_append_right (Nat.le_of_eq (length ticket)), length]
      simp [kept]
    · have found := ih (by omega)
      rw [List.getElem?_append_left]
      · exact found
      · exact (List.getElem?_eq_some_iff.mp found).1

/-- The ticket that an action names, unless it draws one. -/
def Action.ticket? : Action κ α → Option Nat
  | .draw => none
  | .enter ticket _ => some ticket
  | .wake ticket => some ticket
  | .start ticket => some ticket
  | .finish ticket _ => some ticket
  | .clear ticket => some ticket
  | .settle ticket => some ticket

/-- The ticket that an action is about when the given one is drawn next. -/
def Action.ticketAt (drawn : Nat) (action : Action κ α) : Nat := action.ticket?.getD drawn

/-- The ticket that is drawn next after an action. -/
def Action.nextAfter (drawn : Nat) : Action κ α → Nat
  | .draw => drawn + 1
  | _ => drawn

/-- The same action on another ticket. -/
def Action.rename (rename : Nat → Nat) : Action κ α → Action κ α
  | .draw => .draw
  | .enter ticket root => .enter (rename ticket) root
  | .wake ticket => .wake (rename ticket)
  | .start ticket => .start (rename ticket)
  | .finish ticket bodyEnd => .finish (rename ticket) bodyEnd
  | .clear ticket => .clear (rename ticket)
  | .settle ticket => .settle (rename ticket)

/-- An action is the same when its ticket gets the same name. -/
theorem Action.rename_rename {first second : Nat → Nat} {action : Action κ α}
    (same : ∀ ticket, action.ticket? = some ticket → second (first ticket) = ticket) :
    (action.rename first).rename second = action := by
  cases action <;> first | rfl | simp [rename, same _ rfl]

@[simp] theorem Action.ticket?_rename (rename : Nat → Nat) (action : Action κ α) :
    (action.rename rename).ticket? = action.ticket?.map rename := by
  cases action <;> rfl

/-- The actions on tickets that are kept, when the given ticket is drawn next. -/
def keptActions (keep : Nat → Bool) : Nat → List (Action κ α) → List (Action κ α)
  | _, [] => []
  | drawn, action :: later =>
    let rest := keptActions keep (action.nextAfter drawn) later
    -- A draw is about the ticket that it hands out.
    if keep (action.ticketAt drawn) then action.rename (place keep) :: rest else rest

/-- Whether an action is the start of a body, its end, or the end of its task. -/
def Action.isSeen : Action κ α → Bool
  | .start _ => true
  | .finish _ _ => true
  | .settle _ => true
  | _ => false

@[simp] theorem Action.isSeen_rename (rename : Nat → Nat) (action : Action κ α) :
    (action.rename rename).isSeen = action.isSeen := by
  cases action <;> rfl

/-- What is seen is about the ticket that it names. -/
theorem Action.ticketAt_of_isSeen {action : Action κ α} (seen : action.isSeen) (one other : Nat) :
    action.ticketAt one = action.ticketAt other := by
  cases action <;> first | rfl | cases seen

/-- What is seen of tickets that are kept is seen in the same order. -/
theorem keptActions_filter_isSeen (keep : Nat → Bool) (drawn : Nat) (actions : List (Action κ α)) :
    (keptActions keep drawn actions).filter Action.isSeen =
      ((actions.filter Action.isSeen).filter fun action => keep (action.ticketAt 0)).map
        (Action.rename (place keep)) := by
  -- The ticket that is drawn next moves on, but nothing that is seen asks for it.
  induction actions generalizing drawn with
  | nil => rfl
  | cons action later ih =>
    rw [keptActions]
    by_cases seen : action.isSeen
    · rw [Action.ticketAt_of_isSeen seen drawn 0, List.filter_cons_of_pos seen]
      by_cases kept : keep (action.ticketAt 0)
      · simp [kept, seen, ih]
      · simp [kept, ih]
    · rw [List.filter_cons_of_neg seen]
      split
      · rw [List.filter_cons_of_neg (by simpa using seen), ih]
      · exact ih _

variable [DecidableEq κ] {queue next : ProjectQueue κ α}

/-- Only a draw moves the next ticket on. -/
theorem Step.nextTicket {action : Action κ α} (step : Step queue action next) :
    next.nextTicket = action.nextAfter queue.nextTicket := by
  cases step with
  -- Taking off a mark leaves the count of tickets alone.
  | @clear ticket task =>
    show (queue.clearTail task.root ticket).nextTicket = queue.nextTicket
    unfold clearTail
    split <;> rfl
  | _ => rfl

/-- An action names a ticket of the queue. -/
theorem Step.ticket_mem {action : Action κ α} (step : Step queue action next) {ticket : Nat}
    (named : action.ticket? = some ticket) : ticket ∈ queue.tickets := by
  -- A ticket that is entered was drawn, and every other one has a task.
  have ofTask : ∀ {wanted : Nat} {task : QueueTask κ α}, queue.task? wanted = some task →
      some wanted = some ticket → ticket ∈ queue.tickets := by
    intro wanted task found same
    obtain ⟨member, bears⟩ := mem_of_task? found
    rw [← Option.some.inj same, ← bears]
    exact List.mem_append_left _ (List.mem_map_of_mem member)
  cases step with
  | draw => cases named
  | enter drawn => exact List.mem_append_right _ (Option.some.inj named ▸ drawn)
  | wake found | start found | finish found | clear found | settle found => exact ofTask found named

end ProjectQueue

end FlowService
