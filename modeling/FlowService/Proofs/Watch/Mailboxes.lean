import FlowService.Project.History

/-! What is done to one watch leaves the mailboxes of all others as they are. -/

namespace FlowService.ManualWatcher

variable {watcher : ManualWatcher}

/-- A mailbox that is not closed is one of those that were made. -/
theorem lt_of_mailbox {watch : Nat} (kept : watcher.mailbox watch ≠ .closed) :
    watch < watcher.mailboxes.length := by
  -- One that was never made reads as closed.
  refine Nat.lt_of_not_le fun beyond => kept ?_
  rw [mailbox, List.getD_eq_getElem?_getD, List.getElem?_eq_none beyond]
  rfl

/-- Closing a mailbox leaves the others as they are. -/
theorem mailbox_close (watch other : Nat) :
    (watcher.close watch).mailbox other =
      if other = watch then .closed else watcher.mailbox other := by
  -- Closing a mailbox that was never made changes nothing, and it reads as closed all the same.
  unfold mailbox close
  rw [List.getD_eq_getElem?_getD, List.getD_eq_getElem?_getD, List.getElem?_set]
  by_cases same : watch = other
  · subst same
    by_cases made : watch < watcher.mailboxes.length <;> simp [made]
  · simp [same, Ne.symm same]

/-- An event reaches an open mailbox and no other. -/
theorem mailbox_deliver (event : WatchEvent) (watch other : Nat) :
    (deliver event watcher watch).mailbox other =
      if other = watch ∧ watcher.isOpen watch then .holding event else watcher.mailbox other := by
  -- An open mailbox was made, so there is a place for the event.
  unfold deliver
  by_cases reached : watcher.isOpen watch
  · have made := lt_of_mailbox (bne_iff_ne.mp reached)
    rw [if_pos reached]
    unfold mailbox
    rw [List.getD_eq_getElem?_getD, List.getD_eq_getElem?_getD, List.getElem?_set]
    by_cases same : watch = other
    · subst same
      simp [made, reached]
    · simp [same, Ne.symm same]
  · simp [reached]

@[simp] theorem deliver_pending (event : WatchEvent) (watch : Nat) :
    (deliver event watcher watch).pending = watcher.pending := by
  unfold deliver
  split <;> rfl

@[simp] theorem deliver_length (event : WatchEvent) (watch : Nat) :
    (deliver event watcher watch).mailboxes.length = watcher.mailboxes.length := by
  unfold deliver
  split
  · exact List.length_set
  · rfl

/-- What delivering an event to one mailbox leaves as it is, delivering it to several does too. -/
theorem deliverAll_keeps {β : Type} (read : ManualWatcher → β) {event : WatchEvent}
    (keeps : ∀ watcher watch, read (deliver event watcher watch) = read watcher)
    (watches : List Nat) : read (watches.foldl (deliver event) watcher) = read watcher := by
  -- One delivery follows the other, each on what the one before left.
  induction watches generalizing watcher with
  | nil => rfl
  | cons watch rest ih => exact ih.trans (keeps watcher watch)

/-- An event that goes to several mailboxes reaches those of them that are open. -/
theorem mailbox_deliverAll (event : WatchEvent) (watches : List Nat) (other : Nat) :
    (watches.foldl (deliver event) watcher).mailbox other =
      if other ∈ watches ∧ watcher.isOpen other then .holding event
      else watcher.mailbox other := by
  -- A mailbox that got the event is still open, so the event may come to it once more.
  induction watches generalizing watcher with
  | nil => simp
  | cons watch rest ih =>
    have stillOpen : (deliver event watcher watch).isOpen other = watcher.isOpen other := by
      unfold isOpen
      rw [mailbox_deliver]
      split
      · rename_i reached
        obtain ⟨rfl, opened⟩ := reached
        exact Eq.trans rfl opened.symm
      · rfl
    rw [List.foldl_cons, ih, stillOpen, mailbox_deliver]
    by_cases same : other = watch
    · subst same
      by_cases opened : watcher.isOpen other <;> simp [opened]
    · simp [same]

/-- Firing a path takes its watches out of those that still wait. -/
theorem fire_pending (path : Path) (event : WatchEvent) :
    (watcher.fire path event).2.pending =
      watcher.pending.filter fun entry => !entry.1.sameAs path :=
  deliverAll_keeps (·.pending) (fun _ watch => deliver_pending event watch) _

/-- Firing a path makes no mailbox. -/
theorem fire_length (path : Path) (event : WatchEvent) :
    (watcher.fire path event).2.mailboxes.length = watcher.mailboxes.length :=
  deliverAll_keeps (·.mailboxes.length) (fun _ watch => deliver_length event watch) _

/-- Firing a path puts the event into the open mailboxes of its watches. -/
theorem mailbox_fire (path : Path) (event : WatchEvent) (other : Nat) :
    (watcher.fire path event).2.mailbox other =
      if (∃ entry ∈ watcher.pending, entry.1.sameAs path ∧ entry.2 = other) ∧
          watcher.isOpen other then .holding event
      else watcher.mailbox other := by
  -- Which watches are told is read off before they are taken out of those that wait.
  have told : (∃ entry ∈ watcher.pending, entry.1.sameAs path ∧ entry.2 = other) ↔
      other ∈ (watcher.pending.filter (·.1.sameAs path)).map (·.2) := by
    simp [and_assoc]
  simp only [told]
  exact mailbox_deliverAll event _ other

/-- A new mailbox comes behind the others, which stay as they are. -/
theorem mailbox_append (pending : List (Path × Nat)) (new : Mailbox) {other : Nat}
    (made : other ≤ watcher.mailboxes.length) :
    (⟨pending, watcher.mailboxes ++ [new]⟩ : ManualWatcher).mailbox other =
      if other = watcher.mailboxes.length then new else watcher.mailbox other := by
  -- Its number is how many there were before it.
  unfold mailbox
  rw [List.getD_eq_getElem?_getD, List.getD_eq_getElem?_getD]
  split
  · rename_i last
    simp [last]
  · rename_i old
    rw [List.getElem?_append_left (Nat.lt_of_le_of_ne made old)]

/-- One watch that waits is told and no other. -/
theorem mailbox_tell (watch : Nat) (event : WatchEvent) (other : Nat) :
    (watcher.tell watch event).mailbox other =
      if other = watch ∧ watcher.mailbox watch = .waiting then .holding event
      else watcher.mailbox other := by
  -- A watch that waits has an open mailbox, and any other is not told.
  unfold tell
  split
  · rename_i waits
    have opened : watcher.isOpen watch := by simp [isOpen, waits]
    rw [mailbox_deliver]
    show (if other = watch ∧ watcher.isOpen watch then _ else watcher.mailbox other) = _
    simp only [opened, waits, and_true]
  · rename_i busy
    rw [if_neg fun both => busy both.2]

/-- Telling a watch makes no mailbox. -/
theorem tell_length (watch : Nat) (event : WatchEvent) :
    (watcher.tell watch event).mailboxes.length = watcher.mailboxes.length := by
  unfold tell
  split
  · exact deliver_length event watch
  · rfl

/-- Telling a watch takes no other out of those that wait. -/
theorem mem_tell_pending {watch : Nat} {event : WatchEvent} {entry : Path × Nat}
    (member : entry ∈ watcher.pending) (apart : entry.2 ≠ watch) :
    entry ∈ (watcher.tell watch event).pending := by
  unfold tell
  split
  · simpa [apart] using member
  · exact member

/-- Telling a watch adds none to those that wait. -/
theorem tell_pending_sublist (watch : Nat) (event : WatchEvent) :
    (watcher.tell watch event).pending.Sublist watcher.pending := by
  unfold tell
  split
  · rw [deliver_pending]
    exact List.filter_sublist
  · exact List.Sublist.refl _

end FlowService.ManualWatcher
