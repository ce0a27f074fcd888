import FlowService.Proofs.Watch.Mailboxes

/-! A watch that hears of its event goes on to hear of it, whatever is done to other watches. -/

namespace FlowService.Locator

/-- A watch waits for its event, which would reach it. -/
def Armed (watcher : ManualWatcher) (watch : LocatorWatch) : Prop :=
  watcher.mailbox watch.number = .waiting ∧ (watch.watched, watch.number) ∈ watcher.pending

/-- The event of a watch has come, and the watch is yet to act on it. -/
def Fired (watcher : ManualWatcher) (watch : LocatorWatch) : Prop :=
  ∃ event, watcher.mailbox watch.number = .holding event

/-- A watch hears of its event. -/
def Hears (watcher : ManualWatcher) (watch : LocatorWatch) : Prop :=
  Armed watcher watch ∨ Fired watcher watch

variable {watcher : ManualWatcher} {watch : LocatorWatch}

/-- An event that has come is not lost when a path is fired. -/
theorem Fired.fire (fired : Fired watcher watch) (path : Path) (event : WatchEvent) :
    Fired (watcher.fire path event).2 watch := by
  -- At most it is replaced by the event that is fired.
  unfold Fired
  rw [ManualWatcher.mailbox_fire]
  split
  · exact ⟨event, rfl⟩
  · exact fired

/-- An event that has come is not lost when a watch is told of another one. -/
theorem Fired.tell (fired : Fired watcher watch) (number : Nat) (event : WatchEvent) :
    Fired (watcher.tell number event) watch := by
  unfold Fired
  rw [ManualWatcher.mailbox_tell]
  split
  · exact ⟨event, rfl⟩
  · exact fired

/-- An event that has come is not lost when the mailbox of another watch is closed. -/
theorem Fired.close (fired : Fired watcher watch) {number : Nat} (apart : watch.number ≠ number) :
    Fired (watcher.close number) watch := by
  unfold Fired
  rw [ManualWatcher.mailbox_close, if_neg apart]
  exact fired

namespace Hears

/-- A watch that hears of its event has not closed its mailbox. -/
theorem isOpen (hears : Hears watcher watch) : watcher.isOpen watch.number := by
  -- A mailbox in which one waits or an event lies is open.
  rcases hears with ⟨waits, _⟩ | ⟨event, holds⟩
  · simp [ManualWatcher.isOpen, waits]
  · simp [ManualWatcher.isOpen, holds]

/-- A watch has its event once its path was fired. -/
theorem fired (hears : Hears watcher watch) {path : Path} (event : WatchEvent)
    (same : watch.watched.sameAs path) : Fired (watcher.fire path event).2 watch := by
  -- A watch that waits is among those that are notified, and its mailbox takes the event.
  rcases hears with ⟨waits, pending⟩ | fired
  · have opened := isOpen (Or.inl ⟨waits, pending⟩)
    unfold Fired
    rw [ManualWatcher.mailbox_fire, if_pos ⟨⟨_, pending, same, rfl⟩, opened⟩]
    exact ⟨event, rfl⟩
  · exact fired.fire path event

/-- A watch still hears when a path is fired. -/
theorem fire (hears : Hears watcher watch) (path : Path) (event : WatchEvent) :
    Hears (watcher.fire path event).2 watch := by
  -- Either its own path is fired, or it goes on to wait with those of the other paths.
  by_cases same : watch.watched.sameAs path
  · exact Or.inr (hears.fired event same)
  · rcases hears with ⟨waits, pending⟩ | fired
    · unfold Hears Armed Fired
      rw [ManualWatcher.mailbox_fire, ManualWatcher.fire_pending]
      split
      · exact Or.inr ⟨event, rfl⟩
      · exact Or.inl ⟨waits, List.mem_filter.mpr ⟨pending, by simp [same]⟩⟩
    · exact Or.inr (fired.fire path event)

/-- A watch still hears when one is told of an event. -/
theorem tell (hears : Hears watcher watch) (number : Nat) (event : WatchEvent) :
    Hears (watcher.tell number event) watch := by
  -- Told itself, a watch that waits has its event; otherwise it still waits.
  rcases hears with ⟨waits, pending⟩ | fired
  · by_cases meant : watch.number = number
    · refine Or.inr ?_
      unfold Fired
      rw [ManualWatcher.mailbox_tell, if_pos ⟨meant, meant ▸ waits⟩]
      exact ⟨event, rfl⟩
    · refine Or.inl ⟨?_, ManualWatcher.mem_tell_pending pending meant⟩
      rw [ManualWatcher.mailbox_tell, if_neg fun both => meant both.1]
      exact waits
  · exact Or.inr (fired.tell number event)

/-- A watch still hears when the mailbox of another one is closed. -/
theorem close (hears : Hears watcher watch) {number : Nat} (apart : watch.number ≠ number) :
    Hears (watcher.close number) watch := by
  rcases hears with ⟨waits, pending⟩ | fired
  · refine Or.inl ⟨?_, pending⟩
    rw [ManualWatcher.mailbox_close, if_neg apart]
    exact waits
  · exact Or.inr (fired.close apart)

/-- A watch still hears when another one is made. -/
theorem append (hears : Hears watcher watch) {pending : List (Path × Nat)}
    (kept : ∀ entry ∈ watcher.pending, entry ∈ pending) (new : Mailbox) :
    Hears ⟨pending, watcher.mailboxes ++ [new]⟩ watch := by
  -- The mailbox of the watch was made before, so the new one does not stand in its place.
  have made := ManualWatcher.lt_of_mailbox (bne_iff_ne.mp hears.isOpen)
  have same := ManualWatcher.mailbox_append pending new (Nat.le_of_lt made)
  rw [if_neg (Nat.ne_of_lt made)] at same
  unfold Hears Armed Fired
  rw [same]
  exact hears.imp_left fun armed => ⟨armed.1, kept _ armed.2⟩

end Hears

end FlowService.Locator
