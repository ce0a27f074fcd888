import FlowService.Proofs.Project.Steps
import Mathlib.Data.List.Nodup

/-! Every live watch of a locator hears of its event, and no watch is registered twice. -/

namespace FlowService.Locator

/-- What holds of the watches of a locator at any time. -/
structure Tended (locator : Locator) : Prop where
  numbered : (locator.watches.map (·.number)).Nodup
  bounded : ∀ watch ∈ locator.watches, watch.number < locator.watcher.mailboxes.length
  hearing : ∀ watch ∈ locator.watches, watch.stage = .live → Hears locator.watcher watch
  registered : ∀ entry ∈ locator.registry, entry.2 < locator.watches.length
  -- No watch is registered for two directories.
  distinct : (locator.registry.map (·.2)).Nodup

/-- A locator that knows nothing has no watch to tend. -/
theorem tended_empty : Tended empty where
  -- Neither a watch nor a directory is there to speak of.
  numbered := List.nodup_nil
  bounded := by simp [empty]
  hearing := by simp [empty]
  registered := by simp [empty]
  distinct := List.nodup_nil

namespace Tended

variable {locator : Locator}

/-- No two watches bear the same number. -/
theorem number_ne (tended : Tended locator) {one other : Nat} {left right : LocatorWatch}
    (oneFound : locator.watches[one]? = some left)
    (otherFound : locator.watches[other]? = some right) (apart : one ≠ other) :
    left.number ≠ right.number := by
  -- In a list without repetitions a number stands at one place.
  intro same
  obtain ⟨within, _⟩ := List.getElem?_eq_some_iff.mp oneFound
  have distinct := List.getElem?_inj (j := other) (by simpa using within) tended.numbered
  exact apart (distinct.mp (by simp [oneFound, otherFound, same]))

/-- A watch that stops being live leaves the others tended. -/
theorem setStage (tended : Tended locator) (index : Nat) (stage : WatchStage)
    (passed : stage ≠ .live) : Tended (locator.setStage index stage) := by
  -- The numbers stay, and whatever is live afterwards was live before.
  have numbers := setStage_numbers locator index stage
  refine ⟨?_, ?_, ?_, ?_, tended.distinct⟩
  · rw [numbers]
    exact tended.numbered
  · intro watch member
    have listed : watch.number ∈ (locator.setStage index stage).watches.map (·.number) :=
      List.mem_map_of_mem member
    rw [numbers] at listed
    obtain ⟨before, beforeMember, same⟩ := List.mem_map.mp listed
    exact same ▸ tended.bounded before beforeMember
  · intro watch member live
    obtain ⟨place, found⟩ := List.mem_iff_getElem?.mp member
    have before := (live_of_setStage passed found live).2
    exact tended.hearing watch (List.mem_of_getElem? before) live
  · intro entry member
    have below := tended.registered entry member
    simpa [Locator.setStage] using below

/-- Telling a watch to stop leaves the others tended. -/
theorem abortOf (tended : Tended locator) (directory : Path) :
    Tended (locator.abortOf directory) := by
  rcases abortOf_cases locator directory with same | ⟨index, _, stopped⟩
  · rw [same]
    exact tended
  · rw [stopped]
    exact tended.setStage index .aborted (by decide)

/-- Watches are still tended when some directories are no longer registered. -/
theorem unregister (tended : Tended locator) {registry : List (Path × Nat)}
    (kept : registry.Sublist locator.registry) : Tended { locator with registry := registry } :=
  ⟨tended.numbered, tended.bounded, tended.hearing,
    fun entry member => tended.registered entry (kept.subset member),
    (kept.map _).nodup tended.distinct⟩

/-- Watches are still tended when the watcher changes and all live ones still hear. -/
theorem rewatch (tended : Tended locator) (watcher : ManualWatcher)
    (grown : locator.watcher.mailboxes.length ≤ watcher.mailboxes.length)
    (hearing : ∀ watch ∈ locator.watches, watch.stage = .live → Hears watcher watch) :
    Tended { locator with watcher := watcher } :=
  ⟨tended.numbered, fun watch member => Nat.lt_of_lt_of_le (tended.bounded watch member) grown,
    hearing, tended.registered, tended.distinct⟩

/-- A new watch that hears of its event and bears a new number is tended with the others. -/
theorem enlist (tended : Tended locator) (directory : Path) (watch : LocatorWatch)
    (fresh : watch.number ∉ locator.watches.map (·.number))
    (made : watch.number < locator.watcher.mailboxes.length)
    (hears : Hears locator.watcher watch) :
    Tended { locator with
      registry := remember locator.registry directory locator.watches.length
      watches := locator.watches ++ [watch] } := by
  -- Whatever was there stays, so each part is asked of the new watch only.
  have kept : (forget locator.registry directory).Sublist locator.registry := List.filter_sublist
  refine ⟨?_, ?_, ?_, ?_, ?_⟩
  · rw [List.map_append, List.nodup_append]
    refine ⟨tended.numbered, List.nodup_singleton _, ?_⟩
    rintro number old other new rfl
    obtain rfl : number = watch.number := List.mem_singleton.mp new
    exact fresh old
  · intro other member
    rcases List.mem_append.mp member with old | new
    · exact tended.bounded other old
    · exact List.mem_singleton.mp new ▸ made
  · intro other member live
    rcases List.mem_append.mp member with old | new
    · exact tended.hearing other old live
    · exact List.mem_singleton.mp new ▸ hears
  · intro entry member
    rw [List.length_append]
    rcases List.mem_append.mp member with old | new
    · exact Nat.lt_add_right 1 (tended.registered entry (kept.subset old))
    · rw [List.mem_singleton.mp new]
      exact Nat.lt_succ_self _
  · -- The new watch comes behind all that are registered.
    unfold remember
    rw [List.map_append, List.nodup_append]
    refine ⟨(kept.map _).nodup tended.distinct, List.nodup_singleton _, ?_⟩
    rintro index old other new rfl
    obtain ⟨entry, member, rfl⟩ := List.mem_map.mp old
    exact Nat.ne_of_lt (tended.registered entry (kept.subset member)) (List.mem_singleton.mp new)

/-- A new watch takes the place of an earlier one of its directory and is tended. -/
theorem register (tended : Tended locator) (directory : Path) {watch : LocatorWatch}
    (fresh : watch.number ∉ locator.watches.map (·.number))
    (made : watch.number < locator.watcher.mailboxes.length)
    (hears : Hears locator.watcher watch) : Tended (locator.register directory watch) := by
  -- First what is done is dropped and the earlier watch is stopped, then the new one is added.
  have vacated : Tended (locator.vacated directory) :=
    (tended.unregister List.filter_sublist).abortOf directory
  have enlisted := vacated.enlist directory watch (by rwa [vacated_numbers])
    (by rwa [vacated_watcher]) (by rwa [vacated_watcher])
  rw [vacated_registry, vacated_length] at enlisted
  rw [register_eq]
  exact enlisted

/-- Making a watch keeps all watches tended, wherever watches can be made. -/
theorem watchFor (tended : Tended locator) (source : WatchSource) (directory watched : Path)
    (chain : List Path) : Tended (locator.watchFor source directory watched chain) := by
  -- The new mailbox comes behind all others, so its number is not taken.
  have fresh : locator.watcher.mailboxes.length ∉ locator.watches.map (·.number) := by
    rintro listed
    obtain ⟨other, member, same⟩ := List.mem_map.mp listed
    exact Nat.ne_of_lt (tended.bounded other member) same
  cases source with
  | manual =>
    have watched := tended.rewatch (locator.watcher.watch watched).2
      (by simp [ManualWatcher.watch]) fun other member live =>
        (tended.hearing other member live).append (fun _ => List.mem_append_left _) .waiting
    refine watched.register directory fresh (by simp [ManualWatcher.watch]) (Or.inl ⟨?_, ?_⟩)
    · exact (ManualWatcher.mailbox_append _ _ (Nat.le_refl _)).trans (if_pos rfl)
    · exact List.mem_append_right _ (List.mem_singleton_self _)
  | closed =>
    -- The event that the watcher went away is in the mailbox from the beginning.
    have watched := tended.rewatch locator.watcher.watchClosed.2
      (by simp [ManualWatcher.watchClosed]) fun other member live =>
        (tended.hearing other member live).append (fun _ => id)
          (.holding (.failed "watcher closed"))
    refine watched.register directory fresh (by simp [ManualWatcher.watchClosed])
      (Or.inr ⟨.failed "watcher closed", ?_⟩)
    exact (ManualWatcher.mailbox_append _ _ (Nat.le_refl _)).trans (if_pos rfl)
  | failing => exact tended
  | none => exact tended

/-- A watch that is done leaves the others tended. -/
theorem finish (tended : Tended locator) {index : Nat} {watch : LocatorWatch}
    (found : locator.watches[index]? = some watch) :
    Tended ({ locator with watcher := locator.watcher.close watch.number }.setStage index
      .done) := by
  -- Only its own mailbox is closed, which no other watch looks into.
  refine (tended.setStage index .done (by decide)).rewatch _ ?_ ?_
  · exact Nat.le_of_eq List.length_set.symm
  · intro other member live
    obtain ⟨place, located⟩ := List.mem_iff_getElem?.mp member
    obtain ⟨apart, before⟩ := live_of_setStage (by decide) located live
    have hears := tended.hearing other (List.mem_of_getElem? before) live
    exact hears.close (tended.number_ne before found (Ne.symm apart))

/-- Every action keeps the watches tended, whatever the disk is like. -/
theorem act (tended : Tended locator) (disk : Disk) (action : Action) :
    Tended (locator.act disk action) := by
  -- The cache does not matter here, so each action is looked at without its answers.
  cases action with
  | resolve source discover directory =>
    cases answer : locator.cached? directory with
    | some answer => rw [act_resolve_of_known answer]; exact tended
    | none =>
      rw [act_resolve_of_unknown answer]
      refine watchFor ?_ source directory _ _
      exact ⟨tended.numbered, tended.bounded, tended.hearing, tended.registered, tended.distinct⟩
  | invalidate directory =>
    have kept : (forget locator.registry directory).Sublist
        (locator.abortOf directory).registry := by
      rw [abortOf_registry]
      exact List.filter_sublist
    have stopped := (tended.abortOf directory).unregister kept
    exact ⟨stopped.numbered, stopped.bounded, stopped.hearing, stopped.registered,
      stopped.distinct⟩
  | fire path event =>
    exact tended.rewatch _ (Nat.le_of_eq (ManualWatcher.fire_length path event).symm)
      fun watch member live => (tended.hearing watch member live).fire path event
  | tell number event =>
    exact tended.rewatch _ (Nat.le_of_eq (ManualWatcher.tell_length number event).symm)
      fun watch member live => (tended.hearing watch member live).tell number event
  | run index =>
    show Tended (locator.run index)
    rcases run_cases locator index with same | ⟨watch, found, ⟨_, done⟩ | ⟨_, _, done⟩⟩
    · rw [same]
      exact tended
    · rw [done]
      exact tended.finish found
    · have finished := tended.finish found
      rw [done]
      exact ⟨finished.numbered, finished.bounded, finished.hearing, finished.registered,
        finished.distinct⟩

end Tended

end FlowService.Locator
