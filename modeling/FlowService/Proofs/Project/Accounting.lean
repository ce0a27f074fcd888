import FlowService.Proofs.Project.Covered

/-!
Every subscription of a locator is that of one watch, and is given up when the watch is done; every
directory is registered once.
-/

namespace FlowService.Locator

variable {locator : Locator} {directory : Path} {index : Nat} {watch : LocatorWatch}

/-- What holds of the subscriptions and of the registry of a locator at any time. -/
structure Accounted (locator : Locator) : Prop where
  -- Every subscription is that of one watch, and both are numbered in the order they are made.
  paired : locator.watches.map (·.number) = List.range locator.watcher.mailboxes.length
  released : ∀ watch ∈ locator.watches, watch.stage = .done →
    locator.watcher.mailbox watch.number = .closed
  pendingOnce : (locator.watcher.pending.map (·.2)).Nodup
  pendingMade : ∀ entry ∈ locator.watcher.pending, entry.2 < locator.watcher.mailboxes.length
  -- No directory is registered twice, however it is spelled.
  keysOnce : (locator.registry.map (·.1.trail)).Nodup

/-- A locator that knows nothing has nothing to account for. -/
theorem accounted_empty : Accounted empty where
  paired := rfl
  released := by simp [empty]
  pendingOnce := List.nodup_nil
  pendingMade := by simp [empty, ManualWatcher.empty]
  keysOnce := List.nodup_nil

/-- A watch that is done after a change to another stage was done before. -/
theorem done_of_setStage {stage : WatchStage} (unfinished : stage ≠ .done)
    (member : watch ∈ (locator.setStage index stage).watches) (done : watch.stage = .done) :
    watch ∈ locator.watches := by
  obtain ⟨place, found⟩ := List.mem_iff_getElem?.mp member
  rw [setStage_watches] at found
  obtain ⟨before, located, same⟩ := Option.map_eq_some_iff.mp found
  by_cases meant : index = place
  · rw [if_pos meant] at same
    exact absurd ((congrArg LocatorWatch.stage same).trans done) unfinished
  · rw [if_neg meant] at same
    exact same ▸ List.mem_of_getElem? located

/-- A watch that is done after one was told to stop was done before. -/
theorem done_of_abortOf (member : watch ∈ (locator.abortOf directory).watches)
    (done : watch.stage = .done) : watch ∈ locator.watches := by
  rcases abortOf_cases locator directory with same | ⟨index, _, stopped⟩
  · rwa [same] at member
  · rw [stopped] at member
    exact done_of_setStage (by decide) member done

/-- A watch that is done after room was made for another one was done before. -/
theorem done_of_vacated (member : watch ∈ (locator.vacated directory).watches)
    (done : watch.stage = .done) : watch ∈ locator.watches := by
  -- Only the registry was changed before the watch was told to stop.
  have before := done_of_abortOf member done
  exact before

/-- A table with one entry for each path has one after a value was set. -/
theorem nodup_remember {α : Type} {table : List (Path × α)}
    (once : (table.map (·.1.trail)).Nodup) (path : Path) (value : α) :
    ((remember table path value).map (·.1.trail)).Nodup := by
  unfold remember
  rw [List.map_append, List.nodup_append]
  refine ⟨(List.filter_sublist.map _).nodup once, List.nodup_singleton _, ?_⟩
  rintro trail old other new rfl
  -- The entry that was there under the path has been taken out.
  obtain ⟨entry, member, rfl⟩ := List.mem_map.mp old
  have apart : ¬entry.1.sameAs path := by simpa using (List.mem_filter.mp member).2
  exact apart (Path.sameAs_iff.mpr (List.mem_singleton.mp new))

namespace Accounted

/-- The watch of a subscription stands at its number. -/
theorem number_eq (accounted : Accounted locator) (found : locator.watches[index]? = some watch) :
    watch.number = index := by
  have listed : (locator.watches.map (·.number))[index]? = some watch.number := by
    rw [List.getElem?_map, found, Option.map_some]
  rw [accounted.paired] at listed
  exact (List.getElem?_eq_some_iff.mp listed).2.symm.trans (List.getElem_range _)

/-- Every subscription that was made has a watch. -/
theorem exists_watch (accounted : Accounted locator) {number : Nat}
    (made : number < locator.watcher.mailboxes.length) :
    ∃ watch, locator.watches[number]? = some watch ∧ watch.number = number := by
  have lengths := congrArg List.length accounted.paired
  rw [List.length_map, List.length_range] at lengths
  have within : number < locator.watches.length := lengths ▸ made
  exact ⟨_, List.getElem?_eq_getElem within,
    accounted.number_eq (List.getElem?_eq_getElem within)⟩

/-- Nothing else is to be accounted for when a watch is told to stop. -/
theorem abortOf (accounted : Accounted locator) (directory : Path) :
    Accounted (locator.abortOf directory) where
  paired := by rw [abortOf_numbers, abortOf_watcher, accounted.paired]
  released watch member done := by
    rw [abortOf_watcher]
    exact accounted.released watch (done_of_abortOf member done) done
  pendingOnce := by rw [abortOf_watcher]; exact accounted.pendingOnce
  pendingMade := by rw [abortOf_watcher]; exact accounted.pendingMade
  keysOnce := by rw [abortOf_registry]; exact accounted.keysOnce

/-- Less is to be accounted for when some directories are no longer registered. -/
theorem unregister (accounted : Accounted locator) {registry : List (Path × Nat)}
    (kept : registry.Sublist locator.registry) : Accounted { locator with registry := registry } :=
  ⟨accounted.paired, accounted.released, accounted.pendingOnce, accounted.pendingMade,
    (kept.map _).nodup accounted.keysOnce⟩

/-- Answers are not accounted for. -/
theorem recache (accounted : Accounted locator) (cache : List (Path × Option Path)) (asked : Nat) :
    Accounted { locator with cache := cache, asked := asked } :=
  ⟨accounted.paired, accounted.released, accounted.pendingOnce, accounted.pendingMade,
    accounted.keysOnce⟩

/-- Events may come and subscriptions be given up, as long as none is opened again. -/
theorem rewatch (accounted : Accounted locator) (watcher : ManualWatcher)
    (sameLength : watcher.mailboxes.length = locator.watcher.mailboxes.length)
    (pending : watcher.pending.Sublist locator.watcher.pending)
    (closed : ∀ number, locator.watcher.mailbox number = .closed →
      watcher.mailbox number = .closed) : Accounted { locator with watcher := watcher } where
  paired := by rw [sameLength]; exact accounted.paired
  released watch member done := closed _ (accounted.released watch member done)
  pendingOnce := (pending.map _).nodup accounted.pendingOnce
  pendingMade entry member := by
    rw [sameLength]
    exact accounted.pendingMade entry (pending.subset member)
  keysOnce := accounted.keysOnce

/-- A new subscription is accounted for by the watch that is registered for it. -/
theorem enlist (accounted : Accounted locator) (directory watched : Path) (chain : List Path)
    (mailbox : Mailbox) {pending : List (Path × Nat)} (once : (pending.map (·.2)).Nodup)
    (made : ∀ entry ∈ pending, entry.2 < locator.watcher.mailboxes.length + 1) :
    Accounted ({ locator with
      watcher := ⟨pending, locator.watcher.mailboxes ++ [mailbox]⟩ }.register directory
        ⟨watched, chain, locator.watcher.mailboxes.length, .live⟩) := by
  -- The watch that makes room is only told to stop, so it keeps its subscription for now.
  rw [register_eq]
  refine ⟨?_, ?_, ?_, ?_, ?_⟩
  · simp only [List.map_append, List.map_cons, List.map_nil, vacated_numbers, vacated_watcher,
      List.length_append, List.length_cons, List.length_nil, Nat.zero_add]
    rw [accounted.paired, List.range_succ]
  · intro watch member done
    rcases List.mem_append.mp member with old | new
    · have vacated := done_of_vacated old done
      have before : watch ∈ locator.watches := vacated
      have number : watch.number ∈ locator.watches.map (·.number) := List.mem_map_of_mem before
      rw [accounted.paired, List.mem_range] at number
      have kept := ManualWatcher.mailbox_append pending mailbox (Nat.le_of_lt number)
      rw [if_neg (Nat.ne_of_lt number)] at kept
      simp only [vacated_watcher]
      exact kept.trans (accounted.released watch before done)
    · rw [List.mem_singleton.mp new] at done
      cases done
  · simpa only [vacated_watcher] using once
  · simpa only [vacated_watcher, List.length_append, List.length_singleton] using made
  · exact nodup_remember ((List.filter_sublist.map _).nodup accounted.keysOnce) directory _

/-- Making a watch keeps everything accounted for, wherever watches can be made. -/
theorem watchFor (accounted : Accounted locator) (source : WatchSource) (directory watched : Path)
    (chain : List Path) : Accounted (locator.watchFor source directory watched chain) := by
  cases source with
  | none | failing => exact accounted
  | manual =>
    refine accounted.enlist directory watched chain .waiting ?_ ?_
    · rw [List.map_append, List.nodup_append]
      refine ⟨accounted.pendingOnce, List.nodup_singleton _, ?_⟩
      rintro number old other new rfl
      obtain ⟨entry, member, rfl⟩ := List.mem_map.mp old
      exact Nat.ne_of_lt (accounted.pendingMade entry member) (List.mem_singleton.mp new)
    · intro entry member
      rcases List.mem_append.mp member with old | new
      · exact Nat.lt_succ_of_lt (accounted.pendingMade entry old)
      · rw [List.mem_singleton.mp new]
        exact Nat.lt_succ_self _
  | closed =>
    -- A watcher that has gone away has nothing pending.
    exact accounted.enlist directory watched chain (.holding (.failed "watcher closed"))
      accounted.pendingOnce fun entry member =>
        Nat.lt_succ_of_lt (accounted.pendingMade entry member)

/-- A watch that is done has given its subscription up. -/
theorem finish (accounted : Accounted locator) (found : locator.watches[index]? = some watch) :
    Accounted ({ locator with watcher := locator.watcher.close watch.number }.setStage index
      .done) := by
  have closed : ∀ number, locator.watcher.mailbox number = .closed →
      (locator.watcher.close watch.number).mailbox number = .closed := by
    intro number before
    rw [ManualWatcher.mailbox_close]
    split
    · rfl
    · exact before
  have given := accounted.rewatch (locator.watcher.close watch.number) List.length_set
    (List.Sublist.refl _) closed
  refine ⟨?_, ?_, given.pendingOnce, given.pendingMade, given.keysOnce⟩
  · rw [setStage_numbers]
    exact given.paired
  · intro other member done
    obtain ⟨place, located⟩ := List.mem_iff_getElem?.mp member
    rw [setStage_watches] at located
    obtain ⟨before, there, same⟩ := Option.map_eq_some_iff.mp located
    by_cases meant : index = place
    · -- Its own mailbox has just been closed.
      subst meant
      obtain rfl : watch = before := Option.some.inj (found.symm.trans there)
      rw [if_pos rfl] at same
      rw [← same]
      exact (ManualWatcher.mailbox_close _ _).trans (if_pos rfl)
    · rw [if_neg meant] at same
      rw [← same]
      exact given.released before (List.mem_of_getElem? there) (same ▸ done)

/-- Every action keeps everything accounted for, whatever the disk is like. -/
theorem act (accounted : Accounted locator) (disk : Disk) (action : Action) :
    Accounted (locator.act disk action) := by
  -- Only a search makes a subscription, and nothing else opens one that was closed.
  cases action with
  | resolve source discover directory =>
    cases answer : locator.cached? directory with
    | some answer => rw [act_resolve_of_known answer]; exact accounted
    | none =>
      rw [act_resolve_of_unknown answer]
      exact (accounted.recache _ _).watchFor source directory _ _
  | invalidate directory =>
    have kept : (forget locator.registry directory).Sublist
        (locator.abortOf directory).registry := by
      rw [abortOf_registry]
      exact List.filter_sublist
    exact ((accounted.abortOf directory).unregister kept).recache _ _
  | fire path event =>
    refine accounted.rewatch (locator.watcher.fire path event).2
      (ManualWatcher.fire_length path event) ?_ fun number closed => ?_
    · rw [ManualWatcher.fire_pending]
      exact List.filter_sublist
    · rw [ManualWatcher.mailbox_fire, if_neg]
      · exact closed
      · simp [ManualWatcher.isOpen, closed]
  | tell number event =>
    refine accounted.rewatch _ (ManualWatcher.tell_length number event)
      (ManualWatcher.tell_pending_sublist number event) fun other closed => ?_
    rw [ManualWatcher.mailbox_tell, if_neg]
    · exact closed
    · rintro ⟨rfl, waits⟩
      rw [closed] at waits
      cases waits
  | run index =>
    show Accounted (locator.run index)
    rcases run_cases locator index with same | ⟨watch, found, ⟨_, done⟩ | ⟨_, _, done⟩⟩
    · rw [same]
      exact accounted
    · rw [done]
      exact accounted.finish found
    · rw [done]
      exact (accounted.finish found).recache _ _

end Accounted

/-- Everything is accounted for after any history. -/
theorem accounted_after (history : History) : Accounted (after history) := by
  induction history using List.reverseRecOn with
  | nil => exact accounted_empty
  | append_singleton history moment ih =>
    rw [after_concat]
    exact ih.act moment.1 moment.2

end FlowService.Locator
