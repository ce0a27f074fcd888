import FlowService.Proofs.Project.Accounting
import FlowService.Proofs.Project.Forgetting
import Mathlib.Data.List.Dedup
import Mathlib.Data.List.Perm.Subperm

/-!
Watches do not pile up: every live one is registered for one directory that was resolved, and the
subscription of any other is given up as soon as the watch goes on.
-/

namespace FlowService.Locator

variable {history : History} {locator : Locator} {disk seen : Disk} {action : Action}
variable {directory : Path} {index : Nat} {watch : LocatorWatch}

/-- Only directories that were resolved are registered. -/
theorem resolved_of_registered {entry : Path × Nat} (member : entry ∈ (after history).registry) :
    ∃ seen, Resolved history seen entry.1 := by
  -- The induction is on the history from its end: entries are only added for what is resolved.
  induction history using List.reverseRecOn with
  | nil => cases member
  | append_singleton history moment ih =>
    have earlier : entry ∈ (after history).registry →
        ∃ seen, Resolved (history ++ [moment]) seen entry.1 := by
      intro before
      obtain ⟨seen, resolved⟩ := ih before
      exact ⟨seen, resolved.concat moment⟩
    obtain ⟨disk, action⟩ := moment
    rw [after_concat] at member
    rcases act_cases (after history) disk action with ⟨same, _⟩ |
        ⟨source, discover, directory, base, new, rfl, sameRegistry, _, _, registered⟩ |
        ⟨directory, forgotten, _⟩ | ⟨_, same, _⟩
    · exact earlier (same ▸ member)
    · -- The new entry is that of the directory, and all others were there before.
      rw [registered, register_eq] at member
      rcases List.mem_append.mp member with old | last
      · have before : entry ∈ base.registry :=
          List.mem_of_mem_filter (List.mem_of_mem_filter old)
        exact earlier (sameRegistry ▸ before)
      · rw [List.mem_singleton.mp last]
        exact ⟨disk, Resolved.last ..⟩
    · rw [forgotten] at member
      exact earlier (List.mem_of_mem_filter member)
    · exact earlier (same ▸ member)

/-- A watch that stays registered is not that of the directory that was taken out. -/
theorem lookup_ne_of_mem_forget {table : List (Path × Nat)} (distinct : (table.map (·.2)).Nodup)
    {entry : Path × Nat} (member : entry ∈ forget table directory) :
    lookup table directory ≠ some entry.2 := by
  intro found
  obtain ⟨stays, apart⟩ := List.mem_filter.mp member
  have same := trail_eq_of_mem distinct ⟨entry.1, stays, Path.sameAs_iff.mpr rfl⟩
    (mem_of_lookup found)
  rw [Path.sameAs_iff.mpr same] at apart
  cases apart

/-- No watch that is registered was told to stop. -/
theorem registered_not_aborted {entry : Path × Nat} (member : entry ∈ (after history).registry)
    (found : (after history).watches[entry.2]? = some watch) : watch.stage ≠ .aborted := by
  -- A watch is told to stop when its directory gets another one or is forgotten, and either way it
  -- loses its entry, which was the only one.
  induction history using List.reverseRecOn generalizing watch with
  | nil => cases member
  | append_singleton history moment ih =>
    obtain ⟨disk, action⟩ := moment
    have tended := tended_after history
    rw [after_concat] at member found
    rcases act_cases (after history) disk action with ⟨sameRegistry, sameWatches⟩ |
        ⟨_, _, directory, base, new, rfl, sameRegistry, sameWatches, live, registered⟩ |
        ⟨directory, forgotten, stopped⟩ | ⟨index, sameRegistry, done⟩
    · exact ih (sameRegistry ▸ member) (sameWatches ▸ found)
    · have distinct : (base.unfinished.map (·.2)).Nodup :=
        (List.filter_sublist.map _).nodup (sameRegistry ▸ tended.distinct)
      rw [registered, register_eq] at member found
      rcases List.mem_append.mp member with old | last
      · -- Only the watch of the directory is stopped, and it gives its entry to the new one.
        have apart := lookup_ne_of_mem_forget distinct old
        have before : entry ∈ (after history).registry :=
          sameRegistry ▸ List.mem_of_mem_filter (List.mem_of_mem_filter old)
        have within : entry.2 < (base.vacated directory).watches.length := by
          rw [vacated_length, sameWatches]
          exact tended.registered entry before
        rw [List.getElem?_append_left within, vacated, abortOf_watches apart] at found
        exact ih before (sameWatches ▸ found)
      · rw [List.mem_singleton.mp last, ← register_eq, register_last] at found
        rw [← Option.some.inj found, live]
        decide
    · rw [forgotten] at member
      rw [stopped, abortOf_watches (lookup_ne_of_mem_forget tended.distinct member)] at found
      exact ih (List.mem_of_mem_filter member) found
    · rw [sameRegistry] at member
      rw [done, setStage_watches] at found
      obtain ⟨before, located, same⟩ := Option.map_eq_some_iff.mp found
      subst same
      split
      · simp
      · exact ih member located

/-- A watch that was made earlier and is live now was live all the time. -/
theorem live_since (history later : History) (made : index < (after history).watches.length)
    (found : (after (history ++ later)).watches[index]? = some watch) (live : watch.stage = .live) :
    (after history).watches[index]? = some watch := by
  -- No action makes a watch live again or takes one away, so each live one was live before.
  suffices (after history).watches.length ≤ (after (history ++ later)).watches.length ∧
      ((after (history ++ later)).watches[index]? = some watch →
        (after history).watches[index]? = some watch) from this.2 found
  clear found
  induction later using List.reverseRecOn with
  | nil =>
    rw [List.append_nil]
    exact ⟨Nat.le_refl _, id⟩
  | append_singleton later moment ih =>
    obtain ⟨longer, earlier⟩ := ih
    rw [← List.append_assoc, after_concat]
    have within := Nat.lt_of_lt_of_le made longer
    rcases act_cases (after (history ++ later)) moment.1 moment.2 with ⟨_, same⟩ |
        ⟨_, _, directory, base, new, _, _, same, _, registered⟩ | ⟨directory, _, stopped⟩ |
        ⟨other, _, done⟩
    · rw [same]
      exact ⟨longer, earlier⟩
    · rw [registered]
      constructor
      · rw [register_eq, List.length_append, vacated_length, same]
        exact Nat.le_succ_of_le longer
      · intro found
        rcases live_of_register found live with ⟨last, _⟩ | ⟨before, _⟩
        · rw [register_registry, if_pos (Path.sameAs_iff.mpr rfl), same] at last
          exact absurd (Option.some.inj last) (Nat.ne_of_gt within)
        · exact earlier (same ▸ before)
    · rw [stopped, abortOf_length]
      exact ⟨longer, fun found => earlier (live_of_abortOf found live).1⟩
    · rw [done]
      refine ⟨?_, fun found => earlier (live_of_setStage (by decide) found live).2⟩
      simpa [setStage] using longer

/-- A watch waits for its event, or it is done. -/
def AtRest (locator : Locator) (index : Nat) : Prop :=
  ∀ watch, locator.watches[index]? = some watch → watch.stage = .done ∨
    watch.stage = .live ∧ locator.watcher.mailbox watch.number = .waiting

/-- A watch whose stage was changed is at that stage. -/
theorem stage_of_setStage {stage : WatchStage}
    (found : (locator.setStage index stage).watches[index]? = some watch) :
    watch.stage = stage := by
  rw [setStage_watches] at found
  obtain ⟨before, _, same⟩ := Option.map_eq_some_iff.mp found
  rw [if_pos rfl] at same
  exact same ▸ rfl

/-- A watch that went on is at rest. -/
theorem atRest_run (tended : Tended locator) (index : Nat) :
    AtRest (locator.run index) index := by
  intro watch found
  rcases run_cases locator index with same | ⟨_, _, ⟨_, done⟩ | ⟨_, _, done⟩⟩
  · have unchanged := found
    rw [same] at found ⊢
    cases stage : watch.stage with
    | done => exact Or.inl rfl
    | aborted =>
      -- A watch that was told to stop does not stay as it is.
      have stopped : locator.run index =
          { locator with watcher := locator.watcher.close watch.number }.setStage index .done := by
        simp [run, found, stage]
      rw [stopped] at unchanged
      exact absurd (stage.symm.trans (stage_of_setStage unchanged)) (by decide)
    | live =>
      rcases tended.hearing watch (List.mem_of_getElem? found) stage with ⟨waits, _⟩ | fired
      · exact Or.inr ⟨rfl, waits⟩
      · rw [run_of_fired found stage fired] at unchanged
        exact absurd (stage.symm.trans (stage_of_setStage unchanged)) (by decide)
  · rw [done] at found
    exact Or.inl (stage_of_setStage found)
  · rw [done] at found
    exact Or.inl (stage_of_setStage found)

/-- A watch at rest stays so whichever watch goes on. -/
theorem AtRest.run (rest : AtRest locator index) (tended : Tended locator) (other : Nat) :
    AtRest (locator.run other) index := by
  by_cases itself : other = index
  · exact itself ▸ atRest_run tended other
  · -- Only the mailbox of the other watch may be closed.
    have kept : ∀ watch ran, locator.watches[index]? = some watch →
        locator.watches[other]? = some ran → watch.stage = .done ∨
          watch.stage = .live ∧
            (locator.watcher.close ran.number).mailbox watch.number = .waiting := by
      intro watch ran found ranFound
      rw [ManualWatcher.mailbox_close,
        if_neg (tended.number_ne found ranFound (Ne.symm itself))]
      exact rest watch found
    intro watch found
    rcases run_cases locator other with same | ⟨ran, ranFound, ⟨_, done⟩ | ⟨_, _, done⟩⟩
    · rw [same] at found ⊢
      exact rest watch found
    · rw [done] at found ⊢
      rw [setStage_watches_of_ne _ itself] at found
      exact kept watch ran found ranFound
    · rw [done] at found ⊢
      rw [setStage_watches_of_ne _ itself] at found
      exact kept watch ran found ranFound

/-- Watches are still tended when some of them go on. -/
theorem tended_foldl (tended : Tended locator) (turns : List Nat) :
    Tended (turns.foldl run locator) := by
  induction turns generalizing locator with
  | nil => exact tended
  | cons turn rest ih => exact ih (tended.act default (.run turn))

/-- Every watch that went on at some time is at rest in the end. -/
theorem atRest_foldl (tended : Tended locator) {turns : List Nat} (ran : index ∈ turns) :
    AtRest (turns.foldl run locator) index := by
  -- The induction is on the turns from the last one, which is that of the watch or another.
  induction turns using List.reverseRecOn with
  | nil => cases ran
  | append_singleton turns turn ih =>
    have stillTended := tended_foldl tended turns
    rw [List.foldl_append]
    rcases List.mem_append.mp ran with before | last
    · exact (ih before).run stillTended turn
    · rw [List.mem_singleton.mp last]
      exact atRest_run stillTended turn

/-- Watches that go on are the latest part of a longer history. -/
theorem foldl_run_after (history : History) (disk : Disk) (turns : List Nat) :
    turns.foldl run (after history) =
      after (history ++ turns.map fun turn => (disk, .run turn)) := by
  simp only [after, List.foldl_append, List.foldl_map, act]

/-- No watch is made when watches go on. -/
theorem foldl_run_length (locator : Locator) (turns : List Nat) :
    (turns.foldl run locator).watches.length = locator.watches.length := by
  have kept : ∀ locator index, (run locator index).watches.length = locator.watches.length := by
    intro locator index
    rcases run_cases locator index with same | ⟨_, _, ⟨_, done⟩ | ⟨_, _, done⟩⟩
    · rw [same]
    · rw [done]
      exact List.length_modify ..
    · rw [done]
      exact List.length_modify ..
  induction turns generalizing locator with
  | nil => rfl
  | cons turn rest ih => exact (ih _).trans (kept locator turn)

/-- The directories that were ever resolved, each as what its spelling stands for. -/
def resolvedTrails (history : History) : List (List Component) :=
  history.filterMap fun moment => match moment.2 with
    | .resolve _ _ directory => some directory.trail
    | _ => none

/-- No directory is resolved when watches go on. -/
theorem resolvedTrails_turns (history : History) (disk : Disk) (turns : List Nat) :
    resolvedTrails (history ++ turns.map fun turn => (disk, .run turn)) =
      resolvedTrails history := by
  unfold resolvedTrails
  rw [List.filterMap_append, List.filterMap_map]
  exact (congrArg _ (List.filterMap_eq_nil_iff.mpr fun _ _ => rfl)).trans (List.append_nil _)

/-- A directory that was resolved is among those that were. -/
theorem mem_resolvedTrails (resolved : Resolved history seen directory) :
    directory.trail ∈ resolvedTrails history := by
  obtain ⟨source, discover, member⟩ := resolved
  exact List.mem_filterMap.mpr ⟨_, member, rfl⟩

/-- No more directories are registered than were resolved. -/
theorem registry_length_le (history : History) :
    (after history).registry.length ≤ (resolvedTrails history).dedup.length := by
  -- No directory has two entries, and each one that has an entry was resolved.
  have once := (accounted_after history).keysOnce
  have resolved : (after history).registry.map (·.1.trail) ⊆ (resolvedTrails history).dedup := by
    intro trail member
    obtain ⟨entry, registered, rfl⟩ := List.mem_map.mp member
    obtain ⟨seen, resolved⟩ := resolved_of_registered registered
    exact List.mem_dedup.mpr (mem_resolvedTrails resolved)
  rw [← List.length_map (·.1.trail)]
  exact (once.subperm resolved).length_le

/-- A live watch is registered for one directory, which was resolved. -/
theorem one_entry_of_live (found : (after history).watches[index]? = some watch)
    (live : watch.stage = .live) :
    ∃ directory, (directory, index) ∈ (after history).registry ∧
      lookup (after history).registry directory = some index ∧
      (∃ seen, Resolved history seen directory) ∧
      ∀ other, (other, index) ∈ (after history).registry → other = directory := by
  obtain ⟨_, spelled, _, registered, _⟩ := live_is_registered found live
  obtain ⟨directory, member, same⟩ := mem_of_lookup registered
  refine ⟨directory, member, ?_, resolved_of_registered member, fun other otherMember => ?_⟩
  · rw [lookup_congr _ (Path.sameAs_iff.mp same), registered]
  · have one := List.inj_on_of_nodup_map (tended_after history).distinct otherMember member rfl
    exact (Prod.mk.inj one).1

/-- A watch that is live after some were told to stop was live before and is none of those. -/
theorem live_of_aborts {entries : List (Path × Nat)}
    (found : (entries.foldl (fun stopped entry => stopped.abort entry.2) locator).watches[index]? =
      some watch) (live : watch.stage = .live) :
    locator.watches[index]? = some watch ∧ index ∉ entries.map (·.2) := by
  induction entries generalizing locator with
  | nil => exact ⟨found, List.not_mem_nil⟩
  | cons entry rest ih =>
    obtain ⟨after, others⟩ := ih found
    obtain ⟨before, apart⟩ := live_of_abort after live
    exact ⟨before, List.not_mem_cons_of_ne_of_not_mem (Ne.symm apart) others⟩

/-- Stopping the watches of all directories stops every live watch. -/
theorem stopAll_stops (history : History) :
    ∀ watch ∈ (after history).stopAll.watches, watch.stage ≠ .live := by
  intro watch member live
  obtain ⟨index, found⟩ := List.mem_iff_getElem?.mp member
  obtain ⟨before, unregistered⟩ := live_of_aborts found live
  obtain ⟨directory, registered, _⟩ := one_entry_of_live before live
  exact unregistered (List.mem_map_of_mem registered)

/-- Where all watches are at rest, each subscription is that of a live watch that waits, or it is
given up. -/
theorem armed_or_closed (history : History)
    (rest : ∀ index < (after history).watches.length, AtRest (after history) index) {number : Nat}
    (made : number < (after history).watcher.mailboxes.length) :
    (∃ watch, (after history).watches[number]? = some watch ∧ watch.number = number ∧
      watch.stage = .live ∧ Armed (after history).watcher watch) ∨
      (after history).watcher.mailbox number = .closed := by
  have accounted := accounted_after history
  obtain ⟨watch, found, numbered⟩ := accounted.exists_watch made
  obtain ⟨within, _⟩ := List.getElem?_eq_some_iff.mp found
  have member := List.mem_of_getElem? found
  rcases rest number within watch found with done | ⟨live, waits⟩
  · right
    rw [← numbered]
    exact accounted.released watch member done
  · left
    refine ⟨watch, found, numbered, live, ?_⟩
    rcases (tended_after history).hearing watch member live with armed | ⟨event, holds⟩
    · exact armed
    · rw [waits] at holds
      cases holds

/-- Where all watches are at rest, no more subscriptions are armed than directories registered. -/
theorem watched_length_le (history : History)
    (rest : ∀ index < (after history).watches.length, AtRest (after history) index) :
    (after history).watched.1.length ≤ (after history).registry.length := by
  have accounted := accounted_after history
  let locator := after history
  let armed := locator.watcher.pending.filter fun entry => locator.watcher.isOpen entry.2
  have once : (armed.map (·.2)).Nodup := (List.filter_sublist.map _).nodup accounted.pendingOnce
  have registered : armed.map (·.2) ⊆ locator.registry.map (·.2) := by
    intro number member
    obtain ⟨entry, waiting, rfl⟩ := List.mem_map.mp member
    obtain ⟨pending, opened⟩ := List.mem_filter.mp waiting
    rcases armed_or_closed history rest (accounted.pendingMade entry pending) with
      ⟨watch, found, _, live, _⟩ | closed
    · obtain ⟨directory, registered, _⟩ := one_entry_of_live found live
      exact List.mem_map.mpr ⟨_, registered, rfl⟩
    · -- A subscription that was given up is not armed.
      simp [ManualWatcher.isOpen, locator, closed] at opened
  have bound := (once.subperm registered).length_le
  rw [List.length_map, List.length_map] at bound
  show (armed.map (·.1)).length ≤ _
  rwa [List.length_map]

/-- A search that can make a watch makes a live one for its directory. -/
theorem search_is_watched {source : WatchSource} (works : source = .manual ∨ source = .closed)
    (unknown : (after history).cached? directory = none) (disk : Disk)
    (discover : Path → Option Path) :
    let searched := after (history ++ [(disk, .resolve source discover directory)])
    lookup searched.registry directory = some (after history).watches.length ∧
      ∃ watch, searched.watches[(after history).watches.length]? = some watch ∧
        watch.stage = .live := by
  intro searched
  obtain ⟨watcher, number, registered⟩ := watchFor_of_works works _ directory _ _
  have search := (after_concat history (disk, .resolve source discover directory)).trans
    ((act_resolve_of_unknown unknown).trans registered)
  rw [show searched = _ from search]
  exact ⟨(register_registry _).trans (if_pos (Path.sameAs_iff.mpr rfl)), _, register_last, rfl⟩

/-- Watches do not pile up. At any time every live one hears of its event and stands in the registry
under one directory, which was resolved and has no other watch there, and no watch that stands there
was told to stop; a search that can make a watch adds one. Once every watch went on, no more are
armed than directories were resolved, and every other subscription is given up. A watch that is not
live will never be, and leaves the answers alone whenever it goes on. -/
theorem watches_do_not_pile_up (history : History) :
    let locator := after history
    (∀ index watch, locator.watches[index]? = some watch → watch.stage = .live →
      Hears locator.watcher watch ∧ ∃ directory, (directory, index) ∈ locator.registry ∧
        lookup locator.registry directory = some index ∧
        (∃ seen, Resolved history seen directory) ∧
        ∀ other, (other, index) ∈ locator.registry → other = directory) ∧
    (locator.registry.map (·.1.trail)).Nodup ∧
    (∀ entry ∈ locator.registry, ∀ watch, locator.watches[entry.2]? = some watch →
      watch.stage ≠ .aborted) ∧
    (∀ disk source discover directory, source = .manual ∨ source = .closed →
      locator.cached? directory = none →
      let searched := after (history ++ [(disk, .resolve source discover directory)])
      lookup searched.registry directory = some locator.watches.length ∧
        ∃ watch, searched.watches[locator.watches.length]? = some watch ∧ watch.stage = .live) ∧
    (∀ turns : List Nat, (∀ index < locator.watches.length, index ∈ turns) →
      let settled := turns.foldl run locator
      settled.watched.1.length ≤ (resolvedTrails history).dedup.length ∧
      ∀ number < settled.watcher.mailboxes.length,
        (∃ watch, settled.watches[number]? = some watch ∧ watch.number = number ∧
          watch.stage = .live ∧ Armed settled.watcher watch) ∨
        settled.watcher.mailbox number = .closed) ∧
    (∀ index watch, locator.watches[index]? = some watch → watch.stage ≠ .live →
      ∀ later : History, let locator := after (history ++ later)
        (∀ watch, locator.watches[index]? = some watch → watch.stage ≠ .live) ∧
        (locator.run index).cache = locator.cache) := by
  intro locator
  have tended := tended_after history
  refine ⟨?_, (accounted_after history).keysOnce, ?_, ?_, ?_, ?_⟩
  · intro index watch found live
    exact ⟨tended.hearing watch (List.mem_of_getElem? found) live, one_entry_of_live found live⟩
  · exact fun entry member watch found => registered_not_aborted member found
  · exact fun disk source discover directory works unknown =>
      search_is_watched works unknown disk discover
  · intro turns all settled
    -- What is settled comes after a longer history, in which nothing more is resolved.
    let longer : History := history ++ turns.map fun turn => (default, .run turn)
    have same : settled = after longer := foldl_run_after history default turns
    have rest : ∀ index < settled.watches.length, AtRest settled index := fun index within =>
      atRest_foldl tended (all index (foldl_run_length locator turns ▸ within))
    rw [same] at rest ⊢
    refine ⟨?_, fun number => armed_or_closed longer rest⟩
    rw [← resolvedTrails_turns history default turns]
    exact Nat.le_trans (watched_length_le longer rest) (registry_length_le longer)
  · -- Whatever comes later, the watch is not live then and so does not act on its event.
    intro index watch found passed later locator
    obtain ⟨within, _⟩ := List.getElem?_eq_some_iff.mp found
    have never : ∀ watch, locator.watches[index]? = some watch → watch.stage ≠ .live := by
      intro other located live
      have before := live_since history later within located live
      rw [found] at before
      exact passed (Option.some.inj before ▸ live)
    refine ⟨never, ?_⟩
    rcases run_cases locator index with same | ⟨_, _, ⟨_, stopped⟩ | ⟨live, _⟩⟩
    · rw [same]
    · rw [stopped]
      rfl
    · exact absurd live (never _ ‹_›)

/-- A watch is stopped and its event comes all the same, a directory is resolved in vain and then
again, and two more get watches, one of a watcher that went away. -/
def restless : History :=
  let flow : Path → Option Path := fun _ => some ⟨true, ["flow"]⟩
  [(projectDisk, .resolve .manual flow ⟨true, ["src", "p"]⟩),
    (projectDisk, .invalidate ⟨true, ["src", "p"]⟩),
    (projectDisk, .resolve .failing flow ⟨true, ["src", "p"]⟩),
    (projectDisk, .invalidate ⟨true, ["src", "p"]⟩),
    (projectDisk, .resolve .manual flow ⟨true, ["src", "p"]⟩),
    (projectDisk, .fire ⟨true, ["flow"]⟩ .changed),
    (projectDisk, .resolve .closed flow ⟨true, ["lib", "p"]⟩),
    (projectDisk, .resolve .manual flow ⟨true, ["q"]⟩)]

/-- Of four watches three are live, and one is armed in the end. -/
theorem watches_do_not_pile_up_restless :
    let locator := after restless
    locator.watches.map (·.stage) = [.aborted, .live, .live, .live] ∧
    (∃ directory, (directory, 1) ∈ locator.registry ∧
      ∀ other, (other, 1) ∈ locator.registry → other = directory) ∧
    locator.settle.watched.1 = [⟨true, ["flow"]⟩] ∧
    locator.settle.watched.1.length ≤ (resolvedTrails restless).dedup.length ∧
    (resolvedTrails restless).dedup.length = 3 ∧
    locator.watcher.mailbox 0 = .holding .changed ∧
    (locator.run 0).cache = locator.cache := by
  intro locator
  obtain ⟨kept, _, _, _, settles, stopped⟩ := watches_do_not_pile_up restless
  have stages : locator.watches.map (·.stage) = [.aborted, .live, .live, .live] := by
    decide +kernel
  obtain ⟨second, found, live⟩ : ∃ watch, locator.watches[1]? = some watch ∧ watch.stage = .live :=
    Option.map_eq_some_iff.mp ((List.getElem?_map ..).symm.trans (congrArg (·[1]?) stages))
  obtain ⟨first, firstFound, aborted⟩ :
      ∃ watch, locator.watches[0]? = some watch ∧ watch.stage = .aborted :=
    Option.map_eq_some_iff.mp ((List.getElem?_map ..).symm.trans (congrArg (·[0]?) stages))
  obtain ⟨_, directory, registered, _, _, once⟩ := kept 1 second found live
  have bound := (settles (List.range locator.watches.length) fun _ => List.mem_range.mpr).1
  have idle := (stopped 0 first firstFound (by rw [aborted]; decide) []).2
  exact ⟨stages, ⟨directory, registered, once⟩, by decide +kernel, bound, by decide +kernel,
    by decide +kernel, by rwa [List.append_nil] at idle⟩

end FlowService.Locator
