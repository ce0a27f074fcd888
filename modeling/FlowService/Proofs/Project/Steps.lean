import FlowService.Proofs.Project.Table
import FlowService.Proofs.Watch.Hearing

/-! Each action of a locator comes down to a few changes of its tables and its watches. -/

namespace FlowService.Locator

/-- A change of stage concerns one watch, of which nothing else changes. -/
theorem setStage_watches (locator : Locator) (index : Nat) (stage : WatchStage) (other : Nat) :
    (locator.setStage index stage).watches[other]? = (locator.watches[other]?).map fun watch =>
      if index = other then { watch with stage := stage } else watch := by
  unfold setStage
  rw [List.getElem?_modify]
  rfl

/-- A change of stage leaves the other watches as they are. -/
theorem setStage_watches_of_ne (locator : Locator) {index other : Nat} (apart : index ≠ other)
    (stage : WatchStage) :
    (locator.setStage index stage).watches[other]? = locator.watches[other]? :=
  List.getElem?_modify_ne _ _ apart

/-- A change of stage keeps the numbers of all watches. -/
theorem setStage_numbers (locator : Locator) (index : Nat) (stage : WatchStage) :
    (locator.setStage index stage).watches.map (·.number) = locator.watches.map (·.number) := by
  -- Each watch has its number where it had it before.
  refine List.ext_getElem? fun other => ?_
  rw [List.getElem?_map, List.getElem?_map, setStage_watches, Option.map_map]
  congr 1
  funext watch
  simp only [Function.comp_apply]
  split <;> rfl

/-- A watch that is live after one stopped being live is another one and was live before. -/
theorem live_of_setStage {locator : Locator} {index other : Nat} {stage : WatchStage}
    (passed : stage ≠ .live) {watch : LocatorWatch}
    (found : (locator.setStage index stage).watches[other]? = some watch)
    (live : watch.stage = .live) : index ≠ other ∧ locator.watches[other]? = some watch := by
  -- The one that stopped is not live now, and no other watch changed.
  rw [setStage_watches] at found
  obtain ⟨before, located, same⟩ := Option.map_eq_some_iff.mp found
  by_cases meant : index = other
  · rw [if_pos meant] at same
    exact absurd ((congrArg LocatorWatch.stage same).trans live) passed
  · rw [if_neg meant] at same
    exact ⟨meant, same ▸ located⟩

/-- Telling the watch of a directory to stop changes the stage of that watch or nothing. -/
theorem abortOf_cases (locator : Locator) (directory : Path) :
    locator.abortOf directory = locator ∨
      ∃ index, lookup locator.registry directory = some index ∧
        locator.abortOf directory = locator.setStage index .aborted := by
  -- A directory without a watch has nothing to stop, and neither has a watch that is done.
  unfold abortOf abort
  cases found : lookup locator.registry directory with
  | none => exact Or.inl rfl
  | some index =>
    by_cases passed : locator.isDone index
    · simp [passed]
    · exact Or.inr ⟨index, rfl, by simp [passed]⟩

/-- What no change of stage changes is as it was after a watch was told to stop. -/
theorem abortOf_keeps {β : Type} (read : Locator → β)
    (keeps : ∀ locator index stage, read (setStage locator index stage) = read locator)
    (locator : Locator) (directory : Path) : read (locator.abortOf directory) = read locator := by
  rcases abortOf_cases locator directory with same | ⟨index, _, stopped⟩
  · rw [same]
  · rw [stopped]
    exact keeps locator index .aborted

@[simp] theorem abortOf_registry (locator : Locator) (directory : Path) :
    (locator.abortOf directory).registry = locator.registry :=
  abortOf_keeps (·.registry) (fun _ _ _ => rfl) locator directory

@[simp] theorem abortOf_cache (locator : Locator) (directory : Path) :
    (locator.abortOf directory).cache = locator.cache :=
  abortOf_keeps (·.cache) (fun _ _ _ => rfl) locator directory

@[simp] theorem abortOf_watcher (locator : Locator) (directory : Path) :
    (locator.abortOf directory).watcher = locator.watcher :=
  abortOf_keeps (·.watcher) (fun _ _ _ => rfl) locator directory

@[simp] theorem abortOf_length (locator : Locator) (directory : Path) :
    (locator.abortOf directory).watches.length = locator.watches.length :=
  abortOf_keeps (·.watches.length) (fun _ _ _ => List.length_modify ..) locator directory

@[simp] theorem abortOf_numbers (locator : Locator) (directory : Path) :
    (locator.abortOf directory).watches.map (·.number) = locator.watches.map (·.number) :=
  abortOf_keeps (·.watches.map (·.number)) setStage_numbers locator directory

/-- Only the watch that is registered for a directory is told to stop. -/
theorem abortOf_watches {locator : Locator} {directory : Path} {index : Nat}
    (other : lookup locator.registry directory ≠ some index) :
    (locator.abortOf directory).watches[index]? = locator.watches[index]? := by
  rcases abortOf_cases locator directory with same | ⟨stopping, registered, stopped⟩
  · rw [same]
  · have apart : stopping ≠ index := by
      rintro rfl
      exact other registered
    rw [stopped, setStage_watches_of_ne locator apart]

/-- A live watch whose event has come makes the locator forget its chain. -/
theorem run_of_fired {locator : Locator} {index : Nat} {watch : LocatorWatch}
    (found : locator.watches[index]? = some watch) (live : watch.stage = .live)
    (fired : Fired locator.watcher watch) :
    locator.run index = { locator with
      watcher := locator.watcher.close watch.number
      cache := purge locator.cache watch.chain }.setStage index .done := by
  obtain ⟨event, holds⟩ := fired
  simp [run, found, live, ManualWatcher.take, holds]

/-- A watch that goes on stops when it was told to, acts on its event, or does nothing. -/
theorem run_cases (locator : Locator) (index : Nat) :
    locator.run index = locator ∨ ∃ watch, locator.watches[index]? = some watch ∧
      (watch.stage = .aborted ∧ locator.run index =
          { locator with watcher := locator.watcher.close watch.number }.setStage index .done ∨
        watch.stage = .live ∧ Fired locator.watcher watch ∧
          locator.run index = { locator with
            watcher := locator.watcher.close watch.number
            cache := purge locator.cache watch.chain }.setStage index .done) := by
  -- A watch that waits for its event still waits, and one that is done stays so.
  cases found : locator.watches[index]? with
  | none => exact Or.inl (by simp [run, found])
  | some watch =>
    cases stage : watch.stage with
    | done => exact Or.inl (by simp [run, found, stage])
    | aborted => exact Or.inr ⟨watch, rfl, Or.inl ⟨stage, by simp [run, found, stage]⟩⟩
    | live =>
      cases mailbox : locator.watcher.mailbox watch.number with
      | holding event =>
        have fired : Fired locator.watcher watch := ⟨event, mailbox⟩
        exact Or.inr ⟨watch, rfl, Or.inr ⟨stage, fired, run_of_fired found stage fired⟩⟩
      | _ => exact Or.inl (by simp [run, found, stage, ManualWatcher.take, mailbox])

/-- A known answer is given without further ado. -/
theorem act_resolve_of_known {locator : Locator} {disk : Disk} {source : WatchSource}
    {discover : Path → Option Path} {directory : Path} {answer : Option Path}
    (known : locator.cached? directory = some answer) :
    locator.act disk (.resolve source discover directory) = locator := by
  simp [act, resolve, known]

/-- An answer that is not known is looked for, written for the whole chain, and watched. -/
theorem act_resolve_of_unknown {locator : Locator} {disk : Disk} {source : WatchSource}
    {discover : Path → Option Path} {directory : Path}
    (unknown : locator.cached? directory = none) :
    locator.act disk (.resolve source discover directory) =
      { locator with
        cache := (chain disk directory).foldl
          (fun cache entry => remember cache entry (discover directory)) locator.cache
        asked := locator.asked + 1 }.watchFor source directory
          ((discover directory).getD ((rootAround disk directory).joinText Project.marker))
          (chain disk directory) := by
  simp [act, resolve, unknown]

/-- Where watches can be made, the new one is registered with a changed watcher. -/
theorem watchFor_of_works {source : WatchSource} (works : source = .manual ∨ source = .closed)
    (locator : Locator) (directory watched : Path) (chain : List Path) :
    ∃ watcher number, locator.watchFor source directory watched chain =
      { locator with watcher := watcher }.register directory ⟨watched, chain, number, .live⟩ := by
  -- A watch whose watcher has gone away is registered like any other.
  rcases works with rfl | rfl
  · exact ⟨_, _, rfl⟩
  · exact ⟨_, _, rfl⟩

/-- The registry of a locator without the watches that are done. -/
def unfinished (locator : Locator) : List (Path × Nat) :=
  locator.registry.filter fun entry => !locator.isDone entry.2

/-- A locator that makes room for a new watch of a directory. -/
def vacated (locator : Locator) (directory : Path) : Locator :=
  { locator with registry := locator.unfinished }.abortOf directory

variable {locator : Locator} {directory : Path} {watch : LocatorWatch}

@[simp] theorem vacated_registry : (locator.vacated directory).registry = locator.unfinished :=
  abortOf_registry ..

@[simp] theorem vacated_watcher : (locator.vacated directory).watcher = locator.watcher :=
  abortOf_watcher ..

@[simp] theorem vacated_length :
    (locator.vacated directory).watches.length = locator.watches.length :=
  abortOf_length ..

@[simp] theorem vacated_numbers :
    (locator.vacated directory).watches.map (·.number) = locator.watches.map (·.number) :=
  abortOf_numbers ..

/-- A new watch is registered once there is room for it. -/
theorem register_eq : locator.register directory watch =
    { locator.vacated directory with
      registry := remember locator.unfinished directory locator.watches.length
      watches := (locator.vacated directory).watches ++ [watch] } := by
  rw [← vacated_registry]
  rfl

@[simp] theorem register_cache : (locator.register directory watch).cache = locator.cache := by
  rw [register_eq]
  exact abortOf_cache ..

/-- A new watch is the one of its directory and leaves those of all others. -/
theorem register_registry (other : Path) :
    lookup (locator.register directory watch).registry other =
      if directory.sameAs other then some locator.watches.length
      else lookup locator.unfinished other := by
  rw [register_eq, lookup_remember]

/-- A new watch comes behind those that were made before. -/
theorem register_last :
    (locator.register directory watch).watches[locator.watches.length]? = some watch := by
  rw [register_eq, List.getElem?_append_right (Nat.le_of_eq vacated_length), vacated_length,
    Nat.sub_self]
  rfl

/-- A new watch changes no other, unless it takes its place. -/
theorem register_watches {index : Nat} {other : LocatorWatch}
    (found : locator.watches[index]? = some other)
    (apart : lookup locator.unfinished directory ≠ some index) :
    (locator.register directory watch).watches[index]? = some other := by
  -- What is not stopped stands where it stood, and the new watch comes last.
  have kept : (locator.vacated directory).watches[index]? = some other :=
    (abortOf_watches apart).trans found
  obtain ⟨within, _⟩ := List.getElem?_eq_some_iff.mp kept
  rw [register_eq, List.getElem?_append_left within, kept]

/-- An action registers a new watch, stops that of a directory, lets one be done, or does nothing to
the watches and to the registry. -/
theorem act_cases (locator : Locator) (disk : Disk) (action : Action) :
    let next := locator.act disk action
    (next.registry = locator.registry ∧ next.watches = locator.watches) ∨
    (∃ (source : WatchSource) (discover : Path → Option Path) (directory : Path) (base : Locator)
      (new : LocatorWatch), action = .resolve source discover directory ∧
      base.registry = locator.registry ∧ base.watches = locator.watches ∧ new.stage = .live ∧
      next = base.register directory new) ∨
    (∃ directory, next.registry = forget locator.registry directory ∧
      next.watches = (locator.abortOf directory).watches) ∨
    (∃ index, next.registry = locator.registry ∧
      next.watches = (locator.setStage index .done).watches) := by
  intro next
  cases action with
  | resolve source discover directory =>
    cases known : locator.cached? directory with
    | some answer =>
      left
      rw [show next = _ from act_resolve_of_known known]
      exact ⟨rfl, rfl⟩
    | none =>
      have search : next = _ := act_resolve_of_unknown known
      by_cases works : source = .manual ∨ source = .closed
      · obtain ⟨watcher, number, registered⟩ := watchFor_of_works works _ directory _ _
        right; left
        refine ⟨source, discover, directory, _, _, rfl, ?_, ?_, ?_, search.trans registered⟩
        all_goals rfl
      · -- Where no watch can be made, only answers are written.
        left
        cases source with
        | none | failing => exact ⟨congrArg (·.registry) search, congrArg (·.watches) search⟩
        | manual | closed => exact absurd (by decide) works
  | invalidate directory => exact Or.inr (Or.inr (Or.inl ⟨directory, rfl, rfl⟩))
  | fire | tell => exact Or.inl ⟨rfl, rfl⟩
  | run index =>
    rcases run_cases locator index with same | ⟨_, _, ⟨_, done⟩ | ⟨_, _, done⟩⟩
    · exact Or.inl ⟨congrArg (·.registry) same, congrArg (·.watches) same⟩
    · exact Or.inr (Or.inr (Or.inr ⟨index, congrArg (·.registry) done, congrArg (·.watches) done⟩))
    · exact Or.inr (Or.inr (Or.inr ⟨index, congrArg (·.registry) done, congrArg (·.watches) done⟩))

end FlowService.Locator
