import FlowService.Proofs.Project.Filling
import FlowService.Proofs.Project.Watched
import FlowService.Proofs.Project.Writers

/-!
Forgetting a directory undoes its searches as far as the chain of the directory still is what it was
when they were made. The watch of the directory is stopped in any case, so nothing makes the locator
forget what is left.
-/

namespace FlowService.Locator

variable {history : History} {locator : Locator} {disk seen : Disk} {action : Action}
variable {directory spelled path : Path} {answer : Option Path} {index : Nat} {watch : LocatorWatch}

/-- Whether a path is known from a search for a directory, without having been written for another
one since. -/
def knownFrom (history : History) (directory path : Path) : Bool :=
  ((after history).cached? path).isSome &&
    (writer? history path).any fun writer => writer.2.sameAs directory

/-- What is known from a directory was in its chain when it was searched for. -/
theorem listed_of_knownFrom (known : knownFrom history directory path) :
    ∃ seen spelled, writer? history path = some (seen, spelled) ∧ Resolved history seen spelled ∧
      spelled.trail = directory.trail ∧ Listed (chain seen spelled) path := by
  unfold knownFrom at known
  obtain ⟨cached, recorded⟩ := Bool.and_eq_true_iff.mp known
  obtain ⟨writer, wrote, resolved, listed⟩ := written_in_chain cached
  rw [wrote] at recorded
  exact ⟨writer.1, writer.2, wrote, resolved, Path.sameAs_iff.mp recorded, listed⟩

/-- After a search its whole chain is known from its directory, and what else was, still is. -/
theorem knownFrom_search {source : WatchSource} {discover : Path → Option Path}
    (unknown : (after history).cached? directory = none) (path : Path) :
    knownFrom (history ++ [(disk, .resolve source discover directory)]) directory path ↔
      Listed (chain disk directory) path ∨ knownFrom history directory path := by
  obtain ⟨written, kept⟩ := search_writes disk source discover unknown path
  unfold knownFrom
  by_cases listed : Listed (chain disk directory) path
  · rw [(written listed).1, (written listed).2]
    simp [listed, Path.sameAs_iff]
  · rw [(kept listed).1, (kept listed).2]
    simp [listed]

/-- Forgetting a directory takes the paths of its present chain out of what is known from it. -/
theorem knownFrom_invalidate (history : History) (disk : Disk) (directory path : Path) :
    knownFrom (history ++ [(disk, .invalidate directory)]) directory path ↔
      knownFrom history directory path ∧ ¬Listed (chain disk directory) path := by
  obtain ⟨gone, kept⟩ :=
    lookup_foldl lookup_forget (after history).cache (chain disk directory) path
  have purged : (after (history ++ [(disk, .invalidate directory)])).cached? path =
      lookup ((chain disk directory).foldl forget (after history).cache) path := by
    rw [after_concat]
    rfl
  unfold knownFrom
  rw [writer?_of_unasked rfl, purged]
  by_cases listed : Listed (chain disk directory) path
  · rw [gone listed]
    simp [listed]
  · rw [kept listed]
    simp [listed, cached?]

/-- Going up to a root that lies further out lists all that was listed before. -/
theorem chainUp_mono {root top : Path} {trail : List Component} {reals others : List Path}
    (realTrails : reals.map Path.trail = Path.outward trail)
    (otherTrails : others.map Path.trail = Path.outward trail) {given spelling : Option Path}
    (sameGiven : given.map Path.trail = spelling.map Path.trail)
    (isAbove : root.trail ∈ Path.outward trail) (higher : top.trail ∈ Path.outward root.trail)
    {listed : List Component} (member : listed ∈ (chainUp root reals given).map Path.trail) :
    listed ∈ (chainUp top others spelling).map Path.trail := by
  -- Both go up in step, and the nearer root is not passed before the one further out is.
  induction reals generalizing trail others given spelling with
  | nil => cases member
  | cons real outer ih =>
    rw [Path.outward_eq] at realTrails otherTrails isAbove
    obtain ⟨first, behind, rfl, firstTrail, behindTrails⟩ := List.map_eq_cons_iff.mp otherTrails
    obtain ⟨realTrail, outerTrails⟩ := List.cons.inj realTrails
    have sameHere : (real :: given.toList.filter (!·.sameAs real)).map Path.trail =
        (first :: spelling.toList.filter (!·.sameAs first)).map Path.trail := by
      rw [List.map_cons, List.map_cons, filter_sameAs_trail, filter_sameAs_trail, sameGiven,
        realTrail, firstTrail]
    rw [chainUp_cons, List.map_append, List.mem_append] at member ⊢
    rcases member with here | further
    · left
      rwa [← sameHere]
    · right
      by_cases passed : real.sameAs root
      · -- Nothing comes behind the nearer root.
        rw [if_pos passed] at further
        cases further
      · rw [if_neg passed] at further
        have rootBelow : root.trail ≠ trail := fun same =>
          passed (Path.sameAs_iff.mpr (realTrail.trans same.symm))
        have outside := (List.mem_cons.mp isAbove).resolve_left rootBelow
        cases around : Path.around trail with
        | none => rw [around] at outside; cases outside
        | some outerTrail =>
          rw [around] at outside outerTrails behindTrails
          have shorter := length_lt_of_around around
          have rootShort := length_le_of_mem_outward outside
          have topShort := length_le_of_mem_outward higher
          have below : ¬first.sameAs top := by
            intro same
            have lengths := congrArg List.length (firstTrail.symm.trans (Path.sameAs_iff.mp same))
            omega
          rw [if_neg below]
          apply ih outerTrails behindTrails _ outside further
          rw [bind_parent?_trail, bind_parent?_trail, sameGiven]

/-- A chain is listed in a later one of its directory if the directory is found at the same place
and the root of its project has not come nearer. -/
theorem listed_of_higher (spelling : spelled.trail = directory.trail)
    (sameReal : (realPath seen spelled).trail = (realPath disk directory).trail)
    (higher : Listed (rootAround seen spelled).ancestors (rootAround disk directory))
    (listed : Listed (chain seen spelled) path) : Listed (chain disk directory) path := by
  have isAbove : Listed (realPath seen spelled).ancestors (rootAround seen spelled) :=
    ⟨_, rootAround_mem seen spelled, Path.sameAs_iff.mpr rfl⟩
  rw [listed_iff, Path.ancestors_trail] at higher isAbove
  have others : (realPath disk directory).ancestors.map Path.trail =
      Path.outward (realPath seen spelled).trail := by
    rw [Path.ancestors_trail, sameReal]
  rw [listed_iff] at listed ⊢
  apply chainUp_mono (Path.ancestors_trail _) others _ isAbove higher listed
  rw [Option.map_some, Option.map_some, spelling]

/-- Where a directory is spelled without links, its chain is listed in a later one exactly if the
root of its project has not come nearer. -/
theorem listed_iff_higher (plain : Plain seen directory) (laterPlain : Plain disk directory) :
    (∀ path, Listed (chain seen directory) path → Listed (chain disk directory) path) ↔
      Listed (rootAround seen directory).ancestors (rootAround disk directory) := by
  constructor
  · intro all
    -- The old root itself is listed, so the new one is met at it or further out.
    have rootListed : Listed (chain seen directory) (rootAround seen directory) :=
      listed_above ⟨_, rootAround_mem seen directory, Path.sameAs_iff.mpr rfl⟩
        ⟨_, List.mem_cons_self, Path.sameAs_iff.mpr rfl⟩
    have still := listed_iff.mp (all _ rootListed)
    rw [chain_trail_plain laterPlain] at still
    obtain ⟨before, behind, split, others⟩ := split_of_mem_upTo still
    have rootAbove := List.mem_map_of_mem (f := Path.trail) (rootAround_mem disk directory)
    rw [Path.ancestors_trail, laterPlain, split] at rootAbove
    rw [listed_iff, Path.ancestors_trail, ← Path.outward_split split]
    refine (List.mem_append.mp rootAbove).resolve_left fun front => ?_
    exact (others _ front).2 rfl
  · intro higher path listed
    exact listed_of_higher rfl (plain.trans laterPlain.symm) higher listed

/-- A watch that is live after one was told to stop was live before and is another one. -/
theorem live_of_abort {other : Nat} (found : (locator.abort other).watches[index]? = some watch)
    (live : watch.stage = .live) : locator.watches[index]? = some watch ∧ other ≠ index := by
  unfold abort at found
  split at found
  · -- A watch that is done is not told anything, and is not live either.
    rename_i done
    refine ⟨found, ?_⟩
    rintro rfl
    simp [isDone, found, live] at done
  · obtain ⟨apart, before⟩ := live_of_setStage (by decide) found live
    exact ⟨before, apart⟩

/-- A watch that is live after that of a directory was told to stop was live before and is not the
one that is registered for the directory. -/
theorem live_of_abortOf (found : (locator.abortOf directory).watches[index]? = some watch)
    (live : watch.stage = .live) :
    locator.watches[index]? = some watch ∧ lookup locator.registry directory ≠ some index := by
  unfold abortOf at found
  cases registered : lookup locator.registry directory with
  | none =>
    rw [registered] at found
    exact ⟨found, nofun⟩
  | some other =>
    rw [registered] at found
    obtain ⟨before, apart⟩ := live_of_abort found live
    exact ⟨before, fun same => apart (Option.some.inj same)⟩

/-- A watch that is live after one was registered is the new one, or it was live before and keeps
the directory that it is registered for. -/
theorem live_of_register {new : LocatorWatch}
    (found : (locator.register directory new).watches[index]? = some watch)
    (live : watch.stage = .live) :
    (lookup (locator.register directory new).registry directory = some index ∧ watch = new) ∨
      (locator.watches[index]? = some watch ∧
        ∀ spelled, lookup locator.unfinished spelled = some index →
          lookup (locator.register directory new).registry spelled = some index) := by
  rcases Nat.lt_trichotomy index locator.watches.length with within | last | beyond
  · right
    rw [register_eq, List.getElem?_append_left (by rwa [vacated_length])] at found
    obtain ⟨before, apart⟩ := live_of_abortOf found live
    refine ⟨before, fun spelled kept => ?_⟩
    rw [register_registry, if_neg fun same => apart ?_]
    · exact kept
    · show lookup locator.unfinished directory = some index
      rw [lookup_congr _ (Path.sameAs_iff.mp same), kept]
  · left
    subst last
    rw [register_registry, if_pos (Path.sameAs_iff.mpr rfl)]
    exact ⟨rfl, Option.some.inj (found.symm.trans register_last)⟩
  · -- There are no watches behind the new one.
    rw [register_eq, List.getElem?_eq_none (by simpa using Nat.succ_le_of_lt beyond)] at found
    cases found

/-- A live watch is registered for a directory that was searched for, and would make the locator
forget the chain of that directory as it was then. -/
theorem live_is_registered (found : (after history).watches[index]? = some watch)
    (live : watch.stage = .live) :
    ∃ seen spelled, Resolved history seen spelled ∧
      lookup (after history).registry spelled = some index ∧ watch.chain = chain seen spelled := by
  -- The induction is on the history from its end: a watch that takes the place of another one
  -- stops that one, and one that is dropped from the registry is done.
  induction history using List.reverseRecOn generalizing index watch with
  | nil => cases found
  | append_singleton history moment ih =>
    obtain ⟨disk, action⟩ := moment
    rw [after_concat] at found ⊢
    have unfinished : (after history).watches[index]? = some watch →
        ∃ seen spelled, Resolved (history ++ [(disk, action)]) seen spelled ∧
          lookup (after history).registry spelled = some index ∧
          lookup (after history).unfinished spelled = some index ∧
          watch.chain = chain seen spelled := by
      intro before
      obtain ⟨seen, spelled, resolved, registered, chained⟩ := ih before live
      refine ⟨seen, spelled, resolved.concat _, registered, ?_, chained⟩
      apply lookup_filter (fun index => !(after history).isDone index) registered
      simp [isDone, before, live]
    cases action with
    | resolve source discover directory =>
      cases cached : (after history).cached? directory with
      | some answer =>
        rw [act_resolve_of_known cached] at found ⊢
        obtain ⟨seen, spelled, resolved, registered, _, chained⟩ := unfinished found
        exact ⟨seen, spelled, resolved, registered, chained⟩
      | none =>
        rw [act_resolve_of_unknown cached] at found ⊢
        cases source with
        | none | failing =>
          obtain ⟨seen, spelled, resolved, registered, _, chained⟩ := unfinished found
          exact ⟨seen, spelled, resolved, registered, chained⟩
        | manual | closed =>
          rcases live_of_register found live with ⟨registered, rfl⟩ | ⟨before, keeps⟩
          · exact ⟨disk, directory, Resolved.last .., registered, rfl⟩
          · obtain ⟨seen, spelled, resolved, _, kept, chained⟩ := unfinished before
            exact ⟨seen, spelled, resolved, keeps spelled kept, chained⟩
    | invalidate directory =>
      have stopped : ((after history).abortOf directory).watches[index]? = some watch := found
      obtain ⟨before, apart⟩ := live_of_abortOf stopped live
      obtain ⟨seen, spelled, resolved, registered, _, chained⟩ := unfinished before
      refine ⟨seen, spelled, resolved, ?_, chained⟩
      show lookup (forget (after history).registry directory) spelled = some index
      rw [lookup_forget, if_neg fun same => apart ?_]
      · exact registered
      · rw [lookup_congr _ (Path.sameAs_iff.mp same), registered]
    | fire | tell =>
      obtain ⟨seen, spelled, resolved, registered, _, chained⟩ := unfinished found
      exact ⟨seen, spelled, resolved, registered, chained⟩
    | run other =>
      obtain ⟨before, _⟩ := live_before (tended_after history) rfl found live
      obtain ⟨seen, spelled, resolved, registered, _, chained⟩ := unfinished before
      refine ⟨seen, spelled, resolved, ?_, chained⟩
      rcases run_cases (after history) other with same | ⟨_, _, ⟨_, done⟩ | ⟨_, _, done⟩⟩
      · rwa [act, same]
      · rwa [act, done]
      · rwa [act, done]

/-- A directory is found where it was found by a search, and the root of its project has not come
nearer since. -/
structure Outlasts (seen : Disk) (spelled : Path) (disk : Disk) (directory : Path) : Prop where
  spelling : spelled.trail = directory.trail
  sameReal : (realPath seen spelled).trail = (realPath disk directory).trail
  higher : Listed (rootAround seen spelled).ancestors (rootAround disk directory)

/-- As long as the layout of the disk stays as it is, directories and roots are where they were. -/
theorem Outlasts.of_sameLayout (same : seen.SameLayout disk)
    (spelling : spelled.trail = directory.trail) (bareThen : seen.LeadsToNoFile spelled)
    (bareNow : disk.LeadsToNoFile directory) : Outlasts seen spelled disk directory where
  spelling := spelling
  sameReal := realPath_congr same spelling bareThen bareNow
  -- The root is the same, and every path is among its own ancestors.
  higher := ⟨_, List.mem_cons_self,
    Path.sameAs_iff.mpr (rootAround_congr same spelling bareThen bareNow)⟩

/-- No live watch makes the locator forget a path. -/
def Unguarded (locator : Locator) (path : Path) : Prop :=
  ∀ watch ∈ locator.watches, watch.stage = .live → ¬Listed watch.chain path

/-- A path that no live watch guards stays known, and unguarded, when nothing is asked for. -/
theorem Unguarded.act (unguarded : Unguarded locator path)
    (known : locator.cached? path = some answer) (unasked : action.directory? = none) :
    Unguarded (locator.act disk action) path ∧
      (locator.act disk action).cached? path = some answer := by
  -- Only a watch that goes on can change anything, and if it purges its chain, it was live.
  cases action with
  | resolve | invalidate => cases unasked
  | fire | tell => exact ⟨unguarded, known⟩
  | run index =>
    have after : ∀ cache watcher, Unguarded ({ locator with
        watcher := watcher, cache := cache }.setStage index .done) path := by
      intro cache watcher other member live
      obtain ⟨place, found⟩ := List.mem_iff_getElem?.mp member
      obtain ⟨_, before⟩ := live_of_setStage (by decide) found live
      exact unguarded other (List.mem_of_getElem? before) live
    rcases run_cases locator index with same | ⟨watch, found, ⟨_, done⟩ | ⟨live, _, done⟩⟩
    · rw [Locator.act, same]
      exact ⟨unguarded, known⟩
    · rw [Locator.act, done]
      exact ⟨after _ _, known⟩
    · have unlisted := unguarded watch (List.mem_of_getElem? found) live
      obtain ⟨_, kept⟩ := lookup_foldl lookup_forget locator.cache watch.chain path
      rw [Locator.act, done]
      exact ⟨after _ _, (kept unlisted).trans known⟩

/-- Whatever is told to the watches, a path that no live watch guards stays known. -/
theorem Unguarded.stays (unguarded : Unguarded locator path)
    (known : locator.cached? path = some answer) {events : History}
    (unasked : ∀ moment ∈ events, moment.2.directory? = none) :
    (events.foldl (fun locator moment => locator.act moment.1 moment.2) locator).cached? path =
      some answer := by
  -- The induction is on the events from the first one, after which the path still is unguarded.
  induction events generalizing locator with
  | nil => exact known
  | cons moment rest ih =>
    obtain ⟨still, knownStill⟩ := unguarded.act known (unasked moment (.head _))
    exact ih still knownStill fun later member => unasked later (.tail _ member)

/-- Forgetting a directory leaves, of what is known from it, exactly what was in its chain when it
was searched for and is not in its chain any more. Nothing is left where the directory is found at
the same place and the root of its project has not come nearer; right after a search for a directory
that is spelled without links this is the exact condition. The watch of the directory is stopped and
all live ones are those of other directories, so what is left and is not in the chain of one of
those is known for good, whatever happens to the watches. -/
theorem invalidation_undoes_search_iff (history : History) (disk : Disk) (directory : Path) :
    let later := history ++ [(disk, .invalidate directory)]
    (∀ path, knownFrom later directory path ↔
      knownFrom history directory path ∧ ¬Listed (chain disk directory) path) ∧
    (∀ path, knownFrom history directory path → ∃ seen spelled,
      writer? history path = some (seen, spelled) ∧ Resolved history seen spelled ∧
        spelled.trail = directory.trail ∧ Listed (chain seen spelled) path) ∧
    -- What can be seen on the disks decides whether anything is left.
    ((∀ path seen spelled, knownFrom history directory path →
        writer? history path = some (seen, spelled) → Outlasts seen spelled disk directory) →
      ∀ path, ¬knownFrom later directory path) ∧
    ((∀ seen spelled, Resolved history seen spelled → spelled.trail = directory.trail →
        seen.SameLayout disk ∧ seen.LeadsToNoFile spelled ∧ disk.LeadsToNoFile directory) →
      ∀ path, ¬knownFrom later directory path) ∧
    (∀ before seen source discover,
      history = before ++ [(seen, .resolve source discover directory)] →
      (after before).cached? directory = none → (∀ path, ¬knownFrom before directory path) →
      ((∀ path, ¬knownFrom later directory path) ↔
        ∀ path, Listed (chain seen directory) path → Listed (chain disk directory) path) ∧
      (Plain seen directory → Plain disk directory →
        ((∀ path, ¬knownFrom later directory path) ↔
          Listed (rootAround seen directory).ancestors (rootAround disk directory)))) ∧
    -- No watch of the directory is left that could forget the rest.
    (∀ index watch, lookup (after history).registry directory = some index →
      (after later).watches[index]? = some watch → watch.stage ≠ .live) ∧
    (∀ watch ∈ (after later).watches, watch.stage = .live → ∃ seen other,
      Resolved history seen other ∧ other.trail ≠ directory.trail ∧
        watch.chain = chain seen other) ∧
    (∀ path answer, (after later).cached? path = some answer → Unguarded (after later) path →
      ∀ events : History, (∀ moment ∈ events, moment.2.directory? = none) →
        (after (later ++ events)).cached? path = some answer) := by
  intro later
  have left := knownFrom_invalidate history disk directory
  have undone : (∀ path seen spelled, knownFrom history directory path →
      writer? history path = some (seen, spelled) → Outlasts seen spelled disk directory) →
      ∀ path, ¬knownFrom later directory path := by
    intro outlasts path known
    obtain ⟨before, unlisted⟩ := (left path).mp known
    obtain ⟨seen, spelled, wrote, _, _, listed⟩ := listed_of_knownFrom before
    obtain ⟨spelling, sameReal, higher⟩ := outlasts path seen spelled before wrote
    exact unlisted (listed_of_higher spelling sameReal higher listed)
  refine ⟨left, fun path known => listed_of_knownFrom known, undone, ?_, ?_, ?_, ?_, ?_⟩
  · intro steady
    apply undone
    intro path seen spelled known wrote
    obtain ⟨seen', spelled', wrote', resolved, spelling, _⟩ := listed_of_knownFrom known
    obtain ⟨rfl, rfl⟩ := Prod.mk.inj (Option.some.inj (wrote.symm.trans wrote'))
    obtain ⟨same, bareThen, bareNow⟩ := steady seen spelled resolved spelling
    exact .of_sameLayout same spelling bareThen bareNow
  · rintro before seen source discover rfl unknown nothing
    have all : (∀ path, ¬knownFrom later directory path) ↔
        ∀ path, Listed (chain seen directory) path → Listed (chain disk directory) path := by
      apply forall_congr'
      intro path
      rw [left path, knownFrom_search unknown path, or_iff_left (nothing path), not_and_not_right]
    exact ⟨all, fun plain laterPlain => all.trans (listed_iff_higher plain laterPlain)⟩
  · intro index watch registered found live
    rw [after_concat] at found
    exact (live_of_abortOf found live).2 registered
  · intro watch member live
    obtain ⟨index, found⟩ := List.mem_iff_getElem?.mp member
    obtain ⟨seen, other, resolved, registered, chained⟩ := live_is_registered found live
    refine ⟨seen, other, resolved.of_concat rfl, fun same => ?_, chained⟩
    -- The directory itself is not registered any more.
    have forgotten : (after later).registry = forget (after history).registry directory := by
      rw [after_concat]
      rfl
    rw [forgotten, lookup_forget, if_pos (Path.sameAs_iff.mpr same.symm)] at registered
    cases registered
  · intro path answer known unguarded events unasked
    have split : after (later ++ events) =
        events.foldl (fun locator moment => locator.act moment.1 moment.2) (after later) := by
      simp [after, List.foldl_append]
    rw [split]
    exact unguarded.stays known unasked

/-- The project, with a mark that makes its directory a project of its own. -/
def splitProjectDisk : Disk :=
  { projectDisk with
    tree := ⟨(["package.json", "src", "p"], .file ⟨[], false, false⟩) :: projectDisk.tree.entries⟩ }

/-- The directory of the project is searched for once. -/
def searchedOn (disk : Disk) : History :=
  [(disk, .resolve .manual (fun _ => some ⟨true, ["flow"]⟩) ⟨true, ["src", "p"]⟩)]

/-- A directory that was marked after it was searched for is forgotten alone. The answer for the
root of the project stays, although its watch was stopped, and no change of the binary makes the
locator forget it. -/
theorem new_mark_leaves_answer :
    let directory : Path := ⟨true, ["src", "p"]⟩
    let later := searchedOn projectDisk ++ [(splitProjectDisk, .invalidate directory)]
    let changed := later ++ [(splitProjectDisk, .fire ⟨true, ["flow"]⟩ .changed),
      (splitProjectDisk, .run 0)]
    knownFrom (searchedOn projectDisk) directory ⟨true, ["p"]⟩ ∧
      knownFrom later directory ⟨true, ["p"]⟩ ∧
      (after later).watches.map (·.stage) = [.aborted] ∧
      (after changed).cached? directory = none ∧
      (after changed).cached? ⟨true, ["p"]⟩ = some (some ⟨true, ["flow"]⟩) := by
  decide +kernel

/-- Where the mark is taken away again, forgetting the directory leaves nothing of its search. -/
theorem invalidation_undoes_search_iff_removed_mark :
    let directory : Path := ⟨true, ["src", "p"]⟩
    knownFrom (searchedOn splitProjectDisk) directory directory ∧
      ∀ path, ¬knownFrom (searchedOn splitProjectDisk ++ [(projectDisk, .invalidate directory)])
        directory path := by
  intro directory
  obtain ⟨_, _, _, _, exactly, _⟩ :=
    invalidation_undoes_search_iff (searchedOn splitProjectDisk) projectDisk directory
  -- No history came before the search, so nothing was known from the directory.
  have nothing : ∀ path, ¬knownFrom [] directory path := by
    intro path known
    cases known
  obtain ⟨_, outward⟩ := exactly [] splitProjectDisk .manual _ rfl rfl nothing
  have plainThen : Plain splitProjectDisk directory := by
    unfold Plain
    decide +kernel
  have plainNow : Plain projectDisk directory := by
    unfold Plain
    decide +kernel
  have higher : Listed (rootAround splitProjectDisk directory).ancestors
      (rootAround projectDisk directory) := by
    unfold Listed
    decide +kernel
  exact ⟨by decide +kernel, (outward plainThen plainNow).mpr higher⟩

end FlowService.Locator
