import FlowService.Proofs.Project.Searches

/-!
A search makes its answer known for a directory, for what it is found as, and for all that lies
above it up to the root of its project. None of these is searched for again as long as nothing
changes. A directory that is known already is answered for without its own chain being filled.
-/

namespace FlowService.Locator

variable {disk : Disk}

/-- What lies on the way outwards from a trail is not longer than it. -/
theorem length_le_of_mem_outward {trail other : List Component}
    (member : other ∈ Path.outward trail) : other.length ≤ trail.length := by
  fun_induction Path.outward trail with
  | case1 | case2 => exact Nat.le_of_eq (congrArg List.length (List.mem_singleton.mp member))
  | case3 component outer apart ih =>
    rcases List.mem_cons.mp member with rfl | above
    · exact Nat.le_refl _
    · exact Nat.le_succ_of_le (ih above)

/-- The directory around a trail is shorter than it. -/
theorem length_lt_of_around {trail outer : List Component}
    (outside : Path.around trail = some outer) : outer.length < trail.length := by
  unfold Path.around at outside
  split at outside
  · cases outside
  · cases outside
  · cases outside
    exact Nat.lt_succ_self _

/-- Going up lists every real directory as far as the root. -/
theorem mem_chainUp {root above : Path} {trail : List Component} {reals : List Path}
    (realTrails : reals.map Path.trail = Path.outward trail) (given : Option Path)
    (isAbove : above.trail ∈ Path.outward trail)
    (within : root.trail ∈ Path.outward above.trail) :
    above.trail ∈ (chainUp root reals given).map Path.trail := by
  -- The root is not passed before the directory is met, since it lies at or above that directory.
  induction reals generalizing trail given with
  | nil => rw [Path.outward_eq] at realTrails; cases realTrails
  | cons real outer ih =>
    rw [Path.outward_eq, List.map_cons] at realTrails
    obtain ⟨realTrail, outerTrails⟩ := List.cons.inj realTrails
    rw [chainUp_cons, List.cons_append, List.map_cons, List.map_append]
    rw [Path.outward_eq] at isAbove
    rcases List.mem_cons.mp isAbove with here | further
    · rw [here, realTrail]
      exact List.mem_cons_self
    · cases outside : Path.around trail with
      | none => rw [outside] at further; cases further
      | some outerTrail =>
        rw [outside] at further outerTrails
        have below : ¬real.sameAs root := by
          intro top
          have shorter := length_lt_of_around outside
          have long := length_le_of_mem_outward within
          have short := length_le_of_mem_outward further
          rw [← Path.sameAs_iff.mp top, realTrail] at long
          omega
        rw [if_neg below]
        exact List.mem_cons_of_mem _ (List.mem_append_right _ (ih outerTrails _ further))

/-- The chain of a directory lists the real directories above it as far as the root. -/
theorem listed_above {directory above : Path}
    (isAbove : Listed (realPath disk directory).ancestors above)
    (within : Listed above.ancestors (rootAround disk directory)) :
    Listed (chain disk directory) above := by
  rw [listed_iff, Path.ancestors_trail] at isAbove within
  exact listed_iff.mpr (mem_chainUp (Path.ancestors_trail _) _ isAbove within)

/-- The chain of a directory lists the directory as it is spelled. -/
theorem listed_self (disk : Disk) (directory : Path) : Listed (chain disk directory) directory := by
  -- It is the real directory or stands beside it.
  have first : (realPath disk directory).ancestors = realPath disk directory :: _ := rfl
  rw [listed_iff, chain, first, chainUp_cons, List.cons_append, List.map_cons, List.map_append]
  by_cases same : directory.trail = (realPath disk directory).trail
  · rw [← same]
    exact List.mem_cons_self
  · have apart : ¬directory.sameAs (realPath disk directory) := mt Path.sameAs_iff.mp same
    refine List.mem_cons_of_mem _ (List.mem_append_left _ (List.mem_map_of_mem ?_))
    simpa using apart

/-- The root around a directory is its real path or lies above it. -/
theorem rootAround_mem (disk : Disk) (directory : Path) :
    rootAround disk directory ∈ (realPath disk directory).ancestors := by
  unfold rootAround Project.root?
  cases found : (realPath disk directory).ancestors.find? (Project.isMarked disk) with
  | none => exact List.mem_cons_self
  | some root => exact List.mem_of_find?_eq_some found

/-- Directories that are not the last one are all taken. -/
theorem upTo_append {top : List Component} {before : List (List Component)}
    (others : ∀ trail ∈ before, trail ≠ top) (rest : List (List Component)) :
    upTo top (before ++ rest) = before ++ upTo top rest := by
  induction before with
  | nil => rfl
  | cons trail before ih =>
    obtain ⟨here, later⟩ := List.forall_mem_cons.mp others
    rw [List.cons_append, upTo, if_neg here, ih later, List.cons_append]

/-- The first marked directory is the same along directories that stand for the same. -/
theorem find?_marked_trail {paths others : List Path}
    (same : paths.map Path.trail = others.map Path.trail) :
    (paths.find? (Project.isMarked disk)).map Path.trail =
      (others.find? (Project.isMarked disk)).map Path.trail :=
  find?_trail (fun _ _ spelling => Disk.isMarked_congr spelling) same

/-- Where a path leads through no link, the root is looked for along its spelling. -/
theorem rootAround_plain {directory : Path} (plain : Plain disk directory) :
    (rootAround disk directory).trail =
      ((directory.ancestors.find? (Project.isMarked disk)).map Path.trail).getD
        directory.trail := by
  have sameAbove : (realPath disk directory).ancestors.map Path.trail =
      directory.ancestors.map Path.trail := by
    rw [Path.ancestors_trail, Path.ancestors_trail, plain]
  have root : rootAround disk directory = ((realPath disk directory).ancestors.find?
    (Project.isMarked disk)).getD (realPath disk directory) := rfl
  rw [← find?_marked_trail sameAbove, root, ← plain, Option.getD_map]

/-- A directory that is listed in a chain has the root of that chain, where paths lead through no
links. -/
theorem rootAround_of_listed {one other : Path} (onePlain : Plain disk one)
    (otherPlain : Plain disk other) {below above : List Path}
    (split : one.ancestors = below ++ above)
    (sameAbove : above.map Path.trail = other.ancestors.map Path.trail)
    (passed : ∀ path ∈ below, path.trail ≠ (rootAround disk one).trail) :
    (rootAround disk one).trail = (rootAround disk other).trail := by
  have oneRoot := rootAround_plain onePlain
  have otherRoot := rootAround_plain otherPlain
  rw [← find?_marked_trail sameAbove] at otherRoot
  rw [split, List.find?_append] at oneRoot
  cases belowMarked : below.find? (Project.isMarked disk) with
  | some top =>
    rw [belowMarked] at oneRoot
    exact absurd oneRoot.symm (passed top (List.mem_of_find?_eq_some belowMarked))
  | none =>
    rw [belowMarked, Option.none_or] at oneRoot
    cases aboveMarked : above.find? (Project.isMarked disk) with
    | some top =>
      rw [aboveMarked] at oneRoot otherRoot
      exact oneRoot.trans otherRoot.symm
    | none =>
      -- Nothing is marked, so the one is its own root and does not lie below the other.
      rw [aboveMarked] at oneRoot otherRoot
      cases below with
      | nil =>
        rw [List.nil_append] at split
        rw [← split] at sameAbove
        have same : one.trail = other.trail := (List.cons.inj sameAbove).1
        exact oneRoot.trans (same.trans otherRoot.symm)
      | cons first rest =>
        have same : one = first := (List.cons.inj split).1
        exact absurd (same ▸ oneRoot.symm) (passed first List.mem_cons_self)

/-- Where paths lead through no links, the chain of a directory is part of every chain that lists
the directory. -/
theorem listed_of_listed {one other path : Path} (onePlain : Plain disk one)
    (otherPlain : Plain disk other) (listed : Listed (chain disk one) other)
    (member : Listed (chain disk other) path) : Listed (chain disk one) path := by
  -- Both chains go up to the same root, and that of the one passes the other on the way.
  rw [listed_iff] at listed member ⊢
  obtain ⟨below, above, split, sameAbove, passed⟩ := split_of_shared onePlain listed
  have apart := fun path front => (passed path front).2
  have sameRoot := rootAround_of_listed onePlain otherPlain split sameAbove apart
  have trails : Path.outward one.trail = below.map Path.trail ++ Path.outward other.trail := by
    rw [← Path.ancestors_trail, split, List.map_append, sameAbove, Path.ancestors_trail]
  rw [chain_trail_plain otherPlain, ← sameRoot] at member
  rw [chain_trail_plain onePlain, trails, upTo_append (List.forall_mem_map.mpr apart)]
  exact List.mem_append_right _ member

variable {history : History}

/-- Every directory that was asked for is covered by a search. -/
theorem covered_of_resolve {source : WatchSource} {discover : Path → Option Path}
    {directory : Path} (called : (disk, .resolve source discover directory) ∈ history) :
    ∃ search ∈ searches history, search.covers directory := by
  induction history using List.reverseRecOn with
  | nil => cases called
  | append_singleton history moment ih =>
    rw [searches_concat]
    rcases List.mem_append.mp called with earlier | latest
    · obtain ⟨search, made, covers⟩ := ih earlier
      exact ⟨search, List.mem_append_left _ made, covers⟩
    · obtain rfl := (List.mem_singleton.mp latest).symm
      by_cases covered : (searches history).any (·.covers directory)
      · obtain ⟨search, made, covers⟩ := List.any_eq_true.mp covered
        exact ⟨search, List.mem_append_left _ made, covers⟩
      · refine ⟨⟨disk, directory, discover directory⟩, ?_, ?_⟩
        · simp [search?, covered]
        · exact Search.covers_iff.mpr (listed_self disk directory)

/-- Where paths lead through no links, the whole chain of a directory that was asked for is covered
by one search. -/
theorem covered_of_plain (plain : ∀ moment ∈ history, moment.1 = disk ∧
      ∀ directory ∈ moment.2.directory?, Plain disk directory)
    {source : WatchSource} {discover : Path → Option Path} {directory : Path}
    (called : (disk, .resolve source discover directory) ∈ history) {path : Path}
    (listed : Listed (chain disk directory) path) :
    ∃ search ∈ searches history, search.covers path := by
  obtain ⟨search, made, covers⟩ := covered_of_resolve called
  obtain ⟨_, _, searched, _⟩ := resolve_of_mem_searches made
  have sameDisk : search.disk = disk := (plain _ searched).1
  have searchPlain := (plain _ searched).2 search.directory rfl
  have directoryPlain := (plain _ called).2 directory rfl
  rw [Search.covers_iff, sameDisk] at covers
  refine ⟨search, made, Search.covers_iff.mpr ?_⟩
  rw [sameDisk]
  exact listed_of_listed searchPlain directoryPlain covers listed

/-- As long as no watch hears of anything, the binary of a directory is looked for exactly if
nothing is known for it, and what is found, be it that there is none, is known from then on for the
directory as it is spelled, for its real directory and for all above that one as far as the root of
the project. What is known is what the latest search found that covers a directory, and nothing is
known that no search covers; no directory that a search covers is looked for again. A directory that
is known is answered for without any change, and only where paths lead through no links its whole
chain is known as well. -/
theorem searches_fill_chains (history : History) (quiet : ∀ moment ∈ history, moment.2.isQuiet) :
    (∀ disk source discover directory,
      let answered := (after history).resolve source disk discover directory
      (∀ answer, (after history).cached? directory = some answer →
        answered = (answer, after history)) ∧
      ((after history).cached? directory = none →
        answered.1 = discover directory ∧ answered.2.asked = (after history).asked + 1 ∧
        ∀ path, (Listed (chain disk directory) path → answered.2.cached? path = some answered.1) ∧
          (¬Listed (chain disk directory) path →
            answered.2.cached? path = (after history).cached? path))) ∧
    (∀ disk directory, Listed (chain disk directory) directory ∧
      Listed (chain disk directory) (realPath disk directory) ∧
      rootAround disk directory ∈ (realPath disk directory).ancestors ∧
      ∀ above ∈ (realPath disk directory).ancestors,
        Listed above.ancestors (rootAround disk directory) → Listed (chain disk directory) above) ∧
    -- The searches account for all that is known.
    (∀ search ∈ searches history, ∃ source discover,
      (search.disk, .resolve source discover search.directory) ∈ history ∧
        search.answer = discover search.directory) ∧
    (searches history).Pairwise (fun earlier later => ¬earlier.covers later.directory) ∧
    (after history).asked = (searches history).length ∧
    (∀ path, (after history).cached? path = (latest? (searches history) path).map Search.answer ∧
      (((after history).cached? path).isSome ↔ ∃ search ∈ searches history, search.covers path)) ∧
    -- Where no links are met, what was asked for counts like what was searched for.
    (∀ disk, (∀ moment ∈ history, moment.1 = disk ∧
        ∀ directory ∈ moment.2.directory?, Plain disk directory) →
      ∀ moment ∈ history, ∀ directory ∈ moment.2.directory?, ∀ path,
        Listed (chain disk directory) path → ((after history).cached? path).isSome) := by
  have remembers := remembers_after quiet
  refine ⟨fun disk source discover directory => ⟨fun answer known => ?_, fun unknown => ?_⟩,
    fun disk directory => ⟨listed_self disk directory, ?_, rootAround_mem disk directory, ?_⟩,
    fun search made => resolve_of_mem_searches made, searches_pairwise history, remembers.counted,
    fun path => ⟨remembers.known path, remembers.isSome_cached? path⟩, ?_⟩
  · simp [resolve, known]
  · have answer : ((after history).resolve source disk discover directory).1 =
        discover directory := by simp [resolve, unknown]
    have next : ((after history).resolve source disk discover directory).2 = _ :=
      act_resolve_of_unknown unknown
    refine ⟨answer, ?_, fun path => ?_⟩
    · rw [next, watchFor_asked]
    · rw [answer, next]
      unfold cached?
      rw [watchFor_cache]
      exact lookup_rememberAll ..
  · exact listed_above ⟨_, List.mem_cons_self, Path.sameAs_iff.mpr rfl⟩
      ⟨_, rootAround_mem disk directory, Path.sameAs_iff.mpr rfl⟩
  · intro above isAbove within
    exact listed_above ⟨above, isAbove, Path.sameAs_iff.mpr rfl⟩ within
  · rintro disk plain ⟨seen, action⟩ called directory asked path listed
    have quietAction := quiet _ called
    obtain rfl := (plain _ called).1
    rw [remembers.isSome_cached?]
    cases action with
    | resolve source discover other =>
      obtain rfl := Option.some.inj asked
      exact covered_of_plain plain called listed
    | run => cases asked
    | invalidate | fire | tell => cases quietAction

/-- A project with two directories, one of which holds a link into another project. -/
def linkedProjects : Disk :=
  ⟨⟨[(["w"], .directory), (["package.json", "w"], .file ⟨[], false, false⟩),
    (["a", "w"], .directory), (["b", "w"], .directory),
    (["link", "a", "w"], .link ⟨true, ["r", "q"]⟩),
    (["q"], .directory), (["package.json", "q"], .file ⟨[], false, false⟩),
    (["r", "q"], .directory), (["x", "r", "q"], .directory)]⟩, []⟩

/-- Every directory has a binary of its own there, and these are asked for in turn. -/
def asking (directories : List Path) : History :=
  directories.map fun directory => (linkedProjects, .resolve .manual some directory)

/-- A directory that is known from a search through the link is answered for, but the root of its
own project, which is in its chain, is not known and is searched for. Where a later search has
written over the root, asking for the directory again leaves it so. -/
theorem known_directory_leaves_chain_alone :
    let linked : Path := ⟨true, ["x", "link", "a", "w"]⟩
    let one : Path := ⟨true, ["a", "w"]⟩
    let other : Path := ⟨true, ["b", "w"]⟩
    let top : Path := ⟨true, ["w"]⟩
    top ∈ chain linkedProjects one ∧
      (after (asking [linked, one])).cached? one = some (some linked) ∧
      (after (asking [linked, one])).cached? top = none ∧
      (after (asking [linked, one])).asked = 1 ∧
      (after (asking [linked, one, top])).asked = 2 ∧
      (after (asking [one, other, one])).cached? one = some (some one) ∧
      (after (asking [one, other, one])).cached? top = some (some other) := by
  decide +kernel

/-- Both directories of the project are known after they were asked for, together with its root,
which has the answer of the later one and is not searched for. -/
theorem searches_fill_chains_of_two_directories :
    let history := asking [⟨true, ["a", "w"]⟩, ⟨true, ["b", "w"]⟩] ++ [(linkedProjects, .run 0)]
    (searches history).length = 2 ∧ (after history).asked = 2 ∧
      (after history).cached? ⟨true, ["w"]⟩ = some (some ⟨true, ["b", "w"]⟩) ∧
      (after history).resolve .manual linkedProjects some ⟨true, ["w"]⟩ =
        (some ⟨true, ["b", "w"]⟩, after history) ∧
      ((after history).cached? ⟨true, ["", "a", "w"]⟩).isSome := by
  intro history
  obtain ⟨answers, _, _, _, counted, known, plain⟩ :=
    searches_fill_chains history (by decide +kernel)
  have root : (after history).cached? ⟨true, ["w"]⟩ = some (some ⟨true, ["b", "w"]⟩) :=
    (known _).1.trans (by decide +kernel)
  have noLinks : ∀ moment ∈ history, moment.1 = linkedProjects ∧
      ∀ directory ∈ moment.2.directory?, Plain linkedProjects directory := by
    have plain : Plain linkedProjects ⟨true, ["a", "w"]⟩ ∧
        Plain linkedProjects ⟨true, ["b", "w"]⟩ := by
      unfold Plain
      decide +kernel
    simpa [history, asking, Action.directory?] using plain
  refine ⟨by decide +kernel, counted.trans (by decide +kernel), root,
    (answers linkedProjects .manual some _).1 _ root, ?_⟩
  refine plain linkedProjects noLinks _ List.mem_cons_self ⟨true, ["a", "w"]⟩ rfl _ ?_
  unfold Listed
  decide +kernel

end FlowService.Locator
