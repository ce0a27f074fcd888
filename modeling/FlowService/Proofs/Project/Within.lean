import FlowService.Proofs.Disk.Standing
import FlowService.Proofs.Project.Levels
import FlowService.Proofs.Project.Writers

/-!
A search writes its answer for real directories of the project, and for as many directories above
the spelling of its own. The latter lead into the project as long as the spelling goes straight up,
and a link on the way leads them out of it.
-/

namespace FlowService

open FlowService.Path

/-- What lies one further out on the way outwards is around what lies there. -/
theorem Path.outward_getElem?_succ (trail : List Component) (level : Nat) :
    (outward trail)[level + 1]? = ((outward trail)[level]?).bind around := by
  induction level generalizing trail with
  | zero =>
    rw [outward_eq]
    cases outside : around trail with
    | none => simp [outside]
    | some outer =>
      rw [Option.map_some, Option.getD_some, outward_eq outer]
      simp [outside]
  | succ level ih =>
    rw [outward_eq]
    cases outside : around trail with
    | none => simp
    | some outer => simpa using ih outer

namespace Locator

variable {disk : Disk} {directory path : Path} {place : Location} {level : Nat}

/-- A path leads to a directory that lies between a given one and the root of its project. -/
def LeadsWithin (disk : Disk) (directory path : Path) : Prop :=
  ∃ real, disk.canonical? path = some real ∧ disk.isDirectory path ∧
    Listed (realPath disk directory).ancestors real ∧
    Listed real.ancestors (rootAround disk directory)

/-- Where a directory stands at the place that a path leads to, the real path names that place. -/
theorem canonical?_of_directoryAt? (located : disk.directoryAt? path = some place) :
    disk.canonical? path = some place.path ∧ disk.isDirectory path := by
  obtain ⟨found, directory⟩ := Option.filter_eq_some_iff.mp located
  have stands : disk.isDirectory path := by
    unfold Disk.isDirectory Disk.lookup?
    rw [found]
    exact directory
  refine ⟨?_, stands⟩
  rw [Disk.canonical?_of_no_file fun _ => stands, located]
  rfl

/-- Some directory stands where the path of a directory leads. -/
theorem directoryAt?_of_isDirectory (stands : disk.isDirectory path) :
    ∃ place, disk.directoryAt? path = some place := by
  unfold Disk.isDirectory Disk.lookup? at stands
  unfold Disk.directoryAt?
  cases found : disk.locate? path with
  | none =>
    rw [found] at stands
    cases stands
  | some place =>
    rw [found] at stands
    exact ⟨place, Option.filter_eq_some_iff.mpr ⟨rfl, stands⟩⟩

/-- The real path of a directory names the place where it stands. -/
theorem realPath_of_directoryAt? (located : disk.directoryAt? directory = some place) :
    realPath disk directory = place.path := by
  rw [realPath, (canonical?_of_directoryAt? located).1, Option.getD_some]

/-- The root of the project of a directory lies as far out as the levels tell. -/
theorem rootAround_at (located : disk.directoryAt? directory = some place)
    (standing : disk.tree.Standing place) :
    ∃ depth, levels disk directory = depth + 1 ∧
      (rootAround disk directory).trail = (Location.path (place.drop depth)).trail := by
  refine ⟨_, rfl, ?_⟩
  have within : (realPath disk directory).ancestors.findIdx
      (·.sameAs (rootAround disk directory)) < (realPath disk directory).ancestors.length :=
    List.findIdx_lt_length_of_exists
      ⟨_, rootAround_mem disk directory, Path.sameAs_iff.mpr rfl⟩
  have same := Path.sameAs_iff.mp (List.findIdx_getElem (w := within))
  rw [← same]
  have reals := (realPath_of_directoryAt? located).symm ▸ standing.ancestors
  simp only [reals, List.getElem_map, List.getElem_tails]

/-- A path that leads as far out as some level below the root leads into the project. -/
theorem leadsWithin_of_level (standing : disk.tree.Standing place)
    (stands : disk.tree.isDirectoryAt place) (located : disk.directoryAt? directory = some place)
    (below : level < levels disk directory)
    (leads : disk.directoryAt? path = some (place.drop level)) :
    LeadsWithin disk directory path := by
  obtain ⟨depth, counted, root⟩ := rootAround_at located standing
  have onwards : place.drop depth = (place.drop level).drop (depth - level) := by
    rw [List.drop_drop]
    congr 1
    omega
  refine ⟨_, (canonical?_of_directoryAt? leads).1, (canonical?_of_directoryAt? leads).2, ?_, ?_⟩
  · rw [realPath_of_directoryAt? located, standing.ancestors]
    refine ⟨_, List.mem_map_of_mem ?_, Path.sameAs_iff.mpr rfl⟩
    exact (List.mem_tails _ _).mpr (List.drop_suffix level place)
  · rw [(standing.drop stands level).1.ancestors]
    refine ⟨_, List.mem_map_of_mem ?_, Path.sameAs_iff.mpr root.symm⟩
    rw [onwards]
    exact (List.mem_tails _ _).mpr (List.drop_suffix _ _)

/-- Whether a path leads into a project does not depend on how the path is spelled. -/
theorem LeadsWithin.congr {one other : Path} (leads : LeadsWithin disk directory one)
    (same : one.trail = other.trail) : LeadsWithin disk directory other := by
  obtain ⟨real, found, stands, above, below⟩ := leads
  obtain ⟨place, located⟩ := directoryAt?_of_isDirectory stands
  have alike := located
  rw [Disk.directoryAt?_congr (.refl disk) same] at alike
  have canonical := (canonical?_of_directoryAt? located).1.symm.trans found
  refine ⟨real, ?_, (canonical?_of_directoryAt? alike).2, above, below⟩
  exact (canonical?_of_directoryAt? alike).1.trans canonical

/-- The real directories as far as the root lead into the project. -/
theorem leadsWithin_of_real (standing : disk.tree.Standing place)
    (stands : disk.tree.isDirectoryAt place) (located : disk.directoryAt? directory = some place)
    (real : Listed ((realPath disk directory).ancestors.take (levels disk directory)) path) :
    LeadsWithin disk directory path := by
  obtain ⟨entry, member, same⟩ := real
  rw [realPath_of_directoryAt? located, standing.ancestors] at member
  obtain ⟨level, within, rfl⟩ := List.mem_take_iff_getElem.mp member
  rw [List.getElem_map, List.getElem_tails] at same
  -- Whatever the spelling, the path leads where that of the place does.
  have below := Nat.lt_of_lt_of_le within (Nat.min_le_left ..)
  apply leadsWithin_of_level standing stands located below
  obtain ⟨around, outside⟩ := standing.drop stands level
  rw [← Disk.directoryAt?_congr (.refl disk) (Path.sameAs_iff.mp same)]
  exact Disk.directoryAt?_path around outside

/-- As long as a spelling goes straight up, it goes up through the places around that of its
directory. -/
theorem directoryAt?_of_straight (located : disk.directoryAt? directory = some place)
    (straight : ∀ path ∈ directory.ancestors.take level, disk.IsStraight path)
    (above : directory.ancestors[level]? = some path) :
    disk.directoryAt? path = some (place.drop level) := by
  -- The induction is on the levels: a straight step leads to the place around the last one.
  induction level generalizing path with
  | zero =>
    obtain rfl : directory = path := Option.some.inj above
    exact located
  | succ level ih =>
    have trails := Path.outward_getElem?_succ directory.trail level
    rw [← Path.ancestors_trail, List.getElem?_map, List.getElem?_map, above] at trails
    cases inner : directory.ancestors[level]? with
    | none =>
      rw [inner] at trails
      cases trails
    | some step =>
      rw [inner] at trails
      have front : step ∈ directory.ancestors.take (level + 1) := by
        apply List.mem_of_getElem? (i := level)
        rw [List.getElem?_take_of_lt (Nat.lt_succ_self level), inner]
      obtain ⟨parent, name, outer, isParent, parentLocated, stepLocated⟩ :=
        (straight step front).directoryAt?
      have here := ih (fun path member => straight path
        (List.take_subset_take_left _ (Nat.le_succ level) member)) inner
      -- The path is another spelling of the parent.
      have same : path.trail = parent.trail := by
        have parentTrail := step.parent?_trail
        rw [isParent] at parentTrail
        exact Option.some.inj (trails.trans parentTrail.symm)
      rw [Disk.directoryAt?_congr (.refl disk) same, parentLocated]
      have places := Option.some.inj (here.symm.trans stepLocated)
      rw [← List.drop_drop, places]
      rfl

/-- A search for a directory that exists writes its answer for the real directories up to the root
of the project, all of which lie between the directory and the root, and for as many directories
above the spelling of the directory. So everything that is written leads into the project exactly if
these spelled directories do. They do if below the root every name at the end of the spelling is
that of a directory and of no link. -/
theorem written_paths_lead_within_iff (disk : Disk)
    (start : disk.tree.Standing disk.workingDirectory) (directory : Path)
    (stands : disk.isDirectory directory) :
    (∀ locator source discover path,
      let searched := (resolve source disk discover locator directory).2
      (∀ answer, locator.cached? directory = some answer → searched = locator) ∧
      (locator.cached? directory = none →
        (Listed (chain disk directory) path → searched.cached? path = some (discover directory)) ∧
        (¬Listed (chain disk directory) path → searched.cached? path = locator.cached? path))) ∧
    (∀ path, Listed (chain disk directory) path ↔
      Listed ((realPath disk directory).ancestors.take (levels disk directory)) path ∨
        Listed (directory.ancestors.take (levels disk directory)) path) ∧
    (∀ path, Listed ((realPath disk directory).ancestors.take (levels disk directory)) path →
      LeadsWithin disk directory path) ∧
    LeadsWithin disk directory directory ∧
    -- Only the spelled directories can lead out of the project.
    ((∀ path, Listed (chain disk directory) path → LeadsWithin disk directory path) ↔
      ∀ path ∈ directory.ancestors.take (levels disk directory),
        LeadsWithin disk directory path) ∧
    ((∀ path ∈ directory.ancestors.take (levels disk directory - 1), disk.IsStraight path) →
      ∀ path, Listed (chain disk directory) path → LeadsWithin disk directory path) := by
  obtain ⟨place, located⟩ := directoryAt?_of_isDirectory stands
  obtain ⟨standing, around⟩ := Disk.standing_of_directoryAt? start located
  have reals : ∀ path, Listed ((realPath disk directory).ancestors.take (levels disk directory))
      path → LeadsWithin disk directory path :=
    fun path real => leadsWithin_of_real standing around located real
  have spelledOnly : (∀ path, Listed (chain disk directory) path → LeadsWithin disk directory path) ↔
      ∀ path ∈ directory.ancestors.take (levels disk directory),
        LeadsWithin disk directory path := by
    constructor
    · intro all path spelled
      apply all
      exact listed_iff_levels.mpr (Or.inr ⟨path, spelled, Path.sameAs_iff.mpr rfl⟩)
    · intro spelled path listed
      rcases listed_iff_levels.mp listed with real | ⟨entry, member, same⟩
      · exact reals path real
      · exact (spelled entry member).congr (Path.sameAs_iff.mp same)
  refine ⟨fun locator source discover path => ⟨fun answer known => ?_, fun unknown => ?_⟩,
    fun path => listed_iff_levels, reals, ?_, spelledOnly,
    fun straight => spelledOnly.mpr ?_⟩
  · exact act_resolve_of_known known
  · exact cached?_search disk source discover unknown path
  · -- The directory leads to itself, at the lowest level.
    exact leadsWithin_of_level standing around located (Nat.succ_pos _) located
  · intro path spelled
    obtain ⟨level, within, rfl⟩ := List.mem_take_iff_getElem.mp spelled
    obtain ⟨below, inside⟩ := Nat.lt_min.mp within
    apply leadsWithin_of_level standing around located below
    -- All steps up to this level are among those that go straight up.
    refine directoryAt?_of_straight located (fun path member => straight path ?_)
      (List.getElem?_eq_getElem inside)
    exact List.take_subset_take_left _ (Nat.le_sub_one_of_lt below) member

/-- A link leads from one project into the depth of another one, whose root is further up than the
link is deep. A search behind the link writes its answer for a directory of the first project. -/
theorem link_leads_out_of_project :
    let linked : Path := ⟨true, ["x", "link", "a", "w"]⟩
    let outside : Path := ⟨true, ["a", "w"]⟩
    let searched := (resolve .manual linkedProjects some empty linked).2
    linkedProjects.isDirectory linked ∧ empty.cached? outside = none ∧
      searched.cached? outside = some (some linked) ∧
      (realPath linkedProjects linked).text = "/q/r/x" ∧
      (rootAround linkedProjects linked).text = "/q" ∧
      ¬LeadsWithin linkedProjects linked outside := by
  intro linked outside searched
  refine ⟨by decide +kernel, rfl, by decide +kernel, by decide +kernel, by decide +kernel, ?_⟩
  rintro ⟨real, found, _, above, _⟩
  -- The directory is its own real path, which does not lie above the other one.
  have itself : linkedProjects.canonical? outside = some outside := by decide +kernel
  obtain rfl : outside = real := Option.some.inj (itself.symm.trans found)
  revert above
  unfold Listed
  decide +kernel

/-- The projects, with a mark on the directory that the link leads to. -/
def linkedRoots : Disk :=
  { linkedProjects with
    tree := ⟨(["package.json", "r", "q"], .file ⟨[], false, false⟩) ::
      linkedProjects.tree.entries⟩ }

/-- Where the link leads to the root of the other project, everything that is written leads into
that one, the spelling of the link itself among it. -/
theorem written_paths_lead_within_iff_linked_roots :
    let linked : Path := ⟨true, ["x", "link", "a", "w"]⟩
    linkedRoots.tree.Standing linkedRoots.workingDirectory ∧ linkedRoots.isDirectory linked ∧
      Listed (chain linkedRoots linked) ⟨true, ["link", "a", "w"]⟩ ∧
      ∀ path, Listed (chain linkedRoots linked) path → LeadsWithin linkedRoots linked path := by
  intro linked
  have stands : linkedRoots.isDirectory linked := by decide +kernel
  obtain ⟨_, _, _, _, _, within⟩ :=
    written_paths_lead_within_iff linkedRoots trivial linked stands
  have listed : Listed (chain linkedRoots linked) ⟨true, ["link", "a", "w"]⟩ := by
    unfold Listed
    decide +kernel
  refine ⟨trivial, stands, listed, within fun path spelled => ?_⟩
  -- Below the root there is only the directory behind the link.
  have only : linked.ancestors.take (levels linkedRoots linked - 1) = [linked] := by decide +kernel
  rw [only] at spelled
  obtain rfl := List.mem_singleton.mp spelled
  exact ⟨⟨true, ["link", "a", "w"]⟩, "x", ["r", "q"], by decide +kernel, by decide +kernel,
    by decide +kernel, by decide +kernel⟩

end Locator

end FlowService
