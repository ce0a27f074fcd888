import FlowService.Proofs.Project.Within

/-!
Above a directory whose path is the one that the disk gives for it lie only such directories, and
going up from any of them one meets the same directories. So the chains of all directories between
one and the root of its project are ends of the chain of that one.
-/

namespace FlowService

open FlowService.Path

namespace Path

/-- Whatever comes later on the way outwards is shorter. -/
theorem outward_pairwise (trail : List Component) :
    (outward trail).Pairwise fun inner outer => outer.length < inner.length := by
  -- All that lies on the way outwards from what is around a trail is no longer than that.
  fun_induction outward trail with
  | case1 | case2 => exact List.pairwise_singleton ..
  | case3 component outer apart ih =>
    refine List.pairwise_cons.mpr ⟨fun other member => ?_, ih⟩
    exact Nat.lt_succ_of_le (Locator.length_le_of_mem_outward member)

/-- No directory is met twice on the way up along a path. -/
theorem ancestors_pairwise (path : Path) :
    path.ancestors.Pairwise fun inner outer => ¬inner.sameAs outer := by
  -- Two directories that are the same have trails of one length.
  have shorter := outward_pairwise path.trail
  rw [← ancestors_trail, List.pairwise_map] at shorter
  refine shorter.imp fun less same => ?_
  rw [sameAs_iff.mp same] at less
  exact Nat.lt_irrefl _ less

end Path

namespace Disk

variable {disk : Disk} {path outer : Path} {below above : List Path}

/-- A path leads to a directory and is the one that the disk gives for it. -/
structure IsRealDirectory (disk : Disk) (path : Path) : Prop where
  itself : disk.canonical? path = some path
  stands : disk.isDirectory path

/-- Such a path names the place of a directory, and only directories stand around that. -/
theorem IsRealDirectory.place (real : disk.IsRealDirectory path) : ∃ place : Location,
    disk.tree.Standing place ∧ disk.tree.isDirectoryAt place ∧ path = place.path := by
  obtain ⟨place, located⟩ := Locator.directoryAt?_of_isDirectory real.stands
  have named := (Locator.canonical?_of_directoryAt? located).1
  obtain rfl := Option.some.inj (real.itself.symm.trans named)
  obtain ⟨found, directory⟩ := Option.filter_eq_some_iff.mp located
  refine ⟨place, ?_, directory, rfl⟩
  unfold locate? at found
  split at found
  · cases found
  · -- The path begins at the root, so nothing is asked of the working directory.
    have root : disk.tree.Standing [] := trivial
    exact FileTree.walk_standing root found

/-- The path of the place of a directory below directories is such a path. -/
theorem isRealDirectory_path {place : Location} (standing : disk.tree.Standing place)
    (directory : disk.tree.isDirectoryAt place) : disk.IsRealDirectory place.path := by
  obtain ⟨itself, stands⟩ :=
    Locator.canonical?_of_directoryAt? (directoryAt?_path standing directory)
  exact ⟨itself, stands⟩

/-- What is met on the way up from such a path is such a path, and the way goes on as its own. -/
theorem IsRealDirectory.of_above (real : disk.IsRealDirectory path)
    (split : path.ancestors = below ++ outer :: above) :
    disk.IsRealDirectory outer ∧ outer.ancestors = outer :: above := by
  obtain ⟨place, standing, directory, rfl⟩ := real.place
  clear real
  -- The induction goes outwards through the names of the place, all around which stand directories.
  induction place generalizing below with
  | nil =>
    cases below with
    | nil =>
      obtain ⟨rfl, rfl⟩ := List.cons.inj split
      exact ⟨isRealDirectory_path standing directory, rfl⟩
    | cons first rest => simp [Path.ancestors, Path.segmentsAbove, Location.path] at split
  | cons name around ih =>
    have onwards : (Location.path (name :: around)).ancestors =
        Location.path (name :: around) :: (Location.path around).ancestors := by
      rw [standing.ancestors, standing.2.2.ancestors]
      rfl
    rw [onwards] at split
    cases below with
    | nil =>
      obtain ⟨rfl, rfl⟩ := List.cons.inj split
      exact ⟨isRealDirectory_path standing directory, onwards⟩
    | cons first rest => exact ih standing.2.2 standing.2.1 (List.cons.inj split).2

end Disk

namespace Locator

variable {disk : Disk} {directory spelled root member : Path} {below above : List Path}

/-- The directories on the way up from a directory are parted at its root, which is the nearest one
that is marked, or the directory itself when none is. -/
structure IsRooted (disk : Disk) (directory root : Path) (below above : List Path) : Prop where
  split : directory.ancestors = below ++ root :: above
  unmarked : ∀ path ∈ below, ¬Project.isMarked disk path
  top : Project.isMarked disk root ∨
    root = directory ∧ ∀ path ∈ directory.ancestors, ¬Project.isMarked disk path

/-- Every directory has a root. -/
theorem exists_isRooted (disk : Disk) (directory : Path) :
    ∃ root below above, IsRooted disk directory root below above := by
  -- The search for a marked directory parts the way up, or it shows that none is marked.
  cases found : directory.ancestors.find? (Project.isMarked disk) with
  | none =>
    have unmarked := List.find?_eq_none.mp found
    exact ⟨directory, [], _, rfl, by simp, Or.inr ⟨rfl, unmarked⟩⟩
  | some root =>
    obtain ⟨marked, below, above, split, unmarked⟩ := List.find?_eq_some_iff_append.mp found
    exact ⟨root, below, above, split, by simpa using unmarked, Or.inl marked⟩

/-- Nothing below the root is the root. -/
theorem IsRooted.apart (rooted : IsRooted disk directory root below above) :
    ∀ path ∈ below, ¬path.sameAs root := by
  have once := directory.ancestors_pairwise
  rw [rooted.split] at once
  exact fun path member => (List.pairwise_append.mp once).2.2 path member root List.mem_cons_self

/-- A directory that is its own root has nothing below its root. -/
theorem IsRooted.below_eq_nil (rooted : IsRooted disk directory root below above)
    (itself : root = directory) : below = [] := by
  cases below with
  | nil => rfl
  | cons first rest =>
    -- The directory comes first on the way up from it, so it would be below itself.
    have lowest : directory = first := (List.cons.inj rooted.split).1
    have same : first.sameAs root := Path.sameAs_iff.mpr (by rw [itself, lowest])
    exact absurd same (rooted.apart first List.mem_cons_self)

/-- The search for a marked directory finds the root, and it finds nothing where none is marked. -/
theorem IsRooted.root?_getD (rooted : IsRooted disk directory root below above) :
    (Project.root? disk directory).getD directory = root := by
  unfold Project.root?
  rcases rooted.top with marked | ⟨rfl, unmarked⟩
  · have found := List.find?_eq_some_iff_append.mpr
      ⟨marked, below, above, rooted.split, by simpa using rooted.unmarked⟩
    rw [found, Option.getD_some]
  · rw [List.find?_eq_none.mpr unmarked, Option.getD_none]

/-- A spelling that stands for the real directory is not listed beside it. -/
theorem chainUp_cons_same {real : Path} (same : spelled.trail = real.trail) (outer : List Path) :
    chainUp root (real :: outer) (some spelled) =
      real :: if real.sameAs root then [] else chainUp root outer spelled.parent? := by
  rw [chainUp_cons]
  simp [Path.sameAs_iff.mpr same]

/-- Going up lists what is below the root and then the root, whatever lies further up, as long as
the spelling goes up in step. -/
theorem chainUp_append
    (trails : (below ++ root :: above).map Path.trail = Path.outward spelled.trail)
    (apart : ∀ path ∈ below, ¬path.sameAs root) (further : List Path) :
    chainUp root (below ++ root :: further) (some spelled) = below ++ [root] := by
  -- The induction is on what is below the root; each of it takes one step of the spelling with it.
  induction below generalizing spelled with
  | nil =>
    rw [Path.outward_eq] at trails
    have same : spelled.trail = root.trail := (List.cons.inj trails).1.symm
    rw [List.nil_append, chainUp_cons_same same, if_pos (Path.sameAs_iff.mpr rfl), List.nil_append]
  | cons inner rest ih =>
    obtain ⟨here, later⟩ := List.forall_mem_cons.mp apart
    rw [Path.outward_eq, List.cons_append, List.map_cons] at trails
    obtain ⟨same, outside⟩ := List.cons.inj trails
    have parent := spelled.parent?_trail
    cases around : Path.around spelled.trail with
    | none => simp [around] at outside
    | some outer =>
      rw [around] at parent outside
      obtain ⟨next, isNext, rfl⟩ := Option.map_eq_some_iff.mp parent
      rw [List.cons_append, chainUp_cons_same same.symm, if_neg here, isNext, ih outside later]
      rfl

/-- Going up from a directory, however it is spelled, ends at its root. -/
theorem IsRooted.chainUp_eq (rooted : IsRooted disk directory root below above)
    (same : spelled.sameAs directory) (further : List Path) :
    chainUp root (below ++ root :: further) (some spelled) = below ++ [root] := by
  have trails : (below ++ root :: above).map Path.trail = Path.outward spelled.trail := by
    rw [← rooted.split, Path.ancestors_trail, Path.sameAs_iff.mp same]
  exact chainUp_append trails rooted.apart further

/-- A directory between another one and the root of that one has the same root. -/
theorem IsRooted.inner (rooted : IsRooted disk directory root below above)
    (real : disk.IsRealDirectory directory) {before after : List Path}
    (listed : below ++ [root] = before ++ member :: after) :
    disk.IsRealDirectory member ∧ Project.root? disk member = Project.root? disk directory ∧
      ∃ rest, IsRooted disk member root rest above ∧ rest ++ [root] = member :: after := by
  -- What comes before the directory lies below the root, so the root is still ahead of it.
  obtain ⟨rest, rfl⟩ : before <+: below := by
    have start : before <+: below ++ [root] := ⟨member :: after, listed.symm⟩
    rcases List.prefix_concat_iff.mp start with whole | start
    · rw [whole] at listed
      simp at listed
    · exact start
  rw [List.append_assoc] at listed
  have onwards := List.append_cancel_left listed
  have split : directory.ancestors = before ++ member :: (after ++ above) := by
    rw [rooted.split, ← List.cons_append, ← onwards]
    simp
  obtain ⟨realToo, climbs⟩ := real.of_above split
  have unmarked := List.forall_mem_append.mp rooted.unmarked
  refine ⟨realToo, ?_, rest, ⟨?_, unmarked.2, ?_⟩, onwards⟩
  · -- Nothing is found in front of the directory.
    have none := List.find?_eq_none.mpr unmarked.1
    unfold Project.root?
    rw [climbs, split, List.find?_append, none, Option.none_or]
  · rw [climbs, ← List.cons_append, ← onwards]
    simp
  · rcases rooted.top with marked | ⟨itself, none⟩
    · exact Or.inl marked
    · -- Where nothing is marked, only the directory itself is listed.
      have nothing := rooted.below_eq_nil itself
      obtain ⟨rfl, rfl⟩ := List.append_eq_nil_iff.mp nothing
      obtain ⟨rfl, -⟩ := List.cons.inj onwards
      rw [itself]
      exact Or.inr ⟨rfl, none⟩

/-- The chain of a directory, however it is spelled, goes straight up to its root. -/
theorem IsRooted.chain_eq (rooted : IsRooted disk directory root below above)
    (real : disk.IsRealDirectory directory) (same : spelled.sameAs directory) :
    rootAround disk spelled = root ∧ chain disk spelled = below ++ [root] := by
  -- Every spelling leads to the one place that the directory names.
  have found : realPath disk spelled = directory := by
    obtain ⟨place, standing, stands, rfl⟩ := real.place
    have located := Disk.directoryAt?_path standing stands
    rw [← Disk.directoryAt?_congr (.refl disk) (Path.sameAs_iff.mp same)] at located
    exact realPath_of_directoryAt? located
  have top : rootAround disk spelled = root := by
    rw [rootAround, found]
    exact rooted.root?_getD
  refine ⟨top, ?_⟩
  rw [chain, top, found, rooted.split]
  exact rooted.chainUp_eq same above

/-- The chain of an existing directory whose path is the one that the disk gives for it lists the
directory and those above it as far as the root of its project, each once and the nearest first.
Going up stops there, whatever lies further up. Every directory that is listed has the same root,
and its chain, however the directory is spelled, is what the chain lists from there on. -/
theorem chains_nest {disk : Disk} {directory : Path} (real : disk.IsRealDirectory directory) :
    ∃ root below above, IsRooted disk directory root below above ∧
      rootAround disk directory = root ∧ chain disk directory = below ++ [root] ∧
      (chain disk directory).Pairwise (fun inner outer => ¬inner.sameAs outer) ∧
      (∀ further, chainUp root (below ++ root :: further) (some directory) = below ++ [root]) ∧
      ∀ before member after, chain disk directory = before ++ member :: after →
        Project.root? disk member = Project.root? disk directory ∧
          ∀ spelled, spelled.sameAs member →
            rootAround disk spelled = root ∧ chain disk spelled = member :: after := by
  -- What is shown of a rooted directory holds of all that are listed, since they have its root.
  obtain ⟨root, below, above, rooted⟩ := exists_isRooted disk directory
  have itself : directory.sameAs directory := Path.sameAs_iff.mpr rfl
  obtain ⟨top, listed⟩ := rooted.chain_eq real itself
  refine ⟨root, below, above, rooted, top, listed, ?_, rooted.chainUp_eq itself, ?_⟩
  · have once := directory.ancestors_pairwise
    rw [rooted.split, List.append_cons] at once
    rw [listed]
    exact (List.pairwise_append.mp once).1
  · intro before member after split
    rw [listed] at split
    obtain ⟨realToo, sameMark, rest, rootedToo, onwards⟩ := rooted.inner real split
    refine ⟨sameMark, fun spelled same => ?_⟩
    rw [← onwards]
    exact rootedToo.chain_eq realToo same

/-- Three directories lie from one up to the root of its project. The chain of the middle one, which
is spelled with a slash too many, is the rest of the chain of the first. -/
theorem chains_nest_below_root :
    let inner : Path := ⟨true, ["x", "r", "q"]⟩
    let middle : Path := ⟨true, ["r", "q"]⟩
    let top : Path := ⟨true, ["q"]⟩
    linkedProjects.IsRealDirectory inner ∧ chain linkedProjects inner = [inner, middle, top] ∧
      rootAround linkedProjects ⟨true, ["r", "", "q"]⟩ = top ∧
      chain linkedProjects ⟨true, ["r", "", "q"]⟩ = [middle, top] := by
  intro inner middle top
  have real : linkedProjects.IsRealDirectory inner := ⟨by decide +kernel, by decide +kernel⟩
  have listed : chain linkedProjects inner = [inner, middle, top] := by decide +kernel
  have root : rootAround linkedProjects inner = top := by decide +kernel
  obtain ⟨_, _, _, _, rfl, _, _, _, nested⟩ := chains_nest real
  have behind := (nested [inner] middle [top] listed).2 ⟨true, ["r", "", "q"]⟩ (by decide +kernel)
  exact ⟨real, listed, behind.1.trans root, behind.2⟩

end Locator

end FlowService
