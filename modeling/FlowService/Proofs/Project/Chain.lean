import FlowService.Proofs.Disk.Walk
import FlowService.Proofs.Project.Table

/-!
The chain of a directory depends on the layout of the disk and on what the path of the directory
stands for.
-/

namespace FlowService.Locator

variable {one other : Disk} {left right : Path}

/-- A directory is found under the same name, however it is spelled. -/
theorem realPath_congr (same : one.SameLayout other) (spelling : left.trail = right.trail)
    (leftBare : one.LeadsToNoFile left) (rightBare : other.LeadsToNoFile right) :
    (realPath one left).trail = (realPath other right).trail := by
  -- Either a directory stands at the same place for both, or each path stays as it is.
  unfold realPath
  rw [Disk.canonical?_of_no_file leftBare, Disk.canonical?_of_no_file rightBare,
    Disk.directoryAt?_congr same spelling]
  cases other.directoryAt? right with
  | none => exact spelling
  | some location => rfl

/-- The first that fits stands for the same in two lists that stand for the same. -/
theorem find?_trail {fits suits : Path → Bool}
    (agree : ∀ left right, left.trail = right.trail → fits left = suits right)
    {paths others : List Path} (same : paths.map Path.trail = others.map Path.trail) :
    (paths.find? fits).map Path.trail = (others.find? suits).map Path.trail := by
  -- Both lists have as many paths, so they are gone through in step.
  induction paths generalizing others with
  | nil => rw [List.map_eq_nil_iff.mp same.symm]; rfl
  | cons path rest ih =>
    obtain ⟨first, behind, rfl, firstSame, restSame⟩ := List.map_eq_cons_iff.mp same.symm
    have fit := agree path first firstSame.symm
    rw [List.find?_cons, List.find?_cons, fit]
    cases suits first with
    | true => simp [firstSame]
    | false => exact ih restSame.symm

/-- The root around a directory is the same, however it is spelled. -/
theorem rootAround_congr (same : one.SameLayout other) (spelling : left.trail = right.trail)
    (leftBare : one.LeadsToNoFile left) (rightBare : other.LeadsToNoFile right) :
    (rootAround one left).trail = (rootAround other right).trail := by
  -- The directories above are the same and so are their marks, hence also the first marked one.
  have real := realPath_congr same spelling leftBare rightBare
  have marked : ∀ left right : Path, left.trail = right.trail →
      Project.isMarked one left = Project.isMarked other right :=
    fun left right spelling => (same.marks left).trans (Disk.isMarked_congr spelling)
  have above : (realPath one left).ancestors.map Path.trail =
      (realPath other right).ancestors.map Path.trail := by
    rw [Path.ancestors_trail, Path.ancestors_trail, real]
  have found := find?_trail marked above
  unfold rootAround Project.root?
  cases mine : (realPath one left).ancestors.find? (Project.isMarked one) with
  | none =>
    rw [mine] at found
    rw [Option.map_eq_none_iff.mp found.symm]
    exact real
  | some root =>
    rw [mine] at found
    obtain ⟨theirs, located, trail⟩ := Option.map_eq_some_iff.mp found.symm
    rw [located]
    exact trail.symm

/-- The directory that one lies in stands for what lies around the trail of that one. -/
theorem bind_parent?_trail (given : Option Path) :
    (given.bind Path.parent?).map Path.trail = (given.map Path.trail).bind Path.around := by
  cases given with
  | none => rfl
  | some path => exact path.parent?_trail

/-- Whether a directory is the same as another one is told by their trails. -/
theorem filter_sameAs_trail (given : Option Path) (real : Path) :
    (given.toList.filter (!·.sameAs real)).map Path.trail =
      (given.map Path.trail).toList.filter (· ≠ real.trail) := by
  cases given with
  | none => rfl
  | some path =>
    by_cases same : path.trail = real.trail
    · simp [Path.sameAs_iff.mpr same, same]
    · have apart : path.sameAs real = false := by
        rw [← Bool.not_eq_true, Path.sameAs_iff]
        exact same
      simp [apart, same]

/-- Going up lists a directory, its other spelling, and what is above it unless it is the root. -/
theorem chainUp_cons (root real : Path) (outer : List Path) (given : Option Path) :
    chainUp root (real :: outer) given =
      real :: given.toList.filter (!·.sameAs real) ++
        if real.sameAs root then [] else chainUp root outer (given.bind Path.parent?) := by
  cases given with
  | none => by_cases top : real.sameAs root <;> simp [chainUp, top]
  | some path =>
    by_cases top : real.sameAs root <;> by_cases same : path.sameAs real <;>
      simp [chainUp, top, same]

/-- Going up lists the same directories when it goes up the same ones to the same root. -/
theorem chainUp_trail {root top : Path} (sameRoot : root.trail = top.trail)
    {reals others : List Path} (sameReals : reals.map Path.trail = others.map Path.trail)
    {given spelled : Option Path} (sameGiven : given.map Path.trail = spelled.map Path.trail) :
    (chainUp root reals given).map Path.trail = (chainUp top others spelled).map Path.trail := by
  induction reals generalizing others given spelled with
  | nil => rw [List.map_eq_nil_iff.mp sameReals.symm]; rfl
  | cons real outer ih =>
    obtain ⟨first, behind, rfl, firstSame, restSame⟩ := List.map_eq_cons_iff.mp sameReals.symm
    have atRoot : real.sameAs root = first.sameAs top := Path.sameAs_congr firstSame.symm sameRoot
    -- The spelled directories go up in step with the real ones.
    have onwards : (given.bind Path.parent?).map Path.trail =
        (spelled.bind Path.parent?).map Path.trail := by
      rw [bind_parent?_trail, bind_parent?_trail, sameGiven]
    have rest := ih restSame.symm onwards
    have here : (given.toList.filter (!·.sameAs real)).map Path.trail =
        (spelled.toList.filter (!·.sameAs first)).map Path.trail := by
      rw [filter_sameAs_trail, filter_sameAs_trail, sameGiven, firstSame]
    rw [chainUp_cons, chainUp_cons, atRoot]
    cases first.sameAs top with
    | true => simp [firstSame, here]
    | false => simp [firstSame, here, rest]

/-- The chain of a directory is the same, however the directory is spelled. -/
theorem chain_congr (same : one.SameLayout other) (spelling : left.trail = right.trail)
    (leftBare : one.LeadsToNoFile left) (rightBare : other.LeadsToNoFile right) :
    (chain one left).map Path.trail = (chain other right).map Path.trail := by
  -- Both chains go up from the same directory to the same root.
  have real := realPath_congr same spelling leftBare rightBare
  unfold chain
  refine chainUp_trail (rootAround_congr same spelling leftBare rightBare) ?_ ?_
  · rw [Path.ancestors_trail, Path.ancestors_trail, real]
  · simp [spelling]

end FlowService.Locator
