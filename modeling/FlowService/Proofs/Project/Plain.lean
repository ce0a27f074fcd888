import FlowService.Proofs.Project.Chain

/-! The chain of a directory whose path leads through no link goes straight up to its root. -/

namespace FlowService.Locator

/-- Trails as far as one of them, which is the last that is taken. -/
def upTo (top : List Component) : List (List Component) → List (List Component)
  | [] => []
  | trail :: outer => if trail = top then [trail] else trail :: upTo top outer

/-- In front of a trail that is taken only others than the last one are, which are taken as well. -/
theorem split_of_mem_upTo {top trail : List Component} {trails : List (List Component)}
    (member : trail ∈ upTo top trails) :
    ∃ before after, trails = before ++ trail :: after ∧
      ∀ other ∈ before, other ∈ upTo top trails ∧ other ≠ top := by
  induction trails with
  | nil => cases member
  | cons first rest ih =>
    rw [upTo] at member ⊢
    split at member
    · obtain rfl := List.mem_singleton.mp member
      exact ⟨[], rest, rfl, by simp⟩
    · rename_i apart
      rcases List.mem_cons.mp member with rfl | later
      · exact ⟨[], rest, rfl, by simp⟩
      · obtain ⟨before, after, rfl, others⟩ := ih later
        refine ⟨first :: before, after, rfl, fun other front => ?_⟩
        rw [if_neg apart]
        rcases List.mem_cons.mp front with rfl | behind
        · exact ⟨List.mem_cons_self, apart⟩
        · exact ⟨List.mem_cons_of_mem _ (others other behind).1, (others other behind).2⟩

/-- The path of a directory leads through no link. -/
def Plain (disk : Disk) (directory : Path) : Prop :=
  (realPath disk directory).trail = directory.trail

/-- Where both spellings of a directory stand for the same, each directory is listed once. -/
theorem chainUp_trail_plain (root : Path) {trail : List Component} {reals : List Path}
    (realTrails : reals.map Path.trail = Path.outward trail) {given : Path}
    (givenTrail : given.trail = trail) :
    (chainUp root reals (some given)).map Path.trail = upTo root.trail (Path.outward trail) := by
  -- The induction is on the real directories, whose first one is that of the trail.
  induction reals generalizing trail given with
  | nil => rw [Path.outward_eq] at realTrails; cases realTrails
  | cons real outer ih =>
    rw [Path.outward_eq, List.map_cons] at realTrails
    obtain ⟨realTrail, outerTrails⟩ := List.cons.inj realTrails
    have once : (some given).toList.filter (!·.sameAs real) = [] := by
      simp [Path.sameAs_iff.mpr (givenTrail.trans realTrail.symm)]
    rw [chainUp_cons, once, Path.outward_eq, upTo]
    by_cases top : real.sameAs root
    · have topTrail : trail = root.trail := realTrail.symm.trans (Path.sameAs_iff.mp top)
      simp [top, realTrail, topTrail]
    · have below : trail ≠ root.trail := fun same =>
        top (Path.sameAs_iff.mpr (realTrail.trans same))
      rw [if_neg top, if_neg below]
      have parent := given.parent?_trail
      rw [givenTrail] at parent
      cases outside : Path.around trail with
      | none =>
        rw [outside] at outerTrails
        rw [List.map_eq_nil_iff.mp outerTrails]
        simp [chainUp, upTo, realTrail]
      | some outerTrail =>
        rw [outside] at outerTrails parent
        obtain ⟨above, isParent, aboveTrail⟩ := Option.map_eq_some_iff.mp parent
        have rest := ih outerTrails aboveTrail
        rw [Option.bind_some, isParent]
        simp [realTrail, rest]

/-- The chain of a directory whose path leads through no link goes straight up to its root. -/
theorem chain_trail_plain {disk : Disk} {directory : Path} (plain : Plain disk directory) :
    (chain disk directory).map Path.trail =
      upTo (rootAround disk directory).trail (Path.outward directory.trail) := by
  refine chainUp_trail_plain _ ?_ rfl
  rw [Path.ancestors_trail, plain]

/-- What the chain of such a directory lists is a directory above it, and all that comes before it
is listed too and below the root. -/
theorem split_of_shared {disk : Disk} {directory other : Path} (plain : Plain disk directory)
    (listed : other.trail ∈ (chain disk directory).map Path.trail) :
    ∃ below above, directory.ancestors = below ++ above ∧
      above.map Path.trail = other.ancestors.map Path.trail ∧
      ∀ path ∈ below, path.trail ∈ (chain disk directory).map Path.trail ∧
        path.trail ≠ (rootAround disk directory).trail := by
  rw [chain_trail_plain plain] at listed ⊢
  obtain ⟨before, after, split, others⟩ := split_of_mem_upTo listed
  have trails := directory.ancestors_trail
  rw [split] at trails
  obtain ⟨below, above, same, rfl, aboveTrails⟩ := List.map_eq_append_iff.mp trails
  refine ⟨below, above, same, ?_, fun path member => others _ (List.mem_map_of_mem member)⟩
  rw [aboveTrails, other.ancestors_trail]
  exact Path.outward_split split

end FlowService.Locator
