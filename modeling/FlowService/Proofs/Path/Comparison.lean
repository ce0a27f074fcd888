import FlowService.Path.Order
import FlowService.Proofs.Path.Spelling

/-!
The order of paths is a total one, and it takes two paths for equal exactly if they stand for the
same thing.
-/

namespace FlowService

namespace Component

/-- Components are told apart by their kind first and by their text then. -/
theorem compare_eq : compare = compareLex (compareOn rank) (compareOn text) := by
  funext left right
  -- Only names share a kind with others, and all else has one text for each kind.
  cases left <;> cases right <;> rfl

/-- The comparison of components is a total order. -/
instance : Std.TransCmp compare := by
  rw [compare_eq]
  infer_instance

/-- Components that compare equal are the same. -/
instance : Std.LawfulEqCmp compare where
  eq_of_compare {left right} same := by
    rw [compare_eq, compareLex_eq_eq] at same
    -- The kinds agree, so it remains to compare two names by their texts.
    obtain ⟨kind, spelled⟩ := same
    have ranks : left.rank = right.rank := Std.LawfulEqCmp.eq_of_compare kind
    have texts : left.text = right.text := Std.LawfulEqCmp.eq_of_compare spelled
    cases left <;> cases right <;> simp_all [rank, text]

end Component

namespace Path

/-- Components are compared one after the other, like the letters of two words. -/
theorem compareComponents_eq : compareComponents = List.compareLex Component.compare := by
  funext lefts rights
  induction lefts generalizing rights with
  | nil => cases rights <;> rfl
  | cons left lefts ih =>
    cases rights with
    | nil => rfl
    | cons right rights =>
      -- What comes behind is looked at only when the first two are the same.
      rw [compareComponents, List.compareLex_cons_cons, ih]
      cases left.compare right <;> rfl

/-- The comparison of paths is a total order. -/
instance : Std.TransCmp compare where
  eq_swap := by
    intro left right
    unfold compare
    rw [compareComponents_eq]
    exact Std.OrientedCmp.eq_swap
  isLE_trans := by
    intro one other third
    unfold compare
    rw [compareComponents_eq]
    exact Std.TransCmp.isLE_trans

/-- Paths that stand for the same thing are those that compare equal. -/
theorem compare_eq_iff {left right : Path} : left.compare right = .eq ↔ left.sameAs right := by
  unfold compare sameAs
  rw [compareComponents_eq, Std.LawfulEqCmp.compare_eq_iff_eq, beq_iff_eq]

end Path

end FlowService
