import FlowService.Feature.Coverage
import Mathlib.Algebra.Order.Round
import Mathlib.Data.Rat.Floor
import Mathlib.Tactic.Linarith
import Mathlib.Tactic.Ring

/-!
The percentage of a coverage report is the true share, rounded to the nearest whole number and
upwards between two. It is worked out from words of 64 bits, none of which overflows.
-/

namespace FlowService.CoverageReport

/-- A whole number is the nearest one to a share, or the larger one of the two nearest. -/
structure IsNearest (share : ℚ) (whole : ℤ) : Prop where
  nearest : ∀ other : ℤ, |share - whole| ≤ |share - other|
  upward : ∀ other : ℤ, |share - other| = |share - whole| → other ≤ whole

/-- How many expressions there are, as a word of 64 bits. -/
def totalWord (covered uncovered : UInt32) : UInt64 := covered.toUInt64 + uncovered.toUInt64

/-- What is divided by the number of expressions, as a word of 64 bits. -/
def dividendWord (covered uncovered : UInt32) : UInt64 :=
  -- Half of the divisor is added so that the quotient is rounded and not cut off.
  covered.toUInt64 * 100 + totalWord covered uncovered / 2

/-- How many expressions there are. -/
def total (covered uncovered : UInt32) : ℕ := covered.toNat + uncovered.toNat

/-- The share of covered expressions out of a hundred. -/
def share (covered uncovered : UInt32) : ℚ := 100 * covered.toNat / total covered uncovered

variable {covered uncovered : UInt32} {whole : ℕ}

/-- Two words of 32 bits have a sum of 64 bits. -/
theorem totalWord_toNat : (totalWord covered uncovered).toNat = total covered uncovered := by
  have coveredBound := covered.toNat_lt
  have uncoveredBound := uncovered.toNat_lt
  rw [totalWord, UInt64.toNat_add, UInt32.toNat_toUInt64, UInt32.toNat_toUInt64,
    Nat.mod_eq_of_lt (by omega), total]

/-- A hundred times a word of 32 bits is one of 64 bits. -/
theorem hundredfold_toNat : (covered.toUInt64 * 100).toNat = covered.toNat * 100 := by
  have bound := covered.toNat_lt
  rw [UInt64.toNat_mul, UInt32.toNat_toUInt64]
  exact Nat.mod_eq_of_lt (by simp; omega)

/-- The dividend does not overflow either. -/
theorem dividendWord_toNat : (dividendWord covered uncovered).toNat =
    covered.toNat * 100 + total covered uncovered / 2 := by
  have coveredBound := covered.toNat_lt
  have uncoveredBound := uncovered.toNat_lt
  rw [dividendWord, UInt64.toNat_add, hundredfold_toNat, UInt64.toNat_div, totalWord_toNat]
  refine Nat.mod_eq_of_lt ?_
  simp [total]
  omega

/-- The quotient is a word of 32 bits, since the dividend is that of a share of at most a hundred
and a half. -/
theorem quotient_lt : (dividendWord covered uncovered / totalWord covered uncovered).toNat <
    UInt32.size := by
  rw [UInt64.toNat_div, dividendWord_toNat, totalWord_toNat]
  rcases Nat.eq_zero_or_pos (total covered uncovered) with none | some
  · rw [none, Nat.div_zero]
    decide
  · have small : covered.toNat * 100 + total covered uncovered / 2 <
        total covered uncovered * 101 := by
      unfold total at some ⊢
      omega
    exact Nat.lt_trans (Nat.div_lt_of_lt_mul small) (by decide)

/-- The cast to 32 bits cuts nothing off. -/
theorem quotient_toUInt32 :
    (dividendWord covered uncovered / totalWord covered uncovered).toUInt32.toNat =
      (dividendWord covered uncovered / totalWord covered uncovered).toNat := by
  rw [UInt64.toNat_toUInt32]
  exact Nat.mod_eq_of_lt quotient_lt

/-- The percentage is a quotient of natural numbers. -/
theorem percentOf_toNat (some : total covered uncovered ≠ 0) :
    (percentOf covered uncovered).toNat =
      (covered.toNat * 100 + total covered uncovered / 2) / total covered uncovered := by
  have divisor : totalWord covered uncovered ≠ 0 := by
    intro none
    rw [← totalWord_toNat, none] at some
    exact some rfl
  have words : percentOf covered uncovered =
      if totalWord covered uncovered = 0 then 100
      else (dividendWord covered uncovered / totalWord covered uncovered).toUInt32 := rfl
  rw [words, if_neg divisor, quotient_toUInt32, UInt64.toNat_div, dividendWord_toNat,
    totalWord_toNat]

/-- Nothing at all is fully covered. -/
theorem percentOf_none (none : total covered uncovered = 0) :
    percentOf covered uncovered = 100 := by
  have divisor : totalWord covered uncovered = 0 := by
    rw [← UInt64.toNat_inj, totalWord_toNat, none]
    rfl
  exact if_pos divisor

/-- A whole number is not above the percentage exactly if it is at most a half above the share. -/
theorem le_percentOf_iff (some : total covered uncovered ≠ 0) :
    whole ≤ (percentOf covered uncovered).toNat ↔
      2 * (whole * total covered uncovered) ≤ 200 * covered.toNat + total covered uncovered := by
  rw [percentOf_toNat some, Nat.le_div_iff_mul_le (Nat.pos_of_ne_zero some)]
  -- Half of an odd total is cut off, but the two even numbers beside it are compared alike.
  omega

/-- The percentage is at most a hundred. -/
theorem percentOf_le (covered uncovered : UInt32) : (percentOf covered uncovered).toNat ≤ 100 := by
  by_cases none : total covered uncovered = 0
  · rw [percentOf_none none]
    decide
  · refine Nat.le_of_not_lt fun more => ?_
    have exceeds := (le_percentOf_iff none).mp more
    unfold total at exceeds none
    omega

/-- The percentage is the share, rounded. -/
theorem percentOf_eq_round (some : total covered uncovered ≠ 0) :
    ((percentOf covered uncovered).toNat : ℤ) = round (share covered uncovered) := by
  have positive : (0 : ℚ) < total covered uncovered := by
    exact_mod_cast Nat.pos_of_ne_zero some
  -- The percentage is not above itself, and the next whole number is.
  have below := (le_percentOf_iff some).mp (Nat.le_refl _)
  have above := mt (le_percentOf_iff some).mpr (Nat.not_succ_le_self _)
  rw [Nat.not_le] at above
  have belowShare : (2 * ((percentOf covered uncovered).toNat * total covered uncovered) : ℚ) ≤
      200 * covered.toNat + total covered uncovered := by exact_mod_cast below
  have aboveShare : (200 * covered.toNat + total covered uncovered : ℚ) <
      2 * (((percentOf covered uncovered).toNat + 1) * total covered uncovered) := by
    exact_mod_cast above
  refine (round_eq_iff.mpr ⟨?_, ?_⟩).symm
  · rw [share, le_div_iff₀ positive]
    push_cast
    linarith
  · rw [share, div_lt_iff₀ positive]
    push_cast
    linarith

/-- Rounding gives the nearest whole number, and of two the larger. -/
theorem isNearest_round (share : ℚ) : IsNearest share (round share) where
  nearest other := round_le share other
  upward other same := by
    obtain ⟨below, above⟩ := round_eq_iff.mp (Eq.refl (round share))
    -- A larger number would be more than a half away, and the rounded one is not.
    by_contra larger
    have next : (round share : ℚ) + 1 ≤ other := by exact_mod_cast not_le.mp larger
    have far : |share - other| = other - share := by
      rw [abs_sub_comm, abs_of_nonneg (by linarith)]
    have near : |share - round share| ≤ 1 / 2 := abs_sub_round share
    linarith

/-- More covered expressions never lower the percentage. -/
theorem percentOf_mono {more : UInt32} (grown : covered ≤ more) :
    percentOf covered uncovered ≤ percentOf more uncovered := by
  rw [UInt32.le_iff_toNat_le] at grown ⊢
  by_cases none : total more uncovered = 0
  · rw [percentOf_none none]
    exact percentOf_le covered uncovered
  · by_cases noneBefore : total covered uncovered = 0
    · -- All that there is has been covered since.
      have full : (100 : ℕ) ≤ (percentOf more uncovered).toNat := by
        rw [le_percentOf_iff none]
        unfold total at noneBefore ⊢
        omega
      rw [percentOf_none noneBefore]
      exact full
    · rw [le_percentOf_iff none]
      have before := (le_percentOf_iff noneBefore).mp (Nat.le_refl _)
      have bound := percentOf_le covered uncovered
      obtain ⟨added, sum⟩ := Nat.exists_eq_add_of_le grown
      -- What was added counts at least a hundredfold on the right and at most so on the left.
      have part : (percentOf covered uncovered).toNat * added ≤ 100 * added :=
        Nat.mul_le_mul_right added bound
      unfold total at before ⊢
      rw [sum]
      have split : (percentOf covered uncovered).toNat * (covered.toNat + added + uncovered.toNat) =
          (percentOf covered uncovered).toNat * (covered.toNat + uncovered.toNat) +
            (percentOf covered uncovered).toNat * added := by ring
      rw [split]
      omega

/-- More uncovered expressions never raise the percentage. -/
theorem percentOf_anti {more : UInt32} (grown : uncovered ≤ more) :
    percentOf covered more ≤ percentOf covered uncovered := by
  rw [UInt32.le_iff_toNat_le] at grown ⊢
  by_cases none : total covered uncovered = 0
  · rw [percentOf_none none]
    exact percentOf_le covered more
  · have noneAfter : total covered more ≠ 0 := by
      unfold total at none ⊢
      omega
    rw [le_percentOf_iff none]
    have after := (le_percentOf_iff noneAfter).mp (Nat.le_refl _)
    have smaller : total covered uncovered ≤ total covered more := by
      unfold total
      omega
    cases percent : (percentOf covered more).toNat with
    | zero => omega
    | succ lower =>
      rw [percent] at after
      -- One half of the total stands on both sides, and the rest is compared to the covered ones.
      have rest : lower * total covered uncovered ≤ lower * total covered more :=
        Nat.mul_le_mul_left lower smaller
      rw [Nat.add_one_mul lower] at after ⊢
      omega

/-- For all counts no word overflows and no cast cuts anything off. The percentage is a hundred when
there is nothing, and else the whole number nearest to the share, the larger one of two. It lies
between zero and a hundred, is zero exactly if less than half a percent is covered, never falls when
more is covered, and never rises when more is uncovered. -/
theorem percentage_is_exactly_rounded (covered uncovered : UInt32) :
    -- The words that the percentage is worked out from.
    percentOf covered uncovered = (if totalWord covered uncovered = 0 then 100
      else (dividendWord covered uncovered / totalWord covered uncovered).toUInt32) ∧
    (totalWord covered uncovered).toNat = covered.toNat + uncovered.toNat ∧
    (covered.toUInt64 * 100).toNat = covered.toNat * 100 ∧
    (dividendWord covered uncovered).toNat =
      covered.toNat * 100 + (covered.toNat + uncovered.toNat) / 2 ∧
    (dividendWord covered uncovered / totalWord covered uncovered).toUInt32.toNat =
      (dividendWord covered uncovered / totalWord covered uncovered).toNat ∧
    -- What the percentage is.
    (covered = 0 ∧ uncovered = 0 → percentOf covered uncovered = 100) ∧
    (¬(covered = 0 ∧ uncovered = 0) →
      IsNearest (100 * covered.toNat / (covered.toNat + uncovered.toNat))
        (percentOf covered uncovered).toNat) ∧
    (percentOf covered uncovered).toNat ≤ 100 ∧
    (percentOf covered uncovered = 0 ↔
      200 * covered.toNat < covered.toNat + uncovered.toNat) ∧
    (∀ more, covered ≤ more → percentOf covered uncovered ≤ percentOf more uncovered) ∧
    (∀ more, uncovered ≤ more → percentOf covered more ≤ percentOf covered uncovered) := by
  have some_iff : total covered uncovered = 0 ↔ covered = 0 ∧ uncovered = 0 := by
    rw [total, Nat.add_eq_zero_iff, ← UInt32.toNat_inj, ← UInt32.toNat_inj]
    rfl
  refine ⟨rfl, totalWord_toNat, hundredfold_toNat, dividendWord_toNat, quotient_toUInt32,
    fun none => percentOf_none (some_iff.mpr none), fun some => ?_, percentOf_le covered uncovered,
    ?_, fun _ => percentOf_mono, fun _ => percentOf_anti⟩
  · have nearest := isNearest_round (share covered uncovered)
    rw [← percentOf_eq_round (mt some_iff.mp some), share, total] at nearest
    exact_mod_cast nearest
  · by_cases none : total covered uncovered = 0
    · rw [percentOf_none none]
      unfold total at none
      exact iff_of_false (by decide) (by omega)
    · -- The percentage is zero if one is above it.
      have one : 1 ≤ (percentOf covered uncovered).toNat ↔ _ := le_percentOf_iff none
      rw [← UInt32.toNat_inj]
      unfold total at one
      change (percentOf covered uncovered).toNat = 0 ↔ _
      omega

/-- One of eight is twelve and a half percent, which is rounded up. -/
theorem percentage_is_exactly_rounded_of_eight :
    ¬((1 : UInt32) = 0 ∧ (7 : UInt32) = 0) ∧ percentOf 1 7 = 13 ∧
      IsNearest (100 * (1 : ℕ) / ((1 : ℕ) + (7 : ℕ))) (13 : ℕ) ∧
      percentOf 1 7 ≤ percentOf 2 7 ∧ percentOf 1 8 ≤ percentOf 1 7 := by
  obtain ⟨_, _, _, _, _, _, nearest, _, _, mono, anti⟩ := percentage_is_exactly_rounded 1 7
  exact ⟨by decide, by decide, nearest (by decide), mono 2 (by decide), anti 8 (by decide)⟩

end FlowService.CoverageReport
