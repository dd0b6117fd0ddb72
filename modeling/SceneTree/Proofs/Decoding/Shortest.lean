import Mathlib.Algebra.Order.Field.Power
import Mathlib.Algebra.Order.Field.Rat
import Mathlib.Tactic.NormNum
import Mathlib.Tactic.Positivity
import SceneTree.Number.Shortest
import SceneTree.Proofs.Regularity.Values

/-!
# Shortest decimals begin with a digit

The search for the shortest decimal of a number that is not zero never ends with zero: a decimal that reads back is not
zero, and on the finest grid the number has a digit, because its leading digit is at most a few places from where its
binary digits place it.
-/

namespace SceneTree.Binary64

variable {num den : Nat} {exponent : Int}

/-- A power of ten is below the power of two that its logarithm allows. -/
theorem ten_pow_le_two_pow {g k : Nat} (h : 681 * g ≤ 205 * k) : 10 ^ g ≤ 2 ^ k := by
  have hbase : 10 ^ 205 ≤ (2 ^ 227) ^ 3 := by decide
  refine (Nat.pow_le_pow_iff_left (n := 681) (by decide)).mp ?_
  calc (10 ^ g) ^ 681 = 10 ^ (681 * g) := by rw [← Nat.pow_mul, Nat.mul_comm]
    _ ≤ 10 ^ (205 * k) := Nat.pow_le_pow_right (by decide) h
    _ = (10 ^ 205) ^ k := Nat.pow_mul ..
    _ ≤ ((2 ^ 227) ^ 3) ^ k := Nat.pow_le_pow_left hbase k
    _ = (2 ^ k) ^ 681 := by
      rw [← Nat.pow_mul, ← Nat.pow_mul, ← Nat.pow_mul]
      congr 1
      omega

/-- A power of two is below a power of ten with a quarter more digits than thirteen of them take. -/
theorem two_pow_le_ten_pow {g k : Nat} (h : k ≤ 13 * (g / 4)) : 2 ^ k ≤ 10 ^ g :=
  calc 2 ^ k ≤ 2 ^ (13 * (g / 4)) := Nat.pow_le_pow_right (by decide) h
    _ = (2 ^ 13) ^ (g / 4) := Nat.pow_mul ..
    _ ≤ (10 ^ 4) ^ (g / 4) := Nat.pow_le_pow_left (by decide) _
    _ = 10 ^ (4 * (g / 4)) := (Nat.pow_mul ..).symm
    _ ≤ 10 ^ g := Nat.pow_le_pow_right (by decide) (Nat.mul_div_le g 4)

/-- A quotient has a digit on the grid of a power of ten exactly if it is not below that power. -/
theorem tenfold_le_iff :
    (tenfold num den exponent).2 ≤ (tenfold num den exponent).1 ↔ (den : ℚ) * 10 ^ exponent ≤ num := by
  unfold tenfold
  by_cases hneg : exponent < 0
  · have hexponent : exponent = -(exponent.natAbs : Int) := by omega
    have hpower : (0 : ℚ) < 10 ^ exponent.natAbs := by positivity
    simp only [hneg, if_true]
    conv_rhs => rw [hexponent, zpow_neg, zpow_natCast, ← div_eq_mul_inv, div_le_iff₀ hpower]
    exact_mod_cast Iff.rfl
  · have hexponent : exponent = (exponent.natAbs : Int) := by omega
    simp only [hneg, if_false]
    conv_rhs => rw [hexponent, zpow_natCast]
    exact_mod_cast Iff.rfl

/-- What has a digit on a grid has one on every finer grid. -/
theorem tenfold_le_of_le {exponent' : Int} (h : (tenfold num den exponent).2 ≤ (tenfold num den exponent).1)
    (hle : exponent' ≤ exponent) : (tenfold num den exponent').2 ≤ (tenfold num den exponent').1 := by
  rw [tenfold_le_iff] at h ⊢
  have hpower : (10 : ℚ) ^ exponent' ≤ 10 ^ exponent := zpow_le_zpow_right₀ (by norm_num) hle
  exact (mul_le_mul_of_nonneg_left hpower (Nat.cast_nonneg den)).trans h

/-- Seventeen digits below where its binary digits place it, a quotient has a digit. -/
theorem tenfold_le_of_log2 (hnum : num ≠ 0) (hsmall : -1074 ≤ (Nat.log2 num : Int) - Nat.log2 den)
    (hexponent : exponent = ((Nat.log2 num : Int) - Nat.log2 den) * 1233 / 4096 - 17) :
    (tenfold num den exponent).2 ≤ (tenfold num den exponent).1 := by
  have hden : den ≤ 2 ^ (Nat.log2 den + 1) := Nat.le_of_lt Nat.lt_log2_self
  have hpower : 2 ^ Nat.log2 num ≤ num := Nat.log2_self_le hnum
  generalize Nat.log2 num = a at *
  generalize Nat.log2 den = b at *
  unfold tenfold
  by_cases hneg : exponent < 0
  · simp only [hneg, if_true]
    calc den ≤ 2 ^ (b + 1) := hden
      _ ≤ 2 ^ (a + (b + 1 - a)) := Nat.pow_le_pow_right (by decide) (by omega)
      _ = 2 ^ a * 2 ^ (b + 1 - a) := Nat.pow_add ..
      _ ≤ num * 10 ^ exponent.natAbs := Nat.mul_le_mul hpower (two_pow_le_ten_pow (by omega))
  · simp only [hneg, if_false]
    calc den * 10 ^ exponent.natAbs ≤ 2 ^ (b + 1) * 2 ^ (a - b - 1) :=
          Nat.mul_le_mul hden (ten_pow_le_two_pow (by omega))
      _ = 2 ^ (b + 1 + (a - b - 1)) := (Nat.pow_add ..).symm
      _ ≤ 2 ^ a := Nat.pow_le_pow_right (by decide) (by omega)
      _ ≤ num := hpower

/-- Sixteen digits below its leading one, a quotient has a digit. -/
theorem tenfold_leadingExponent (hnum : num ≠ 0) (hsmall : -1074 ≤ (Nat.log2 num : Int) - Nat.log2 den) :
    (tenfold num den (leadingExponent num den - 16)).2 ≤ (tenfold num den (leadingExponent num den - 16)).1 := by
  unfold leadingExponent
  simp only
  split
  · next h => exact tenfold_le_of_le (of_decide_eq_true h) (by omega)
  split
  · next h => exact tenfold_le_of_le (of_decide_eq_true h) (by omega)
  split
  · next h => exact tenfold_le_of_le (of_decide_eq_true h) (by omega)
  · exact tenfold_le_of_log2 hnum hsmall (by omega)

/-- What has a digit on a grid does not round to zero on it. -/
theorem roundedQuotient_ne_zero (hden : den ≠ 0) (h : den ≤ num) : roundedQuotient num den ≠ 0 := by
  have hquotient : 0 < num / den := Nat.div_pos h (Nat.pos_of_ne_zero hden)
  unfold roundedQuotient
  simp only
  split
  · omega
  · split <;> omega

/-- Zero is the nearest number to a decimal of zero. -/
theorem ofDecimal_zero (negative : Bool) (exponent : Int) :
    ofDecimal negative 0 exponent = .finite negative 0 leastExponent := by
  unfold ofDecimal
  simp [ofRatio]

/-- What is found on a grid reads back. -/
theorem ofDecimal_of_onGrid? {x : Binary64} {negative : Bool} {d : Decimal}
    (h : onGrid? x negative num den exponent = some d) : ofDecimal negative d.digits exponent = x := by
  unfold onGrid? at h
  simp only at h
  generalize (if roundedQuotient (tenfold num den exponent).1 (tenfold num den exponent).2 =
    (tenfold num den exponent).1 / (tenfold num den exponent).2 then _ else _) = other at h
  split at h
  · next hread =>
    obtain rfl := Option.some.inj h
    exact hread
  · split at h
    · next hread =>
      obtain rfl := Option.some.inj h
      exact hread
    · cases h

/-- The first grid that holds a decimal holds one that is not zero, if the finest grid does. -/
theorem digits_firstGrid_ne_zero {negative : Bool} {mantissa : Nat} {exponent' : Int} (hm : mantissa ≠ 0) {count : Nat}
    (hden : den ≠ 0) (h : (tenfold num den (exponent - count)).2 ≤ (tenfold num den (exponent - count)).1) :
    (firstGrid (.finite negative mantissa exponent') negative num den count exponent).digits ≠ 0 := by
  induction count generalizing exponent with
  | zero =>
    rw [Int.natCast_zero, Int.sub_zero] at h
    have hpositive : (tenfold num den exponent).2 ≠ 0 := by
      unfold tenfold
      simp only
      split
      · exact hden
      · exact Nat.mul_ne_zero hden (Nat.pow_pos (by decide)).ne'
    exact roundedQuotient_ne_zero hpositive h
  | succ count ih =>
    rw [firstGrid]
    split
    · next hd =>
      intro hzero
      have hread := ofDecimal_of_onGrid? hd
      rw [hzero, ofDecimal_zero] at hread
      exact hm (Binary64.finite.inj hread).2.1.symm
    · refine ih ?_
      rwa [show exponent - 1 - count = exponent - (count + 1 : Nat) by omega]

/-- Moving zeros into the exponent leaves digits that are not zero. -/
theorem digits_stripped_ne_zero (fuel : Nat) {d : Decimal} (h : d.digits ≠ 0) : (d.stripped fuel).digits ≠ 0 := by
  induction fuel generalizing d with
  | zero => exact h
  | succ fuel ih =>
    rw [Decimal.stripped]
    split
    · exact ih (by simp only; omega)
    · exact h

/-- A number of the format that is not zero is a quotient of numbers that are not, and not too small. -/
theorem log2_scaled {mantissa : Nat} (hm : mantissa ≠ 0) (hb : leastExponent ≤ exponent) :
    (scaled mantissa 1 (-exponent)).1 ≠ 0 ∧ (scaled mantissa 1 (-exponent)).2 ≠ 0 ∧
      -1074 ≤ (Nat.log2 (scaled mantissa 1 (-exponent)).1 : Int) - Nat.log2 (scaled mantissa 1 (-exponent)).2 := by
  have hpower : Nat.pow 2 (-exponent).natAbs ≠ 0 := (Nat.pow_pos (by decide)).ne'
  unfold leastExponent at hb
  unfold scaled
  simp only
  split
  · refine ⟨Nat.mul_ne_zero hm hpower, Nat.one_ne_zero, ?_⟩
    rw [show Nat.log2 1 = 0 by decide]
    omega
  · refine ⟨hm, by rwa [Nat.one_mul], ?_⟩
    have hlog : Nat.log2 (Nat.pow 2 (-exponent).natAbs) = (-exponent).natAbs := Nat.log2_two_pow
    rw [Nat.one_mul, hlog]
    omega

/-- The shortest decimal of a number of the format is zero only with the exponent zero. -/
theorem exponent_shortest (negative : Bool) {mantissa : Nat} (hb : leastExponent ≤ exponent)
    (h : (shortest negative mantissa exponent).digits = 0) : (shortest negative mantissa exponent).exponent = 0 := by
  unfold shortest at h ⊢
  split at h
  · next hm => rw [if_pos hm]
  · next hm =>
    obtain ⟨hnum, hden, hsmall⟩ := log2_scaled hm hb
    exact absurd h (digits_stripped_ne_zero 17 (digits_firstGrid_ne_zero hm hden (tenfold_leadingExponent hnum hsmall)))

end SceneTree.Binary64
