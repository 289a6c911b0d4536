import Mathlib.Algebra.Order.Field.Basic
import Mathlib.Data.Nat.Cast.Field
import Mathlib.Data.Rat.Cast.Order
import Mathlib.Tactic.Linarith
import ResumeFilter.Proofs.Decimal.Rounding

/-!
# The values of floating-point numbers

A finite number stands for a rational number, its `value`. Finite numbers compare as their values do
(`le_iff`), are whole if their values are integers (`isWhole_iff`), and are converted to an integer
without loss if that is so and the integer has 64 bits (`toInt64_of_value_eq`). The limits of 64
bits are not alike: the lower one is a floating-point number, and the upper one is rounded up to a
power of two (`value_ofInt_maxValue`).
-/

namespace ResumeFilter.Binary64

/-! ## Magnitudes and values -/

/-- The magnitude of a code. -/
def magnitude (code : Nat) : ℚ := units code / unitsPerOne

/-- The rational number that a finite number stands for. -/
def value (x : Binary64) : ℚ := if x.isNegative then -magnitude x.code else magnitude x.code

/-- There are units in one, also among the rational numbers. -/
theorem unitsPerOne_cast_pos : (0 : ℚ) < unitsPerOne := Nat.cast_pos.mpr unitsPerOne_pos

/-- A greater code has a greater magnitude. -/
theorem magnitude_strictMono : StrictMono magnitude := by
  intro c c' h
  exact div_lt_div_of_pos_right (Nat.cast_lt.mpr (units_strictMono h)) unitsPerOne_cast_pos

/-- Code zero has no magnitude. -/
@[simp]
theorem magnitude_zero : magnitude 0 = 0 := by
  have hzero : units 0 = 0 := rfl
  rw [magnitude, hzero, Nat.cast_zero, zero_div]

/-- Magnitudes are not negative. -/
theorem magnitude_nonneg (code : Nat) : 0 ≤ magnitude code := by
  rw [← magnitude_zero]
  exact magnitude_strictMono.monotone (Nat.zero_le code)

/-- A number without sign is its magnitude. -/
theorem value_eq_magnitude {x : Binary64} (h : x.isNegative = false) :
    x.value = magnitude x.code := by
  rw [value, h, if_neg Bool.false_ne_true]

/-- A number with a sign is its magnitude below zero. -/
theorem value_eq_neg_magnitude {x : Binary64} (h : x.isNegative = true) :
    x.value = -magnitude x.code := by
  rw [value, h, if_pos rfl]

/-! ## Comparing -/

/-- Finite numbers compare as their values. -/
theorem le_iff {x y : Binary64} (hx : x.isFinite) (hy : y.isFinite) :
    x.le y ↔ x.value ≤ y.value := by
  have hmono : ∀ c c', c ≤ c' ↔ magnitude c ≤ magnitude c' := fun _ _ =>
    magnitude_strictMono.le_iff_le.symm
  have hx0 := magnitude_nonneg x.code
  have hy0 := magnitude_nonneg y.code
  rw [le, isNaN_eq_false hx, isNaN_eq_false hy, Bool.not_false, Bool.true_and, Bool.true_and,
    decide_eq_true_eq, value, value, signedCode, signedCode]
  cases hxs : x.isNegative <;> cases hys : y.isNegative <;>
    simp only [Bool.false_eq_true, if_false, if_true]
  case false.false => rw [Int.ofNat_le, hmono]
  case true.true => rw [Int.neg_le_neg_iff, Int.ofNat_le, neg_le_neg_iff, hmono]
  case true.false => exact iff_of_true (by omega) (by linarith)
  case false.true =>
    -- A number without sign is at most one with a sign only if both are zero.
    constructor
    · intro h
      obtain ⟨hxcode, hycode⟩ : x.code = 0 ∧ y.code = 0 := by omega
      rw [hxcode, hycode, magnitude_zero, neg_zero]
    · intro h
      have hxcode : x.code = 0 :=
        magnitude_strictMono.injective (by rw [magnitude_zero]; linarith)
      have hycode : y.code = 0 :=
        magnitude_strictMono.injective (by rw [magnitude_zero]; linarith)
      omega

/-- One finite number is less than another one exactly if its value is. -/
theorem lt_iff {x y : Binary64} (hx : x.isFinite) (hy : y.isFinite) :
    x.lt y ↔ x.value < y.value := by
  have hle := le_iff hy hx
  rw [le, isNaN_eq_false hx, isNaN_eq_false hy, Bool.not_false, Bool.true_and, Bool.true_and,
    decide_eq_true_eq] at hle
  rw [lt, isNaN_eq_false hx, isNaN_eq_false hy, Bool.not_false, Bool.true_and, Bool.true_and,
    decide_eq_true_eq, ← not_le, ← not_le, hle]

/-! ## Whole numbers -/

/-- A finite number is whole exactly if its value is an integer. -/
theorem isWhole_iff {x : Binary64} (hx : x.isFinite) : x.isWhole ↔ ∃ k : ℤ, x.value = k := by
  have hmagnitude : ∀ k : ℤ, magnitude x.code = k ↔ (units x.code : ℤ) = k * unitsPerOne := by
    intro k
    rw [magnitude, div_eq_iff unitsPerOne_cast_pos.ne']
    exact_mod_cast Iff.rfl
  have hdvd : x.isWhole ↔ (unitsPerOne : ℤ) ∣ units x.code := by
    rw [isWhole, hx, Bool.true_and, beq_iff_eq, Int.natCast_dvd_natCast, Nat.dvd_iff_mod_eq_zero]
  have hexists : (unitsPerOne : ℤ) ∣ units x.code ↔ ∃ k : ℤ, magnitude x.code = k := by
    simp only [hmagnitude, dvd_iff_exists_eq_mul_left]
  rw [hdvd, hexists, value]
  split_ifs
  · constructor
    · rintro ⟨k, hk⟩
      exact ⟨-k, by rw [hk, Int.cast_neg]⟩
    · rintro ⟨k, hk⟩
      exact ⟨-k, by rw [Int.cast_neg, ← hk, neg_neg]⟩
  · rfl

/-- A whole number is its own integer part. -/
theorem toInt_of_isWhole {x : Binary64} (h : x.isWhole) : (x.toInt : ℚ) = x.value := by
  have hmod : units x.code % unitsPerOne = 0 := by
    rw [isWhole, Bool.and_eq_true, beq_iff_eq] at h
    exact h.2
  have hdiv : ((units x.code / unitsPerOne : Nat) : ℚ) = magnitude x.code := by
    rw [magnitude, Nat.cast_div (Nat.dvd_of_mod_eq_zero hmod) unitsPerOne_cast_pos.ne']
  rw [toInt, value]
  split_ifs
  · rw [Int.cast_neg, Int.cast_natCast, hdiv]
  · rw [Int.cast_natCast, hdiv]

/-- The integer part of an integer is this integer. -/
theorem toInt_of_value_eq {x : Binary64} (hx : x.isFinite) {k : ℤ} (h : x.value = k) :
    x.toInt = k := by
  have hvalue := toInt_of_isWhole ((isWhole_iff hx).mpr ⟨k, h⟩)
  rw [h] at hvalue
  exact_mod_cast hvalue

/-- A number that is an integer of 64 bits is converted to it: nothing is cut off at the limits. -/
theorem toInt64_of_value_eq {x : Binary64} (hx : x.isFinite) {n : Int64} (h : x.value = n.toInt) :
    x.toInt64 = n := by
  have hlow := n.le_toInt
  have hhigh := n.toInt_lt
  rw [toInt64, isNaN_eq_false hx, if_neg Bool.false_ne_true, toInt_of_value_eq hx h,
    min_eq_right (by omega), max_eq_right hlow, Int64.ofInt_toInt]

/-! ## The limits of 64 bits -/

/-- The code of the power of two that lies just beyond the integers of 64 bits. -/
def limitCode : Nat := 0x43E0000000000000

/-- A power of two has a code of its own. -/
theorem magnitude_limitCode : magnitude limitCode = 2 ^ 63 := by
  have hunits : units limitCode = 2 ^ 63 * unitsPerOne := by decide +kernel
  rw [magnitude, hunits, Nat.cast_mul, mul_div_cancel_right₀ _ unitsPerOne_cast_pos.ne']
  norm_num

/-- The least integer of 64 bits is a floating-point number. -/
theorem value_ofInt_minValue :
    (ofInt Int64.minValue.toInt).isFinite ∧ (ofInt Int64.minValue.toInt).value = -2 ^ 63 := by
  obtain ⟨hfinite, hsign, hcode⟩ : (ofInt Int64.minValue.toInt).isFinite = true ∧
      (ofInt Int64.minValue.toInt).isNegative = true ∧
      (ofInt Int64.minValue.toInt).code = limitCode := by decide +kernel
  rw [value_eq_neg_magnitude hsign, hcode, magnitude_limitCode]
  exact ⟨hfinite, rfl⟩

/-- The largest integer of 64 bits is rounded up to a power of two. -/
theorem value_ofInt_maxValue :
    (ofInt Int64.maxValue.toInt).isFinite ∧ (ofInt Int64.maxValue.toInt).value = 2 ^ 63 := by
  obtain ⟨hfinite, hsign, hcode⟩ : (ofInt Int64.maxValue.toInt).isFinite = true ∧
      (ofInt Int64.maxValue.toInt).isNegative = false ∧
      (ofInt Int64.maxValue.toInt).code = limitCode := by decide +kernel
  rw [value_eq_magnitude hsign, hcode, magnitude_limitCode]
  exact ⟨hfinite, rfl⟩

end ResumeFilter.Binary64
