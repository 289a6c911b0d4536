import Mathlib.Algebra.Order.Ring.Abs
import Mathlib.Tactic.FieldSimp
import ResumeFilter.Proofs.Decimal.Value

/-!
# Rounding rational numbers

A rational number is rounded to the finite number nearest to it, and to the one with the even code
if two are equally near; from half-way behind the largest finite number on it is rounded to infinity
(`IsRoundingOf`). That a quotient lies in the interval of a code says the same about neighbouring
codes only (`isNearest_iff`), and greater distances follow because magnitudes grow with their codes.
So each quotient that is not negative has exactly one rounding, the number that is computed
(`isRoundingOf_iff`).
-/

namespace ResumeFilter.Binary64

/-! ## Distances -/

/-- The lesser of two numbers is the nearer one up to the middle between them. -/
theorem abs_sub_lower_le {q low high : ℚ} (h : low < high) :
    |q - low| ≤ |q - high| ↔ 2 * q ≤ low + high := by
  rw [← sq_le_sq]
  constructor
  · intro hsq
    have hprod : 0 ≤ (high - low) * (low + high - 2 * q) := by linarith
    linarith [nonneg_of_mul_nonneg_right hprod (sub_pos.mpr h)]
  · intro hmiddle
    have hprod := mul_nonneg (sub_nonneg.mpr h.le) (sub_nonneg.mpr hmiddle)
    linarith

/-- The greater of two numbers is the nearer one from the middle between them on. -/
theorem abs_sub_upper_le {q low high : ℚ} (h : low < high) :
    |q - high| ≤ |q - low| ↔ low + high ≤ 2 * q := by
  have hmirrored := abs_sub_lower_le (q := -q) (neg_lt_neg h)
  rw [neg_sub_neg, neg_sub_neg, abs_sub_comm high, abs_sub_comm low] at hmirrored
  rw [hmirrored]
  constructor <;> intro hmiddle <;> linarith

/-! ## What rounding is -/

/-- The least number that is rounded to infinity: the middle between the largest finite number and
the power of two that would follow it. -/
def overflow : ℚ := 2 ^ 1024 - 2 ^ 970

/-- Whether a number is what a rational number is rounded to. A code is even exactly if its
significand is. -/
structure IsRoundingOf (x : Binary64) (q : ℚ) : Prop where
  isNaN_eq : x.isNaN = false
  isNegative_eq : x.isNegative = decide (q < 0)
  isFinite_iff : x.isFinite ↔ |q| < overflow
  /-- No finite number is nearer. -/
  abs_sub_le : x.isFinite → ∀ y : Binary64, y.isFinite → |q - x.value| ≤ |q - y.value|
  /-- Of two numbers that are equally near, the one with the even code is taken. -/
  even_of_tie : x.isFinite → ∀ y : Binary64, y.isFinite → |q - y.value| = |q - x.value| →
    y.value ≠ x.value → x.code % 2 = 0

/-! ## Intervals -/

/-- The interval of a code ends in the middle between its magnitude and the neighbouring ones. -/
theorem isNearest_iff {code num den : Nat} (hden : 0 < den) :
    IsNearest code num den ↔
      magnitude (code - 1) + magnitude code ≤ 2 * (num / den : ℚ) ∧
      2 * (num / den : ℚ) ≤ magnitude code + magnitude (code + 1) ∧
      (code % 2 = 1 → magnitude (code - 1) + magnitude code ≠ 2 * (num / den : ℚ)) ∧
      (code % 2 = 1 → 2 * (num / den : ℚ) ≠ magnitude code + magnitude (code + 1)) := by
  have hdenq : (0 : ℚ) < den := Nat.cast_pos.mpr hden
  have hscale : (0 : ℚ) < unitsPerOne * den := mul_pos unitsPerOne_cast_pos hdenq
  have hsum : ∀ c c', magnitude c + magnitude c' =
      ((units c + units c') * den : Nat) / (unitsPerOne * den : ℚ) := fun c c' => by
    rw [magnitude, magnitude, ← add_div, Nat.cast_mul, Nat.cast_add,
      mul_div_mul_right _ _ hdenq.ne']
  have hpoint : 2 * (num / den : ℚ) =
      (num * (2 * unitsPerOne) : Nat) / (unitsPerOne * den : ℚ) := by
    have hunits := unitsPerOne_cast_pos.ne'
    push_cast
    field_simp
  rw [isNearest_iff_and]
  simp only [hsum, hpoint, div_le_div_iff_of_pos_right hscale, ne_eq, div_left_inj' hscale.ne',
    Nat.cast_le, Nat.cast_inj]

namespace IsNearest

variable {code num den : Nat}

/-- No magnitude is nearer to a quotient than that of the code in whose interval it lies. -/
theorem abs_sub_le (hden : 0 < den) (h : IsNearest code num den) (other : Nat) :
    |(num / den : ℚ) - magnitude code| ≤ |(num / den : ℚ) - magnitude other| := by
  obtain ⟨hlow, hhigh, -, -⟩ := (isNearest_iff hden).mp h
  rcases lt_trichotomy other code with hlt | rfl | hgt
  · have hle : magnitude other ≤ magnitude (code - 1) :=
      magnitude_strictMono.monotone (Nat.le_sub_one_of_lt hlt)
    exact (abs_sub_upper_le (magnitude_strictMono hlt)).mpr (by linarith)
  · exact le_rfl
  · have hle : magnitude (code + 1) ≤ magnitude other := magnitude_strictMono.monotone hgt
    exact (abs_sub_lower_le (magnitude_strictMono hgt)).mpr (by linarith)

/-- All other magnitudes are farther away if the code is odd. -/
theorem abs_sub_lt (hden : 0 < den) (h : IsNearest code num den) (hodd : code % 2 = 1) {other : Nat}
    (hne : other ≠ code) :
    |(num / den : ℚ) - magnitude code| < |(num / den : ℚ) - magnitude other| := by
  obtain ⟨hlow, hhigh, hlow_ne, hhigh_ne⟩ := (isNearest_iff hden).mp h
  rw [← not_le]
  intro hle
  rcases Nat.lt_or_gt_of_ne hne with hlt | hgt
  · have hother : magnitude other ≤ magnitude (code - 1) :=
      magnitude_strictMono.monotone (Nat.le_sub_one_of_lt hlt)
    have hmiddle := (abs_sub_lower_le (magnitude_strictMono hlt)).mp hle
    exact hlow_ne hodd (by linarith)
  · have hother : magnitude (code + 1) ≤ magnitude other := magnitude_strictMono.monotone hgt
    have hmiddle := (abs_sub_upper_le (magnitude_strictMono hgt)).mp hle
    exact hhigh_ne hodd (by linarith)

end IsNearest

/-- The middle between the largest finite magnitude and the one that would follow it. -/
theorem magnitude_add_infinityCode :
    magnitude (infinityCode - 1) + magnitude infinityCode = 2 * overflow := by
  obtain ⟨shift, hcode, hshift⟩ := infinityCode_eq
  obtain ⟨k, hunits, hk⟩ := unitsPerOne_eq
  obtain ⟨e, he, hek⟩ : ∃ e, shift = e + 2 + k ∧ e = 970 := ⟨970, by omega, rfl⟩
  have hlast : infinityCode - 1 = (e + 1 + k) * 2 ^ 52 + (2 ^ 53 - 1) := by omega
  have hpow : (2 : ℚ) ^ 1024 = 2 ^ 54 * 2 ^ e := by rw [hek, ← pow_add]
  have hpos : ((2 : ℚ) ^ k) ≠ 0 := pow_ne_zero k two_ne_zero
  rw [hlast, hcode, he, magnitude, magnitude, units_shift (by omega) (by omega),
    units_shift (by omega) (by omega), hunits, overflow, hpow, ← hek]
  push_cast
  rw [← add_div, div_eq_iff hpos]
  ring

/-- A quotient is rounded to a finite number as long as it lies below the overflow. -/
theorem IsNearest.lt_infinityCode_iff {code num den : Nat} (hden : 0 < den)
    (h : IsNearest code num den) : code < infinityCode ↔ (num / den : ℚ) < overflow := by
  obtain ⟨hlow, hhigh, -, hhigh_ne⟩ := (isNearest_iff hden).mp h
  have hends := magnitude_add_infinityCode
  constructor
  · intro hlt
    by_cases hlast : code + 1 = infinityCode
    · -- The largest finite code is odd, so the end of its interval belongs to infinity.
      have hodd : code % 2 = 1 := by
        have heven : infinityCode % 2 = 0 := by decide
        omega
      rw [← hlast, Nat.add_sub_cancel] at hends
      have hne := lt_of_le_of_ne hhigh (hhigh_ne hodd)
      linarith
    · have hfirst := magnitude_strictMono (by omega : code < infinityCode - 1)
      have hsecond := magnitude_strictMono (by omega : code + 1 < infinityCode)
      linarith
  · intro hlt
    by_contra hnot
    have hfirst : magnitude (infinityCode - 1) ≤ magnitude (code - 1) :=
      magnitude_strictMono.monotone (by omega)
    have hsecond : magnitude infinityCode ≤ magnitude code :=
      magnitude_strictMono.monotone (by omega)
    linarith

/-! ## Each quotient has one rounding -/

/-- No number is nearer to one that is not negative than the magnitude that it has, or zero if it is
negative itself. -/
theorem abs_sub_magnitude_le {q : ℚ} (hq : 0 ≤ q) (y : Binary64) :
    |q - magnitude (if y.isNegative then 0 else y.code)| ≤ |q - y.value| := by
  cases hy : y.isNegative
  · rw [value_eq_magnitude hy, if_neg Bool.false_ne_true]
  · have hpos := magnitude_nonneg y.code
    rw [value_eq_neg_magnitude hy, if_pos rfl, magnitude_zero, sub_zero, abs_of_nonneg hq,
      abs_of_nonneg (by linarith)]
    linarith

/-- A quotient in the interval of a code is rounded to that code, or to infinity beyond. -/
theorem IsNearest.isRoundingOf {code num den : Nat} (hden : 0 < den)
    (h : IsNearest code num den) :
    IsRoundingOf (ofCode false (min infinityCode code)) (num / den) := by
  have hq : (0 : ℚ) ≤ num / den := div_nonneg (Nat.cast_nonneg num) (Nat.cast_nonneg den)
  have hle := Nat.min_le_left infinityCode code
  have hfinite : (ofCode false (min infinityCode code)).isFinite ↔ code < infinityCode := by
    rw [isFinite, decide_eq_true_eq, code_ofCode hle]
    omega
  have hvalue : code < infinityCode →
      (ofCode false (min infinityCode code)).value = magnitude code := fun hlt => by
    rw [value_eq_magnitude (isNegative_ofCode hle), code_ofCode hle, Nat.min_eq_right hlt.le]
  refine ⟨?_, ?_, ?_, fun hx y _ => ?_, fun hx y _ htie hne => ?_⟩
  · rw [isNaN, code_ofCode hle, decide_eq_false_iff_not]
    omega
  · rw [isNegative_ofCode hle, eq_comm, decide_eq_false_iff_not, not_lt]
    exact hq
  · rw [hfinite, h.lt_infinityCode_iff hden, abs_of_nonneg hq]
  · rw [hvalue (hfinite.mp hx)]
    exact (h.abs_sub_le hden _).trans (abs_sub_magnitude_le hq y)
  · have hlt := hfinite.mp hx
    rw [code_ofCode hle, Nat.min_eq_right hlt.le]
    rw [hvalue hlt] at htie hne
    by_contra heven
    have hcode : (if y.isNegative then 0 else y.code) = code := by
      by_contra hother
      have hfar := h.abs_sub_lt hden (by omega) hother
      exact absurd (abs_sub_magnitude_le hq y) (by rw [htie]; exact not_le.mpr hfar)
    cases hy : y.isNegative
    · rw [hy, if_neg Bool.false_ne_true] at hcode
      exact hne (by rw [value_eq_magnitude hy, hcode])
    · rw [hy, if_pos rfl] at hcode
      omega

namespace IsRoundingOf

variable {x y : Binary64} {q : ℚ}

/-- What is not negative is rounded to a number without sign. -/
theorem isNegative_eq_false (hx : x.IsRoundingOf q) (hq : 0 ≤ q) : x.isNegative = false := by
  rw [hx.isNegative_eq, decide_eq_false_iff_not, not_lt]
  exact hq

/-- What is not negative is rounded to a magnitude. -/
theorem value_eq (hx : x.IsRoundingOf q) (hq : 0 ≤ q) : x.value = magnitude x.code :=
  value_eq_magnitude (hx.isNegative_eq_false hq)

/-- Two finite roundings of one number do not have different codes. -/
theorem not_code_lt (hx : x.IsRoundingOf q) (hy : y.IsRoundingOf q) (hq : 0 ≤ q)
    (hxfinite : x.isFinite) (hyfinite : y.isFinite) : ¬x.code < y.code := by
  intro hlt
  have hmagnitude := magnitude_strictMono hlt
  have htie : |q - x.value| = |q - y.value| :=
    le_antisymm (hx.abs_sub_le hxfinite y hyfinite) (hy.abs_sub_le hyfinite x hxfinite)
  have hne : x.value ≠ y.value := by
    rw [hx.value_eq hq, hy.value_eq hq]
    exact hmagnitude.ne
  have hxeven := hx.even_of_tie hxfinite y hyfinite htie.symm hne.symm
  have hyeven := hy.even_of_tie hyfinite x hxfinite htie hne
  -- The code between two even codes would be nearer than both.
  have hbound : y.code < infinityCode := by rwa [isFinite, decide_eq_true_eq] at hyfinite
  have hle : x.code + 1 ≤ infinityCode := by omega
  have hbetween := hx.abs_sub_le hxfinite (ofCode false (x.code + 1)) (by
    rw [isFinite, code_ofCode hle, decide_eq_true_eq]
    omega)
  rw [hx.value_eq hq, value_eq_magnitude (isNegative_ofCode hle), code_ofCode hle,
    abs_sub_lower_le (magnitude_strictMono (Nat.lt_succ_self _))] at hbetween
  rw [hx.value_eq hq, hy.value_eq hq] at htie
  have hmiddle := (abs_sub_upper_le hmagnitude).mp htie.ge
  have hupper := magnitude_strictMono (by omega : x.code + 1 < y.code)
  linarith

/-- A number that is not negative has at most one rounding. -/
protected theorem eq (hx : x.IsRoundingOf q) (hy : y.IsRoundingOf q) (hq : 0 ≤ q) : x = y := by
  have hcode : x.code = y.code := by
    by_cases hfinite : |q| < overflow
    · have hxfinite := hx.isFinite_iff.mpr hfinite
      have hyfinite := hy.isFinite_iff.mpr hfinite
      exact Nat.le_antisymm (Nat.le_of_not_lt (hy.not_code_lt hx hq hyfinite hxfinite))
        (Nat.le_of_not_lt (hx.not_code_lt hy hq hxfinite hyfinite))
    · have hinfinite : ∀ {z : Binary64}, z.IsRoundingOf q → z.code = infinityCode := fun hz =>
        beq_iff_eq.mp ((isInfinite_iff hz.isNaN_eq).mpr (hz.isFinite_iff.not.mpr hfinite))
      rw [hinfinite hx, hinfinite hy]
  rw [← ofCode_code (hx.isNegative_eq_false hq), ← ofCode_code (hy.isNegative_eq_false hq), hcode]

end IsRoundingOf

/-- The number that is computed for a quotient is the one that it is rounded to. -/
theorem isRoundingOf_iff {x : Binary64} {num den : Nat} (hden : 0 < den) :
    x.IsRoundingOf (num / den) ↔ x = ofCode false (nearestCode num den) := by
  obtain ⟨code, hnearest, hcode⟩ := exists_isNearest num hden
  rw [hcode]
  constructor
  · intro hx
    exact hx.eq (hnearest.isRoundingOf hden)
      (div_nonneg (Nat.cast_nonneg num) (Nat.cast_nonneg den))
  · rintro rfl
    exact hnearest.isRoundingOf hden

end ResumeFilter.Binary64
