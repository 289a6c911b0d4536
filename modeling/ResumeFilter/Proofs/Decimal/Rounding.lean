import Mathlib.Order.Monotone.Basic
import Mathlib.Tactic.Ring
import ResumeFilter.Decimal.Conversion
import ResumeFilter.Decimal.Shortest

/-!
# Rounding to the nearest floating-point number

The numbers nearest to a code are an interval around its magnitude that reaches half-way to the
neighbours (`IsNearest`). Intervals of different codes do not meet, and rounding finds the code
whose interval a number lies in (`nearestCode_eq_of_isNearest`). Codes are written as
`shift * 2 ^ 52 + r` with a significand `r` of 53 bits: then the magnitude is `r * 2 ^ shift`, and
so is the next one with `r + 1` in place of `r`, even if `r + 1` has 54 bits.
-/

namespace ResumeFilter.Binary64

/-! ## Magnitudes -/

/-- The magnitude of a code with a given shift and significand. -/
theorem units_shift {shift r : Nat} (hr : r ≤ 2 ^ 53) (hnormal : shift = 0 ∨ 2 ^ 52 ≤ r) :
    units (shift * 2 ^ 52 + r) = r * 2 ^ shift := by
  rw [units]
  by_cases hsmall : shift * 2 ^ 52 + r < 2 ^ 52
  · obtain rfl : shift = 0 := by omega
    rw [if_pos hsmall, Nat.zero_mul, Nat.zero_add, Nat.pow_zero, Nat.mul_one]
  · rw [if_neg hsmall]
    by_cases hlast : r = 2 ^ 53
    · obtain ⟨hdiv, hmod⟩ : (shift * 2 ^ 52 + r) / 2 ^ 52 - 1 = shift + 1 ∧
          (shift * 2 ^ 52 + r) % 2 ^ 52 = 0 := by omega
      rw [hdiv, hmod, hlast, Nat.pow_succ]
      ring
    · obtain ⟨hdiv, hmod⟩ : (shift * 2 ^ 52 + r) / 2 ^ 52 - 1 = shift ∧
          2 ^ 52 + (shift * 2 ^ 52 + r) % 2 ^ 52 = r := by omega
      rw [hdiv, hmod]

/-- Every code has a shift and a significand, the shift being zero if the significand is short. -/
theorem exists_shift (code : Nat) :
    ∃ shift r, code = shift * 2 ^ 52 + r ∧ r < 2 ^ 53 ∧ (shift = 0 ∨ 2 ^ 52 ≤ r) := by
  by_cases hsmall : code < 2 ^ 52
  · exact ⟨0, code, by omega, by omega, .inl rfl⟩
  · exact ⟨code / 2 ^ 52 - 1, 2 ^ 52 + code % 2 ^ 52, by omega, by omega, .inr (by omega)⟩

/-- A greater code has a greater magnitude. -/
theorem units_strictMono : StrictMono units := by
  refine strictMono_nat_of_lt_succ fun code => ?_
  obtain ⟨shift, r, rfl, hr, hnormal⟩ := exists_shift code
  rw [units_shift hr.le hnormal, Nat.add_assoc, units_shift (by omega) (by omega)]
  exact Nat.mul_lt_mul_of_pos_right (Nat.lt_succ_self r) (Nat.two_pow_pos shift)

/-- Code zero has no magnitude, and all others have some. -/
theorem units_pos_iff {code : Nat} : 0 < units code ↔ 0 < code := by
  have hzero : units 0 = 0 := rfl
  rw [← hzero, units_strictMono.lt_iff_lt, hzero]

/-- The units in one, as a power whose exponent stays a variable. -/
theorem unitsPerOne_eq : ∃ k, unitsPerOne = 2 ^ k ∧ k = 1074 := by
  refine ⟨1074, ?_, rfl⟩
  rw [unitsPerOne]

/-- There are units in one. -/
theorem unitsPerOne_pos : 0 < unitsPerOne := by
  obtain ⟨k, hk, -⟩ := unitsPerOne_eq
  rw [hk]
  exact Nat.two_pow_pos k

/-- The code of infinity, as one of a shift that stays a variable. -/
theorem infinityCode_eq : ∃ shift, infinityCode = shift * 2 ^ 52 + 2 ^ 52 ∧ shift = 2046 :=
  ⟨2046, by decide, rfl⟩

/-! ## The interval of a code -/

/-- Whether `num / den` is nearer to the magnitude of a code than to any other, or in the middle
between it and another one if the code is even. Everything is in halves of a unit. -/
structure IsNearest (code num den : Nat) : Prop where
  low_le : (units (code - 1) + units code) * den ≤ num * (2 * unitsPerOne)
  le_high : num * (2 * unitsPerOne) ≤ (units code + units (code + 1)) * den
  low_ne : code % 2 = 1 → (units (code - 1) + units code) * den ≠ num * (2 * unitsPerOne)
  ne_high : code % 2 = 1 → num * (2 * unitsPerOne) ≠ (units code + units (code + 1)) * den

/-- The conditions on a quotient in an interval, as one. -/
theorem isNearest_iff_and {code num den : Nat} :
    IsNearest code num den ↔
      (units (code - 1) + units code) * den ≤ num * (2 * unitsPerOne) ∧
      num * (2 * unitsPerOne) ≤ (units code + units (code + 1)) * den ∧
      (code % 2 = 1 → (units (code - 1) + units code) * den ≠ num * (2 * unitsPerOne)) ∧
      (code % 2 = 1 → num * (2 * unitsPerOne) ≠ (units code + units (code + 1)) * den) := by
  constructor
  · rintro ⟨hlow, hhigh, hlow_ne, hhigh_ne⟩
    exact ⟨hlow, hhigh, hlow_ne, hhigh_ne⟩
  · rintro ⟨hlow, hhigh, hlow_ne, hhigh_ne⟩
    exact ⟨hlow, hhigh, hlow_ne, hhigh_ne⟩

/-- Reading back a decimal is a matter of being nearest. -/
theorem readsBack_iff {code places digits : Nat} :
    readsBack code places digits = true ↔ IsNearest code digits (10 ^ places) := by
  rw [isNearest_iff_and, readsBack]
  by_cases heven : code % 2 = 0
  · have hodd : ¬code % 2 = 1 := by omega
    simp [heven]
  · have hodd : code % 2 = 1 := by omega
    simp only [hodd, Nat.one_ne_zero, beq_iff_eq, if_false, Bool.and_eq_true, decide_eq_true_eq,
      forall_const]
    omega

/-- A number is nearest to one code only. -/
theorem IsNearest.code_eq {c c' num den : Nat} (hden : 0 < den) (h : IsNearest c num den)
    (h' : IsNearest c' num den) : c = c' := by
  -- If `c < c'`, then the upper end of the one interval is at most the lower end of the other, so
  -- that they meet in an end of both, which only intervals of even codes contain.
  have hlt : ∀ {c c'}, IsNearest c num den → IsNearest c' num den → ¬c < c' := by
    intro c c' h h' hlt
    have hle : units c ≤ units (c' - 1) := units_strictMono.monotone (by omega)
    have hle' : units (c + 1) ≤ units c' := units_strictMono.monotone (by omega)
    have hends : (units c + units (c + 1)) * den ≤ (units (c' - 1) + units c') * den :=
      Nat.mul_le_mul_right den (Nat.add_le_add hle hle')
    have hmeet : (units c + units (c + 1)) * den = (units (c' - 1) + units c') * den :=
      Nat.le_antisymm hends (h'.low_le.trans h.le_high)
    have hsum := Nat.eq_of_mul_eq_mul_right hden hmeet
    have hnext : c + 1 = c' := units_strictMono.injective (by omega)
    have heven : c % 2 = 0 := by
      by_contra hodd
      exact h.ne_high (by omega) (Nat.le_antisymm h.le_high (hmeet.le.trans h'.low_le))
    have heven' : c' % 2 = 0 := by
      by_contra hodd
      exact h'.low_ne (by omega) (Nat.le_antisymm h'.low_le (h.le_high.trans hmeet.le))
    omega
  exact Nat.le_antisymm (Nat.le_of_not_lt (hlt h' h)) (Nat.le_of_not_lt (hlt h h'))

/-- The magnitude of a code itself is nearest to it. -/
theorem isNearest_of_eq {code num den : Nat} (hden : 0 < den)
    (h : num * unitsPerOne = units code * den) : IsNearest code num den := by
  have hpoint : num * (2 * unitsPerOne) = (units code + units code) * den := by
    rw [Nat.mul_left_comm, h, Nat.add_mul, Nat.two_mul]
  have hlow : units (code - 1) ≤ units code := units_strictMono.monotone (Nat.sub_le code 1)
  have hhigh : units code < units (code + 1) := units_strictMono (Nat.lt_succ_self code)
  have hhigh' : num * (2 * unitsPerOne) < (units code + units (code + 1)) * den := by
    rw [hpoint]
    exact Nat.mul_lt_mul_of_pos_right (by omega) hden
  refine ⟨?_, hhigh'.le, fun hodd => ?_, fun _ => hhigh'.ne⟩
  · rw [hpoint]
    exact Nat.mul_le_mul_right den (by omega)
  · have hlow' : units (code - 1) < units code := units_strictMono (by omega)
    rw [hpoint]
    exact (Nat.mul_lt_mul_of_pos_right (by omega) hden).ne

/-! ## Rounding -/

/-- The rounded quotient is at most a half away, and exactly a half only if it is even. -/
theorem roundHalfEven_spec (num : Nat) {den : Nat} (hden : 0 < den) :
    2 * roundHalfEven num den * den ≤ 2 * num + den ∧
      2 * num ≤ (2 * roundHalfEven num den + 1) * den ∧
      (roundHalfEven num den % 2 = 1 → 2 * roundHalfEven num den * den ≠ 2 * num + den ∧
        2 * num ≠ (2 * roundHalfEven num den + 1) * den) := by
  have hdiv := Nat.div_add_mod num den
  have hmod := Nat.mod_lt num hden
  have hcomm : den * (num / den) = num / den * den := Nat.mul_comm _ _
  rw [roundHalfEven]
  simp only [Bool.or_eq_true, Bool.and_eq_true, decide_eq_true_eq, beq_iff_eq]
  split_ifs with hdown
  · have h₁ : 2 * (num / den) * den = 2 * (num / den * den) := Nat.mul_assoc _ _ _
    have h₂ : (2 * (num / den) + 1) * den = 2 * (num / den * den) + den := by ring
    omega
  · have h₁ : 2 * (num / den + 1) * den = 2 * (num / den * den) + 2 * den := by ring
    have h₂ : (2 * (num / den + 1) + 1) * den = 2 * (num / den * den) + 3 * den := by ring
    omega

/-- The rounded quotient is one of the two neighbours of the quotient. -/
theorem roundHalfEven_eq (num den : Nat) :
    roundHalfEven num den = num / den ∨ roundHalfEven num den = num / den + 1 := by
  rw [roundHalfEven]
  split_ifs
  · exact .inl rfl
  · exact .inr rfl

section Significand

variable {scaled den shift : Nat}

/-- A quotient of 53 bits is rounded to a significand of 53 bits or to the least one of 54. -/
theorem roundHalfEven_bounds (hden : 0 < den)
    (hlow : shift = 0 ∨ 2 ^ 52 * (den * 2 ^ shift) ≤ scaled)
    (hhigh : scaled < 2 ^ 53 * (den * 2 ^ shift)) :
    roundHalfEven scaled (den * 2 ^ shift) ≤ 2 ^ 53 ∧
      (shift = 0 ∨ 2 ^ 52 ≤ roundHalfEven scaled (den * 2 ^ shift)) := by
  have hstep : 0 < den * 2 ^ shift := Nat.mul_pos hden (Nat.two_pow_pos shift)
  have hlt : scaled / (den * 2 ^ shift) < 2 ^ 53 := Nat.div_lt_of_lt_mul (by rwa [Nat.mul_comm])
  have hge : shift = 0 ∨ 2 ^ 52 ≤ scaled / (den * 2 ^ shift) :=
    hlow.imp_right (Nat.le_div_iff_mul_le hstep).mpr
  have hquotient := roundHalfEven_eq scaled (den * 2 ^ shift)
  omega

/-- The lower end of the interval of a rounded significand. -/
theorem low_le_of_roundHalfEven (hden : 0 < den)
    (hlow : shift = 0 ∨ 2 ^ 52 * (den * 2 ^ shift) ≤ scaled)
    (hhigh : scaled < 2 ^ 53 * (den * 2 ^ shift)) {r : Nat}
    (hr : roundHalfEven scaled (den * 2 ^ shift) = r) :
    (units (shift * 2 ^ 52 + r - 1) + units (shift * 2 ^ 52 + r)) * den ≤ 2 * scaled ∧
      (r % 2 = 1 →
        (units (shift * 2 ^ 52 + r - 1) + units (shift * 2 ^ 52 + r)) * den ≠ 2 * scaled) := by
  obtain ⟨hdown, -, hodd⟩ :=
    roundHalfEven_spec scaled (Nat.mul_pos hden (Nat.two_pow_pos shift))
  obtain ⟨hle, hnormal⟩ := roundHalfEven_bounds hden hlow hhigh
  rw [hr] at hdown hodd hle hnormal
  have hscale : ∀ a, a * 2 ^ shift * den = a * (den * 2 ^ shift) := fun a => by ring
  by_cases hbinade : r = 0 ∨ shift ≠ 0 ∧ r = 2 ^ 52
  · -- The neighbour below has another shift, but then the quotient has not been rounded up.
    refine ⟨?_, by omega⟩
    have hmul := Nat.mul_le_mul_right den
      (units_strictMono.monotone (Nat.sub_le (shift * 2 ^ 52 + r) 1))
    rw [units_shift hle hnormal, hscale] at hmul
    rw [units_shift hle hnormal, Nat.add_mul, hscale]
    rcases hbinade with rfl | ⟨hne, rfl⟩
    · omega
    · have hfloor := hlow.resolve_left hne
      omega
  · have hbelow : units (shift * 2 ^ 52 + r - 1) = (r - 1) * 2 ^ shift := by
      rw [Nat.add_sub_assoc (by omega), units_shift (by omega) (by omega)]
    have hsum : (r - 1) * (den * 2 ^ shift) + den * 2 ^ shift = r * (den * 2 ^ shift) := by
      rw [← Nat.succ_mul, Nat.succ_eq_add_one, Nat.sub_add_cancel (by omega)]
    rw [Nat.mul_assoc] at hdown hodd
    rw [hbelow, units_shift hle hnormal, Nat.add_mul, hscale, hscale]
    omega

/-- The upper end of the interval of a rounded significand. -/
theorem le_high_of_roundHalfEven (hden : 0 < den)
    (hlow : shift = 0 ∨ 2 ^ 52 * (den * 2 ^ shift) ≤ scaled)
    (hhigh : scaled < 2 ^ 53 * (den * 2 ^ shift)) {r : Nat}
    (hr : roundHalfEven scaled (den * 2 ^ shift) = r) :
    2 * scaled ≤ (units (shift * 2 ^ 52 + r) + units (shift * 2 ^ 52 + r + 1)) * den ∧
      (r % 2 = 1 →
        2 * scaled ≠ (units (shift * 2 ^ 52 + r) + units (shift * 2 ^ 52 + r + 1)) * den) := by
  obtain ⟨-, hup, hodd⟩ :=
    roundHalfEven_spec scaled (Nat.mul_pos hden (Nat.two_pow_pos shift))
  obtain ⟨hle, hnormal⟩ := roundHalfEven_bounds hden hlow hhigh
  rw [hr] at hup hodd hle hnormal
  have hscale : ∀ a, a * 2 ^ shift * den = a * (den * 2 ^ shift) := fun a => by ring
  have hmul : (2 * r + 1) * (den * 2 ^ shift) =
      r * (den * 2 ^ shift) + (r + 1) * (den * 2 ^ shift) := by ring
  rw [hmul] at hup hodd
  by_cases hlast : r = 2 ^ 53
  · -- The neighbour above has another shift, which only makes the interval larger.
    refine ⟨hup.trans ?_, by omega⟩
    have habove : (r + 1) * 2 ^ shift ≤ units (shift * 2 ^ 52 + r + 1) := by
      have hcode : shift * 2 ^ 52 + r + 1 = (shift + 1) * 2 ^ 52 + (2 ^ 52 + 1) := by omega
      rw [hcode, units_shift (by omega) (by omega), hlast, Nat.pow_succ]
      have hpos := Nat.two_pow_pos shift
      omega
    have hmul' := Nat.mul_le_mul_right den habove
    rw [hscale] at hmul'
    rw [units_shift hle hnormal, Nat.add_mul (r * 2 ^ shift), hscale]
    exact Nat.add_le_add_left hmul' _
  · have habove : units (shift * 2 ^ 52 + r + 1) = (r + 1) * 2 ^ shift := by
      rw [Nat.add_assoc, units_shift (by omega) (by omega)]
    rw [habove, units_shift hle hnormal, Nat.add_mul (r * 2 ^ shift), hscale, hscale]
    exact ⟨hup, fun h => (hodd h).2⟩

end Significand

/-- The code of a significand that is rounded at the right place is nearest. -/
theorem isNearest_roundHalfEven {num den shift : Nat} (hden : 0 < den)
    (hlow : shift = 0 ∨ 2 ^ 52 * (den * 2 ^ shift) ≤ num * unitsPerOne)
    (hhigh : num * unitsPerOne < 2 ^ 53 * (den * 2 ^ shift)) :
    IsNearest (shift * 2 ^ 52 + roundHalfEven (num * unitsPerOne) (den * 2 ^ shift)) num den := by
  have hpoint : num * (2 * unitsPerOne) = 2 * (num * unitsPerOne) := Nat.mul_left_comm _ _ _
  have hparity : ∀ r, (shift * 2 ^ 52 + r) % 2 = 1 → r % 2 = 1 := by omega
  obtain ⟨hle, hne⟩ := low_le_of_roundHalfEven hden hlow hhigh rfl
  obtain ⟨hle', hne'⟩ := le_high_of_roundHalfEven hden hlow hhigh rfl
  rw [← hpoint] at hle hne hle' hne'
  exact ⟨hle, hle', fun h => hne (hparity _ h), fun h => hne' (hparity _ h)⟩

/-- Every number is nearest to some code, and is rounded to it, or to infinity if that code lies
beyond. -/
theorem exists_isNearest (num : Nat) {den : Nat} (hden : 0 < den) :
    ∃ code, IsNearest code num den ∧ nearestCode num den = min infinityCode code := by
  refine ⟨_, ?_, rfl⟩
  generalize hq : num * unitsPerOne / den = q
  have hfloor : q * den ≤ num * unitsPerOne := hq ▸ Nat.div_mul_le_self _ _
  have hceil : num * unitsPerOne < (q + 1) * den := by
    rw [← hq]
    exact Nat.lt_mul_of_div_lt (Nat.lt_succ_self _) hden
  have hscale : ∀ k n, 2 ^ k * (den * 2 ^ n) = 2 ^ (k + n) * den := fun k n => by
    rw [Nat.pow_add]
    ring
  -- The shift is the one with which the quotient has 53 bits, or none if it has fewer.
  apply isNearest_roundHalfEven hden
  · by_cases hshort : q.log2 ≤ 52
    · exact .inl (by omega)
    · have hself : 2 ^ q.log2 ≤ q := Nat.log2_self_le fun h => by simp [h] at hshort
      rw [hscale, Nat.add_sub_cancel' (by omega)]
      exact .inr ((Nat.mul_le_mul_right den hself).trans hfloor)
  · have hself : q + 1 ≤ 2 ^ (53 + (q.log2 - 52)) :=
      Nat.lt_log2_self.trans_le (Nat.pow_le_pow_right Nat.two_pos (by omega))
    rw [hscale]
    exact hceil.trans_le (Nat.mul_le_mul_right den hself)

/-- A number that is nearest to a code is rounded to it, or to infinity if the code lies beyond. -/
theorem nearestCode_eq_of_isNearest {code num den : Nat} (hden : 0 < den)
    (h : IsNearest code num den) : nearestCode num den = min infinityCode code := by
  obtain ⟨code', h', hrounded⟩ := exists_isNearest num hden
  rw [hrounded, IsNearest.code_eq hden h' h]

/-! ## Numbers and their bits -/

/-- A number without sign is that of its code. -/
theorem ofCode_code {x : Binary64} (h : x.isNegative = false) : ofCode false x.code = x := by
  have hlt : x.bits.toNat < 2 ^ 63 := by
    rw [isNegative, decide_eq_false_iff_not] at h
    omega
  rw [ofCode, code, Nat.mod_eq_of_lt hlt]
  simp

/-- The code of the number of a code. -/
theorem code_ofCode {code : Nat} (h : code ≤ infinityCode) : (ofCode false code).code = code := by
  have hlt : code < 2 ^ 63 := h.trans_lt (by decide)
  rw [Binary64.code, ofCode]
  simp only [Bool.false_eq_true, if_false, UInt64.toNat_ofNat']
  omega

/-- The number of a finite or infinite code has no sign. -/
theorem isNegative_ofCode {code : Nat} (h : code ≤ infinityCode) :
    (ofCode false code).isNegative = false := by
  have hlt : code < 2 ^ 63 := h.trans_lt (by decide)
  rw [isNegative, ofCode, decide_eq_false_iff_not]
  simp only [Bool.false_eq_true, if_false, UInt64.toNat_ofNat']
  omega

/-- A finite number without sign, rounded down. -/
theorem toInt_eq {x : Binary64} (h : x.isNegative = false) :
    x.toInt = (units x.code / unitsPerOne : Nat) := by
  rw [toInt]
  simp only [h, Bool.false_eq_true, if_false]

/-- A finite number is a number. -/
theorem isNaN_eq_false {x : Binary64} (h : x.isFinite) : x.isNaN = false := by
  rw [isFinite, decide_eq_true_eq] at h
  rw [isNaN, decide_eq_false_iff_not]
  omega

/-- What is no finite number is infinite or no number at all. -/
theorem isInfinite_iff {x : Binary64} (h : x.isNaN = false) : x.isInfinite ↔ ¬x.isFinite := by
  rw [isNaN, decide_eq_false_iff_not] at h
  rw [isInfinite, isFinite, beq_iff_eq, decide_eq_true_eq]
  omega

/-- A finite number is not infinite. -/
theorem isInfinite_eq_false {x : Binary64} (h : x.isFinite) : x.isInfinite = false :=
  Bool.eq_false_iff.mpr fun hinfinite => (isInfinite_iff (isNaN_eq_false h)).mp hinfinite h

end ResumeFilter.Binary64
