import ResumeFilter.Proofs.Query.Literal

/-!
# What numbers denote

A number without a point denotes the value of its digits, if that fits. One with a point is first
rounded to a floating-point number, and denotes an integer exactly if that number is one that fits
(`ofNumber?_point_eq_int_iff`). So a point behind a whole number can change its value, and digits
behind the point can get lost: the value is kept just if it is a floating-point number itself, which
the integers are that have a significand of 53 bits (`exists_units_eq_iff`).
-/

namespace ResumeFilter

namespace Binary64

/-! ## Integers among the floating-point numbers -/

/-- Every integer that fits into 64 bits is finite as a floating-point number. -/
theorem lt_infinityCode_of_units_lt {code : Nat} (h : units code < 2 ^ 63 * unitsPerOne) :
    code < infinityCode := by
  obtain ⟨shift, hcode, hshift⟩ := infinityCode_eq
  obtain ⟨k, hunits, hk⟩ := unitsPerOne_eq
  rw [← units_strictMono.lt_iff_lt, hcode, units_shift (by omega) (by omega)]
  refine h.trans_le ?_
  rw [hunits, ← Nat.pow_add, ← Nat.pow_add]
  exact Nat.pow_le_pow_right Nat.two_pos (by omega)

/-- An integer is a magnitude exactly if it is a significand of 53 bits, shifted. -/
theorem exists_units_eq_iff {n : Nat} :
    (∃ code, units code = n * unitsPerOne) ↔
      ∃ significand shift, significand < 2 ^ 53 ∧ n = significand * 2 ^ shift := by
  obtain ⟨k, hunits, hk⟩ := unitsPerOne_eq
  rw [hunits]
  constructor
  · rintro ⟨code, hcode⟩
    obtain ⟨shift, r, rfl, hr, hnormal⟩ := exists_shift code
    rw [units_shift hr.le hnormal] at hcode
    by_cases hle : k ≤ shift
    · obtain ⟨more, rfl⟩ := Nat.exists_eq_add_of_le' hle
      rw [Nat.pow_add, ← Nat.mul_assoc] at hcode
      exact ⟨r, more, hr, (Nat.eq_of_mul_eq_mul_right (Nat.two_pow_pos k) hcode).symm⟩
    · -- The significand ends in zeros, so that it is no smaller than the integer.
      obtain ⟨less, rfl⟩ := Nat.exists_eq_add_of_le' (Nat.le_of_not_le hle)
      rw [Nat.pow_add, ← Nat.mul_assoc] at hcode
      have hinteger := Nat.eq_of_mul_eq_mul_right (Nat.two_pow_pos shift) hcode
      refine ⟨n, 0, ?_, by rw [Nat.pow_zero, Nat.mul_one]⟩
      exact (Nat.le_mul_of_pos_right n (Nat.two_pow_pos less)).trans_lt (hinteger ▸ hr)
  · rintro ⟨significand, shift, hlt, rfl⟩
    by_cases hzero : significand = 0
    · exact ⟨0, by rw [hzero, Nat.zero_mul, Nat.zero_mul]; rfl⟩
    · -- A short significand is brought to 53 bits, at the cost of the shift.
      have hlow := Nat.log2_self_le hzero
      have hhigh := Nat.lt_log2_self (n := significand)
      have hbits : significand.log2 ≤ 52 := Nat.le_of_lt_succ ((Nat.log2_lt hzero).mpr hlt)
      obtain ⟨spare, hspare⟩ := Nat.exists_eq_add_of_le hbits
      have hr : 2 ^ 52 ≤ significand * 2 ^ spare ∧ significand * 2 ^ spare < 2 ^ 53 := by
        rw [hspare, Nat.pow_add, show 53 = significand.log2 + 1 + spare by omega, Nat.pow_add]
        exact ⟨Nat.mul_le_mul_right _ hlow,
          Nat.mul_lt_mul_of_pos_right hhigh (Nat.two_pow_pos spare)⟩
      refine ⟨(shift + k - spare) * 2 ^ 52 + significand * 2 ^ spare, ?_⟩
      rw [units_shift hr.2.le (.inr hr.1), Nat.mul_assoc, Nat.mul_assoc, ← Nat.pow_add,
        ← Nat.pow_add, Nat.add_sub_cancel' (by omega)]

end Binary64

namespace Literal

open Binary64 (IsNearest units unitsPerOne infinityCode)
open Numeral (decimalValue)

/-! ## Numbers with and without a point -/

/-- A number without a point denotes its value, if that fits. -/
theorem ofNumber?_whole {whole : List Char} (hne : whole ≠ []) (hwhole : ∀ c ∈ whole, c.isDigit)
    (h : decimalValue whole < 2 ^ 63) :
    ∃ n : Int64, n.toInt = decimalValue whole ∧ ofNumber? whole = some (.int n) := by
  have hfits : -2 ^ 63 ≤ (decimalValue whole : Int) ∧ (decimalValue whole : Int) < 2 ^ 63 := by
    omega
  refine ⟨_, Int64.toInt_ofInt_of_le hfits.1 hfits.2, ?_⟩
  rw [ofNumber?_of_isDigit hne hwhole, ofInt?_eq_some_iff]
  exact ⟨hfits, rfl⟩

/-- A floating-point number without sign is read as an integer exactly if it is one that fits. -/
theorem ofBinary64?_eq_int_iff {x : Binary64} (hx : x.isNegative = false) {n : Int64} :
    ofBinary64? x = some (.int n) ↔ x.isFinite ∧ (units x.code : Int) = n.toInt * unitsPerOne := by
  rw [ofBinary64?]
  by_cases hfinite : x.isFinite
  · rw [hfinite, Bool.not_true, if_neg Bool.false_ne_true, and_iff_right rfl]
    by_cases hwhole : x.isWhole
    · have hmod : units x.code % unitsPerOne = 0 := by
        simpa [Binary64.isWhole, hfinite] using hwhole
      have hexact : (units x.code : Int) = x.toInt * unitsPerOne := by
        rw [Binary64.toInt_eq hx, ← Int.natCast_mul,
          Nat.div_mul_cancel (Nat.dvd_of_mod_eq_zero hmod)]
      have hpos : (unitsPerOne : Int) ≠ 0 := by
        exact_mod_cast Binary64.unitsPerOne_pos.ne'
      rw [if_pos hwhole, Option.or_eq_some_iff, ofInt?_eq_some_iff, hexact,
        Int.mul_eq_mul_right_iff hpos]
      constructor
      · rintro (⟨⟨hlow, hhigh⟩, heq⟩ | ⟨-, hfloat⟩)
        · obtain rfl := Literal.int.inj heq
          exact (Int64.toInt_ofInt_of_le hlow hhigh).symm
        · cases hfloat
      · intro heq
        rw [heq, Int64.ofInt_toInt]
        exact .inl ⟨⟨n.le_toInt, n.toInt_lt⟩, rfl⟩
    · rw [if_neg hwhole]
      refine iff_of_false (by rintro ⟨⟩) fun heq => hwhole ?_
      have hdvd : (unitsPerOne : Int) ∣ units x.code := ⟨n.toInt, by rw [heq, Int.mul_comm]⟩
      have hmod := Nat.mod_eq_zero_of_dvd (Int.natCast_dvd_natCast.mp hdvd)
      simp [Binary64.isWhole, hfinite, hmod]
  · rw [if_pos (by simpa using hfinite)]
    exact iff_of_false (by rintro ⟨⟩) fun h => hfinite h.1

/-- A number with a point denotes an integer exactly if the nearest floating-point number is this
integer. -/
theorem ofNumber?_point_eq_int_iff {whole fraction : List Char} (hne : whole ≠ [])
    (hwhole : ∀ c ∈ whole, c.isDigit) (hfraction : ∀ c ∈ fraction, c.isDigit) {n : Int64} :
    ofNumber? (whole ++ '.' :: fraction) = some (.int n) ↔
      ∃ code, IsNearest code (decimalValue (whole ++ fraction)) (10 ^ fraction.length) ∧
        (units code : Int) = n.toInt * unitsPerOne := by
  have hden : 0 < 10 ^ fraction.length := Nat.pow_pos (by decide)
  obtain ⟨code, hnearest, -⟩ :=
    Binary64.exists_isNearest (decimalValue (whole ++ fraction)) hden
  have hunique : (∃ code, IsNearest code (decimalValue (whole ++ fraction))
      (10 ^ fraction.length) ∧ (units code : Int) = n.toInt * unitsPerOne) ↔
        (units code : Int) = n.toInt * unitsPerOne := by
    constructor
    · rintro ⟨code', hnearest', heq⟩
      rwa [hnearest.code_eq hden hnearest']
    · exact fun heq => ⟨code, hnearest, heq⟩
  rw [hunique, ofNumber?_of_point hne hwhole hfraction, Numeral.toBinary64,
    Numeral.code_eq_of_isNearest hnearest,
    ofBinary64?_eq_int_iff (Binary64.isNegative_ofCode (Nat.min_le_left _ _)), Binary64.isFinite,
    Binary64.code_ofCode (Nat.min_le_left _ _), decide_eq_true_eq]
  constructor
  · rintro ⟨hfinite, heq⟩
    rwa [Nat.min_eq_right (by omega)] at heq
  · intro heq
    have hfinite : code < infinityCode := by
      refine Binary64.lt_infinityCode_of_units_lt ?_
      have hlt := Int.mul_lt_mul_of_pos_right n.toInt_lt
        (Int.natCast_pos.mpr Binary64.unitsPerOne_pos)
      rw [← heq] at hlt
      exact_mod_cast hlt
    rw [Nat.min_eq_right hfinite.le]
    exact ⟨hfinite, heq⟩

/-- Zeros behind the point of a whole number leave the nearest floating-point number as it is. -/
theorem isNearest_of_zeros {whole fraction : List Char} (h : ∀ c ∈ fraction, c = '0') {code : Nat} :
    IsNearest code (decimalValue (whole ++ fraction)) (10 ^ fraction.length) ↔
      IsNearest code (decimalValue whole) 1 := by
  have hzeros : fraction = List.replicate fraction.length '0' := List.eq_replicate_of_mem h
  have hvalue : decimalValue fraction = 0 := by
    rw [hzeros]
    exact Numeral.decimalValue_replicate_zero _
  have hden : 0 < 10 ^ fraction.length := Nat.pow_pos (by decide)
  have hmul : IsNearest code (10 ^ fraction.length * decimalValue whole)
      (10 ^ fraction.length * 1) ↔ IsNearest code (decimalValue whole) 1 :=
    Binary64.isNearest_mul_left hden
  rw [Nat.mul_one] at hmul
  rwa [Numeral.decimalValue_append, hvalue, Nat.add_zero]

/-- What the digits of a number mean for its literal.

- Without a point, the literal has the value of the digits, if that fits.
- A point with nothing or only zeros behind it leaves the literal as it is exactly if the value is a
  significand of 53 bits, shifted: all others are rounded.
- A number with a point denotes an integer exactly if the nearest floating-point number is this
  integer, whatever the digits behind the point. -/
theorem ofNumber?_exact_iff {whole fraction : List Char} (hne : whole ≠ [])
    (hwhole : ∀ c ∈ whole, c.isDigit) (hfraction : ∀ c ∈ fraction, c.isDigit) :
    (decimalValue whole < 2 ^ 63 →
      ∃ n : Int64, n.toInt = decimalValue whole ∧ ofNumber? whole = some (.int n)) ∧
    (decimalValue whole < 2 ^ 63 → (∀ c ∈ fraction, c = '0') →
      (ofNumber? (whole ++ '.' :: fraction) = ofNumber? whole ↔
        ∃ significand shift, significand < 2 ^ 53 ∧ decimalValue whole = significand * 2 ^ shift)) ∧
    ∀ n : Int64, ofNumber? (whole ++ '.' :: fraction) = some (.int n) ↔
      ∃ code, IsNearest code (decimalValue (whole ++ fraction)) (10 ^ fraction.length) ∧
        (units code : Int) = n.toInt * unitsPerOne := by
  refine ⟨ofNumber?_whole hne hwhole, fun hfits hzeros => ?_,
    fun n => ofNumber?_point_eq_int_iff hne hwhole hfraction⟩
  obtain ⟨n, hn, hinteger⟩ := ofNumber?_whole hne hwhole hfits
  rw [hinteger, ofNumber?_point_eq_int_iff hne hwhole hfraction, hn,
    ← Binary64.exists_units_eq_iff]
  constructor
  · rintro ⟨code, -, hcode⟩
    exact ⟨code, by exact_mod_cast hcode⟩
  · rintro ⟨code, hcode⟩
    refine ⟨code, (isNearest_of_zeros hzeros).mpr ?_, by exact_mod_cast hcode⟩
    exact Binary64.isNearest_of_eq Nat.one_pos (by rw [Nat.mul_one, hcode])

/-- A value of more than 53 bits is rounded when a point follows, and not without the point. -/
theorem ofNumber?_exact_iff_odd :
    ofNumber? "9007199254740993".toList = some (.int 9007199254740993) ∧
      ¬ ofNumber? "9007199254740993.000".toList = ofNumber? "9007199254740993".toList := by
  obtain ⟨hwhole, hpoint, -⟩ := @ofNumber?_exact_iff "9007199254740993".toList "000".toList
    (by decide) (List.all_eq_true.mp (by decide)) (List.all_eq_true.mp (by decide))
  have hvalue : decimalValue "9007199254740993".toList = 9007199254740993 := by decide +kernel
  rw [hvalue] at hwhole hpoint
  obtain ⟨n, hn, hinteger⟩ := hwhole (by decide)
  obtain rfl : n = 9007199254740993 := Int64.toInt_inj.mp hn
  refine ⟨hinteger, fun heq => ?_⟩
  -- The value is odd, so that its significand is the value itself.
  obtain ⟨significand, shift, hlt, hshift⟩ := (hpoint (by decide) (by simp)).mp heq
  cases shift with
  | zero => omega
  | succ shift => rw [Nat.pow_succ, ← Nat.mul_assoc] at hshift; omega

/-- A point with a zero behind it can change the value of a number or make it no integer, and a
number with other digits behind the point can be an integer. -/
theorem ofNumber?_rounds :
    ofNumber? "9007199254740993.0".toList = some (.int 9007199254740992) ∧
    ofNumber? "9223372036854775807".toList = some (.int 9223372036854775807) ∧
    ofNumber? "9223372036854775807.0".toList = some (.float ⟨0x43E0000000000000⟩) ∧
    ofNumber? "0.99999999999999999999".toList = some (.int 1) := by
  decide +kernel

end Literal

end ResumeFilter
