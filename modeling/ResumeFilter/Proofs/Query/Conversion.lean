import ResumeFilter.Proofs.Decimal.Nearest
import ResumeFilter.Proofs.Query.Literal

/-!
# Numbers at the limits

A number without a point is an integer exactly if it is at most `2 ^ 63 - 1`. One with a point is
rounded first (`isRoundingOf_iff_eq_toBinary64`), and what it is rounded to settles the rest:
nothing if it is infinite, an integer if it is one below `2 ^ 63`, and the floating-point number
otherwise. Comparing with the converted limits and converting back says the same (`convert?_eq`):
the upper limit is rounded up to `2 ^ 63`, which is why it must not be reached.

The main statement is `ofNumber?_within_limits`.
-/

namespace ResumeFilter

/-- The number that digits on both sides of a point stand for. -/
def Numeral.pointValue (whole fraction : List Char) : ℚ :=
  Nat.ofDigitChars 10 whole 0 + Nat.ofDigitChars 10 fraction 0 / 10 ^ fraction.length

/-- Whether a floating-point number is an integer, and too small to need more than 64 bits. -/
def Binary64.IsSmallInteger (x : Binary64) : Prop :=
  x.isFinite ∧ (∃ k : ℤ, x.value = k) ∧ x.value < 2 ^ 63

namespace Numeral

/-- Digits on both sides of a point are a quotient. -/
theorem pointValue_eq (whole fraction : List Char) :
    pointValue whole fraction =
      (decimalValue (whole ++ fraction) : ℚ) / (10 ^ fraction.length : Nat) := by
  have hten : (10 : ℚ) ^ fraction.length ≠ 0 := pow_ne_zero _ (by norm_num)
  rw [pointValue, decimalValue_append, decimalValue_eq_ofDigitChars, decimalValue_eq_ofDigitChars]
  push_cast
  rw [add_div, mul_div_cancel_left₀ _ hten]

/-- Digits stand for no negative number. -/
theorem pointValue_nonneg (whole fraction : List Char) : 0 ≤ pointValue whole fraction := by
  rw [pointValue_eq]
  exact div_nonneg (Nat.cast_nonneg _) (Nat.cast_nonneg _)

/-- A numeral with a point is read as the number that its value is rounded to. -/
theorem isRoundingOf_iff_eq_toBinary64 (whole fraction : List Char) (x : Binary64) :
    x.IsRoundingOf (pointValue whole fraction) ↔
      x = toBinary64 ⟨false, decimalValue (whole ++ fraction), -(fraction.length : Int)⟩ := by
  have hden : 0 < 10 ^ fraction.length := Nat.pow_pos (by decide)
  obtain ⟨code, hnearest, hcode⟩ :=
    Binary64.exists_isNearest (decimalValue (whole ++ fraction)) hden
  rw [pointValue_eq, Binary64.isRoundingOf_iff hden, hcode, toBinary64,
    code_eq_of_isNearest hnearest]

end Numeral

namespace Literal

open Numeral (pointValue)

/-! ## Conversion -/

/-- The limits of 64 bits, converted to floating-point numbers, are `-2 ^ 63` and `2 ^ 63`. -/
theorem within_limits_iff {x : Binary64} (hx : x.isFinite) :
    ((Binary64.ofInt Int64.minValue.toInt).le x && x.lt (Binary64.ofInt Int64.maxValue.toInt)) ↔
      -2 ^ 63 ≤ x.value ∧ x.value < 2 ^ 63 := by
  obtain ⟨hmin, hminValue⟩ := Binary64.value_ofInt_minValue
  obtain ⟨hmax, hmaxValue⟩ := Binary64.value_ofInt_maxValue
  rw [Bool.and_eq_true, Binary64.le_iff hmin hx, Binary64.lt_iff hx hmax, hminValue, hmaxValue]

/-- Conversion yields the integer that a number is if this integer has 64 bits. -/
theorem convert?_of_value_eq {x : Binary64} (hx : x.isFinite) {n : Int64}
    (h : x.value = n.toInt) : convert? x = some (.int n) := by
  have hwhole : x.isWhole := (Binary64.isWhole_iff hx).mpr ⟨n.toInt, h⟩
  have hlimits : -2 ^ 63 ≤ x.value ∧ x.value < 2 ^ 63 := by
    rw [h]
    exact_mod_cast And.intro n.le_toInt n.toInt_lt
  rw [convert?, hx, Bool.not_true, if_neg Bool.false_ne_true, Bool.and_assoc, hwhole,
    Bool.true_and, if_pos ((within_limits_iff hx).mpr hlimits), Binary64.toInt64_of_value_eq hx h]

/-- Conversion keeps all other finite numbers. -/
theorem convert?_of_value_ne {x : Binary64} (hx : x.isFinite)
    (h : ∀ n : Int64, x.value ≠ n.toInt) : convert? x = some (.float x) := by
  rw [convert?, hx, Bool.not_true, if_neg Bool.false_ne_true, Bool.and_assoc, if_neg]
  rw [Bool.and_eq_true, within_limits_iff hx]
  rintro ⟨hwhole, hlow, hhigh⟩
  have hvalue := Binary64.toInt_of_isWhole hwhole
  rw [← hvalue] at hlow hhigh
  refine h (Int64.ofInt x.toInt) ?_
  rw [Int64.toInt_ofInt_of_le (by exact_mod_cast hlow) (by exact_mod_cast hhigh), hvalue]

/-- Conversion rejects a number, or yields the integer that it is, or keeps it. -/
theorem convert?_cases (x : Binary64) :
    (¬x.isFinite ∧ convert? x = none) ∨
    (x.isFinite ∧ ∃ n : Int64, x.value = n.toInt ∧ convert? x = some (.int n)) ∨
    (x.isFinite ∧ (∀ n : Int64, x.value ≠ n.toInt) ∧ convert? x = some (.float x)) := by
  by_cases hx : x.isFinite
  · by_cases hinteger : ∃ n : Int64, x.value = n.toInt
    · obtain ⟨n, hn⟩ := hinteger
      exact .inr (.inl ⟨hx, n, hn, convert?_of_value_eq hx hn⟩)
    · have hne := not_exists.mp hinteger
      exact .inr (.inr ⟨hx, hne, convert?_of_value_ne hx hne⟩)
  · exact .inl ⟨hx, by rw [convert?, if_pos (by simpa using hx)]⟩

/-- Comparing integers and comparing floating-point numbers lead to the same literal. -/
theorem convert?_eq (x : Binary64) : convert? x = ofBinary64? x := by
  rw [ofBinary64?]
  rcases convert?_cases x with ⟨hx, hconvert⟩ | ⟨hx, n, hn, hconvert⟩ | ⟨hx, hne, hconvert⟩
  · rw [hconvert, if_pos (by simpa using hx)]
  · have hwhole : x.isWhole := (Binary64.isWhole_iff hx).mpr ⟨n.toInt, hn⟩
    have hfits : ofInt? x.toInt = some (.int n) := by
      rw [Binary64.toInt_of_value_eq hx hn, ofInt?_eq_some_iff, Int64.ofInt_toInt]
      exact ⟨⟨n.le_toInt, n.toInt_lt⟩, rfl⟩
    rw [hconvert, hx, Bool.not_true, if_neg Bool.false_ne_true, if_pos hwhole, hfits,
      Option.some_or]
  · rw [hconvert, hx, Bool.not_true, if_neg Bool.false_ne_true]
    split_ifs with hwhole
    · have hnone : ofInt? x.toInt = none := by
        rw [ofInt?_eq_none_iff]
        rintro ⟨hlow, hhigh⟩
        refine hne (Int64.ofInt x.toInt) ?_
        rw [Int64.toInt_ofInt_of_le hlow hhigh, Binary64.toInt_of_isWhole hwhole]
      rw [hnone, Option.none_or]
    · rfl

section

variable {x : Binary64}

/-- Conversion rejects a number that is not finite. -/
theorem convert?_eq_none_iff : convert? x = none ↔ ¬x.isFinite := by
  rcases convert?_cases x with ⟨hx, h⟩ | ⟨hx, n, -, h⟩ | ⟨hx, -, h⟩ <;> simp [h, hx]

/-- Conversion yields an integer if the number is this integer. -/
theorem convert?_eq_int_iff {n : Int64} :
    convert? x = some (.int n) ↔ x.isFinite ∧ x.value = n.toInt := by
  rcases convert?_cases x with ⟨hx, h⟩ | ⟨hx, m, hm, h⟩ | ⟨hx, hne, h⟩
  · simp [h, hx]
  · rw [h, hm, and_iff_right hx, Option.some.injEq, int.injEq, Int.cast_inj, Int64.toInt_inj]
  · simp [h, hne n]

/-- Conversion keeps a finite number that is no integer of 64 bits. -/
theorem convert?_eq_float_iff {y : Binary64} :
    convert? x = some (.float y) ↔ x = y ∧ x.isFinite ∧ ∀ n : Int64, x.value ≠ n.toInt := by
  rcases convert?_cases x with ⟨hx, h⟩ | ⟨hx, m, hm, h⟩ | ⟨hx, hne, h⟩
  · simp [h, hx]
  · rw [h]
    exact iff_of_false (by rintro ⟨⟩) fun hall => hall.2.2 m hm
  · rw [h, Option.some.injEq, float.injEq]
    exact (and_iff_left ⟨hx, hne⟩).symm

end

/-! ## Numbers without a sign -/

/-- A small integer without sign has 64 bits. -/
theorem isSmallInteger_iff {x : Binary64} (hx : x.isNegative = false) :
    x.IsSmallInteger ↔ x.isFinite ∧ ∃ n : Int64, x.value = n.toInt := by
  have hpos : 0 ≤ x.value := by
    rw [Binary64.value_eq_magnitude hx]
    exact Binary64.magnitude_nonneg x.code
  rw [Binary64.IsSmallInteger, and_congr_right_iff]
  intro _
  constructor
  · rintro ⟨⟨k, hk⟩, hlt⟩
    rw [hk] at hpos hlt
    have hlow : 0 ≤ k := by exact_mod_cast hpos
    have hhigh : k < 2 ^ 63 := by exact_mod_cast hlt
    exact ⟨Int64.ofInt k, by rw [Int64.toInt_ofInt_of_le (by omega) hhigh, hk]⟩
  · rintro ⟨n, hn⟩
    rw [hn]
    exact ⟨⟨n.toInt, rfl⟩, by exact_mod_cast n.toInt_lt⟩

/-- What conversion makes of a number without sign: nothing if it is infinite, an integer without
loss if it is one below `2 ^ 63`, and otherwise the number itself. -/
theorem convert?_of_isNegative_eq_false {x : Binary64} (hnan : x.isNaN = false)
    (hx : x.isNegative = false) :
    (convert? x = none ↔ x.isInfinite) ∧
    (∀ n, convert? x = some (.int n) ↔ x.IsSmallInteger ∧ (n.toInt : ℚ) = x.value) ∧
    (x.IsSmallInteger → (x.toInt64.toInt : ℚ) = x.value) ∧
    ∀ y, convert? x = some (.float y) ↔ y = x ∧ x.isFinite ∧ ¬x.IsSmallInteger := by
  refine ⟨?_, fun n => ?_, fun h => ?_, fun y => ?_⟩
  · rw [convert?_eq_none_iff, Binary64.isInfinite_iff hnan]
  · rw [convert?_eq_int_iff, isSmallInteger_iff hx, and_assoc, and_congr_right_iff]
    exact fun _ => ⟨fun h => ⟨⟨n, h⟩, h.symm⟩, fun h => h.2.symm⟩
  · obtain ⟨hfinite, n, hn⟩ := (isSmallInteger_iff hx).mp h
    rw [Binary64.toInt64_of_value_eq hfinite hn, hn]
  · rw [convert?_eq_float_iff, isSmallInteger_iff hx, eq_comm, not_and, not_exists]
    constructor
    · rintro ⟨heq, hfinite, hne⟩
      exact ⟨heq, hfinite, fun _ => hne⟩
    · rintro ⟨heq, hfinite, hne⟩
      exact ⟨heq, hfinite, hne hfinite⟩

/-- A floating-point number that can be written is positive and no small integer. -/
theorem of_printable_float {x : Binary64} (h : (Literal.float x).Printable) :
    x.isFinite ∧ x.isNegative = false ∧ 0 < x.value ∧ ¬x.IsSmallInteger := by
  obtain ⟨hfinite, hsign, hcode, -⟩ := id h
  have hvalue : 0 < x.value := by
    rw [Binary64.value_eq_magnitude hsign, ← Binary64.magnitude_zero]
    exact Binary64.magnitude_strictMono hcode
  have hkept : convert? x = some (.float x) := by rw [convert?_eq, ofBinary64?_eq h]
  obtain ⟨-, -, -, hfloat⟩ :=
    convert?_of_isNegative_eq_false (Binary64.isNaN_eq_false hfinite) hsign
  exact ⟨hfinite, hsign, hvalue, ((hfloat x).mp hkept).2.2⟩

/-! ## At the limits -/

/-- What numbers denote, up to the limits of integers and beyond.

- Without a point it is the value of the digits, which has to be at most `2 ^ 63 - 1`.
- With a point it depends on the one floating-point number that the value is rounded to: there is no
  literal if it is infinite, an integer if it is one below `2 ^ 63`, and otherwise this
  floating-point number. The integer is found by conversion, and it is the number exactly.
- So integers are at least zero and below `2 ^ 63`, and floating-point numbers are finite, positive
  and none of those integers. -/
theorem ofNumber?_within_limits {whole fraction : List Char} (hne : whole ≠ [])
    (hwhole : ∀ c ∈ whole, c.isDigit) (hfraction : ∀ c ∈ fraction, c.isDigit) :
    ((∃ n : Int64, n.toInt = Nat.ofDigitChars 10 whole 0 ∧ ofNumber? whole = some (.int n)) ↔
      Nat.ofDigitChars 10 whole 0 ≤ 2 ^ 63 - 1) ∧
    (ofNumber? whole = none ↔ ¬Nat.ofDigitChars 10 whole 0 ≤ 2 ^ 63 - 1) ∧
    (∃ r : Binary64, (∀ x, x.IsRoundingOf (pointValue whole fraction) ↔ x = r) ∧
      ofNumber? (whole ++ '.' :: fraction) = convert? r ∧
      (ofNumber? (whole ++ '.' :: fraction) = none ↔ r.isInfinite) ∧
      (∀ n, ofNumber? (whole ++ '.' :: fraction) = some (.int n) ↔
        r.IsSmallInteger ∧ (n.toInt : ℚ) = r.value) ∧
      (r.IsSmallInteger → (r.toInt64.toInt : ℚ) = r.value) ∧
      (ofNumber? (whole ++ '.' :: fraction) = some (.float r) ↔
        r.isFinite ∧ ¬r.IsSmallInteger)) ∧
    ∀ text, text = whole ∨ text = whole ++ '.' :: fraction →
      (∀ n, ofNumber? text = some (.int n) → 0 ≤ n.toInt ∧ n.toInt < 2 ^ 63) ∧
      ∀ x, ofNumber? text = some (.float x) →
        x.isFinite ∧ x.isNaN = false ∧ x.isInfinite = false ∧ x.isNegative = false ∧ 0 < x.value ∧
          ¬x.IsSmallInteger := by
  have hrounding := Numeral.isRoundingOf_iff_eq_toBinary64 whole fraction
  rw [ofNumber?_of_isDigit hne hwhole, ofNumber?_of_point hne hwhole hfraction, ← convert?_eq,
    Numeral.decimalValue_eq_ofDigitChars]
  generalize Numeral.toBinary64 _ = r at hrounding ⊢
  have hr := (hrounding r).mpr rfl
  obtain ⟨hnone, hint, hexact, hfloat⟩ := convert?_of_isNegative_eq_false hr.isNaN_eq
    (hr.isNegative_eq_false (Numeral.pointValue_nonneg whole fraction))
  refine ⟨?_, ?_, ⟨r, hrounding, rfl, hnone, hint, hexact, ?_⟩, fun text htext => ?_⟩
  · constructor
    · rintro ⟨n, hn, -⟩
      have hlt := n.toInt_lt
      omega
    · intro hle
      have hfits : -2 ^ 63 ≤ ((Nat.ofDigitChars 10 whole 0 : Nat) : Int) ∧
          ((Nat.ofDigitChars 10 whole 0 : Nat) : Int) < 2 ^ 63 := by omega
      exact ⟨_, Int64.toInt_ofInt_of_le hfits.1 hfits.2, ofInt?_eq_some_iff.mpr ⟨hfits, rfl⟩⟩
  · rw [ofInt?_eq_none_iff]
    omega
  · rw [hfloat, and_iff_right rfl]
  · have hnumber : Token.IsNumber text :=
      ⟨whole, hne, hwhole, htext.imp_right fun h => ⟨fraction, hfraction, h⟩⟩
    refine ⟨fun n h => ⟨printable_of_ofNumber? hnumber h, n.toInt_lt⟩, fun x h => ?_⟩
    obtain ⟨hfinite, hsign, hpos, hsmall⟩ := of_printable_float (printable_of_ofNumber? hnumber h)
    exact ⟨hfinite, Binary64.isNaN_eq_false hfinite, Binary64.isInfinite_eq_false hfinite, hsign,
      hpos, hsmall⟩

/-- The largest integer, the next one, and the largest one with a point: an integer, nothing, and
the floating-point number `2 ^ 63`. -/
theorem ofNumber?_of_limit :
    ofNumber? "9223372036854775807".toList = some (.int 9223372036854775807) ∧
    ofNumber? "9223372036854775808".toList = none ∧
    ofNumber? "9223372036854775807.0".toList = some (.float ⟨0x43E0000000000000⟩) := by
  obtain ⟨hlast, -, ⟨r, hrounding, -, -, -, -, hfloat⟩, -⟩ :=
    @ofNumber?_within_limits "9223372036854775807".toList "0".toList (by decide)
      (List.all_eq_true.mp (by decide)) (List.all_eq_true.mp (by decide))
  obtain ⟨-, hnext, -⟩ :=
    @ofNumber?_within_limits "9223372036854775808".toList [] (by decide)
      (List.all_eq_true.mp (by decide)) (List.all_eq_true.mp (by decide))
  have hvalue : Nat.ofDigitChars 10 "9223372036854775807".toList 0 = 9223372036854775807 := by
    decide +kernel
  rw [hvalue] at hlast
  obtain ⟨n, hn, hinteger⟩ := hlast.mpr (by decide)
  obtain rfl : n = 9223372036854775807 := Int64.toInt_inj.mp hn
  refine ⟨hinteger, hnext.mpr (by decide +kernel), ?_⟩
  obtain rfl : ⟨0x43E0000000000000⟩ = r := by
    rw [← hrounding, Numeral.pointValue_eq, Binary64.isRoundingOf_iff (by decide)]
    decide +kernel
  refine hfloat.mpr ⟨by decide, fun hsmall => ?_⟩
  have hlimit : Binary64.value ⟨0x43E0000000000000⟩ = 2 ^ 63 :=
    (Binary64.value_eq_magnitude (by decide)).trans Binary64.magnitude_limitCode
  exact absurd hsmall.2.2 (by rw [hlimit]; exact lt_irrefl _)

end Literal

end ResumeFilter
