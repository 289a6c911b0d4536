import ResumeFilter.Proofs.Decimal.RoundTrip
import ResumeFilter.Proofs.Query.Parsing
import ResumeFilter.Proofs.Token.Pattern
import ResumeFilter.Query.Text

/-!
# Literals that have a text

Not every literal can be written. There is no sign in front of a number, a whole number that fits
into 64 bits is never a floating-point number, and a string cannot hold both quotes. The literals
that are left (`Literal.Printable`) are just those that tokens denote, and their texts denote them.
-/

namespace ResumeFilter

open Binary64 (units unitsPerOne infinityCode)

/-- Whether a literal can be written: an integer that is not negative, a finite positive
floating-point number with a fraction or too large for an integer, a string without one of the
quotes, or a truth value. -/
def Literal.Printable : Literal → Prop
  | .int n => 0 ≤ n.toInt
  | .float x => x.isFinite ∧ x.isNegative = false ∧ 0 < x.code ∧
    (units x.code % unitsPerOne ≠ 0 ∨ 2 ^ 63 * unitsPerOne ≤ units x.code)
  | .str s => ¬('\'' ∈ s.toList ∧ '"' ∈ s.toList)
  | .bool _ => True

/-- No numeral is read as more than infinity. -/
theorem Numeral.code_le (n : Numeral) : n.code ≤ infinityCode := by
  rw [Numeral.code]
  split_ifs
  · exact Nat.zero_le _
  · exact Nat.le_refl _
  · exact Nat.min_le_left _ _

namespace Literal

/-! ## Numbers -/

/-- An integer that fits is its literal, and no other one is. -/
theorem ofInt?_eq_some_iff {n : Int} {literal : Literal} :
    ofInt? n = some literal ↔ (-2 ^ 63 ≤ n ∧ n < 2 ^ 63) ∧ literal = .int (Int64.ofInt n) := by
  rw [ofInt?]
  split_ifs with hfits
  · rw [Option.some.injEq, eq_comm]
    exact (and_iff_right hfits).symm
  · exact iff_of_false id fun h => hfits h.1

/-- An integer that does not fit is no literal. -/
theorem ofInt?_eq_none_iff {n : Int} : ofInt? n = none ↔ ¬(-2 ^ 63 ≤ n ∧ n < 2 ^ 63) := by
  rw [ofInt?]
  split_ifs with hfits
  · exact iff_of_false (by rintro ⟨⟩) (not_not_intro hfits)
  · exact iff_of_true rfl hfits

/-- An integer literal that is not negative can be written. -/
theorem printable_of_ofInt? {n : Int} (hn : 0 ≤ n) {literal : Literal}
    (h : ofInt? n = some literal) : literal.Printable := by
  obtain ⟨⟨hlow, hhigh⟩, rfl⟩ := ofInt?_eq_some_iff.mp h
  rwa [Printable, Int64.toInt_ofInt_of_le hlow hhigh]

/-- A floating-point literal without sign can be written. -/
theorem printable_of_ofBinary64? {x : Binary64} (hx : x.isNegative = false) {literal : Literal}
    (h : ofBinary64? x = some literal) : literal.Printable := by
  have hpos : units x.code ≠ 0 → 0 < x.code := fun hne =>
    Binary64.units_pos_iff.mp (Nat.pos_of_ne_zero hne)
  rw [ofBinary64?] at h
  by_cases hfinite : x.isFinite
  · rw [hfinite, Bool.not_true, if_neg Bool.false_ne_true] at h
    -- A whole number becomes an integer if it fits, so one that stays is large.
    by_cases hwhole : x.isWhole
    · rw [if_pos hwhole, Option.or_eq_some_iff] at h
      rcases h with hint | ⟨hnone, hfloat⟩
      · refine printable_of_ofInt? ?_ hint
        rw [Binary64.toInt_eq hx]
        exact Int.natCast_nonneg _
      · obtain rfl := Option.some.inj hfloat
        have hlarge : 2 ^ 63 ≤ units x.code / unitsPerOne := by
          rw [ofInt?, Binary64.toInt_eq hx] at hnone
          split_ifs at hnone with hfits
          generalize units x.code / unitsPerOne = n at hfits ⊢
          omega
        have hunits := (Nat.le_div_iff_mul_le Binary64.unitsPerOne_pos).mp hlarge
        have hone := Nat.mul_pos (by decide : 0 < 2 ^ 63) Binary64.unitsPerOne_pos
        exact ⟨hfinite, hx, hpos (by omega), .inr hunits⟩
    · rw [if_neg hwhole] at h
      obtain rfl := Option.some.inj h
      have hfraction : units x.code % unitsPerOne ≠ 0 := by
        simpa [Binary64.isWhole, hfinite] using hwhole
      refine ⟨hfinite, hx, hpos fun hzero => hfraction ?_, .inl hfraction⟩
      rw [hzero, Nat.zero_mod]
  · simp [hfinite] at h

/-- A floating-point literal that can be written is the literal of its number. -/
theorem ofBinary64?_eq {x : Binary64} (h : (Literal.float x).Printable) :
    ofBinary64? x = some (.float x) := by
  obtain ⟨hfinite, hx, -, hvalue⟩ := h
  rw [ofBinary64?, hfinite, Bool.not_true, if_neg Bool.false_ne_true]
  by_cases hwhole : x.isWhole
  · have hmod : units x.code % unitsPerOne = 0 := by
      simpa [Binary64.isWhole, hfinite] using hwhole
    have hlarge := (Nat.le_div_iff_mul_le Binary64.unitsPerOne_pos).mpr
      (hvalue.resolve_left (not_not_intro hmod))
    have hnone : ofInt? x.toInt = none := by
      rw [ofInt?, Binary64.toInt_eq hx, if_neg (by omega)]
    rw [if_pos hwhole, hnone, Option.none_or]
  · rw [if_neg hwhole]

/-- Digits without a point stand for their value, if that fits. -/
theorem ofNumber?_of_isDigit {whole : List Char} (hne : whole ≠ [])
    (hwhole : ∀ c ∈ whole, c.isDigit) :
    ofNumber? whole = ofInt? (Numeral.decimalValue whole : Nat) := by
  have hpoint : '.' ∉ whole := fun hmem => absurd (hwhole _ hmem) (by decide)
  rw [ofNumber?, if_neg hpoint, Numeral.integer?_of_isDigit hne hwhole, Option.bind_some]

/-- Digits with a point stand for what the floating-point number nearest to them does. -/
theorem ofNumber?_of_point {whole fraction : List Char} (hne : whole ≠ [])
    (hwhole : ∀ c ∈ whole, c.isDigit) (hfraction : ∀ c ∈ fraction, c.isDigit) :
    ofNumber? (whole ++ '.' :: fraction) =
      ofBinary64? (Numeral.toBinary64
        ⟨false, Numeral.decimalValue (whole ++ fraction), -(fraction.length : Int)⟩) := by
  rw [ofNumber?, if_pos (by simp), Numeral.ofChars?_point hne hwhole hfraction, Option.bind_some]

open Token (IsNumber)

/-- What a number stands for can be written. -/
theorem printable_of_ofNumber? {text : List Char} (htext : IsNumber text) {literal : Literal}
    (h : ofNumber? text = some literal) : literal.Printable := by
  obtain ⟨whole, hne, hwhole, rfl | ⟨fraction, hfraction, rfl⟩⟩ := htext
  · rw [ofNumber?_of_isDigit hne hwhole] at h
    exact printable_of_ofInt? (Int.natCast_nonneg _) h
  · rw [ofNumber?_of_point hne hwhole hfraction] at h
    exact printable_of_ofBinary64? (Binary64.isNegative_ofCode (Numeral.code_le _)) h

/-- The text of an integer that is not negative is a number, and stands for the integer. -/
theorem ofNumber?_text_int {n : Int64} (h : (Literal.int n).Printable) :
    IsNumber (Literal.int n).text.toList ∧
      ofNumber? (Literal.int n).text.toList = some (.int n) := by
  obtain ⟨k, hk⟩ := Int.eq_ofNat_of_zero_le h
  have htext : (Literal.int n).text.toList = Binary64.digits k := by
    rw [Literal.text, hk]
    exact Nat.toList_repr
  have hdigits : ∀ c ∈ Binary64.digits k, c.isDigit := fun c => Numeral.isDigit_of_mem_digits
  have hfits := And.intro n.le_toInt n.toInt_lt
  rw [htext]
  refine ⟨⟨_, Numeral.digits_ne_nil k, hdigits, .inl rfl⟩, ?_⟩
  rw [ofNumber?_of_isDigit (Numeral.digits_ne_nil k) hdigits, Numeral.decimalValue_digits,
    ofInt?_eq_some_iff, ← Int64.ofInt_toInt n, hk]
  rw [hk] at hfits
  exact ⟨hfits, rfl⟩

/-- The text of a floating-point number that can be written is a number, and stands for it. -/
theorem ofNumber?_text_float {x : Binary64} (h : (Literal.float x).Printable) :
    IsNumber (Literal.float x).text.toList ∧
      ofNumber? (Literal.float x).text.toList = some (.float x) := by
  obtain ⟨hfinite, hx, -⟩ := id h
  have hlt : x.code < infinityCode := by
    rwa [Binary64.isFinite, decide_eq_true_eq] at hfinite
  have hnan : x.isNaN = false := Binary64.isNaN_eq_false hfinite
  have htext : (Literal.float x).text.toList = Binary64.magnitudeText x.code := by
    rw [Literal.text, Binary64.text]
    simp only [hnan, hfinite, hx, Bool.false_eq_true, if_false, if_true, String.toList_ofList]
  obtain ⟨whole, fraction, hmagnitude, hne, hwhole, hfraction, n, hn, hnegative, hcode⟩ :=
    Binary64.magnitudeText_spec hlt
  rw [htext]
  refine ⟨⟨whole, hne, hwhole, .inr ⟨fraction, hfraction, hmagnitude⟩⟩, ?_⟩
  have hpoint : '.' ∈ Binary64.magnitudeText x.code := by
    rw [hmagnitude]
    simp
  rw [ofNumber?, if_pos hpoint, hn, Option.bind_some, Numeral.toBinary64, hnegative, hcode,
    Binary64.ofCode_code hx]
  exact ofBinary64?_eq h

end Literal

end ResumeFilter
