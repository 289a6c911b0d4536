import Mathlib.Data.List.TakeWhile
import ResumeFilter.Decimal.Numeral
import ResumeFilter.Proofs.Decimal.Rounding

/-!
# Decimal text reads back

A positive finite number is written as a decimal in the interval of its code: exactly if it is
whole, and otherwise with as few decimals as lie in the interval, of which 1074 are always enough. A
decimal of an interval is read as the code of the interval, so the text is read as the number that
was written.
-/

namespace ResumeFilter

namespace Numeral

/-! ## Digits -/

/-- Reading digits is folding them from the most significant one on. -/
theorem decimalValue_eq_ofDigitChars (cs : List Char) :
    decimalValue cs = Nat.ofDigitChars 10 cs 0 := by
  rw [decimalValue, joinDigits_eq_foldr, List.foldr_map, List.foldr_reverse,
    Nat.ofDigitChars_eq_foldl]
  simp only [Nat.add_comm]

/-- The digits in front count by the number of digits behind them. -/
theorem decimalValue_append (cs ds : List Char) :
    decimalValue (cs ++ ds) = 10 ^ ds.length * decimalValue cs + decimalValue ds := by
  simp only [decimalValue_eq_ofDigitChars]
  rw [Nat.ofDigitChars_append, Nat.ofDigitChars_eq_ofDigitChars_zero]

/-- The value of the digits of a number is that number. -/
@[simp]
theorem decimalValue_digits (n : Nat) : decimalValue (Binary64.digits n) = n := by
  rw [decimalValue_eq_ofDigitChars]
  exact Nat.ofDigitChars_ten_toDigits

/-- Zeros count for nothing. -/
@[simp]
theorem decimalValue_replicate_zero (n : Nat) : decimalValue (List.replicate n '0') = 0 := by
  rw [decimalValue_eq_ofDigitChars, Nat.ofDigitChars_replicate_zero, Nat.mul_zero]

/-- A number has digits. -/
theorem digits_ne_nil (n : Nat) : Binary64.digits n ≠ [] := Nat.toDigits_ne_nil

/-- The digits of a number are digits. -/
theorem isDigit_of_mem_digits {n : Nat} {c : Char} (h : c ∈ Binary64.digits n) : c.isDigit :=
  Nat.isDigit_of_mem_toDigits (by decide) (by decide) h

/-! ## Numerals without signs and exponents -/

/-- Where a digit stands, there is no sign. -/
theorem splitSign_of_isDigit {c : Char} (h : c.isDigit) (cs : List Char) :
    splitSign (c :: cs) = (false, c :: cs) := by
  rw [splitSign]
  · rintro rest ⟨⟩
    exact absurd h (by decide)
  · rintro rest ⟨⟩
    exact absurd h (by decide)

/-- Digits are a natural number. -/
theorem natural?_of_isDigit {cs : List Char} (hne : cs ≠ []) (h : ∀ c ∈ cs, c.isDigit) :
    natural? cs = some (decimalValue cs) := by
  rw [natural?, if_pos ⟨hne, List.all_eq_true.mpr h⟩]

/-- The digits of a number are read as that number. -/
theorem natural?_digits (n : Nat) : natural? (Binary64.digits n) = some n := by
  rw [natural?_of_isDigit (digits_ne_nil n) fun _ => isDigit_of_mem_digits, decimalValue_digits]

/-- Digits are an integer. -/
theorem integer?_of_isDigit {cs : List Char} (hne : cs ≠ []) (h : ∀ c ∈ cs, c.isDigit) :
    integer? cs = some (decimalValue cs : Int) := by
  obtain ⟨c, rest, rfl⟩ := List.exists_cons_of_ne_nil hne
  rw [integer?, splitSign_of_isDigit (h c List.mem_cons_self)]
  simp only [natural?_of_isDigit hne h, Bool.false_eq_true, if_false]
  rfl

/-- Digits with a point after them and digits behind the point, if there are any, are a numeral. -/
theorem ofChars?_point {whole fraction : List Char} (hne : whole ≠ [])
    (hwhole : ∀ c ∈ whole, c.isDigit) (hfraction : ∀ c ∈ fraction, c.isDigit) :
    ofChars? (whole ++ '.' :: fraction) =
      some ⟨false, decimalValue (whole ++ fraction), -(fraction.length : Int)⟩ := by
  have hsplit : splitSign (whole ++ '.' :: fraction) = (false, whole ++ '.' :: fraction) := by
    obtain ⟨c, rest, rfl⟩ := List.exists_cons_of_ne_nil hne
    exact splitSign_of_isDigit (hwhole c List.mem_cons_self) _
  have hpoint : ¬Char.isDigit '.' := by decide
  have htake : fraction.takeWhile Char.isDigit = fraction :=
    List.takeWhile_eq_self_iff.mpr hfraction
  have hdrop : fraction.dropWhile Char.isDigit = [] := List.dropWhile_eq_nil_iff.mpr hfraction
  simp only [ofChars?, hsplit, List.takeWhile_append_of_pos hwhole,
    List.dropWhile_append_of_pos hwhole, List.takeWhile_cons_of_neg hpoint,
    List.dropWhile_cons_of_neg hpoint, htake, hdrop, List.append_nil, exponent?]
  rw [if_neg (by simp [hne]), Option.map_some, Int.zero_sub]

/-! ## Decimals of an interval -/

open Binary64 in
/-- A decimal of the interval of a code is read as this code, or as infinity if the code lies
beyond. -/
theorem code_eq_of_isNearest {negative : Bool} {digits places code : Nat}
    (h : IsNearest code digits (10 ^ places)) :
    (⟨negative, digits, -(places : Int)⟩ : Numeral).code = min infinityCode code := by
  have hten : 0 < 10 ^ places := Nat.pow_pos (by decide)
  have hplaces : (-(-(places : Int))).toNat = places := by omega
  have hexponent : (-(places : Int)).toNat = 0 := by omega
  simp only [Numeral.code, hplaces, hexponent, Nat.pow_zero, Nat.mul_one]
  rw [if_neg (by omega : ¬309 ≤ -(places : Int)), nearestCode_eq_of_isNearest hten h]
  refine ite_eq_right_iff.mpr fun hsmall => ?_
  -- A decimal that the reader takes for zero from its size alone is less than half a unit.
  suffices hzero : code = 0 by rw [hzero, Nat.min_zero]
  by_contra hne
  have hunits : 0 < units code := units_pos_iff.mpr (Nat.pos_of_ne_zero hne)
  have hlow : 10 ^ places ≤ digits * (2 * unitsPerOne) :=
    (Nat.le_mul_of_pos_left _ (Nat.add_pos_right _ hunits)).trans h.low_le
  rcases hsmall with rfl | hsmall
  · omega
  · have hpow : (2 : Nat) ^ (digits.log2 + 1) * (2 * unitsPerOne) ≤ 2 ^ (3 * places) := by
      obtain ⟨k, hunits, hk⟩ := unitsPerOne_eq
      rw [hunits, ← Nat.pow_succ', ← Nat.pow_add]
      exact Nat.pow_le_pow_right Nat.two_pos (by omega)
    have height : 2 ^ (3 * places) ≤ 10 ^ places := by
      rw [Nat.pow_mul]
      exact Nat.pow_le_pow_left (by decide) places
    have hself : digits * (2 * unitsPerOne) < 2 ^ (digits.log2 + 1) * (2 * unitsPerOne) :=
      Nat.mul_lt_mul_of_pos_right Nat.lt_log2_self (Nat.mul_pos Nat.two_pos unitsPerOne_pos)
    exact absurd hlow (Nat.not_le.mpr (hself.trans_le (hpow.trans height)))

end Numeral

namespace Binary64

/-! ## Writing -/

/-- The interval holds quotients, however they are written. -/
theorem isNearest_mul_left {code num den k : Nat} (hk : 0 < k) :
    IsNearest code (k * num) (k * den) ↔ IsNearest code num den := by
  have hden : ∀ a, a * (k * den) = k * (a * den) := fun a => Nat.mul_left_comm a k den
  rw [isNearest_iff_and, isNearest_iff_and]
  simp only [hden, Nat.mul_assoc k, Nat.mul_le_mul_left_iff hk, ne_eq, Nat.mul_right_inj hk.ne']

/-- Decimals of a given length and zeros in front of them. -/
theorem length_decimals {n places : Nat} (hpos : 0 < places) (h : n < 10 ^ places) :
    (List.replicate (places - (digits n).length) '0' ++ digits n).length = places := by
  have hle : (digits n).length ≤ places := (Nat.length_toDigits_le_iff (by decide) hpos).mpr h
  rw [List.length_append, List.length_replicate]
  omega

/-- A positional text is digits on both sides of a point, and stands for what it was written
from. -/
theorem positional_eq (number places : Nat) :
    ∃ whole fraction, positional number places = whole ++ '.' :: fraction ∧ whole ≠ [] ∧
      (∀ c ∈ whole, c.isDigit) ∧ (∀ c ∈ fraction, c.isDigit) ∧
      Numeral.decimalValue (whole ++ fraction) * 10 ^ places = number * 10 ^ fraction.length := by
  refine ⟨_, _, rfl, Numeral.digits_ne_nil _, fun c => Numeral.isDigit_of_mem_digits, ?_, ?_⟩
  · intro c hc
    rcases List.mem_append.mp hc with hzero | hdigit
    · rw [List.eq_of_mem_replicate hzero]
      rfl
    · exact Numeral.isDigit_of_mem_digits hdigit
  · rw [Numeral.decimalValue_append, Numeral.decimalValue_append]
    simp only [Numeral.decimalValue_digits, Numeral.decimalValue_replicate_zero, Nat.mul_zero,
      Nat.zero_add]
    by_cases hplaces : places = 0
    · -- A number without decimals is written with one.
      subst hplaces
      have hone : digits 0 = ['0'] := rfl
      rw [Nat.pow_zero, Nat.mod_one, Nat.div_one, Nat.zero_sub, hone, Nat.mul_one, Nat.add_zero,
        Nat.mul_comm]
    · have hlt : number % 10 ^ places < 10 ^ places := Nat.mod_lt _ (Nat.pow_pos (by decide))
      rw [length_decimals (Nat.pos_of_ne_zero hplaces) hlt, Nat.div_add_mod]

/-- The decimal that is chosen at a place reads back. -/
theorem readsBack_of_digitsAt? {code places digits : Nat}
    (h : digitsAt? code places = some digits) : readsBack code places digits = true := by
  rw [digitsAt?] at h
  split at h
  next hlower hupper =>
    obtain rfl := Option.some.inj h
    split_ifs
    · exact hupper
    · exact hlower
  next hlower _ => exact Option.some.inj h ▸ hlower
  next _ hupper => exact Option.some.inj h ▸ hupper
  next => exact absurd h (by simp)

/-- Every magnitude has a decimal of 1074 places: the magnitude itself. -/
theorem isSome_digitsAt?_last {code : Nat} (places : Nat) (hplaces : places = 1074) :
    (digitsAt? code places).isSome := by
  obtain ⟨k, hunits, hk⟩ := unitsPerOne_eq
  have hdvd : unitsPerOne ∣ units code * 10 ^ places := by
    rw [hunits, hk, ← hplaces]
    exact Dvd.dvd.mul_left (pow_dvd_pow_of_dvd (by decide) places) _
  have hexact : cutOff code places * unitsPerOne = units code * 10 ^ places :=
    Nat.div_mul_cancel hdvd
  have hread : readsBack code places (cutOff code places) = true :=
    readsBack_iff.mpr (isNearest_of_eq (Nat.pow_pos (by decide)) hexact)
  rw [digitsAt?, hread]
  cases readsBack code places (cutOff code places + 1) <;> rfl

/-- Some decimal of the fewest places reads back. -/
theorem isSome_digitsAt?_fewestPlaces (code : Nat) :
    (digitsAt? code (fewestPlaces code)).isSome := by
  have hlast := @isSome_digitsAt?_last code
  rw [fewestPlaces]
  generalize 1074 = last at hlast ⊢
  cases hfind : (List.range last).find? fun places => (digitsAt? code places).isSome with
  | none => exact hlast last rfl
  | some places =>
    have hsome := List.find?_some hfind
    exact hsome

/-- A magnitude is written as a decimal of its interval. -/
theorem magnitudeText_eq (code : Nat) :
    ∃ number places, magnitudeText code = positional number places ∧
      IsNearest code number (10 ^ places) := by
  rw [magnitudeText]
  by_cases hwhole : units code % unitsPerOne = 0
  · refine ⟨units code / unitsPerOne, 0, ?_, isNearest_of_eq Nat.one_pos ?_⟩
    · have hone : digits 0 = ['0'] := rfl
      rw [if_pos (beq_iff_eq.mpr hwhole), positional, Nat.pow_zero, Nat.mod_one, Nat.div_one, hone]
      rfl
    · rw [Nat.pow_zero, Nat.mul_one, Nat.div_mul_cancel (Nat.dvd_of_mod_eq_zero hwhole)]
  · obtain ⟨number, hnumber⟩ := Option.isSome_iff_exists.mp (isSome_digitsAt?_fewestPlaces code)
    refine ⟨number, fewestPlaces code, ?_, readsBack_iff.mp (readsBack_of_digitsAt? hnumber)⟩
    simp only [beq_iff_eq, hwhole, if_false, hnumber, Option.getD_some]

/-! ## Reading what was written -/

/-- The text of a finite magnitude is digits on both sides of a point, and a numeral that is read as
this magnitude. -/
theorem magnitudeText_spec {code : Nat} (hfinite : code < infinityCode) :
    ∃ whole fraction, magnitudeText code = whole ++ '.' :: fraction ∧ whole ≠ [] ∧
      (∀ c ∈ whole, c.isDigit) ∧ (∀ c ∈ fraction, c.isDigit) ∧
      ∃ n, Numeral.ofChars? (magnitudeText code) = some n ∧ n.negative = false ∧ n.code = code := by
  obtain ⟨number, places, htext, hnearest⟩ := magnitudeText_eq code
  obtain ⟨whole, fraction, hpositional, hne, hwhole, hfraction, hvalue⟩ :=
    positional_eq number places
  rw [htext, hpositional]
  have hten : ∀ k, 0 < 10 ^ k := fun k => Nat.pow_pos (by decide)
  rw [← isNearest_mul_left (hten fraction.length), Nat.mul_comm, ← hvalue, Nat.mul_comm (_ ^ _),
    Nat.mul_comm, isNearest_mul_left (hten places)] at hnearest
  refine ⟨whole, fraction, rfl, hne, hwhole, hfraction, _,
    Numeral.ofChars?_point hne hwhole hfraction, rfl, ?_⟩
  rw [Numeral.code_eq_of_isNearest hnearest, Nat.min_eq_right hfinite.le]

end Binary64

end ResumeFilter
