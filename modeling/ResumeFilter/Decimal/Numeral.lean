import ResumeFilter.Decimal.Binary64

/-!
# Reading decimal numerals

A numeral is an optional sign, digits with a point somewhere among them or none at all, and an
optional exponent. It stands for an exact decimal number, from which the nearest floating-point
number is taken; an integer numeral has neither point nor exponent.
-/

namespace ResumeFilter

/-- The decimal number `digits * 10 ^ exponent`, with a sign. -/
structure Numeral where
  negative : Bool
  digits : Nat
  exponent : Int
deriving DecidableEq

namespace Numeral

/-! ## Digits -/

/-- Joins neighbouring digits of a base to digits of its square, the least significant one first. -/
def pairDigits (base : Nat) : List Nat → List Nat
  | low :: high :: rest => (low + base * high) :: pairDigits base rest
  | rest => rest

theorem length_pairDigits_le (base : Nat) (digits : List Nat) :
    (pairDigits base digits).length ≤ digits.length := by
  fun_induction pairDigits base digits with
  | case1 low high rest ih => simp only [List.length_cons]; omega
  | case2 => exact Nat.le_refl _

/-- The number that digits of a base stand for, the least significant one first.

Joining them pair by pair takes few steps on large numbers, even for a million digits. -/
def joinDigits (base : Nat) : List Nat → Nat
  | [] => 0
  | [digit] => digit
  | low :: high :: rest => joinDigits (base * base) ((low + base * high) :: pairDigits base rest)
termination_by digits => digits.length
decreasing_by
  have := length_pairDigits_le base rest
  simp only [List.length_cons]
  omega

/-- Joining digits to larger ones changes nothing about the number. -/
theorem foldr_pairDigits (base : Nat) (digits : List Nat) :
    (pairDigits base digits).foldr (fun digit number => digit + base * base * number) 0 =
      digits.foldr (fun digit number => digit + base * number) 0 := by
  fun_induction pairDigits base digits with
  | case1 low high rest ih =>
    rw [List.foldr_cons, List.foldr_cons, List.foldr_cons, ih, Nat.mul_add, Nat.mul_assoc,
      Nat.add_assoc]
  | case2 rest h =>
    match rest, h with
    | [], _ => rfl
    | [_], _ => simp
    | low :: high :: rest, h => exact absurd rfl (h low high rest)

/-- A number is what its digits are worth at their places. -/
theorem joinDigits_eq_foldr (base : Nat) (digits : List Nat) :
    joinDigits base digits = digits.foldr (fun digit number => digit + base * number) 0 := by
  fun_induction joinDigits base digits with
  | case1 => rfl
  | case2 => simp
  | case3 base low high rest ih =>
    rw [ih, ← foldr_pairDigits base (low :: high :: rest), pairDigits]

/-- The number that decimal digits stand for. -/
def decimalValue (digits : List Char) : Nat :=
  joinDigits 10 (digits.reverse.map fun c => c.toNat - '0'.toNat)

/-! ## Reading -/

/-- Whether a text starts with a minus sign, and the text without its sign. -/
def splitSign : List Char → Bool × List Char
  | '-' :: cs => (true, cs)
  | '+' :: cs => (false, cs)
  | cs => (false, cs)

/-- The natural number that a text of digits stands for; there is at least one digit. -/
def natural? (cs : List Char) : Option Nat :=
  if cs ≠ [] ∧ cs.all Char.isDigit then some (decimalValue cs) else none

/-- The integer that a text of digits, with or without a sign, stands for. -/
def integer? (cs : List Char) : Option Int :=
  let (negative, magnitude) := splitSign cs
  (natural? magnitude).map fun n => if negative then -(n : Int) else n

/-- The size of an exponent; once it has reached `65536`, no further digit counts. -/
def exponentSize (digits : List Char) : Nat :=
  digits.foldl (fun size c => if size < 65536 then 10 * size + (c.toNat - '0'.toNat) else size) 0

/-- The exponent that a numeral ends in; there may be none, which counts as zero. -/
def exponent? : List Char → Option Int
  | [] => some 0
  | c :: cs =>
    let (negative, digits) := splitSign cs
    if (c = 'e' ∨ c = 'E') ∧ (natural? digits).isSome then
      let size : Int := exponentSize digits
      some (if negative then -size else size)
    else none

/-- The decimal number that a text stands for; digits may be missing on one side of the point. -/
def ofChars? (cs : List Char) : Option Numeral :=
  let (negative, unsigned) := splitSign cs
  let whole := unsigned.takeWhile Char.isDigit
  let (fraction, rest) :=
    match unsigned.dropWhile Char.isDigit with
    | '.' :: cs => (cs.takeWhile Char.isDigit, cs.dropWhile Char.isDigit)
    | cs => ([], cs)
  if whole ++ fraction = [] then none
  else (exponent? rest).map fun exponent =>
    ⟨negative, decimalValue (whole ++ fraction), exponent - fraction.length⟩

/-! ## The nearest floating-point number -/

attribute [local instance] Binary64.power

/-- The code of the magnitude nearest to a numeral.

A positive number of `10 ^ 309` or more rounds to infinity, and one below half a unit to zero; both
are told from the sizes of the parts, which keeps the powers of ten small. -/
def code (n : Numeral) : Nat :=
  let places := (-n.exponent).toNat
  if n.digits = 0 ∨ n.digits.log2 + 1076 ≤ 3 * places then 0
  else if 309 ≤ n.exponent then Binary64.infinityCode
  else Binary64.nearestCode (n.digits * 10 ^ n.exponent.toNat) (10 ^ places)

/-- The floating-point number nearest to a numeral. -/
def toBinary64 (n : Numeral) : Binary64 := .ofCode n.negative n.code

end Numeral

end ResumeFilter
