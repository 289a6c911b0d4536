import ResumeFilter.Decimal.Binary64

/-!
# Decimal text of floating-point numbers

A whole number is written exactly and with one decimal, `.0`. Any other finite number is written
with the fewest decimals that read back as the same number, and of the decimals of that length with
those nearest to it. No exponent is ever used.
-/

namespace ResumeFilter.Binary64

/-! ## The fewest decimals that read back -/

attribute [local instance] power

/-- Whether `digits / 10 ^ places` is closer to the magnitude of `code` than to any other one.

The ends of the interval, half-way to the neighbours, belong to it exactly if the code is even,
for a tie is read as the even code. Everything is measured in halves of a unit. -/
def readsBack (code places digits : Nat) : Bool :=
  let low := (units (code - 1) + units code) * 10 ^ places
  let point := digits * (2 * unitsPerOne)
  let high := (units code + units (code + 1)) * 10 ^ places
  if code % 2 == 0 then low ≤ point && point ≤ high else low < point && point < high

/-- The magnitude of `code` cut off after `places` decimals, as a number of the last place. -/
def cutOff (code places : Nat) : Nat := units code * 10 ^ places / unitsPerOne

/-- The number of the last of `places` decimals that reads back as `code`, if there is one.

One of the two neighbours of the magnitude on that grid does if any point of the grid does; if both
do, the nearer one is taken, and the upper one from the middle. -/
def digitsAt? (code places : Nat) : Option Nat :=
  let lower := cutOff code places
  let pastMiddle := unitsPerOne ≤ 2 * (units code * 10 ^ places % unitsPerOne)
  match readsBack code places lower, readsBack code places (lower + 1) with
  | true, true => some (if pastMiddle then lower + 1 else lower)
  | true, false => some lower
  | false, true => some (lower + 1)
  | false, false => none

/-- The fewest decimals with which a magnitude can be written; 1074 of them write any exactly. -/
def fewestPlaces (code : Nat) : Nat :=
  ((List.range 1074).find? fun places => (digitsAt? code places).isSome).getD 1074

/-! ## Text -/

/-- The digits of a natural number. -/
def digits (n : Nat) : List Char := Nat.toDigits 10 n

/-- `number / 10 ^ places` written with exactly that many decimals. -/
def positional (number places : Nat) : List Char :=
  let fraction := digits (number % 10 ^ places)
  let zeros := List.replicate (places - fraction.length) '0'
  digits (number / 10 ^ places) ++ '.' :: (zeros ++ fraction)

/-- A finite magnitude in decimal. -/
def magnitudeText (code : Nat) : List Char :=
  if units code % unitsPerOne == 0 then
    digits (units code / unitsPerOne) ++ ['.', '0']
  else
    let places := fewestPlaces code
    positional ((digitsAt? code places).getD (cutOff code places)) places

/-- A number in decimal, its sign in front. -/
def text (x : Binary64) : String :=
  if x.isNaN then "NaN"
  else
    let magnitude := if x.isFinite then String.ofList (magnitudeText x.code) else "inf"
    if x.isNegative then "-" ++ magnitude else magnitude

end ResumeFilter.Binary64
