/-!
# Floating-point numbers as their bits

A number of the binary64 format is its 64 bits: a sign bit and a *code* for the magnitude. Codes are
ordered as the magnitudes that they stand for, and every finite magnitude is a whole number of
*units* of `2 ^ -1074`, the least positive one. All arithmetic here is exact and on natural numbers.
-/

namespace ResumeFilter

/-- A binary64 number, not-a-numbers and infinities included. -/
structure Binary64 where
  bits : UInt64
deriving DecidableEq

namespace Binary64

/-- The powers of the core library. With this instance in scope a power is one of those, even where
algebra offers its own. -/
abbrev power {α : Type} [NatPow α] : Pow α Nat := instPowNat

attribute [local instance] power

/-! ## Magnitudes -/

/-- How many units make up one. -/
def unitsPerOne : Nat := 2 ^ (1074 : Nat)

/-- The code of the infinite magnitude; finite ones lie below it. -/
def infinityCode : Nat := 2047 * 2 ^ (52 : Nat)

/-- The magnitude of a code, in units. -/
def units (code : Nat) : Nat :=
  if code < 2 ^ (52 : Nat) then code
  else (2 ^ (52 : Nat) + code % 2 ^ (52 : Nat)) * 2 ^ (code / 2 ^ (52 : Nat) - 1)

/-- The whole number nearest to a quotient; a half goes to the even neighbour. -/
def roundHalfEven (num den : Nat) : Nat :=
  let quotient := num / den
  let doubled := 2 * (num % den)
  if doubled < den || (doubled == den && quotient % 2 == 0) then quotient else quotient + 1

/-- The code whose magnitude is nearest to `num / den`; a tie goes to the even code.

Codes of a magnitude below `2 ^ 53` units are those units; above, neighbouring magnitudes lie
`2 ^ shift` units apart, and `2 ^ 52` codes share one `shift`. -/
def nearestCode (num den : Nat) : Nat :=
  let scaled := num * unitsPerOne
  let shift := (scaled / den).log2 - 52
  min infinityCode (shift * 2 ^ (52 : Nat) + roundHalfEven scaled (den * 2 ^ shift))

/-! ## Numbers -/

/-- The number of a sign and a code. -/
def ofCode (negative : Bool) (code : Nat) : Binary64 :=
  ⟨UInt64.ofNat (if negative then 2 ^ (63 : Nat) + code else code)⟩

/-- The code of a number's magnitude. -/
def code (x : Binary64) : Nat := x.bits.toNat % 2 ^ (63 : Nat)

/-- Whether the sign bit is set. -/
def isNegative (x : Binary64) : Bool := 2 ^ (63 : Nat) ≤ x.bits.toNat

/-- Whether a number is neither infinite nor a not-a-number. -/
def isFinite (x : Binary64) : Bool := x.code < infinityCode

/-- Whether the bits stand for no number. -/
def isNaN (x : Binary64) : Bool := infinityCode < x.code

/-- Whether a number is finite and whole. -/
def isWhole (x : Binary64) : Bool := x.isFinite && units x.code % unitsPerOne == 0

/-- A finite number without its fraction. -/
def toInt (x : Binary64) : Int :=
  let whole : Int := (units x.code / unitsPerOne : Nat)
  if x.isNegative then -whole else whole

end Binary64

end ResumeFilter
