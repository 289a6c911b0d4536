import ResumeFilter.Decimal.Binary64

/-!
# Floating-point numbers and integers of 64 bits

An integer is converted to the floating-point number nearest to it, so that the largest integer of
64 bits becomes a power of two and is none any more. Back again the fraction is dropped, and what
lies beyond the limits becomes one of them. Numbers are compared by their codes with signs, in which
both zeros are the same.
-/

namespace ResumeFilter.Binary64

attribute [local instance] power

/-- Whether a number is infinite. -/
def isInfinite (x : Binary64) : Bool := x.code == infinityCode

/-- The code of a number's magnitude, negative if the number is. -/
def signedCode (x : Binary64) : Int := if x.isNegative then -(x.code : Int) else x.code

/-- Whether a number is at most another one; what is no number is not even at most itself. -/
def le (x y : Binary64) : Bool := !x.isNaN && !y.isNaN && x.signedCode ≤ y.signedCode

/-- Whether a number is less than another one. -/
def lt (x y : Binary64) : Bool := !x.isNaN && !y.isNaN && x.signedCode < y.signedCode

/-- The number nearest to an integer. -/
def ofInt (n : Int) : Binary64 := ofCode (n < 0) (nearestCode n.natAbs 1)

/-- The integer that a number is converted to: without the fraction, and between the limits of 64
bits. What is no number becomes zero. -/
def toInt64 (x : Binary64) : Int64 :=
  if x.isNaN then 0 else Int64.ofInt (max (-2 ^ (63 : Nat)) (min (2 ^ (63 : Nat) - 1) x.toInt))

end ResumeFilter.Binary64
