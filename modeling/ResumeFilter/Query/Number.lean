import ResumeFilter.Decimal.Conversion
import ResumeFilter.Decimal.Numeral
import ResumeFilter.Query

/-!
# Number literals

A number written without a point is an integer of 64 bits and must fit. One with a point is read as
the nearest floating-point number, and becomes an integer after all if that number is whole and
fits; a number too large to be finite is no literal.
-/

namespace ResumeFilter.Literal

attribute [local instance] Binary64.power

/-- The integer literal of a number that fits into 64 bits. -/
def ofInt? (n : Int) : Option Literal :=
  if -2 ^ (63 : Nat) ≤ n ∧ n < 2 ^ (63 : Nat) then some (.int (Int64.ofInt n)) else none

/-- The literal of a floating-point number: an integer if it is one that fits. -/
def ofBinary64? (x : Binary64) : Option Literal :=
  if !x.isFinite then none
  else if x.isWhole then (ofInt? x.toInt).or (some (.float x))
  else some (.float x)

/-- The literal of a floating-point number, found by conversion: the limits of integers are
converted to compare them with the number, and the number itself once it is known to fit. -/
def convert? (x : Binary64) : Option Literal :=
  if !x.isFinite then none
  else if x.isWhole && (Binary64.ofInt Int64.minValue.toInt).le x &&
      x.lt (Binary64.ofInt Int64.maxValue.toInt) then some (.int x.toInt64)
  else some (.float x)

/-- The literal that a number's text stands for. -/
def ofNumber? (cs : List Char) : Option Literal :=
  if '.' ∈ cs then (Numeral.ofChars? cs).bind fun n => ofBinary64? n.toBinary64
  else (Numeral.integer? cs).bind ofInt?

end ResumeFilter.Literal
