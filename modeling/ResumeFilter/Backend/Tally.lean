import ResumeFilter.Backend

/-!
# Counting calls

A tally is a backend that counts its calls. Its predicates are numbers too: how many comparisons
they are made of.
-/

namespace ResumeFilter

/-- How often a backend was called for what. -/
structure Tally where
  /-- The joins in the order of their declaration. -/
  joins : List Join
  columns : Nat
  /-- How often two predicates were joined, by AND or by OR. -/
  combined : Nat
  negated : Nat
  /-- The number of comparisons in the filter, once there is one. -/
  filtered : Option Nat
deriving DecidableEq

namespace Tally

/-- A tally before the first call. -/
def zero : Tally := ⟨[], 0, 0, 0, none⟩

/-- The backend that counts its calls. -/
def backend : Backend Tally Unit Nat where
  join join tally := { tally with joins := tally.joins ++ [join] }
  column _ tally := ((), { tally with columns := tally.columns + 1 })
  compare _ _ _ tally := (1, tally)
  isIn _ _ tally := (1, tally)
  combine _ left right tally := (left + right, { tally with combined := tally.combined + 1 })
  not inner tally := (inner, { tally with negated := tally.negated + 1 })
  filter predicate tally := { tally with filtered := some predicate }
  render tally := toString (tally.filtered.getD 0) ++ " comparison(s)"

end Tally

end ResumeFilter
