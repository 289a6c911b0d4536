import ResumeFilter.Token

/-!
# Sets of token kinds

A set of kinds is one bit for each kind, so that equal sets are equal values. The named sets are
those that the grammar asks about: what may start a condition, join two conditions, compare a field
with a value, or be such a value.
-/

namespace ResumeFilter.Token

/-- A set of token kinds, one bit for each. -/
structure KindSet where
  bits : BitVec 19
deriving DecidableEq

namespace KindSet

/-- The set without members. -/
def empty : KindSet := ⟨0⟩

/-- Whether a kind belongs to a set. -/
def contains (set : KindSet) (kind : Kind) : Bool := set.bits.getLsbD kind.ctorIdx

/-- The kinds that belong to either set. -/
def union (a b : KindSet) : KindSet := ⟨a.bits ||| b.bits⟩

/-- The set of the listed kinds. -/
def ofList (kinds : List Kind) : KindSet :=
  kinds.foldl (fun set kind => ⟨set.bits ||| BitVec.twoPow 19 kind.ctorIdx⟩) empty

/-- The members of a set in the order of `Kind.all`. -/
def toList (set : KindSet) : List Kind := Kind.all.filter set.contains

/-- The members of a set by name, between braces. -/
def text (set : KindSet) : String :=
  "\x7b" ++ ", ".intercalate (set.toList.map Kind.label) ++ "\x7d"

/-! ## The sets of the grammar -/

/-- What a condition can start with. -/
def conditionFirst : KindSet := ofList [.not, .parenOpen, .identifier]

/-- What can stand between two conditions. -/
def logicalOps : KindSet := ofList [.and, .or]

/-- What can stand between a field and its operand. -/
def comparators : KindSet := ofList [.eq, .notEq, .gt, .lt, .gtEq, .ltEq, .isIn]

/-- The literals that a set literal can hold. -/
def scalars : KindSet := ofList [.numberLit, .stringLit, .boolLit]

/-- What an operand can start with. -/
def valueFirst : KindSet := scalars.union (ofList [.braceOpen])

end KindSet

end ResumeFilter.Token
