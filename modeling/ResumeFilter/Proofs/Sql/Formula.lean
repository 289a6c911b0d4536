import ResumeFilter.Catalog
import ResumeFilter.Query

/-!
# What a filter means

A condition on rows is a formula over columns and literals, and a query means the formula in which
every field is the column that the catalog has for it. Nothing is said about how a column compares
with a literal, nor about how many truth values there are: a row with a missing value may make a
comparison neither true nor false. Only an empty set of values has a meaning of its own, for nothing
is among no values.
-/

namespace ResumeFilter

/-! ## Logics -/

/-- The truth values and connectives that conditions are understood with. -/
structure Logic (τ : Type) where
  falsum : τ
  not : τ → τ
  and : τ → τ → τ
  or : τ → τ → τ

namespace Logic

/-- The connective of a junction. -/
def combine {τ : Type} (logic : Logic τ) : LogicalOp → τ → τ → τ
  | .and => logic.and
  | .or => logic.or

/-- The logic of true and false. -/
def classical : Logic Bool := ⟨false, (! ·), (· && ·), (· || ·)⟩

/-- The logic of true, false and unknown: a junction is known as soon as one side decides it. -/
def kleene : Logic (Option Bool) where
  falsum := some false
  not a := a.map (! ·)
  and
    | some false, _ => some false
    | _, some false => some false
    | some true, some true => some true
    | _, _ => none
  or
    | some true, _ => some true
    | _, some true => some true
    | some false, some false => some false
    | _, _ => none

end Logic

/-! ## Atoms -/

/-- A column as it is named in a condition. -/
structure ColumnName where
  table : String
  column : String
deriving DecidableEq

/-- The name of a column. -/
def Column.fullName (column : Column) : ColumnName := ⟨column.table.name, column.name⟩

/-- The truth values of the atoms; a set of values is given as its first value and the others. -/
structure Interpretation (τ : Type) where
  compare : ColumnName → ScalarOp → Literal → τ
  isIn : ColumnName → Literal → List Literal → τ

/-- The truth value of a membership test, which is false if there are no values. -/
def Interpretation.among {τ : Type} (I : Interpretation τ) (logic : Logic τ)
    (column : ColumnName) : List Literal → τ
  | [] => logic.falsum
  | first :: rest => I.isIn column first rest

/-! ## Formulas and queries -/

/-- A condition on the values of columns. -/
inductive Formula
  | falsum
  | compare (column : ColumnName) (op : ScalarOp) (value : Literal)
  | isIn (column : ColumnName) (first : Literal) (rest : List Literal)
  | not (inner : Formula)
  | combine (op : LogicalOp) (left right : Formula)
deriving DecidableEq

/-- The formula of a membership test, which is false if there are no values. -/
def Formula.among (column : ColumnName) : List Literal → Formula
  | [] => .falsum
  | first :: rest => .isIn column first rest

section Meaning

variable {τ : Type} (logic : Logic τ) (I : Interpretation τ)

/-- The truth value of a formula. -/
def Formula.meaning : Formula → τ
  | .falsum => logic.falsum
  | .compare column op value => I.compare column op value
  | .isIn column first rest => I.isIn column first rest
  | .not inner => logic.not inner.meaning
  | .combine op left right => logic.combine op left.meaning right.meaning

/-- A membership test means what its formula does. -/
@[simp]
theorem Formula.meaning_among (column : ColumnName) (values : List Literal) :
    (Formula.among column values).meaning logic I = I.among logic column values := by
  cases values <;> rfl

/-- The truth value of a comparison of a field with an operand that suits the operator. -/
def Comparison.meaning? (c : Comparison) : Option τ :=
  (Field.ofName? c.field.name).bind fun field =>
    match c.op, c.operand with
    | .scalar op, .scalar value => some (I.compare field.column.fullName op value.literal)
    | .isIn, .set values _ =>
      some (I.among logic field.column.fullName (values.map Value.literal))
    | _, _ => none

/-- The truth value of a query, if all its comparisons have one. -/
def Query.meaning? : Query → Option τ
  | .comparison c => c.meaning? logic I
  | .not inner => inner.meaning?.map logic.not
  | .logical op left right =>
    left.meaning?.bind fun a => right.meaning?.map fun b => logic.combine op a b

end Meaning

end ResumeFilter
