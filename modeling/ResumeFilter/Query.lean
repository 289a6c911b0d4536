import ResumeFilter.Decimal.Binary64
import ResumeFilter.Text.Span

/-!
# Filter queries

A query is a boolean tree over comparisons, each of a field with one value or with a set of values.
Field names are as written: whether the catalog knows them is settled when it is planned. Names and
values keep their place in the source, for the sake of error messages.
-/

namespace ResumeFilter

/-! ## Values -/

/-- A literal value; a string is held without its quotes. -/
inductive Literal
  | int (n : Int64)
  | float (x : Binary64)
  | str (s : String)
  | bool (b : Bool)
deriving DecidableEq

/-- A literal at its place in the source. -/
structure Value where
  literal : Literal
  span : Span
deriving DecidableEq

/-- What a field is compared with. -/
inductive Operand
  | scalar (value : Value)
  | set (values : List Value) (span : Span)
deriving DecidableEq

/-- The place of an operand in the source. -/
def Operand.span : Operand → Span
  | .scalar value => value.span
  | .set _ span => span

/-! ## Comparisons -/

/-- A comparison with a single value. -/
inductive ScalarOp
  | eq
  | notEq
  | gt
  | lt
  | gtEq
  | ltEq
deriving DecidableEq

/-- A comparison with a single value, or membership in a set. -/
inductive CompareOp
  | scalar (op : ScalarOp)
  | isIn
deriving DecidableEq

/-- A field name as written, at its place in the source. -/
structure FieldName where
  name : String
  span : Span
deriving DecidableEq

/-- A field compared with an operand; the shape of the operand may not suit the operator. -/
structure Comparison where
  field : FieldName
  op : CompareOp
  operand : Operand
deriving DecidableEq

/-- The place of a comparison, from its field name to the end of its operand. -/
def Comparison.span (c : Comparison) : Span := c.field.span.cover c.operand.span

/-! ## Queries -/

/-- How two conditions are joined. -/
inductive LogicalOp
  | and
  | or
deriving DecidableEq

/-- A condition on resumes. -/
inductive Query
  | comparison (c : Comparison)
  | not (inner : Query)
  | logical (op : LogicalOp) (left right : Query)
deriving DecidableEq

/-- Whether a query is two conditions joined by AND or OR. -/
def Query.isLogical : Query → Bool
  | .logical .. => true
  | _ => false

/-! ## Queries apart from their places -/

/-- A value as if it stood at the start of the source. -/
def Value.unplaced (v : Value) : Value := ⟨v.literal, .empty 0⟩

/-- An operand as if all of it stood at the start of the source. -/
def Operand.unplaced : Operand → Operand
  | .scalar value => .scalar value.unplaced
  | .set values _ => .set (values.map Value.unplaced) (.empty 0)

/-- A comparison as if all of it stood at the start of the source. -/
def Comparison.unplaced (c : Comparison) : Comparison :=
  ⟨⟨c.field.name, .empty 0⟩, c.op, c.operand.unplaced⟩

/-- A query without its places: queries that say the same are equal after this. -/
def Query.unplaced : Query → Query
  | .comparison c => .comparison c.unplaced
  | .not inner => .not inner.unplaced
  | .logical op left right => .logical op left.unplaced right.unplaced

end ResumeFilter
