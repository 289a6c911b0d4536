import ResumeFilter.Catalog
import ResumeFilter.Query.Text

/-!
# Comparisons that make sense

A comparison is resolved by finding its field in the catalog and by seeing that its operand has the
shape that its operator asks for: a set for IN, a single value for all others. An unknown field is
reported before a wrong shape.
-/

namespace ResumeFilter

/-- What is wrong with a comparison. -/
inductive ResolveError
  | unknownField (name : String) (span : Span)
  | scalarWithIn (field : Field) (span : Span)
  | setWithScalarOperator (field : Field) (op : ScalarOp) (span : Span)
deriving DecidableEq

namespace ResolveError

/-- The wording of an error. -/
def message : ResolveError → String
  | .unknownField name _ => "unknown field `" ++ name ++ "`"
  | .scalarWithIn field _ => "`IN` on field `" ++ field.name ++ "` requires a set literal"
  | .setWithScalarOperator field op _ =>
    "operator `" ++ op.text ++ "` on field `" ++ field.name ++
      "` requires a single value, found a set"

/-- The place of the field name or of the operand at fault. -/
def span : ResolveError → Span
  | .unknownField _ span => span
  | .scalarWithIn _ span => span
  | .setWithScalarOperator _ _ span => span

end ResolveError

/-- A comparison of a field of the catalog whose operand suits its operator. -/
inductive Resolved
  | scalar (field : Field) (op : ScalarOp) (value : Literal)
  | isIn (field : Field) (values : List Literal)
deriving DecidableEq

/-- The field that is compared. -/
def Resolved.field : Resolved → Field
  | .scalar field _ _ => field
  | .isIn field _ => field

/-- Resolves a comparison. -/
def Comparison.resolve (c : Comparison) : Except ResolveError Resolved :=
  match Field.ofName? c.field.name with
  | none => .error (.unknownField c.field.name c.field.span)
  | some field =>
    match c.op, c.operand with
    | .scalar op, .scalar value => .ok (.scalar field op value.literal)
    | .isIn, .set values _ => .ok (.isIn field (values.map Value.literal))
    | .isIn, .scalar value => .error (.scalarWithIn field value.span)
    | .scalar op, .set _ span => .error (.setWithScalarOperator field op span)

end ResumeFilter
