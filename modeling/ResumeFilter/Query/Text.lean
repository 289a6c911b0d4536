import ResumeFilter.Decimal.Shortest
import ResumeFilter.Query

/-!
# The canonical text of a query

Every query has one text, which reads back as that query wherever the language can express it. AND
and OR are equally strong and chains lean to the left, so only the right side of an operator and the
operand of NOT are ever grouped. A string has no escapes: the text picks the quote that the string
does not hold, and the single one if there is a choice.
-/

namespace ResumeFilter

/-! ## Literals and operators -/

/-- The text of a literal. -/
def Literal.text : Literal → String
  | .int n => toString n.toInt
  | .float x => x.text
  | .str s => if '\'' ∈ s.toList then "\"" ++ s ++ "\"" else "'" ++ s ++ "'"
  | .bool true => "TRUE"
  | .bool false => "FALSE"

/-- The text of an operand, the values of a set between braces. -/
def Operand.text : Operand → String
  | .scalar value => value.literal.text
  | .set values _ =>
    "\x7b" ++ ", ".intercalate (values.map fun value => value.literal.text) ++ "\x7d"

/-- The spelling of a comparison with a single value. -/
def ScalarOp.text : ScalarOp → String
  | .eq => "="
  | .notEq => "!="
  | .gt => ">"
  | .lt => "<"
  | .gtEq => ">="
  | .ltEq => "<="

/-- The spelling of a comparison. -/
def CompareOp.text : CompareOp → String
  | .scalar op => op.text
  | .isIn => "IN"

/-- The spelling of a junction. -/
def LogicalOp.text : LogicalOp → String
  | .and => "AND"
  | .or => "OR"

/-! ## Queries -/

/-- The text of a comparison. -/
def Comparison.text (c : Comparison) : String :=
  c.field.name ++ " " ++ c.op.text ++ " " ++ c.operand.text

namespace Query

/-- The text of a query in pieces, and `rest` after them. -/
def piecesThen : Query → List String → List String
  | .comparison c, rest => c.text :: rest
  | .not inner, rest =>
    if inner.isLogical then "NOT (" :: inner.piecesThen (")" :: rest)
    else "NOT " :: inner.piecesThen rest
  | .logical op left right, rest =>
    left.piecesThen ((" " ++ op.text ++ " ") ::
      if right.isLogical then "(" :: right.piecesThen (")" :: rest)
      else right.piecesThen rest)

/-- The canonical text of a query. -/
def text (q : Query) : String := String.join (q.piecesThen [])

end Query

end ResumeFilter
