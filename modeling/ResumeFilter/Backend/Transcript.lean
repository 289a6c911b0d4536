import ResumeFilter.Backend
import ResumeFilter.Query.Text

/-!
# Writing calls down

A transcript is a backend that builds nothing. It notes every call in the order in which it came and
makes predicates that are texts, in which a parameter is `$` and its place in the list.
-/

namespace ResumeFilter

/-- What a backend was called for, a line for each call, and the text of its filter. -/
structure Transcript where
  calls : Array String
  filter : String
deriving DecidableEq

namespace Transcript

/-- A transcript before the first call. -/
def empty : Transcript := ⟨#[], ""⟩

/-- The name of a comparison in a transcript. -/
def scalarOpName : ScalarOp → String
  | .eq => "eq"
  | .notEq => "not_eq"
  | .gt => "gt"
  | .lt => "lt"
  | .gtEq => "gt_eq"
  | .ltEq => "lt_eq"

/-- The name of a junction in a transcript. -/
def logicalOpName : LogicalOp → String
  | .and => "and"
  | .or => "or"

/-- A parameter in a transcript. -/
def slot (bind : Bind) : String := "$" ++ toString bind.index

/-- A parameter together with its value. -/
def binding (bind : Bind) : String := slot bind ++ " = " ++ bind.value.text

/-- Texts between brackets. -/
def listed (items : List String) : String := "[" ++ ", ".intercalate items ++ "]"

/-- Notes a call. -/
def note (line : String) (transcript : Transcript) : Transcript :=
  { transcript with calls := transcript.calls.push line }

/-- The backend that writes down what it is called for. -/
def backend : Backend Transcript Column String where
  join join := note ("join " ++ join.name)
  column field transcript := (field.column, transcript.note ("column " ++ field.name))
  compare op column bind transcript :=
    (column.qualifiedName ++ " " ++ op.text ++ " " ++ slot bind,
      transcript.note (scalarOpName op ++ " " ++ column.qualifiedName ++ " " ++ binding bind))
  isIn column binds transcript :=
    (column.qualifiedName ++ " IN " ++ listed (binds.map slot),
      transcript.note ("is_in " ++ column.qualifiedName ++ " " ++ listed (binds.map binding)))
  combine op left right transcript :=
    ("(" ++ left ++ " " ++ op.text ++ " " ++ right ++ ")", transcript.note (logicalOpName op))
  not inner transcript := ("NOT " ++ inner, transcript.note "not")
  filter predicate transcript := { transcript.note "filter" with filter := predicate }
  render := Transcript.filter

end Transcript

end ResumeFilter
