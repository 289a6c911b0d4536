import ResumeFilter.Query.Text

/-!
# The outline of a query

The outline shows the tree of a query, one line for each node, two blanks of indentation for each
level. On demand, the nodes that have a place in the source are followed by it.
-/

namespace ResumeFilter

/-- The place of a node as it follows the node in an outline, if places are shown. -/
def Span.outlineSuffix (shown : Bool) (span : Span) : String :=
  if shown then " " ++ toString span.start ++ ".." ++ toString span.stop else ""

/-- A line of an outline. -/
def outlineLine (level : Nat) (label : String) : String :=
  String.ofList (List.replicate (2 * level) ' ') ++ label ++ "\n"

/-- The line of a value. -/
def Value.outline (places : Bool) (level : Nat) (v : Value) : String :=
  outlineLine level ("Value(" ++ v.literal.text ++ ")" ++ v.span.outlineSuffix places)

/-- The lines of an operand; the values of a set lie one level deeper. -/
def Operand.outline (places : Bool) (level : Nat) : Operand → List String
  | .scalar value => [value.outline places level]
  | .set values span =>
    outlineLine level ("Set" ++ span.outlineSuffix places) ::
      values.map (Value.outline places (level + 1))

/-- The lines of a comparison. -/
def Comparison.outline (places : Bool) (level : Nat) (c : Comparison) : List String :=
  let field := "Identifier(" ++ c.field.name ++ ")"
  outlineLine level ("Comparison(" ++ c.op.text ++ ")" ++ c.span.outlineSuffix places) ::
    outlineLine (level + 1) (field ++ c.field.span.outlineSuffix places) ::
    c.operand.outline places (level + 1)

namespace Query

/-- The lines of a query at a level, and `rest` after them. -/
def outlineThen (places : Bool) : Query → Nat → List String → List String
  | .comparison c, level, rest => c.outline places level ++ rest
  | .not inner, level, rest =>
    outlineLine level "Logical(NOT)" :: inner.outlineThen places (level + 1) rest
  | .logical op left right, level, rest =>
    outlineLine level ("Logical(" ++ op.text ++ ")") ::
      left.outlineThen places (level + 1) (right.outlineThen places (level + 1) rest)

/-- The outline of a query, with the places of its nodes if `places` is set. -/
def outline (places : Bool) (q : Query) : String :=
  String.join (outlineLine 0 "Query" :: q.outlineThen places 1 [])

end Query

end ResumeFilter
