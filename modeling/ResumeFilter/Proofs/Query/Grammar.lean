import ResumeFilter.Proofs.Text.Place
import ResumeFilter.Query.Parse

/-!
# The grammar of queries

The grammar as a relation between token sequences and the queries that they stand for. It says what
a query looks like and nothing about how one is read: there is no lookahead, no order of trying and
no limit on nesting.

    expression = condition (("AND" | "OR") condition)*
    condition  = "NOT" condition | "(" expression ")" | field comparator operand
    operand    = scalar | "{" (scalar ("," scalar)*)? "}"
-/

namespace ResumeFilter

/-! ## Operators and literals -/

/-- The kind of the token that joins two conditions. -/
def LogicalOp.kind : LogicalOp → Token.Kind
  | .and => .and
  | .or => .or

/-- The kind of the token that compares a field with an operand. -/
def CompareOp.kind : CompareOp → Token.Kind
  | .scalar .eq => .eq
  | .scalar .notEq => .notEq
  | .scalar .gt => .gt
  | .scalar .lt => .lt
  | .scalar .gtEq => .gtEq
  | .scalar .ltEq => .ltEq
  | .isIn => .isIn

/-- The literal that a scalar token denotes: a number its value, a string its text without the first
and the last byte, and a truth value is true exactly for `TRUE`. -/
inductive Token.Denotes (token : Token) : Literal → Prop
  | number {literal : Literal} (hkind : token.kind = .numberLit)
    (hvalue : Literal.ofNumber? token.text.toList = some literal) : Denotes token literal
  | string (hkind : token.kind = .stringLit) :
    Denotes token (.str (String.ofList
      (Text.slice token.text.toList ⟨1, Text.byteLength token.text.toList - 1⟩)))
  | bool {b : Bool} (hkind : token.kind = .boolLit) (hvalue : b = true ↔ token.text = "TRUE") :
    Denotes token (.bool b)

namespace Grammar

/-! ## Operands -/

/-- The values of a set that is not empty: scalars with commas between them. -/
inductive Scalars : List Token → List Value → Prop
  | one {token : Token} {literal : Literal} (h : token.Denotes literal) :
    Scalars [token] [⟨literal, token.span⟩]
  | more {token comma : Token} {literal : Literal} {tokens : List Token} {values : List Value}
    (h : token.Denotes literal) (hcomma : comma.kind = .comma) (hrest : Scalars tokens values) :
    Scalars (token :: comma :: tokens) (⟨literal, token.span⟩ :: values)

/-- What a field can be compared with: a scalar, or a set from brace to brace. -/
inductive IsOperand : List Token → Operand → Prop
  | scalar {token : Token} {literal : Literal} (h : token.Denotes literal) :
    IsOperand [token] (.scalar ⟨literal, token.span⟩)
  | emptySet {opening closing : Token} (hopening : opening.kind = .braceOpen)
    (hclosing : closing.kind = .braceClose) :
    IsOperand [opening, closing] (.set [] (opening.span.cover closing.span))
  | set {opening closing : Token} {tokens : List Token} {values : List Value}
    (hopening : opening.kind = .braceOpen) (h : Scalars tokens values)
    (hclosing : closing.kind = .braceClose) :
    IsOperand (opening :: (tokens ++ [closing])) (.set values (opening.span.cover closing.span))

/-! ## Conditions and expressions -/

/-- A part of a query. -/
inductive Phrase
  | expression
  | condition
  /-- The operators and conditions that follow conditions which make up `left`. -/
  | links (left : Query)

/-- Whether tokens are a phrase that makes up a query. Links are joined from the left. -/
inductive Derives : Phrase → List Token → Query → Prop
  | expression {tokens tokens' : List Token} {first q : Query}
    (hfirst : Derives .condition tokens first) (hlinks : Derives (.links first) tokens' q) :
    Derives .expression (tokens ++ tokens') q
  | done (q : Query) : Derives (.links q) [] q
  | link {token : Token} {tokens tokens' : List Token} {op : LogicalOp} {left right q : Query}
    (hop : token.kind = op.kind) (hright : Derives .condition tokens right)
    (hlinks : Derives (.links (.logical op left right)) tokens' q) :
    Derives (.links left) (token :: (tokens ++ tokens')) q
  | not {token : Token} {tokens : List Token} {inner : Query} (hnot : token.kind = .not)
    (hinner : Derives .condition tokens inner) : Derives .condition (token :: tokens) (.not inner)
  | group {opening closing : Token} {tokens : List Token} {inner : Query}
    (hopening : opening.kind = .parenOpen) (hinner : Derives .expression tokens inner)
    (hclosing : closing.kind = .parenClose) :
    Derives .condition (opening :: (tokens ++ [closing])) inner
  | comparison {name token : Token} {tokens : List Token} {op : CompareOp} {operand : Operand}
    (hname : name.kind = .identifier) (hop : token.kind = op.kind)
    (hoperand : IsOperand tokens operand) :
    Derives .condition (name :: token :: tokens)
      (.comparison ⟨⟨name.text, name.span⟩, op, operand⟩)

end Grammar

end ResumeFilter
