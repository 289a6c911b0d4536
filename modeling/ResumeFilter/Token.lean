import ResumeFilter.Text.Span

/-!
# Tokens

A filter text is read as a sequence of tokens. A token has a kind, the text it was read from and the
place of that text in the source; blanks between tokens leave no trace.
-/

namespace ResumeFilter

/-- What a token is. -/
inductive Token.Kind
  | and
  | or
  | not
  | eq
  | notEq
  | gt
  | lt
  | gtEq
  | ltEq
  | isIn
  | numberLit
  | stringLit
  | boolLit
  | parenOpen
  | parenClose
  | braceOpen
  | braceClose
  | comma
  | identifier
deriving DecidableEq

namespace Token.Kind

/-- Every kind, in the order in which sets list them. -/
def all : List Kind :=
  [.and, .or, .not, .eq, .notEq, .gt, .lt, .gtEq, .ltEq, .isIn, .numberLit, .stringLit, .boolLit,
   .parenOpen, .parenClose, .braceOpen, .braceClose, .comma, .identifier]

/-- The name of a kind in listings. -/
def label : Kind → String
  | .and => "And"
  | .or => "Or"
  | .not => "Not"
  | .eq => "Eq"
  | .notEq => "NotEq"
  | .gt => "Gt"
  | .lt => "Lt"
  | .gtEq => "GtEq"
  | .ltEq => "LtEq"
  | .isIn => "In"
  | .numberLit => "NumberLit"
  | .stringLit => "StringLit"
  | .boolLit => "BoolLit"
  | .parenOpen => "ParenOpen"
  | .parenClose => "ParenClose"
  | .braceOpen => "BraceOpen"
  | .braceClose => "BraceClose"
  | .comma => "Comma"
  | .identifier => "Identifier"

/-- The kind that a listing calls `label`. -/
def ofLabel? (label : String) : Option Kind :=
  all.find? fun kind => kind.label == label

end Token.Kind

/-- A token together with the stretch of source it was read from. -/
structure Token where
  kind : Token.Kind
  span : Span
  text : String
deriving DecidableEq

/-- The token of a given kind that stands in a span of a source. -/
def Token.at (source : List Char) (kind : Token.Kind) (span : Span) : Token :=
  ⟨kind, span, String.ofList (Text.slice source span)⟩

end ResumeFilter
