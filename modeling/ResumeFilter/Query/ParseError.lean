import ResumeFilter.Token.Scan

/-!
# Errors of reading a query

Reading stops at the first token that no query could have in its place. An error says what stands
there and what was expected; an opening parenthesis or brace that is still waiting for its partner
comes along as a related place.
-/

namespace ResumeFilter

/-- A place that helps to understand an error, with a note on it. -/
structure Related where
  span : Span
  message : String
deriving DecidableEq

/-- What the grammar would have accepted. -/
inductive Expectation
  | condition
  | comparator
  | value
  | setValue
  | setSeparator
  /-- The end of the group that was opened at a place. -/
  | groupEnd (opened : Span)
deriving DecidableEq

namespace Expectation

/-- The name of an expectation in messages. -/
def text : Expectation → String
  | .condition => "a condition (field name, 'NOT' or '(')"
  | .comparator => "comparison operator"
  | .value => "value"
  | .setValue => "value in set"
  | .setSeparator => "',' or '\x7d'"
  | .groupEnd _ => "')' after expression"

/-- The place that explains an expectation. -/
def related? : Expectation → Option Related
  | .groupEnd opened => some ⟨opened, "group opened here"⟩
  | _ => none

end Expectation

/-- Why a text is not a query. -/
inductive ParseError
  /-- The text does not even consist of tokens. -/
  | lexical (error : LexError)
  | unexpectedToken (expected : Expectation) (found : Token)
  /-- The text ended where something was expected. -/
  | unexpectedEnd (expected : Expectation) (offset : Nat)
  /-- The text ended inside a set. -/
  | unclosedSet (opened : Span) (offset : Nat)
  /-- A number that no literal can hold. -/
  | invalidNumber (token : Token)
  /-- A query followed by more tokens. -/
  | trailingInput (token : Token)
  /-- The token at `span` would have nested the query deeper than `limit`. -/
  | tooDeep (limit : Nat) (span : Span)
deriving DecidableEq

namespace ParseError

/-- The classes into which errors fall. -/
inductive Kind
  | lexical
  | unexpectedToken
  | unexpectedEnd
  /-- A parenthesis or brace without a partner at the end of the text. -/
  | unclosed
  | invalidNumber
  | trailingInput
  | tooDeep
deriving DecidableEq

/-- The class of an error. -/
def kind : ParseError → Kind
  | .lexical _ => .lexical
  | .unexpectedToken .. => .unexpectedToken
  | .unexpectedEnd (.groupEnd _) _ => .unclosed
  | .unexpectedEnd .. => .unexpectedEnd
  | .unclosedSet .. => .unclosed
  | .invalidNumber _ => .invalidNumber
  | .trailingInput _ => .trailingInput
  | .tooDeep .. => .tooDeep

/-- What is wrong, without the place. -/
def message : ParseError → String
  | .lexical error => error.message
  | .unexpectedToken expected found =>
    "expected " ++ expected.text ++ ", found `" ++ found.text ++ "`"
  | .unexpectedEnd expected _ => "expected " ++ expected.text ++ ", found end of input"
  | .unclosedSet .. => "unclosed set literal, expected '\x7d'"
  | .invalidNumber token => "invalid number `" ++ token.text ++ "`"
  | .trailingInput token => "expected end of input, found `" ++ token.text ++ "`"
  | .tooDeep limit _ =>
    "recursion limit exceeded (query nested deeper than " ++ toString limit ++ " levels)"

/-- The place of an error; at the end of the text it is empty. -/
def span : ParseError → Span
  | .lexical error => error.span
  | .unexpectedToken _ found => found.span
  | .unexpectedEnd _ offset => .empty offset
  | .unclosedSet _ offset => .empty offset
  | .invalidNumber token => token.span
  | .trailingInput token => token.span
  | .tooDeep _ span => span

/-- Where an error starts. -/
def offset (error : ParseError) : Nat := error.span.start

/-- The token at fault, if it is one. -/
def token? : ParseError → Option Token
  | .unexpectedToken _ found => some found
  | .invalidNumber token => some token
  | .trailingInput token => some token
  | _ => none

/-- The opening parenthesis or brace that an error is about. -/
def related? : ParseError → Option Related
  | .unexpectedToken expected _ => expected.related?
  | .unexpectedEnd expected _ => expected.related?
  | .unclosedSet opened _ => some ⟨opened, "set opened here"⟩
  | _ => none

/-- What is wrong and where. -/
def display (error : ParseError) : String :=
  error.message ++ " at offset " ++ toString error.offset

end ParseError

end ResumeFilter
