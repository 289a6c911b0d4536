import ResumeFilter.Query.Number
import ResumeFilter.Query.ParseError
import ResumeFilter.Token.KindSet

/-!
# Reading a query from its tokens

The grammar is

    query      = expression
    expression = condition (("AND" | "OR") condition)*
    condition  = "NOT" condition | "(" expression ")" | field comparator operand
    operand    = scalar | "{" (scalar ("," scalar)*)? "}"

with AND and OR equally strong, joined from the left. One token of lookahead decides every choice,
and the first token that fits nowhere ends the reading. NOT and parentheses count as nesting, which
a limit may bound; chains do not nest.
-/

namespace ResumeFilter

/-! ## What tokens mean -/

namespace Token

/-- The junction that a kind of token stands for. -/
def Kind.logicalOp? : Kind → Option LogicalOp
  | .and => some .and
  | .or => some .or
  | _ => none

/-- The comparison that a kind of token stands for. -/
def Kind.compareOp? : Kind → Option CompareOp
  | .eq => some (.scalar .eq)
  | .notEq => some (.scalar .notEq)
  | .gt => some (.scalar .gt)
  | .lt => some (.scalar .lt)
  | .gtEq => some (.scalar .gtEq)
  | .ltEq => some (.scalar .ltEq)
  | .isIn => some .isIn
  | _ => none

/-- The literal that a scalar token stands for; only a number can fail to be one. -/
def literal? (token : Token) : Option Literal :=
  match token.kind with
  | .numberLit => Literal.ofNumber? token.text.toList
  | .stringLit => some (.str (String.ofList token.text.toList.tail.dropLast))
  | _ => some (.bool (token.text == "TRUE"))

/-- The value of a token that stands where `expected` does. -/
def value (expected : Expectation) (token : Token) : Except ParseError Value :=
  if KindSet.scalars.contains token.kind then
    match token.literal? with
    | some literal => .ok ⟨literal, token.span⟩
    | none => .error (.invalidNumber token)
  else .error (.unexpectedToken expected token)

/-- The kinds that join conditions are the logical operators. -/
theorem Kind.isSome_logicalOp? (kind : Kind) :
    kind.logicalOp?.isSome = KindSet.logicalOps.contains kind := by
  cases kind <;> rfl

/-- The kinds that compare are the comparators. -/
theorem Kind.isSome_compareOp? (kind : Kind) :
    kind.compareOp?.isSome = KindSet.comparators.contains kind := by
  cases kind <;> rfl

end Token

namespace Parser

/-! ## The state of reading -/

/-- What does not change while a query is read. -/
structure Setting where
  /-- The length of the source in bytes: where errors at its end are placed. -/
  sourceLength : Nat
  /-- How deep NOT and parentheses may nest, if that is limited. -/
  depthLimit : Option Nat
deriving DecidableEq

/-- The limit on nesting unless another one is set. -/
def defaultDepthLimit : Nat := 256

/-- The tokens still to be read, and how many NOTs and parentheses are open in front of them. -/
structure Cursor where
  rest : List Token
  depth : Nat
deriving DecidableEq

/-- What a production leads to, whether it fails or not, is also a place to go on from. -/
abbrev Outcome (α : Type) := Except ParseError α × Cursor

/-- Fails because something else was expected at the cursor. -/
def expected {α : Type} (setting : Setting) (expectation : Expectation) (cursor : Cursor) :
    Outcome α :=
  match cursor.rest with
  | [] => (.error (.unexpectedEnd expectation setting.sourceLength), cursor)
  | token :: _ => (.error (.unexpectedToken expectation token), cursor)

/-! ## Comparisons -/

/-- The values of a set after its opening brace; at least one has to follow.

The values in front of the cursor come in reverse. -/
def setValues (setting : Setting) (opened : Token) (depth : Nat) :
    List Token → List Value → Outcome Operand
  | [], _ => (.error (.unclosedSet opened.span setting.sourceLength), ⟨[], depth⟩)
  | token :: rest, before =>
    match token.value .setValue with
    | .error error => (.error error, ⟨token :: rest, depth⟩)
    | .ok value =>
      match rest with
      | [] => (.error (.unclosedSet opened.span setting.sourceLength), ⟨[], depth⟩)
      | next :: after =>
        if next.kind = .braceClose then
          (.ok (.set (value :: before).reverse (opened.span.cover next.span)), ⟨after, depth⟩)
        else if next.kind = .comma then setValues setting opened depth after (value :: before)
        else expected setting .setSeparator ⟨next :: after, depth⟩

/-- A set after its opening brace. -/
def setLiteral (setting : Setting) (opened : Token) (cursor : Cursor) : Outcome Operand :=
  match cursor.rest with
  | [] => setValues setting opened cursor.depth [] []
  | token :: rest =>
    if token.kind = .braceClose then
      (.ok (.set [] (opened.span.cover token.span)), { cursor with rest })
    else setValues setting opened cursor.depth (token :: rest) []

/-- A single value or a set. -/
def operand (setting : Setting) (cursor : Cursor) : Outcome Operand :=
  match cursor.rest with
  | [] => expected setting .value cursor
  | token :: rest =>
    if token.kind = .braceOpen then setLiteral setting token { cursor with rest }
    else
      match token.value .value with
      | .error error => (.error error, cursor)
      | .ok value => (.ok (.scalar value), { cursor with rest })

/-- The rest of a comparison after its field name. -/
def comparison (setting : Setting) (field : Token) (cursor : Cursor) : Outcome Query :=
  match cursor.rest with
  | [] => expected setting .comparator cursor
  | token :: rest =>
    match token.kind.compareOp? with
    | none => expected setting .comparator cursor
    | some op =>
      match operand setting { cursor with rest } with
      | (.error error, next) => (.error error, next)
      | (.ok operand, next) => (.ok (.comparison ⟨⟨field.text, field.span⟩, op, operand⟩), next)

/-! ## Conditions and expressions -/

/-- Goes on with a chain after its conditions so far, which are `left`.

Every step takes at least one token, so as many steps as there are tokens are enough. -/
def chain (condition : Cursor → Outcome Query) : Nat → Query → Cursor → Outcome Query
  | 0, left, cursor => (.ok left, cursor)
  | fuel + 1, left, cursor =>
    match cursor.rest with
    | [] => (.ok left, cursor)
    | token :: rest =>
      match token.kind.logicalOp? with
      | none => (.ok left, cursor)
      | some op =>
        match condition { cursor with rest } with
        | (.error error, next) => (.error error, next)
        | (.ok right, next) => chain condition fuel (.logical op left right) next

/-- Conditions joined from the left, of `fuel` tokens at most. -/
def expression (condition : Cursor → Outcome Query) (fuel : Nat) (cursor : Cursor) :
    Outcome Query :=
  match condition cursor with
  | (.error error, next) => (.error error, next)
  | (.ok first, next) => chain condition fuel first next

/-- Reads something one level deeper, after the token that opens the level. -/
def nested (setting : Setting) (opening : Token) (inner : Cursor → Outcome Query)
    (rest : List Token) (cursor : Cursor) : Outcome Query :=
  match setting.depthLimit.filter (· ≤ cursor.depth) with
  | some limit => (.error (.tooDeep limit opening.span), cursor)
  | none =>
    let (result, next) := inner ⟨rest, cursor.depth + 1⟩
    (result, { next with depth := next.depth - 1 })

/-- The parenthesis that closes a group, after what stands in the group. -/
def groupEnd (setting : Setting) (opened : Token) (inner : Query) (cursor : Cursor) :
    Outcome Query :=
  match cursor.rest with
  | [] => expected setting (.groupEnd opened.span) cursor
  | token :: rest =>
    if token.kind = .parenClose then (.ok inner, { cursor with rest })
    else expected setting (.groupEnd opened.span) cursor

/-- A single condition, with NOT and parentheses nested at most `fuel` deep.

Each level takes a token, so as many levels as there are tokens are enough. -/
def condition (setting : Setting) : Nat → Cursor → Outcome Query
  | 0, cursor => expected setting .condition cursor
  | fuel + 1, cursor =>
    match cursor.rest with
    | [] => expected setting .condition cursor
    | token :: rest =>
      match token.kind with
      | .identifier => comparison setting token { cursor with rest }
      | .not =>
        match nested setting token (condition setting fuel) rest cursor with
        | (.error error, next) => (.error error, next)
        | (.ok inner, next) => (.ok (.not inner), next)
      | .parenOpen =>
        match nested setting token (expression (condition setting fuel) fuel) rest cursor with
        | (.error error, next) => (.error error, next)
        | (.ok inner, next) => groupEnd setting token inner next
      | _ => expected setting .condition cursor

end Parser

/-! ## Queries -/

namespace Query

/-- The query that a sequence of tokens is, all of it. -/
def ofTokens (setting : Parser.Setting) (tokens : List Token) : Except ParseError Query :=
  let fuel := tokens.length
  match Parser.expression (Parser.condition setting fuel) fuel ⟨tokens, 0⟩ with
  | (.error error, _) => .error error
  | (.ok query, ⟨[], _⟩) => .ok query
  | (.ok _, ⟨token :: _, _⟩) => .error (.trailingInput token)

/-- The query that a text is, its NOTs and parentheses nested at most `depthLimit` deep. The text is
taken to be one that `Token.scanBounded` does not refuse. -/
def parse (source : String) (depthLimit : Option Nat := some Parser.defaultDepthLimit) :
    Except ParseError Query :=
  match Token.scan source.toList with
  | .error error => .error (.lexical error)
  | .ok tokens => ofTokens ⟨Text.byteLength source.toList, depthLimit⟩ tokens

end Query

end ResumeFilter
