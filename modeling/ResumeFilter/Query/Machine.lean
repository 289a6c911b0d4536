import ResumeFilter.Query.Parse

/-!
# The machine that reads a query

Reading step by step: a machine goes through the tokens by position and counts how many NOTs and
parentheses are open. The count goes up where one is entered and down where it is left, whether
reading failed in between or not.

Unlike the functions that it carries out, the machine could do something wrong: take a token where
there is none, count further than it can, or take the quotes off a string that has none. Then it
halts with a fault. It also keeps a record of every call of a production and every change of the
count.
-/

namespace ResumeFilter

/-- The text between the first and the last byte of a text, if each of the two is a character. -/
def Text.inner? : List Char → Option (List Char)
  | [] => none
  | first :: rest =>
    if first.utf8Size = 1 ∧ rest.getLast?.any (·.utf8Size = 1) then some rest.dropLast else none

namespace Parser

open Token (KindSet)

/-! ## States, records and faults -/

/-- What the machine can be called to read. -/
inductive Production
  | expression
  | condition
  | negation
  | group
  | comparison
  | operand
  | setLiteral
  | scalar
deriving DecidableEq

/-- Where the machine stands: how many tokens are behind it and how many NOTs and parentheses are
open. -/
structure Place where
  pos : Nat
  depth : Nat
deriving DecidableEq

/-- What the machine keeps a record of. -/
inductive Event
  /-- A production was called at one place and returned at another one. -/
  | returned (production : Production) (before after : Place) (succeeded : Bool)
  /-- The count went up to `depth`. -/
  | entered (depth : Nat)
  /-- The count went down from `depth`, if it was not zero. -/
  | left (depth : Nat)
deriving DecidableEq

/-- Why the machine halted. -/
inductive Fault
  /-- There is no token to take. -/
  | noToken
  /-- The count cannot go up. -/
  | tooMany
  /-- A string does not have two quotes to take off. -/
  | noQuotes (token : Token)
  /-- A comparison does not start with a field name. -/
  | noField
  /-- More steps were needed than there should be. -/
  | noStep
deriving DecidableEq

/-- The largest count of 32 bits. -/
def maxDepth : Nat := 4294967295

/-- What does not change while the machine runs. -/
structure Input where
  setting : Setting
  tokens : List Token

/-- What changes while the machine runs: where it stands, and what has happened, the latest
first. -/
structure State extends Place where
  trace : List Event

namespace State

/-- The state behind the next token. -/
def advanced (state : State) : State := { state with pos := state.pos + 1 }

/-- The state in which a NOT or a parenthesis was entered, before its token is taken. -/
def entered (state : State) : State :=
  { state with
    depth := state.depth + 1
    trace := .entered (state.depth + 1) :: state.trace }

/-- The state in which a NOT or a parenthesis was left. -/
def left (state : State) : State :=
  { state with
    depth := state.depth - 1
    trace := .left state.depth :: state.trace }

end State

/-- The machine at work on something: it halts, or reading succeeds or fails. -/
def Machine (α : Type) := Input → State → Except Fault (Except ParseError α) × State

namespace Machine

variable {α : Type}

instance : Monad Machine where
  pure a _ state := (.ok (.ok a), state)
  bind m f input state :=
    match m input state with
    | (.ok (.ok a), next) => f a input next
    | (.ok (.error error), next) => (.ok (.error error), next)
    | (.error fault, next) => (.error fault, next)

/-! ## Single steps -/

/-- Halts with a fault. -/
def halt (fault : Fault) : Machine α := fun _ state => (.error fault, state)

/-- Fails with an error. -/
def fail (error : ParseError) : Machine α := fun _ state => (.ok (.error error), state)

/-- What does not change. -/
def input : Machine Input := fun input state => (.ok (.ok input), state)

/-- The token to be read next, if there is one. -/
def current? : Machine (Option Token) := fun input state =>
  (.ok (.ok input.tokens[state.pos]?), state)

/-- Whether a token is to be read next that has its kind in a set. -/
def isIn (set : KindSet) : Machine Bool := do
  return (← current?).any fun token => set.contains token.kind

/-- Takes the next token, which has to be there. -/
def advance : Machine Token := fun input state =>
  match input.tokens[state.pos]? with
  | some token => (.ok (.ok token), state.advanced)
  | none => (.error .noToken, state)

/-- Takes the next token if it is of a kind. -/
def accept? (kind : Token.Kind) : Machine (Option Token) := do
  if (← current?).any (·.kind = kind) then return some (← advance) else return none

/-- Fails because something else was expected. -/
def expected (expectation : Expectation) : Machine α := do
  match ← current? with
  | some token => fail (.unexpectedToken expectation token)
  | none => fail (.unexpectedEnd expectation (← input).setting.sourceLength)

/-- Counts a NOT or a parenthesis that is entered, up to the limit. -/
def enter : Machine Unit := fun input state =>
  match input.setting.depthLimit.filter (· ≤ state.depth) with
  | some limit =>
    let span := input.tokens[state.pos]?.elim (.empty input.setting.sourceLength) Token.span
    (.ok (.error (.tooDeep limit span)), state)
  | none =>
    if state.depth = maxDepth then (.error .tooMany, state) else (.ok (.ok ()), state.entered)

/-- Counts back where a NOT or a parenthesis is left. -/
def leave : Machine Unit := fun _ state => (.ok (.ok ()), state.left)

/-- Does not fail yet. -/
def attempt (m : Machine α) : Machine (Except ParseError α) := fun input state =>
  match m input state with
  | (.ok result, next) => (.ok (.ok result), next)
  | (.error fault, next) => (.error fault, next)

/-- Succeeds or fails with a result. -/
def ofResult : Except ParseError α → Machine α
  | .ok a => pure a
  | .error error => fail error

/-- Keeps a record of a call that returns. -/
def recorded (production : Production) (m : Machine α) : Machine α := fun input state =>
  match m input state with
  | (.ok result, next) =>
    (.ok result, { next with
      trace := .returned production state.toPlace next.toPlace result.isOk :: next.trace })
  | (.error fault, next) => (.error fault, next)

/-! ## Comparisons -/

/-- The literal of a scalar token that was taken. -/
def literal (token : Token) : Machine Literal :=
  match token.kind with
  | .numberLit =>
    match Literal.ofNumber? token.text.toList with
    | some literal => pure literal
    | none => fail (.invalidNumber token)
  | .stringLit =>
    match Text.inner? token.text.toList with
    | some body => pure (.str (String.ofList body))
    | none => halt (.noQuotes token)
  | _ => pure (.bool (token.text == "TRUE"))

/-- A single value. -/
def scalar (expectation : Expectation) : Machine Value := recorded .scalar do
  if ← isIn .scalars then
    let token ← advance
    return ⟨← literal token, token.span⟩
  else expected expectation

/-- Fails because a set has no end. -/
def unclosedSet (opened : Token) : Machine α := do
  fail (.unclosedSet opened.span (← input).setting.sourceLength)

/-- The values of a set after its opening brace; at least one has to follow.

The values in front come in reverse. -/
def setValues (opened : Token) : Nat → List Value → Machine Operand
  | 0, _ => halt .noStep
  | steps + 1, before => do
    if (← current?).isNone then unclosedSet opened
    else
      let value ← scalar .setValue
      if (← current?).isNone then unclosedSet opened
      else
        match ← accept? .braceClose with
        | some closed => return .set (value :: before).reverse (opened.span.cover closed.span)
        | none =>
          match ← accept? .comma with
          | some _ => setValues opened steps (value :: before)
          | none => expected .setSeparator

/-- A set, whose opening brace is next. -/
def setLiteral : Machine Operand := recorded .setLiteral do
  let opened ← advance
  match ← accept? .braceClose with
  | some closed => return .set [] (opened.span.cover closed.span)
  | none => setValues opened ((← input).tokens.length + 1) []

/-- A single value or a set. -/
def operand : Machine Operand := recorded .operand do
  if ← isIn .valueFirst then
    if (← current?).any (·.kind = .braceOpen) then setLiteral
    else return .scalar (← scalar .value)
  else expected .value

/-- What stands between a field and its operand. -/
def comparator : Machine CompareOp := do
  if ← isIn .comparators then return (← advance).kind.compareOp?.getD .isIn
  else expected .comparator

/-- A comparison, whose field name is next. -/
def comparison : Machine Query := recorded .comparison do
  match ← accept? .identifier with
  | some field =>
    let op ← comparator
    return .comparison ⟨⟨field.text, field.span⟩, op, ← operand⟩
  | none => halt .noField

/-! ## Conditions and expressions -/

/-- Leaves a NOT or a parenthesis behind something in it, whether that fails or not. -/
def within (inner : Machine α) : Machine α := do
  let result ← attempt inner
  leave
  ofResult result

/-- A negation, whose NOT is next. -/
def negation (inner : Machine Query) : Machine Query := recorded .negation do
  enter
  let _ ← advance
  return .not (← within inner)

/-- A group, whose opening parenthesis is next. -/
def group (inner : Machine Query) : Machine Query := recorded .group do
  enter
  let opened ← advance
  let query ← within inner
  match ← accept? .parenClose with
  | some _ => return query
  | none => expected (.groupEnd opened.span)

/-- Goes on with a chain after its conditions so far, which are `left`. -/
def chain (condition : Machine Query) : Nat → Query → Machine Query
  | 0, _ => halt .noStep
  | steps + 1, left => do
    if ← isIn .logicalOps then
      let op := (← advance).kind.logicalOp?.getD .or
      let right ← condition
      chain condition steps (.logical op left right)
    else return left

/-- Conditions joined from the left. -/
def expression (condition : Machine Query) (steps : Nat) : Machine Query := recorded .expression do
  let first ← condition
  chain condition steps first

/-- A single condition. -/
def condition : Nat → Machine Query
  | 0 => halt .noStep
  | steps + 1 => recorded .condition do
    if ← isIn .conditionFirst then
      match (← current?).map Token.kind with
      | some .not => negation (condition steps)
      | some .parenOpen => group (expression (condition steps) steps)
      | _ => comparison
    else expected .condition

/-! ## Queries -/

/-- A query and nothing behind it. -/
def query : Machine Query := do
  let steps := (← input).tokens.length + 1
  let query ← expression (condition steps) steps
  match ← current? with
  | some token => fail (.trailingInput token)
  | none => return query

/-- What the machine comes to from the first token on. -/
def run (setting : Setting) (tokens : List Token) :
    Except Fault (Except ParseError Query) × State :=
  query ⟨setting, tokens⟩ ⟨⟨0, 0⟩, []⟩

end Machine

end Parser

end ResumeFilter
