import ResumeFilter.Proofs.Query.RoundTrip

/-!
# Beginnings of queries

Tokens can begin a query without being one. What is due behind them then is one of a few things,
`Due`, and the token that comes next either is such a thing or is an error (`Due.error?`). The
relation `Begins` says of tokens that they begin a phrase and what is due behind them; like the
grammar it knows nothing of how a query is read.

A beginning is never a dead end: whatever is due can be supplied, and after that only the groups
that are still open have to be closed (`Begins.exists_derives`).
-/

namespace ResumeFilter

/-- The error if something else comes than was expected, or if nothing comes. -/
def Expectation.error (expectation : Expectation) (sourceLength : Nat) : Option Token → ParseError
  | none => .unexpectedEnd expectation sourceLength
  | some token => .unexpectedToken expectation token

/-- The error if the token that comes next is not one that fits, or if none comes. -/
def Expectation.missed? (expectation : Expectation) (fits : Token → Bool) (sourceLength : Nat)
    (next : Option Token) : Option ParseError :=
  if next.any fits then none else some (expectation.error sourceLength next)

/-- Something is missed in front of everything that does not fit. -/
theorem Expectation.missed?_eq_some_iff {expectation : Expectation} {fits : Token → Bool}
    {sourceLength : Nat} {next : Option Token} {error : ParseError} :
    expectation.missed? fits sourceLength next = some error ↔
      (∀ token ∈ next, fits token = false) ∧ error = expectation.error sourceLength next := by
  rw [missed?, Option.ite_none_left_eq_some, Option.some.injEq, eq_comm (a := error)]
  refine and_congr_left' ?_
  cases next <;> simp

/-- An error about a token is at its place and of one of three classes. -/
theorem ParseError.of_token? {error : ParseError} {token : Token}
    (h : error.token? = some token) :
    error.span = token.span ∧ (error.kind = .unexpectedToken ∨ error.kind = .trailingInput ∨
      error.kind = .invalidNumber) := by
  cases error with
  | unexpectedToken expected found =>
    obtain rfl := Option.some.inj h
    exact ⟨rfl, .inl rfl⟩
  | trailingInput found =>
    obtain rfl := Option.some.inj h
    exact ⟨rfl, .inr (.inl rfl)⟩
  | invalidNumber found =>
    obtain rfl := Option.some.inj h
    exact ⟨rfl, .inr (.inr rfl)⟩
  | _ => cases h

namespace Grammar

/-! ## What is due -/

/-- What is due at a point of a query. -/
inductive Due
  | condition
  | comparator
  | value
  /-- The first value of a set, or its end. -/
  | firstElement (opening : Token)
  /-- The value behind a comma of a set. -/
  | nextElement (opening : Token)
  /-- A comma behind a value of a set, or the end of the set. -/
  | separator (opening : Token)
  /-- The end of a group, or a junction. -/
  | groupEnd (opening : Token)
  /-- The end of the text, or a junction. -/
  | textEnd

/-- The error if a token comes that has no value. -/
def valueError? (expectation : Expectation) (token : Token) : Option ParseError :=
  match token.value expectation with
  | .ok _ => none
  | .error error => some error

/-- A token without value is a number that cannot be read or not what was expected. -/
theorem valueError?_cases {expectation : Expectation} {token : Token} {error : ParseError}
    (h : valueError? expectation token = some error) :
    error = .invalidNumber token ∨ error = .unexpectedToken expectation token := by
  rw [valueError?, Token.value] at h
  split at h
  next => cases h
  next error' hvalue =>
    obtain rfl := Option.some.inj h
    split_ifs at hvalue
    · split at hvalue
      · cases hvalue
      · exact .inl (Except.error.inj hvalue).symm
    · exact .inr (Except.error.inj hvalue).symm

/-- A token without value is the one at fault. -/
theorem token?_of_valueError? {expectation : Expectation} {token : Token} {error : ParseError}
    (h : valueError? expectation token = some error) : error.token? = some token := by
  obtain rfl | rfl := valueError?_cases h
  · rfl
  · rfl

namespace Due

/-- The error if the token that comes next is not what is due, or if none comes. -/
def error? (sourceLength : Nat) : Due → Option Token → Option ParseError
  | .condition, next =>
    Expectation.condition.missed?
      (fun token => Token.KindSet.conditionFirst.contains token.kind) sourceLength next
  | .comparator, next =>
    Expectation.comparator.missed? (fun token => token.kind.compareOp?.isSome) sourceLength next
  | .value, none => some (.unexpectedEnd .value sourceLength)
  | .value, some token => if token.kind = .braceOpen then none else valueError? .value token
  | .firstElement opening, none => some (.unclosedSet opening.span sourceLength)
  | .firstElement _, some token =>
    if token.kind = .braceClose then none else valueError? .setValue token
  | .nextElement opening, none => some (.unclosedSet opening.span sourceLength)
  | .nextElement _, some token => valueError? .setValue token
  | .separator opening, none => some (.unclosedSet opening.span sourceLength)
  | .separator _, some token =>
    if token.kind = .braceClose ∨ token.kind = .comma then none
    else some (.unexpectedToken .setSeparator token)
  | .groupEnd opening, next =>
    (Expectation.groupEnd opening.span).missed?
      (fun token => token.kind = .parenClose || token.kind.logicalOp?.isSome) sourceLength next
  | .textEnd, none => none
  | .textEnd, some token =>
    if token.kind.logicalOp?.isSome then none else some (.trailingInput token)

/-- Where a text ends does not matter to an error in front of its end. -/
theorem error?_some_eq (due : Due) (token : Token) (sourceLength sourceLength' : Nat) :
    due.error? sourceLength (some token) = due.error? sourceLength' (some token) := by
  cases due <;> rfl

/-- A token that is not what is due is the one at fault. -/
theorem token?_of_error?_some {due : Due} {sourceLength : Nat} {token : Token} {error : ParseError}
    (h : due.error? sourceLength (some token) = some error) : error.token? = some token := by
  cases due with
  | condition | comparator | groupEnd =>
    obtain ⟨-, rfl⟩ := Expectation.missed?_eq_some_iff.mp h
    rfl
  | value | firstElement =>
    rw [error?] at h
    split_ifs at h
    exact token?_of_valueError? h
  | nextElement => exact token?_of_valueError? h
  | separator | textEnd =>
    rw [error?] at h
    split_ifs at h
    obtain rfl := Option.some.inj h
    rfl

/-- If nothing comes, then the error is at the end of the text. -/
theorem of_error?_none {due : Due} {sourceLength : Nat} {error : ParseError}
    (h : due.error? sourceLength none = some error) :
    error.token? = none ∧ error.span = .empty sourceLength ∧
      (error.kind = .unexpectedEnd ∨ error.kind = .unclosed) := by
  cases due with
  | condition | comparator | value =>
    cases h
    exact ⟨rfl, rfl, .inl rfl⟩
  | firstElement | nextElement | separator | groupEnd =>
    cases h
    exact ⟨rfl, rfl, .inr rfl⟩
  | textEnd => cases h

/-- The shortest tokens that supply what is due. -/
def supply : Due → List (Token.Kind × String)
  | .condition => [(.identifier, "A"), (.eq, "="), (.boolLit, "TRUE")]
  | .comparator => [(.eq, "="), (.boolLit, "TRUE")]
  | .value => [(.boolLit, "TRUE")]
  | .firstElement _ => [(.braceClose, "\x7d")]
  | .nextElement _ => [(.boolLit, "TRUE"), (.braceClose, "\x7d")]
  | .separator _ => [(.braceClose, "\x7d")]
  | .groupEnd _ => [(.parenClose, ")")]
  | .textEnd => []

end Due

/-! ## Beginnings -/

/-- Whether tokens behind the opening brace of a set begin the rest of it, where a value is due
first. -/
inductive BeginsElements (opening : Token) : List Token → Due → Prop
  | value : BeginsElements opening [] (.nextElement opening)
  | separator {token : Token} {literal : Literal} (h : token.Denotes literal) :
    BeginsElements opening [token] (.separator opening)
  | more {token comma : Token} {literal : Literal} {tokens : List Token} {due : Due}
    (h : token.Denotes literal) (hcomma : comma.kind = .comma)
    (hrest : BeginsElements opening tokens due) :
    BeginsElements opening (token :: comma :: tokens) due

/-- Whether tokens begin an operand. -/
inductive BeginsOperand : List Token → Due → Prop
  | nothing : BeginsOperand [] .value
  | opening {opening : Token} (hopening : opening.kind = .braceOpen) :
    BeginsOperand [opening] (.firstElement opening)
  | elements {opening : Token} {tokens : List Token} {due : Due}
    (hopening : opening.kind = .braceOpen) (h : BeginsElements opening tokens due)
    (hne : tokens ≠ []) : BeginsOperand (opening :: tokens) due

/-- Whether tokens begin a phrase. Links are begun by their junction. -/
inductive Begins : Phrase → List Token → Due → Prop
  | first {tokens : List Token} {due : Due} (h : Begins .condition tokens due) :
    Begins .expression tokens due
  | links {tokens tokens' : List Token} {first : Query} {due : Due}
    (hfirst : Derives .condition tokens first) (h : Begins (.links first) tokens' due) :
    Begins .expression (tokens ++ tokens') due
  | right {token : Token} {tokens : List Token} {op : LogicalOp} {left : Query} {due : Due}
    (hop : token.kind = op.kind) (h : Begins .condition tokens due) :
    Begins (.links left) (token :: tokens) due
  | link {token : Token} {tokens tokens' : List Token} {op : LogicalOp} {left right : Query}
    {due : Due} (hop : token.kind = op.kind) (hright : Derives .condition tokens right)
    (h : Begins (.links (.logical op left right)) tokens' due) :
    Begins (.links left) (token :: (tokens ++ tokens')) due
  | nothing : Begins .condition [] .condition
  | not {token : Token} {tokens : List Token} {due : Due} (hnot : token.kind = .not)
    (h : Begins .condition tokens due) : Begins .condition (token :: tokens) due
  | group {opening : Token} {tokens : List Token} {due : Due} (hopening : opening.kind = .parenOpen)
    (h : Begins .expression tokens due) : Begins .condition (opening :: tokens) due
  | groupEnd {opening : Token} {tokens : List Token} {inner : Query}
    (hopening : opening.kind = .parenOpen) (hinner : Derives .expression tokens inner) :
    Begins .condition (opening :: tokens) (.groupEnd opening)
  | comparator {name : Token} (hname : name.kind = .identifier) :
    Begins .condition [name] .comparator
  | operand {name token : Token} {tokens : List Token} {op : CompareOp} {due : Due}
    (hname : name.kind = .identifier) (hop : token.kind = op.kind)
    (h : BeginsOperand tokens due) : Begins .condition (name :: token :: tokens) due

/-- Whether tokens begin a text: they begin an expression, or they are one and may end there. -/
inductive BeginsText : List Token → Due → Prop
  | within {tokens : List Token} {due : Due} (h : Begins .expression tokens due) :
    BeginsText tokens due
  | behind {tokens : List Token} {q : Query} (h : Derives .expression tokens q) :
    BeginsText tokens .textEnd

/-! ## Completions -/

/-- The tokens that close a number of groups. -/
def closings (n : Nat) : List (Token.Kind × String) := List.replicate n (.parenClose, ")")

/-- A truth value denotes itself. -/
theorem denotes_of_true {token : Token} (h : token.spelling = (.boolLit, "TRUE")) :
    token.Denotes (.bool true) :=
  .bool (Prod.mk.inj h).1 (iff_of_true rfl (Prod.mk.inj h).2)

/-- The beginning of the rest of a set can be completed to scalars and a brace. -/
theorem BeginsElements.exists_scalars {opening : Token} {tokens : List Token} {due : Due}
    (h : BeginsElements opening tokens due) {rest : List Token}
    (hrest : rest.map Token.spelling = due.supply) :
    ∃ scalars closing values, tokens ++ rest = scalars ++ [closing] ∧ Scalars scalars values ∧
      closing.kind = .braceClose := by
  induction h with
  | value =>
    obtain ⟨token, others, rfl, htoken, hothers⟩ := List.map_eq_cons_iff.mp hrest
    obtain ⟨closing, rfl, hclosing⟩ := List.map_eq_singleton_iff.mp hothers
    exact ⟨[token], closing, _, rfl, .one (denotes_of_true htoken), (Prod.mk.inj hclosing).1⟩
  | @separator token literal h =>
    obtain ⟨closing, rfl, hclosing⟩ := List.map_eq_singleton_iff.mp hrest
    exact ⟨[token], closing, _, rfl, .one h, (Prod.mk.inj hclosing).1⟩
  | @more token comma literal tokens due h hcomma _ ih =>
    obtain ⟨scalars, closing, values, heq, hscalars, hclosing⟩ := ih hrest
    refine ⟨token :: comma :: scalars, closing, _, ?_, .more h hcomma hscalars, hclosing⟩
    rw [List.cons_append, List.cons_append, heq]
    rfl

/-- The beginning of an operand can be completed to an operand. -/
theorem BeginsOperand.exists_isOperand {tokens : List Token} {due : Due}
    (h : BeginsOperand tokens due) {rest : List Token}
    (hrest : rest.map Token.spelling = due.supply) : ∃ o, IsOperand (tokens ++ rest) o := by
  cases h with
  | nothing =>
    obtain ⟨token, rfl, htoken⟩ := List.map_eq_singleton_iff.mp hrest
    exact ⟨_, .scalar (denotes_of_true htoken)⟩
  | opening hopening =>
    obtain ⟨closing, rfl, hclosing⟩ := List.map_eq_singleton_iff.mp hrest
    exact ⟨_, .emptySet hopening (Prod.mk.inj hclosing).1⟩
  | elements hopening h hne =>
    obtain ⟨scalars, closing, values, heq, hscalars, hclosing⟩ := h.exists_scalars hrest
    rw [List.cons_append, heq]
    exact ⟨_, .set hopening hscalars hclosing⟩

/-- A comparison from its operator on is completed by the shortest tokens. -/
theorem derives_of_comparator {name : Token} (hname : name.kind = .identifier) {rest : List Token}
    (hrest : rest.map Token.spelling = Due.comparator.supply) :
    ∃ q, Derives .condition (name :: rest) q := by
  obtain ⟨token, others, rfl, htoken, hothers⟩ := List.map_eq_cons_iff.mp hrest
  obtain ⟨o, hoperand⟩ := BeginsOperand.nothing.exists_isOperand hothers
  have hop : token.kind = (CompareOp.scalar .eq).kind := (Prod.mk.inj htoken).1
  exact ⟨_, .comparison hname hop hoperand⟩

/-- A beginning of a phrase is completed by what is due and as many closing parentheses as there are
open groups. -/
theorem Begins.exists_derives {phrase : Phrase} {tokens : List Token} {due : Due}
    (h : Begins phrase tokens due) :
    ∃ n, ∀ rest : List Token, rest.map Token.spelling = due.supply ++ closings n →
      ∃ q, Derives phrase (tokens ++ rest) q := by
  induction h with
  | first _ ih =>
    obtain ⟨n, hn⟩ := ih
    exact ⟨n, fun rest hrest => (hn rest hrest).imp fun q hq => hq.expression_of_condition⟩
  | links hfirst _ ih =>
    obtain ⟨n, hn⟩ := ih
    refine ⟨n, fun rest hrest => (hn rest hrest).imp fun q hq => ?_⟩
    rw [List.append_assoc]
    exact .expression hfirst hq
  | @right token tokens op left due hop _ ih =>
    obtain ⟨n, hn⟩ := ih
    refine ⟨n, fun rest hrest => ?_⟩
    obtain ⟨q, hq⟩ := hn rest hrest
    have hlink := Derives.link hop hq (.done (.logical op left q))
    rw [List.append_nil] at hlink
    exact ⟨_, hlink⟩
  | link hop hright _ ih =>
    obtain ⟨n, hn⟩ := ih
    refine ⟨n, fun rest hrest => (hn rest hrest).imp fun q hq => ?_⟩
    rw [List.cons_append, List.append_assoc]
    exact .link hop hright hq
  | nothing =>
    refine ⟨0, fun rest hrest => ?_⟩
    obtain ⟨name, others, rfl, hname, hothers⟩ := List.map_eq_cons_iff.mp hrest
    exact derives_of_comparator (Prod.mk.inj hname).1 hothers
  | not hnot _ ih =>
    obtain ⟨n, hn⟩ := ih
    refine ⟨n, fun rest hrest => ?_⟩
    obtain ⟨inner, hinner⟩ := hn rest hrest
    exact ⟨.not inner, .not hnot hinner⟩
  | group hopening _ ih =>
    -- The parenthesis that closes this group comes behind those of the groups in it.
    obtain ⟨n, hn⟩ := ih
    refine ⟨n + 1, fun rest hrest => ?_⟩
    rw [closings, List.replicate_succ', ← List.append_assoc] at hrest
    obtain ⟨inner, last, rfl, hinner, hlast⟩ := List.map_eq_append_iff.mp hrest
    obtain ⟨closing, rfl, hclosing⟩ := List.map_eq_singleton_iff.mp hlast
    obtain ⟨q, hq⟩ := hn inner hinner
    rw [List.cons_append, ← List.append_assoc]
    exact ⟨q, .group hopening hq (Prod.mk.inj hclosing).1⟩
  | groupEnd hopening hinner =>
    refine ⟨0, fun rest hrest => ?_⟩
    obtain ⟨closing, rfl, hclosing⟩ := List.map_eq_singleton_iff.mp hrest
    exact ⟨_, .group hopening hinner (Prod.mk.inj hclosing).1⟩
  | comparator hname =>
    refine ⟨0, fun rest hrest => ?_⟩
    rw [closings, List.replicate_zero, List.append_nil] at hrest
    exact derives_of_comparator hname hrest
  | operand hname hop h =>
    refine ⟨0, fun rest hrest => ?_⟩
    rw [closings, List.replicate_zero, List.append_nil] at hrest
    obtain ⟨o, hoperand⟩ := h.exists_isOperand hrest
    exact ⟨_, .comparison hname hop hoperand⟩

/-- A beginning of a text is completed to a query. -/
theorem BeginsText.exists_derives {tokens : List Token} {due : Due} (h : BeginsText tokens due) :
    ∃ n, ∀ rest : List Token, rest.map Token.spelling = due.supply ++ closings n →
      ∃ q, Derives .expression (tokens ++ rest) q := by
  cases h with
  | within h => exact h.exists_derives
  | @behind q h =>
    refine ⟨0, fun rest hrest => ⟨q, ?_⟩⟩
    obtain rfl := List.map_eq_nil_iff.mp hrest
    rwa [List.append_nil]

end Grammar

end ResumeFilter
