import ResumeFilter.Proofs.Query.Alike
import ResumeFilter.Proofs.Query.Parsing

/-!
# Two runs of the parser in step

The parser looks at the kinds of tokens, at the texts of field names, and at whether a scalar has a
literal; nothing else decides what it does. So if a second sequence of tokens agrees with a first
one in these respects, token by token, then both are read in step: either as queries that are alike,
or with the same error at tokens that correspond to each other (`linked_ofTokens`). Which tokens
correspond is left open, as is what the literals have to do with each other.
-/

namespace ResumeFilter

section Links

variable (T : Token → Token → Prop) (R : Literal → Literal → Prop)

/-- What the parser asks of corresponding tokens: what is no scalar is of one kind, field names are
the same, and scalars have related literals or are both without. -/
structure Token.Links : Prop where
  kind : ∀ {t t' : Token}, T t t' → ∀ {kind : Token.Kind}, kind.isScalar = false →
    (t.kind = kind ↔ t'.kind = kind)
  name : ∀ {t t' : Token}, T t t' → t.kind = .identifier → t.text = t'.text
  literal : ∀ {t t' : Token}, T t t' → t.kind.isScalar = true →
    Option.Rel R t.literal? t'.literal?

/-- Whether the same is expected, of a group at corresponding tokens. -/
inductive Expectation.Linked : Expectation → Expectation → Prop
  | same {expectation : Expectation} (h : expectation.related? = none) :
    Linked expectation expectation
  | groupEnd {opened opened' : Token} (h : T opened opened') :
    Linked (.groupEnd opened.span) (.groupEnd opened'.span)

/-- Whether the same is wrong, at corresponding tokens or at the ends of both texts. -/
inductive ParseError.Linked : ParseError → ParseError → Prop
  | unexpectedToken {expected expected' : Expectation} {found found' : Token}
    (hexpected : expected.Linked T expected') (hfound : T found found') :
    Linked (.unexpectedToken expected found) (.unexpectedToken expected' found')
  | unexpectedEnd {expected expected' : Expectation} (hexpected : expected.Linked T expected')
    (offset offset' : Nat) :
    Linked (.unexpectedEnd expected offset) (.unexpectedEnd expected' offset')
  | unclosedSet {opened opened' : Token} (hopened : T opened opened') (offset offset' : Nat) :
    Linked (.unclosedSet opened.span offset) (.unclosedSet opened'.span offset')
  | invalidNumber {token token' : Token} (h : T token token') :
    Linked (.invalidNumber token) (.invalidNumber token')
  | trailingInput {token token' : Token} (h : T token token') :
    Linked (.trailingInput token) (.trailingInput token')
  | tooDeep (limit : Nat) {token token' : Token} (h : T token token') :
    Linked (.tooDeep limit token.span) (.tooDeep limit token'.span)

/-- Whether two results are both failures with linked errors, or both successes with values that are
related. -/
inductive ParseError.LinkedResults {α : Type} (A : α → α → Prop) :
    Except ParseError α → Except ParseError α → Prop
  | ok {a a' : α} (h : A a a') : LinkedResults A (.ok a) (.ok a')
  | error {error error' : ParseError} (h : error.Linked T error') :
    LinkedResults A (.error error) (.error error')

/-- Whether two outcomes are linked, successes also in the tokens that they leave and the depth. -/
inductive Parser.Linked {α : Type} (A : α → α → Prop) : Outcome α → Outcome α → Prop
  | ok {a a' : α} {rest rest' : List Token} (h : A a a') (hrest : List.Forall₂ T rest rest')
    (depth : Nat) : Linked A (.ok a, ⟨rest, depth⟩) (.ok a', ⟨rest', depth⟩)
  | error {error error' : ParseError} (h : error.Linked T error') (next next' : Cursor) :
    Linked A (.error error, next) (.error error', next')

/-- Whether two productions, run on corresponding tokens at the same depth, have linked outcomes. -/
def Parser.LinkedRuns {α : Type} (A : α → α → Prop) (run run' : Cursor → Outcome α) : Prop :=
  ∀ {rest rest' : List Token}, List.Forall₂ T rest rest' → ∀ depth : Nat,
    Linked T A (run ⟨rest, depth⟩) (run' ⟨rest', depth⟩)

end Links

/-! ## Tokens -/

section Runs

variable {T : Token → Token → Prop} {R : Literal → Literal → Prop}

/-- What corresponds to a scalar is one. -/
theorem Token.Links.isScalar_eq (hT : Token.Links T R) {t t' : Token} (h : T t t') :
    t.kind.isScalar = t'.kind.isScalar := by
  by_cases hscalar : t.kind.isScalar = true
  · by_cases hscalar' : t'.kind.isScalar = true
    · rw [hscalar, hscalar']
    · rw [(hT.kind h (Bool.eq_false_of_not_eq_true hscalar')).mpr rfl]
  · rw [(hT.kind h (Bool.eq_false_of_not_eq_true hscalar)).mp rfl]

/-- Junctions correspond to the same junctions. -/
theorem Token.Links.logicalOp?_eq (hT : Token.Links T R) {t t' : Token} (h : T t t') :
    t.kind.logicalOp? = t'.kind.logicalOp? := by
  apply Option.ext
  intro op
  rw [Kind.logicalOp?_eq_some_iff, Kind.logicalOp?_eq_some_iff]
  exact hT.kind h op.isScalar_kind

/-- Comparisons correspond to the same comparisons. -/
theorem Token.Links.compareOp?_eq (hT : Token.Links T R) {t t' : Token} (h : T t t') :
    t.kind.compareOp? = t'.kind.compareOp? := by
  apply Option.ext
  intro op
  rw [Kind.compareOp?_eq_some_iff, Kind.compareOp?_eq_some_iff]
  exact hT.kind h op.isScalar_kind

/-- What is linked to a success is one. -/
theorem ParseError.LinkedResults.exists_ok {α : Type} {A : α → α → Prop}
    {result result' : Except ParseError α} (h : LinkedResults T A result result') {a : α}
    (hresult : result = .ok a) : ∃ a', result' = .ok a' ∧ A a a' := by
  subst hresult
  cases h with
  | ok h => exact ⟨_, rfl, h⟩

/-- What is linked to a failure is one. -/
theorem ParseError.LinkedResults.exists_error {α : Type} {A : α → α → Prop}
    {result result' : Except ParseError α} (h : LinkedResults T A result result')
    {error : ParseError} (hresult : result = .error error) :
    ∃ error', result' = .error error' ∧ error.Linked T error' := by
  subst hresult
  cases h with
  | error h => exact ⟨_, rfl, h⟩

/-- Corresponding tokens are read as values that are alike, or are neither. -/
theorem Token.Links.value (hT : Token.Links T R) {t t' : Token} (h : T t t')
    {expected : Expectation} (hexpected : expected.related? = none) :
    ParseError.LinkedResults T (Value.Alike R) (t.value expected) (t'.value expected) := by
  rw [Token.value, Token.value, Kind.isScalar_eq, Kind.isScalar_eq, ← hT.isScalar_eq h]
  by_cases hscalar : t.kind.isScalar = true
  · rw [if_pos hscalar, if_pos hscalar]
    have hliteral := hT.literal h hscalar
    generalize t.literal? = literal, t'.literal? = literal' at hliteral
    cases hliteral with
    | some hrelated => exact .ok hrelated
    | none => exact .error (.invalidNumber h)
  · rw [if_neg hscalar, if_neg hscalar]
    exact .error (.unexpectedToken (.same hexpected) h)

namespace Parser

/-! ## Comparisons -/

variable {setting setting' : Setting}

/-- The same expectation is disappointed in both runs. -/
theorem linked_expected {α : Type} {A : α → α → Prop} {expectation expectation' : Expectation}
    (h : expectation.Linked T expectation') :
    LinkedRuns T A (expected setting expectation) (expected setting' expectation') := by
  intro rest rest' hrest depth
  cases hrest with
  | nil => exact .error (.unexpectedEnd h _ _) _ _
  | cons htoken _ => exact .error (.unexpectedToken h htoken) _ _

/-- Sets are read in step after their opening braces. -/
theorem linked_setValues (hT : Token.Links T R) {opened opened' : Token}
    (hopened : T opened opened') (depth : Nat) (tokens : List Token) (before : List Value)
    {tokens' : List Token}
    {before' : List Value} (htokens : List.Forall₂ T tokens tokens')
    (hbefore : List.Forall₂ (Value.Alike R) before before') :
    Linked T (Operand.Alike R) (setValues setting opened depth tokens before)
      (setValues setting' opened' depth tokens' before') := by
  revert tokens' before'
  fun_induction setValues setting opened depth tokens before with
  | case1 before =>
    intro tokens' before' htokens hbefore
    cases htokens
    exact .error (.unclosedSet hopened _ _) _ _
  | case2 token rest before error hvalue =>
    rintro _ before' (_ | ⟨htoken, hrest⟩) hbefore
    obtain ⟨error', hvalue', herror⟩ := (hT.value htoken rfl).exists_error hvalue
    rw [setValues, hvalue']
    exact .error herror _ _
  | case3 token before value hvalue =>
    rintro _ before' (_ | ⟨htoken, _ | _⟩) hbefore
    obtain ⟨value', hvalue', -⟩ := (hT.value htoken rfl).exists_ok hvalue
    rw [setValues, hvalue']
    exact .error (.unclosedSet hopened _ _) _ _
  | case4 token before value hvalue closing rest hclosing =>
    rintro _ before' (_ | ⟨htoken, _ | ⟨hnext, hrest⟩⟩) hbefore
    obtain ⟨value', hvalue', halike⟩ := (hT.value htoken rfl).exists_ok hvalue
    simp only [setValues, hvalue', if_pos ((hT.kind hnext rfl).mp hclosing)]
    exact .ok (.set (List.rel_reverse (.cons halike hbefore)) _ _) hrest depth
  | case5 token before value hvalue comma rest hnot hcomma ih =>
    rintro _ before' (_ | ⟨htoken, _ | ⟨hnext, hrest⟩⟩) hbefore
    obtain ⟨value', hvalue', halike⟩ := (hT.value htoken rfl).exists_ok hvalue
    simp only [setValues, hvalue', if_neg (mt (hT.kind hnext rfl).mpr hnot),
      if_pos ((hT.kind hnext rfl).mp hcomma)]
    exact ih hrest (.cons halike hbefore)
  | case6 token before value hvalue next rest hnot hcomma =>
    rintro _ before' (_ | ⟨htoken, _ | ⟨hnext, hrest⟩⟩) hbefore
    obtain ⟨value', hvalue', halike⟩ := (hT.value htoken rfl).exists_ok hvalue
    simp only [setValues, hvalue', if_neg (mt (hT.kind hnext rfl).mpr hnot),
      if_neg (mt (hT.kind hnext rfl).mpr hcomma)]
    exact linked_expected (.same rfl) (.cons hnext hrest) depth

/-- Sets are read in step. -/
theorem linked_setLiteral (hT : Token.Links T R) {opened opened' : Token}
    (hopened : T opened opened') :
    LinkedRuns T (Operand.Alike R) (setLiteral setting opened) (setLiteral setting' opened') := by
  intro rest rest' hrest depth
  unfold setLiteral
  cases hrest with
  | nil => exact linked_setValues hT hopened depth [] [] .nil .nil
  | @cons token token' rest rest' htoken hrest =>
    by_cases hclosing : token.kind = .braceClose
    · simp only [if_pos hclosing, if_pos ((hT.kind htoken rfl).mp hclosing)]
      exact .ok (.set .nil _ _) hrest depth
    · simp only [if_neg hclosing, if_neg (mt (hT.kind htoken rfl).mpr hclosing)]
      exact linked_setValues hT hopened depth _ [] (.cons htoken hrest) .nil

/-- Operands are read in step. -/
theorem linked_operand (hT : Token.Links T R) :
    LinkedRuns T (Operand.Alike R) (operand setting) (operand setting') := by
  intro rest rest' hrest depth
  unfold operand
  cases hrest with
  | nil => exact linked_expected (.same rfl) .nil depth
  | @cons token token' rest rest' htoken hrest =>
    by_cases hopening : token.kind = .braceOpen
    · simp only [if_pos hopening, if_pos ((hT.kind htoken rfl).mp hopening)]
      exact linked_setLiteral hT htoken hrest depth
    · simp only [if_neg hopening, if_neg (mt (hT.kind htoken rfl).mpr hopening)]
      have hexpected : Expectation.value.related? = none := rfl
      have hvalue := hT.value htoken hexpected
      generalize token.value .value = value, token'.value .value = value' at hvalue
      cases hvalue with
      | ok halike => exact .ok (.scalar halike) hrest depth
      | error herror => exact .error herror _ _

/-- Comparisons are read in step after their field names. -/
theorem linked_comparison (hT : Token.Links T R) {field field' : Token}
    (hfield : field.text = field'.text) :
    LinkedRuns T (Query.Alike R) (comparison setting field) (comparison setting' field') := by
  intro rest rest' hrest depth
  unfold comparison
  cases hrest with
  | nil => exact linked_expected (.same rfl) .nil depth
  | @cons token token' rest rest' htoken hrest =>
    simp only [← hT.compareOp?_eq htoken]
    cases token.kind.compareOp? with
    | none => exact linked_expected (.same rfl) (.cons htoken hrest) depth
    | some op =>
      have hoperand : Linked T (Operand.Alike R) (operand setting ⟨rest, depth⟩)
          (operand setting' ⟨rest', depth⟩) := linked_operand hT hrest depth
      generalize operand setting ⟨rest, depth⟩ = outcome, operand setting' ⟨rest', depth⟩ = outcome'
        at hoperand
      cases hoperand with
      | ok halike hafter depth => exact .ok (.comparison ⟨hfield, rfl, halike⟩) hafter depth
      | error herror next next' => exact .error herror _ _

/-! ## Conditions and expressions -/

/-- If conditions are read in step, then so are chains of them. -/
theorem linked_chain (hT : Token.Links T R) {condition condition' : Cursor → Outcome Query}
    (hcondition : LinkedRuns T (Query.Alike R) condition condition') {fuel : Nat}
    {left left' : Query} (hleft : left.Alike R left') :
    LinkedRuns T (Query.Alike R) (chain condition fuel left) (chain condition' fuel left') := by
  induction fuel generalizing left left' with
  | zero => exact fun hrest depth => .ok hleft hrest depth
  | succ fuel ih =>
    intro rest rest' hrest depth
    unfold chain
    cases hrest with
    | nil => exact .ok hleft .nil depth
    | @cons token token' rest rest' htoken hrest =>
      simp only [← hT.logicalOp?_eq htoken]
      cases token.kind.logicalOp? with
      | none => exact .ok hleft (.cons htoken hrest) depth
      | some op =>
        have hright := hcondition hrest depth
        generalize condition ⟨rest, depth⟩ = outcome, condition' ⟨rest', depth⟩ = outcome'
          at hright
        cases hright with
        | ok hright hafter depth => exact ih (.logical op hleft hright) hafter depth
        | error herror next next' => exact .error herror _ _

/-- If conditions are read in step, then so are expressions. -/
theorem linked_expression (hT : Token.Links T R) {condition condition' : Cursor → Outcome Query}
    (hcondition : LinkedRuns T (Query.Alike R) condition condition') (fuel : Nat) :
    LinkedRuns T (Query.Alike R) (expression condition fuel) (expression condition' fuel) := by
  intro rest rest' hrest depth
  unfold expression
  have hfirst := hcondition hrest depth
  generalize condition ⟨rest, depth⟩ = outcome, condition' ⟨rest', depth⟩ = outcome' at hfirst
  cases hfirst with
  | ok hfirst hafter depth => exact linked_chain hT hcondition hfirst hafter depth
  | error herror next next' => exact .error herror _ _

/-- Under the same limit, both runs go one level deeper or neither does. -/
theorem linked_nested (hlimit : setting.depthLimit = setting'.depthLimit) {opening opening' : Token}
    (hopening : T opening opening') {inner inner' : Cursor → Outcome Query}
    (hinner : LinkedRuns T (Query.Alike R) inner inner') {rest rest' : List Token}
    (hrest : List.Forall₂ T rest rest') (before before' : List Token) (depth : Nat) :
    Linked T (Query.Alike R) (nested setting opening inner rest ⟨before, depth⟩)
      (nested setting' opening' inner' rest' ⟨before', depth⟩) := by
  unfold nested
  rw [← hlimit]
  simp only
  cases setting.depthLimit.filter (· ≤ depth) with
  | some limit => exact .error (.tooDeep limit hopening) _ _
  | none =>
    have hdeeper := hinner hrest (depth + 1)
    generalize inner ⟨rest, depth + 1⟩ = outcome, inner' ⟨rest', depth + 1⟩ = outcome' at hdeeper
    cases hdeeper with
    | ok halike hafter => exact .ok halike hafter _
    | error herror next next' => exact .error herror _ _

/-- Groups are closed in step. -/
theorem linked_groupEnd (hT : Token.Links T R) {opened opened' : Token} (hopened : T opened opened')
    {inner inner' : Query} (hinner : inner.Alike R inner') :
    LinkedRuns T (Query.Alike R) (groupEnd setting opened inner)
      (groupEnd setting' opened' inner') := by
  intro rest rest' hrest depth
  unfold groupEnd
  cases hrest with
  | nil => exact linked_expected (.groupEnd hopened) .nil depth
  | @cons token token' rest rest' htoken hrest =>
    by_cases hclosing : token.kind = .parenClose
    · simp only [if_pos hclosing, if_pos ((hT.kind htoken rfl).mp hclosing)]
      exact .ok hinner hrest depth
    · simp only [if_neg hclosing, if_neg (mt (hT.kind htoken rfl).mpr hclosing)]
      exact linked_expected (.groupEnd hopened) (.cons htoken hrest) depth

/-- Conditions are read in step. -/
theorem linked_condition (hT : Token.Links T R) (hlimit : setting.depthLimit = setting'.depthLimit)
    (fuel : Nat) :
    LinkedRuns T (Query.Alike R) (condition setting fuel) (condition setting' fuel) := by
  induction fuel with
  | zero => exact linked_expected (.same rfl)
  | succ fuel ih =>
    intro rest rest' hrest depth
    rw [condition, condition]
    cases hrest with
    | nil => exact linked_expected (.same rfl) .nil depth
    | @cons token token' rest rest' htoken hrest =>
      simp only
      split
      next hkind =>
        have hkind' : token'.kind = .identifier := (hT.kind htoken rfl).mp hkind
        simp only [hkind']
        exact linked_comparison hT (hT.name htoken hkind) hrest depth
      next hkind =>
        have hkind' : token'.kind = .not := (hT.kind htoken rfl).mp hkind
        simp only [hkind']
        have hinner := linked_nested hlimit htoken ih hrest (token :: rest) (token' :: rest') depth
        generalize nested setting token (condition setting fuel) rest ⟨token :: rest, depth⟩ =
          outcome, nested setting' token' (condition setting' fuel) rest'
            ⟨token' :: rest', depth⟩ = outcome' at hinner
        cases hinner with
        | ok halike hafter depth => exact .ok (.not halike) hafter depth
        | error herror next next' => exact .error herror _ _
      next hkind =>
        have hkind' : token'.kind = .parenOpen := (hT.kind htoken rfl).mp hkind
        simp only [hkind']
        have hinner := linked_nested hlimit htoken (linked_expression hT ih fuel) hrest
          (token :: rest) (token' :: rest') depth
        generalize nested setting token (expression (condition setting fuel) fuel) rest
          ⟨token :: rest, depth⟩ = outcome, nested setting' token'
            (expression (condition setting' fuel) fuel) rest' ⟨token' :: rest', depth⟩ =
              outcome' at hinner
        cases hinner with
        | ok halike hafter depth => exact linked_groupEnd hT htoken halike hafter depth
        | error herror next next' => exact .error herror _ _
      next hidentifier hnot hopening =>
        split
        next hkind => exact absurd ((hT.kind htoken rfl).mpr hkind) hidentifier
        next hkind => exact absurd ((hT.kind htoken rfl).mpr hkind) hnot
        next hkind => exact absurd ((hT.kind htoken rfl).mpr hkind) hopening
        next => exact linked_expected (.same rfl) (.cons htoken hrest) depth

end Parser

/-! ## Whole token sequences -/

/-- Corresponding tokens are read in step, under the same limit on nesting. -/
theorem linked_ofTokens (hT : Token.Links T R) {setting setting' : Parser.Setting}
    (hlimit : setting.depthLimit = setting'.depthLimit) {tokens tokens' : List Token}
    (htokens : List.Forall₂ T tokens tokens') :
    ParseError.LinkedResults T (Query.Alike R) (Query.ofTokens setting tokens)
      (Query.ofTokens setting' tokens') := by
  have hread := Parser.linked_expression hT
    (Parser.linked_condition hT hlimit tokens.length) tokens.length htokens 0
  simp only [Query.ofTokens, ← htokens.length_eq]
  generalize Parser.expression (Parser.condition setting tokens.length) tokens.length
    ⟨tokens, 0⟩ = outcome, Parser.expression (Parser.condition setting' tokens.length)
      tokens.length ⟨tokens', 0⟩ = outcome' at hread
  cases hread with
  | error herror next next' => exact .error herror
  | ok halike hrest depth =>
    cases hrest with
    | nil => exact .ok halike
    | cons htoken _ => exact .error (.trailingInput htoken)

end Runs

end ResumeFilter
