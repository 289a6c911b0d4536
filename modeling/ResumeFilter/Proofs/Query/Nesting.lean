import Mathlib.Tactic.SplitIfs
import ResumeFilter.Query.Parse

/-!
# Nesting

How deep a point of a query is nested, told from the tokens in front of it: what counts is the NOTs
whose condition is not complete there and the parentheses that are not closed (`nesting`). A NOT has
no token that ends it. Its condition is complete when a junction or a closing parenthesis follows,
so that is when it stops counting.

Whether the tokens of a query stay within a limit can be asked of every point or of the tokens that
open something (`beyond?_eq_none_iff_length_le`), and a limit is exceeded first at one of these.
-/

namespace ResumeFilter

/-- What can be open at a point of a query. -/
inductive Opening
  /-- A NOT whose condition is not complete. -/
  | not
  /-- A parenthesis that is not closed. -/
  | group
deriving DecidableEq

/-- Whether a token opens something. -/
def Token.opens (token : Token) : Bool := token.kind = .not || token.kind = .parenOpen

/-- Whether a token neither opens nor completes nor closes anything. -/
def Token.IsNeutral (token : Token) : Prop :=
  token.kind ∉ [.not, .parenOpen, .parenClose, .and, .or]

/-- A token that is neutral opens nothing. -/
theorem Token.IsNeutral.opens_eq {token : Token} (h : token.IsNeutral) : token.opens = false := by
  cases hkind : token.kind <;> simp_all [Token.opens, Token.IsNeutral]

namespace Opening

/-! ## What is open -/

/-- What is still open behind a condition: the NOTs in front of it are complete with it. -/
def settle : List Opening → List Opening
  | .not :: opened => settle opened
  | opened => opened

/-- What is open behind a token, innermost first, if `opened` is in front of it. -/
def step (opened : List Opening) (token : Token) : List Opening :=
  match token.kind with
  | .not => .not :: opened
  | .parenOpen => .group :: opened
  | .parenClose => (settle opened).tail
  | .and | .or => settle opened
  | _ => opened

/-- What is open behind tokens. -/
def behind (opened : List Opening) (tokens : List Token) : List Opening := tokens.foldl step opened

@[simp]
theorem behind_nil (opened : List Opening) : behind opened [] = opened := rfl

@[simp]
theorem behind_cons (opened : List Opening) (token : Token) (tokens : List Token) :
    behind opened (token :: tokens) = behind (step opened token) tokens := rfl

@[simp]
theorem behind_append (opened : List Opening) (tokens tokens' : List Token) :
    behind opened (tokens ++ tokens') = behind (behind opened tokens) tokens' :=
  List.foldl_append

/-- Settling is done at once. -/
theorem settle_settle (opened : List Opening) : settle (settle opened) = settle opened := by
  induction opened with
  | nil => rfl
  | cons opening opened ih =>
    cases opening with
    | not => exact ih
    | group => rfl

/-- Settling opens nothing. -/
theorem length_settle_le (opened : List Opening) : (settle opened).length ≤ opened.length := by
  induction opened with
  | nil => exact Nat.le_refl _
  | cons opening opened ih =>
    cases opening with
    | not => exact Nat.le_succ_of_le ih
    | group => exact Nat.le_refl _

/-- A token that opens something opens one thing. -/
theorem length_step_of_opens {opened : List Opening} {token : Token} (h : token.opens) :
    (step opened token).length = opened.length + 1 := by
  have hkind : token.kind = .not ∨ token.kind = .parenOpen := by simpa [Token.opens] using h
  rcases hkind with hkind | hkind <;> simp [step, hkind]

/-- A token that opens nothing leaves no more open. -/
theorem length_step_le {opened : List Opening} {token : Token} (h : token.opens = false) :
    (step opened token).length ≤ opened.length := by
  have hsettle := length_settle_le opened
  cases hkind : token.kind <;> simp_all [step, Token.opens]
  omega

/-- A token that is neutral leaves open what is. -/
theorem step_of_isNeutral {token : Token} (h : token.IsNeutral) (opened : List Opening) :
    step opened token = opened := by
  cases hkind : token.kind <;> simp_all [step, Token.IsNeutral]

/-- A junction opens nothing. -/
theorem opens_of_logicalOp? {token : Token} {op : LogicalOp}
    (h : token.kind.logicalOp? = some op) : token.opens = false := by
  cases hkind : token.kind <;> simp_all [Token.opens, Token.Kind.logicalOp?]

/-- A junction completes the condition in front of it. -/
theorem step_of_logicalOp? {token : Token} {op : LogicalOp}
    (h : token.kind.logicalOp? = some op) (opened : List Opening) :
    step opened token = settle opened := by
  cases hkind : token.kind <;> simp_all [step, Token.Kind.logicalOp?]

/-- At the start of a query and of a group no NOT waits for its condition. -/
theorem settle_behind_of_getLast? {tokens : List Token}
    (h : ∀ last ∈ tokens.getLast?, last.kind = .parenOpen) :
    settle (behind [] tokens) = behind [] tokens := by
  rcases List.eq_nil_or_concat tokens with rfl | ⟨before, last, rfl⟩
  · rfl
  · have hlast : last.kind = .parenOpen := h last (by simp)
    rw [List.concat_eq_append, behind_append, behind_cons, behind_nil, step, hlast]
    rfl

/-! ## Going beyond a limit -/

/-- The first token that opens something where as much is open as a limit allows. -/
def beyond? (limit : Nat) : List Opening → List Token → Option Token
  | _, [] => none
  | opened, token :: tokens =>
    if token.opens && limit ≤ opened.length then some token
    else beyond? limit (step opened token) tokens

/-- Tokens go beyond a limit where the first part of them does, or the rest behind it. -/
theorem beyond?_append (limit : Nat) (opened : List Opening) (tokens tokens' : List Token) :
    beyond? limit opened (tokens ++ tokens') =
      (beyond? limit opened tokens).or (beyond? limit (behind opened tokens) tokens') := by
  induction tokens generalizing opened with
  | nil => rfl
  | cons token tokens ih =>
    simp only [List.cons_append, beyond?, behind_cons]
    split_ifs
    · rfl
    · exact ih _

/-- Tokens stay within a limit if each of them that opens something does. -/
theorem beyond?_eq_none_iff {limit : Nat} {opened : List Opening} {tokens : List Token} :
    beyond? limit opened tokens = none ↔
      ∀ before token after, tokens = before ++ token :: after → token.opens →
        (behind opened before).length < limit := by
  induction tokens generalizing opened with
  | nil => simp [beyond?]
  | cons first tokens ih =>
    rw [beyond?]
    constructor
    · intro h before token after htokens hopens
      split_ifs at h with hfirst
      cases before with
      | nil =>
        obtain ⟨rfl, rfl⟩ := List.cons.inj htokens
        simpa [hopens] using hfirst
      | cons _ before =>
        obtain ⟨rfl, hrest⟩ := List.cons.inj htokens
        exact ih.mp h before token after hrest hopens
    · intro h
      have hfirst : first.opens → opened.length < limit := h [] first tokens rfl
      rw [if_neg (by simpa using hfirst)]
      refine ih.mpr fun before token after htokens => ?_
      exact h (first :: before) token after (by rw [htokens, List.cons_append])

/-- Where tokens go beyond a limit, the token opens something and the limit is reached in front of
it, and those in front of it stay within the limit. -/
theorem of_beyond?_eq_some {limit : Nat} {opened : List Opening} {tokens : List Token}
    {token : Token} (h : beyond? limit opened tokens = some token) :
    ∃ before after, tokens = before ++ token :: after ∧ token.opens ∧
      limit ≤ (behind opened before).length ∧ beyond? limit opened before = none := by
  induction tokens generalizing opened with
  | nil => cases h
  | cons first tokens ih =>
    rw [beyond?] at h
    split_ifs at h with hfirst
    · obtain rfl := Option.some.inj h
      have hreached : first.opens ∧ limit ≤ opened.length := by simpa using hfirst
      exact ⟨[], tokens, rfl, hreached.1, hreached.2, rfl⟩
    · obtain ⟨before, after, rfl, hopens, hlimit, hbefore⟩ := ih h
      exact ⟨first :: before, after, rfl, hopens, hlimit, (if_neg hfirst).trans hbefore⟩

/-- Tokens stay within a limit if no more is open at any of their points. -/
theorem beyond?_eq_none_iff_length_le {limit : Nat} {opened : List Opening} {tokens : List Token}
    (hopened : opened.length ≤ limit) :
    beyond? limit opened tokens = none ↔
      ∀ before, before <+: tokens → (behind opened before).length ≤ limit := by
  induction tokens generalizing opened with
  | nil => simpa [beyond?] using hopened
  | cons token tokens ih =>
    -- Where nothing is opened the limit cannot be passed, and one opening passes it by one at most.
    have hstep : (step opened token).length ≤ limit ↔ ¬(token.opens && limit ≤ opened.length) := by
      cases hopens : token.opens with
      | false => exact iff_of_true (Nat.le_trans (length_step_le hopens) hopened) Bool.false_ne_true
      | true =>
        rw [length_step_of_opens hopens, Bool.true_and, decide_eq_true_eq]
        omega
    rw [beyond?]
    constructor
    · intro h before hbefore
      split_ifs at h with hbeyond
      cases before with
      | nil => exact hopened
      | cons _ before =>
        obtain ⟨rfl, hrest⟩ := List.cons_prefix_cons.mp hbefore
        exact (ih (hstep.mpr hbeyond)).mp h before hrest
    · intro h
      have hlength : (step opened token).length ≤ limit :=
        h [token] (List.cons_prefix_cons.mpr ⟨rfl, List.nil_prefix⟩)
      rw [if_neg (hstep.mp hlength)]
      refine (ih hlength).mpr fun before hbefore => ?_
      exact h (token :: before) (List.cons_prefix_cons.mpr ⟨rfl, hbefore⟩)

/-- What stays within a limit stays within a higher one. -/
theorem beyond?_eq_none_of_le {limit limit' : Nat} (hle : limit ≤ limit') {opened : List Opening}
    {tokens : List Token} (h : beyond? limit opened tokens = none) :
    beyond? limit' opened tokens = none := by
  rw [beyond?_eq_none_iff] at h ⊢
  exact fun before token after htokens hopens =>
    Nat.lt_of_lt_of_le (h before token after htokens hopens) hle

/-- Neutral tokens leave open what is, and stay within any limit. -/
theorem behind_of_isNeutral {tokens : List Token} (h : ∀ token ∈ tokens, token.IsNeutral)
    (limit : Nat) (opened : List Opening) :
    behind opened tokens = opened ∧ beyond? limit opened tokens = none := by
  induction tokens with
  | nil => exact ⟨rfl, rfl⟩
  | cons token tokens ih =>
    rw [List.forall_mem_cons] at h
    rw [behind_cons, beyond?, step_of_isNeutral h.1, if_neg (by simp [h.1.opens_eq])]
    exact ih h.2

end Opening

/-- How many NOTs and parentheses are open behind tokens from the start of a query. -/
def nesting (tokens : List Token) : Nat := (Opening.behind [] tokens).length

/-- Whether tokens from the start of a query open something only where less is open than a limit. -/
def OpensWithin (limit : Nat) (tokens : List Token) : Prop :=
  ∀ before token after, tokens = before ++ token :: after → token.opens → nesting before < limit

end ResumeFilter
