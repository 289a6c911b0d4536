import ResumeFilter.Proofs.Query.Beginning

/-!
# Where reading a query fails

Reading fails exactly where tokens that begin a query are followed by something other than what is
due, and the error is the one that says so (`ofTokens_eq_error_iff`). Like the lemmas on success,
both directions are about a production in front of any rest: if it fails then it has taken a
beginning of its phrase and stopped in front of the token at fault, and in front of a beginning and
a token at fault it fails, whatever comes behind that token.
-/

namespace ResumeFilter

open Grammar

namespace Parser

open Expectation (missed?_eq_some_iff)

variable {setting : Setting}

/-- The error of something that was expected is in front of the cursor. -/
theorem expected_eq {α : Type} (expectation : Expectation) (cursor : Cursor) :
    (expected setting expectation cursor : Outcome α) =
      (.error (expectation.error setting.sourceLength cursor.rest.head?), cursor) := by
  obtain ⟨rest, depth⟩ := cursor
  cases rest <;> rfl

/-! ## Failures are behind beginnings -/

/-- Failures are equal in their error and in where they leave off. -/
theorem error_inj {α : Type} {error error' : ParseError} {cursor next : Cursor}
    (h : ((.error error, cursor) : Outcome α) = (.error error', next)) :
    error = error' ∧ cursor = next :=
  ⟨Except.error.inj (Prod.mk.inj h).1, (Prod.mk.inj h).2⟩

/-- Whether a failure is behind tokens that begin something, with an error that says that the rest
does not start with what is due there. -/
def FailsBehind (setting : Setting) (begins : List Token → Due → Prop) (tokens : List Token)
    (error : ParseError) (next : Cursor) : Prop :=
  ∃ taken due, tokens = taken ++ next.rest ∧ begins taken due ∧
    due.error? setting.sourceLength next.rest.head? = some error

/-- If tokens that begin one thing begin another behind some more tokens, then a failure of the
first is one of the second. -/
theorem FailsBehind.imp {begins begins' : List Token → Due → Prop} {tokens : List Token}
    {error : ParseError} {next : Cursor} (h : FailsBehind setting begins tokens error next)
    (before : List Token)
    (himp : ∀ taken due, begins taken due → begins' (before ++ taken) due) :
    FailsBehind setting begins' (before ++ tokens) error next := by
  obtain ⟨taken, due, rfl, hbegins, herror⟩ := h
  exact ⟨before ++ taken, due, (List.append_assoc ..).symm, himp _ _ hbegins, herror⟩

/-- Asking for something else fails in front of the rest. -/
theorem failsBehind_of_expected {α : Type} {begins : List Token → Due → Prop} {due : Due}
    {expectation : Expectation} {tokens : List Token} {cursor next : Cursor} {error : ParseError}
    (h : (expected setting expectation cursor : Outcome α) = (.error error, next))
    (taken : List Token) (htokens : tokens = taken ++ cursor.rest) (hbegins : begins taken due)
    (hdue : due.error? setting.sourceLength cursor.rest.head? =
      some (expectation.error setting.sourceLength cursor.rest.head?)) :
    FailsBehind setting begins tokens error next := by
  rw [expected_eq] at h
  obtain ⟨rfl, rfl⟩ := error_inj h
  exact ⟨taken, due, htokens, hbegins, hdue⟩

/-- A failure in a set is behind the beginning of its values. -/
theorem setValues_fails {opened : Token} {depth : Nat} {tokens : List Token} {before : List Value}
    {error : ParseError} {next : Cursor} (hends : ∀ token ∈ tokens, token.HasEnds)
    (h : setValues setting opened depth tokens before = (.error error, next)) :
    FailsBehind setting (BeginsElements opened) tokens error next := by
  fun_induction setValues setting opened depth tokens before with
  | case1 =>
    obtain ⟨rfl, rfl⟩ := error_inj h
    exact ⟨[], .nextElement opened, rfl, .value, rfl⟩
  | case2 token rest before error' hvalue =>
    obtain ⟨rfl, rfl⟩ := error_inj h
    refine ⟨[], .nextElement opened, rfl, .value, ?_⟩
    simp only [List.head?_cons, Due.error?, valueError?, hvalue]
  | case3 token before value hvalue =>
    obtain ⟨literal, hdenotes, -⟩ :=
      (Token.value_eq_ok_iff (hends token List.mem_cons_self)).mp hvalue
    obtain ⟨rfl, rfl⟩ := error_inj h
    exact ⟨[token], .separator opened, rfl, .separator hdenotes, rfl⟩
  | case4 => cases h
  | case5 token before value hvalue comma rest _ hcomma ih =>
    rw [List.forall_mem_cons, List.forall_mem_cons] at hends
    obtain ⟨literal, hdenotes, -⟩ := (Token.value_eq_ok_iff hends.1).mp hvalue
    exact (ih hends.2.2 h).imp [token, comma] fun _ _ => .more hdenotes hcomma
  | case6 token before value hvalue next' rest hbrace hcomma =>
    obtain ⟨literal, hdenotes, -⟩ :=
      (Token.value_eq_ok_iff (hends token List.mem_cons_self)).mp hvalue
    exact failsBehind_of_expected h [token] rfl (.separator hdenotes)
      (if_neg (not_or_intro hbrace hcomma))

/-- A failure in a set is behind the beginning of an operand. -/
theorem setLiteral_fails {opened : Token} {cursor next : Cursor} {error : ParseError}
    (hopened : opened.kind = .braceOpen) (hends : ∀ token ∈ cursor.rest, token.HasEnds)
    (h : setLiteral setting opened cursor = (.error error, next)) :
    FailsBehind setting BeginsOperand (opened :: cursor.rest) error next := by
  unfold setLiteral at h
  split at h
  next hrest =>
    obtain ⟨rfl, rfl⟩ := error_inj h
    exact ⟨[opened], .firstElement opened, by rw [hrest]; rfl, .opening hopened, rfl⟩
  next token rest hrest =>
    split at h
    next => cases h
    next hbrace =>
      obtain ⟨taken, due, htaken, hbegins, herror⟩ := setValues_fails (hrest ▸ hends) h
      rw [hrest]
      by_cases hne : taken = []
      · -- In front of the first value the set may also end, but it does not do so here.
        subst hne
        cases hbegins
        have hnext : next.rest = token :: rest := htaken.symm
        refine ⟨[opened], .firstElement opened, by rw [hnext]; rfl, .opening hopened, ?_⟩
        rw [hnext] at herror ⊢
        exact (if_neg hbrace).trans herror
      · exact ⟨opened :: taken, due, by rw [htaken]; rfl, .elements hopened hbegins hne, herror⟩

/-- A failure in an operand is behind its beginning. -/
theorem operand_fails {cursor next : Cursor} {error : ParseError}
    (hends : ∀ token ∈ cursor.rest, token.HasEnds)
    (h : operand setting cursor = (.error error, next)) :
    FailsBehind setting BeginsOperand cursor.rest error next := by
  unfold operand at h
  split at h
  next hrest =>
    exact failsBehind_of_expected h [] rfl .nothing (by rw [hrest]; rfl)
  next token rest hrest =>
    rw [hrest, List.forall_mem_cons] at hends
    split at h
    next hopened =>
      rw [hrest]
      exact setLiteral_fails hopened hends.2 h
    next hbrace =>
      split at h
      next error' hvalue =>
        obtain ⟨rfl, rfl⟩ := error_inj h
        refine ⟨[], .value, rfl, .nothing, ?_⟩
        rw [hrest, List.head?_cons, Due.error?, if_neg hbrace, valueError?, hvalue]
      next => cases h

/-- A failure in a comparison is behind its beginning. -/
theorem comparison_fails {field : Token} (hfield : field.kind = .identifier)
    {cursor next : Cursor} {error : ParseError} (hends : ∀ token ∈ cursor.rest, token.HasEnds)
    (h : comparison setting field cursor = (.error error, next)) :
    FailsBehind setting (Begins .condition) (field :: cursor.rest) error next := by
  unfold comparison at h
  split at h
  next hrest =>
    exact failsBehind_of_expected h [field] rfl (.comparator hfield)
      (missed?_eq_some_iff.mpr ⟨by simp [hrest], rfl⟩)
  next token rest hrest =>
    rw [hrest, List.forall_mem_cons] at hends
    split at h
    next hop =>
      exact failsBehind_of_expected h [field] rfl (.comparator hfield)
        (missed?_eq_some_iff.mpr ⟨by simp [hrest, hop], rfl⟩)
    next op hop =>
      split at h
      next error' after hoperand =>
        obtain ⟨rfl, rfl⟩ := error_inj h
        rw [hrest]
        exact (operand_fails hends.2 hoperand).imp [field, token] fun _ _ =>
          .operand hfield (Token.Kind.compareOp?_eq_some_iff.mp hop)
      next => cases h

/-- Whether a production fails behind beginnings of a phrase, in front of not too many tokens. -/
def Fails (setting : Setting) (phrase : Phrase) (fuel : Nat)
    (production : Cursor → Outcome Query) : Prop :=
  ∀ cursor error next, cursor.rest.length ≤ fuel → (∀ token ∈ cursor.rest, token.HasEnds) →
    production cursor = (.error error, next) →
    FailsBehind setting (Begins phrase) cursor.rest error next

/-- If a production reads conditions and fails behind their beginnings, then chains of them fail
behind beginnings of links. -/
theorem fails_chain {condition : Cursor → Outcome Query} {fuel : Nat}
    (hreads : Reads .condition condition) (hfails : Fails setting .condition fuel condition)
    (steps : Nat) (left : Query) :
    Fails setting (.links left) fuel (chain condition steps left) := by
  intro cursor error next hfuel hends h
  induction steps generalizing left cursor with
  | zero => cases h
  | succ steps ih =>
    rw [chain] at h
    split at h
    next => cases h
    next token rest hrest =>
      rw [hrest, List.forall_mem_cons] at hends
      rw [hrest, List.length_cons] at hfuel
      split at h
      next => cases h
      next op hop =>
        replace hop := Token.Kind.logicalOp?_eq_some_iff.mp hop
        rw [hrest]
        split at h
        next error' after hright =>
          obtain ⟨rfl, rfl⟩ := error_inj h
          exact (hfails _ _ _ (Nat.le_of_succ_le hfuel) hends.2 hright).imp [token]
            fun _ _ => .right hop
        next right after hright =>
          obtain ⟨taken, htaken, hderives, -⟩ := hreads _ _ _ hends.2 hright
          replace htaken : rest = taken ++ after.rest := htaken
          rw [htaken, List.forall_mem_append] at hends
          rw [htaken, List.length_append] at hfuel
          rw [htaken, ← List.cons_append]
          exact (ih _ _ (by omega) hends.2.2 h).imp _ fun _ _ => .link hop hderives

/-- If a production reads conditions and fails behind their beginnings, then conditions joined from
the left fail behind beginnings of expressions. -/
theorem fails_expression {condition : Cursor → Outcome Query} {fuel : Nat}
    (hreads : Reads .condition condition) (hfails : Fails setting .condition fuel condition)
    (steps : Nat) : Fails setting .expression fuel (expression condition steps) := by
  intro cursor error next hfuel hends h
  unfold expression at h
  split at h
  next error' after hfirst =>
    obtain ⟨rfl, rfl⟩ := error_inj h
    exact (hfails _ _ _ hfuel hends hfirst).imp [] fun _ _ => .first
  next first after hfirst =>
    obtain ⟨taken, htaken, hderives, -⟩ := hreads _ _ _ hends hfirst
    rw [htaken, List.forall_mem_append] at hends
    rw [htaken, List.length_append] at hfuel
    rw [htaken]
    exact (fails_chain hreads hfails steps first _ _ _ (by omega) hends.2 h).imp _ fun _ _ =>
      .links hderives

/-- A chain that has enough steps stops in front of something that is no junction. -/
theorem ends_of_chain {condition : Cursor → Outcome Query} (hreads : Reads .condition condition)
    {steps : Nat} {left q : Query} {cursor next : Cursor} (hsteps : cursor.rest.length ≤ steps)
    (hends : ∀ token ∈ cursor.rest, token.HasEnds)
    (h : chain condition steps left cursor = (.ok q, next)) : Ends .expression next.rest := by
  induction steps generalizing left cursor with
  | zero =>
    obtain ⟨-, rfl⟩ := ok_inj h
    rw [List.length_eq_zero_iff.mp (Nat.le_zero.mp hsteps)]
    exact nofun
  | succ steps ih =>
    rw [chain] at h
    split at h
    next hrest =>
      obtain ⟨-, rfl⟩ := ok_inj h
      rw [hrest]
      exact nofun
    next token rest hrest =>
      rw [hrest, List.forall_mem_cons] at hends
      rw [hrest, List.length_cons] at hsteps
      split at h
      next hop =>
        obtain ⟨-, rfl⟩ := ok_inj h
        rw [hrest]
        intro token' htoken'
        obtain rfl := Option.some.inj htoken'
        exact hop
      next op hop =>
        split at h
        next => cases h
        next right after hright =>
          obtain ⟨taken, htaken, -, -⟩ := hreads _ _ _ hends.2 hright
          replace htaken : rest = taken ++ after.rest := htaken
          rw [htaken, List.forall_mem_append] at hends
          rw [htaken, List.length_append] at hsteps
          exact ih (by omega) hends.2.2 h

/-- An expression that has enough steps stops in front of something that is no junction. -/
theorem ends_of_expression {condition : Cursor → Outcome Query}
    (hreads : Reads .condition condition) {steps : Nat} {q : Query} (cursor next : Cursor)
    (hsteps : cursor.rest.length ≤ steps) (hends : ∀ token ∈ cursor.rest, token.HasEnds)
    (h : expression condition steps cursor = (.ok q, next)) : Ends .expression next.rest := by
  unfold expression at h
  split at h
  next => cases h
  next first after hfirst =>
    obtain ⟨taken, htaken, -, -⟩ := hreads _ _ _ hends hfirst
    rw [htaken, List.forall_mem_append] at hends
    rw [htaken, List.length_append] at hsteps
    exact ends_of_chain hreads (by omega) hends.2 h

/-- If nesting is not limited, what is read one level deeper fails as it does without. -/
theorem nested_fails (hlimit : setting.depthLimit = none) {opening : Token}
    {inner : Cursor → Outcome Query} {phrase : Phrase} {fuel : Nat}
    (hinner : Fails setting phrase fuel inner) {rest : List Token} {cursor next : Cursor}
    {error : ParseError} (hfuel : rest.length ≤ fuel) (hends : ∀ token ∈ rest, token.HasEnds)
    (h : nested setting opening inner rest cursor = (.error error, next)) :
    FailsBehind setting (Begins phrase) rest error next := by
  simp only [nested, hlimit, Option.filter_none, Prod.mk.injEq] at h
  obtain ⟨herror, rfl⟩ := h
  exact hinner ⟨rest, cursor.depth + 1⟩ error (inner ⟨rest, cursor.depth + 1⟩).2 hfuel hends
    (Prod.ext herror rfl)

/-- If nesting is not limited, what was read one level deeper stopped where it stops without. -/
theorem nested_ends (hlimit : setting.depthLimit = none) {opening : Token}
    {condition : Cursor → Outcome Query} (hreads : Reads .condition condition) {steps : Nat}
    {rest : List Token} {cursor next : Cursor} {q : Query} (hsteps : rest.length ≤ steps)
    (hends : ∀ token ∈ rest, token.HasEnds)
    (h : nested setting opening (expression condition steps) rest cursor = (.ok q, next)) :
    Ends .expression next.rest := by
  simp only [nested, hlimit, Option.filter_none, Prod.mk.injEq] at h
  obtain ⟨hok, rfl⟩ := h
  exact ends_of_expression hreads ⟨rest, cursor.depth + 1⟩
    (expression condition steps ⟨rest, cursor.depth + 1⟩).2 hsteps hends (Prod.ext hok rfl)

/-- Where a group is not closed, neither a parenthesis nor a junction follows. -/
theorem groupEnd_fails {opening : Token} {inner : Query} {tokens : List Token}
    {cursor next : Cursor} {error : ParseError} (taken : List Token)
    (htokens : tokens = taken ++ cursor.rest)
    (hbegins : Begins .condition taken (.groupEnd opening)) (hstop : Ends .expression cursor.rest)
    (h : groupEnd setting opening inner cursor = (.error error, next)) :
    FailsBehind setting (Begins .condition) tokens error next := by
  unfold groupEnd at h
  split at h
  next hrest =>
    exact failsBehind_of_expected h taken htokens hbegins (by rw [hrest]; rfl)
  next token rest hrest =>
    split at h
    next => cases h
    next hclosing =>
      have hjunction : token.kind.logicalOp? = none := hstop token (by rw [hrest]; rfl)
      exact failsBehind_of_expected h taken htokens hbegins
        (missed?_eq_some_iff.mpr ⟨by simp [hrest, hclosing, hjunction], rfl⟩)

/-- Every failure of `condition` is behind the beginning of a condition, if nesting is not
limited. -/
theorem fails_condition (hlimit : setting.depthLimit = none) (fuel : Nat) :
    Fails setting .condition fuel (condition setting fuel) := by
  induction fuel with
  | zero =>
    intro cursor error next hfuel _ h
    have hrest := List.length_eq_zero_iff.mp (Nat.le_zero.mp hfuel)
    exact failsBehind_of_expected h [] rfl .nothing
      (missed?_eq_some_iff.mpr ⟨by simp [hrest], rfl⟩)
  | succ fuel ih =>
    intro cursor error next hfuel hends h
    rw [condition] at h
    split at h
    next hrest =>
      exact failsBehind_of_expected h [] rfl .nothing
        (missed?_eq_some_iff.mpr ⟨by simp [hrest], rfl⟩)
    next token rest hrest =>
      rw [hrest, List.forall_mem_cons] at hends
      rw [hrest, List.length_cons, Nat.succ_le_succ_iff] at hfuel
      split at h
      next hkind =>
        rw [hrest]
        exact comparison_fails hkind hends.2 h
      next hkind =>
        split at h
        next error' after hinner =>
          obtain ⟨rfl, rfl⟩ := error_inj h
          rw [hrest]
          exact (nested_fails hlimit ih hfuel hends.2 hinner).imp [token] fun _ _ =>
            .not hkind
        next => cases h
      next hkind =>
        have hreads := reads_condition setting fuel
        split at h
        next error' after hinner =>
          obtain ⟨rfl, rfl⟩ := error_inj h
          rw [hrest]
          exact (nested_fails hlimit (fails_expression hreads ih fuel) hfuel hends.2 hinner).imp
            [token] fun _ _ => .group hkind
        next inner after hinner =>
          obtain ⟨taken, htaken, hderives, -⟩ :=
            nested_sound (reads_expression hreads fuel) hends.2 hinner
          exact groupEnd_fails (token :: taken) (by rw [hrest, htaken]; rfl)
            (.groupEnd hkind hderives) (nested_ends hlimit hreads hfuel hends.2 hinner) h
      next hidentifier hnot hopening =>
        refine failsBehind_of_expected h [] rfl .nothing (missed?_eq_some_iff.mpr ⟨?_, rfl⟩)
        rw [hrest]
        rintro token' ⟨⟩
        rw [Bool.eq_false_iff, ne_eq, Token.Kind.contains_conditionFirst]
        rintro (h | h | h)
        exacts [hnot h, hopening h, hidentifier h]

/-! ## Beginnings lead to failures -/

/-- A set fails behind the beginning of its values, in front of anything that is not due there. -/
theorem setValues_stops {opened : Token} {depth : Nat} {tokens rest : List Token}
    {due : Due} {before : List Value} {error : ParseError} (h : BeginsElements opened tokens due)
    (hends : ∀ token ∈ tokens, token.HasEnds)
    (herror : due.error? setting.sourceLength rest.head? = some error) :
    (setValues setting opened depth (tokens ++ rest) before).1 = .error error := by
  induction h generalizing before with
  | value =>
    cases rest with
    | nil => exact congrArg Except.error (Option.some.inj herror)
    | cons token rest =>
      rw [List.head?_cons, Due.error?, valueError?] at herror
      rw [List.nil_append, setValues]
      split at herror
      next => cases herror
      next error' hvalue =>
        rw [hvalue]
        exact congrArg Except.error (Option.some.inj herror)
  | @separator token literal hdenotes =>
    have hvalue : token.value .setValue = .ok ⟨literal, token.span⟩ :=
      (Token.value_eq_ok_iff (hends token List.mem_cons_self)).mpr ⟨literal, hdenotes, rfl⟩
    rw [List.singleton_append, setValues, hvalue]
    cases rest with
    | nil => exact congrArg Except.error (Option.some.inj herror)
    | cons next rest =>
      rw [List.head?_cons, Due.error?] at herror
      split_ifs at herror with hnext
      rw [not_or] at hnext
      simp only [if_neg hnext.1, if_neg hnext.2]
      exact congrArg Except.error (Option.some.inj herror)
  | @more token comma literal tokens due hdenotes hcomma _ ih =>
    rw [List.forall_mem_cons, List.forall_mem_cons] at hends
    have hvalue : token.value .setValue = .ok ⟨literal, token.span⟩ :=
      (Token.value_eq_ok_iff hends.1).mpr ⟨literal, hdenotes, rfl⟩
    have hnot : comma.kind ≠ .braceClose := by rw [hcomma]; decide
    simp only [List.cons_append, setValues, hvalue, if_neg hnot, if_pos hcomma]
    exact ih hends.2.2 herror

/-- A set fails behind the beginning of its values, in front of anything that is not due there. -/
theorem setLiteral_stops {opened : Token} {depth : Nat} {tokens rest : List Token} {due : Due}
    {error : ParseError} (h : BeginsElements opened tokens due) (hne : tokens ≠ [])
    (hends : ∀ token ∈ tokens, token.HasEnds)
    (herror : due.error? setting.sourceLength rest.head? = some error) :
    (setLiteral setting opened ⟨tokens ++ rest, depth⟩).1 = .error error := by
  obtain ⟨token, tokens, rfl⟩ := List.exists_cons_of_ne_nil hne
  have hnot : token.kind ≠ .braceClose := by
    cases h with
    | separator hdenotes => exact hdenotes.kind_ne
    | more hdenotes => exact hdenotes.kind_ne
  simp only [setLiteral, List.cons_append, if_neg hnot]
  exact setValues_stops h hends herror

/-- An operand fails behind its beginning, in front of anything that is not due there. -/
theorem operand_stops {depth : Nat} {tokens rest : List Token} {due : Due} {error : ParseError}
    (h : BeginsOperand tokens due) (hends : ∀ token ∈ tokens, token.HasEnds)
    (herror : due.error? setting.sourceLength rest.head? = some error) :
    (operand setting ⟨tokens ++ rest, depth⟩).1 = .error error := by
  cases h with
  | nothing =>
    cases rest with
    | nil => exact congrArg Except.error (Option.some.inj herror)
    | cons token rest =>
      rw [List.head?_cons, Due.error?] at herror
      split_ifs at herror with hbrace
      rw [valueError?] at herror
      split at herror
      next => cases herror
      next error' hvalue =>
        simp only [operand, List.nil_append, if_neg hbrace, hvalue]
        exact congrArg Except.error (Option.some.inj herror)
  | @opening opening hopening =>
    simp only [operand, List.cons_append, List.nil_append, if_pos hopening, setLiteral]
    cases rest with
    | nil => exact congrArg Except.error (Option.some.inj herror)
    | cons token rest =>
      rw [List.head?_cons, Due.error?] at herror
      split_ifs at herror with hbrace
      have hvalue : (Due.nextElement opening).error? setting.sourceLength (token :: rest).head? =
          some error := herror
      simp only [if_neg hbrace]
      exact setValues_stops .value (List.forall_mem_nil _) hvalue
  | @elements opening tokens _ hopening helements hne =>
    rw [List.forall_mem_cons] at hends
    simp only [operand, List.cons_append, if_pos hopening]
    exact setLiteral_stops helements hne hends.2 herror

/-- Whether a production fails behind tokens, in front of anything that is not due there, at any
depth and with any fuel that their number does not exceed. -/
def StopsBehind (setting : Setting) (phrase : Phrase) (tokens : List Token) (due : Due) : Prop :=
  ∀ (fuel steps depth : Nat) (rest : List Token) (error : ParseError), tokens.length ≤ fuel →
    tokens.length ≤ steps → (∀ token ∈ tokens, token.HasEnds) →
    due.error? setting.sourceLength rest.head? = some error →
    (production setting fuel steps phrase ⟨tokens ++ rest, depth⟩).1 = .error error

/-- A result that is an error is one, wherever reading left off. -/
theorem exists_eq_error {outcome : Outcome Query} {error : ParseError}
    (h : outcome.1 = .error error) : ∃ next, outcome = (.error error, next) :=
  ⟨outcome.2, Prod.ext h rfl⟩

section StopsBehind

/-- An expression fails behind the beginning of its first condition. -/
theorem stopsBehind_first {tokens : List Token} {due : Due}
    (h : StopsBehind setting .condition tokens due) :
    StopsBehind setting .expression tokens due := by
  intro fuel steps depth rest error hfuel hsteps hends herror
  obtain ⟨next, hread⟩ := exists_eq_error (h fuel steps depth rest error hfuel hsteps hends herror)
  simp only [production] at hread ⊢
  rw [expression, hread]

/-- An expression fails behind the beginning of the links behind its first condition. -/
theorem stopsBehind_links (hlimit : setting.depthLimit = none) {tokens tokens' : List Token}
    {first : Query} {due : Due} (hfirst : Derives .condition tokens first)
    (h : StopsBehind setting (.links first) tokens' due) :
    StopsBehind setting .expression (tokens ++ tokens') due := by
  intro fuel steps depth rest error hfuel hsteps hends herror
  rw [List.forall_mem_append] at hends
  rw [List.length_append] at hfuel hsteps
  have hread := readsToEnd_of_derives hlimit hfirst fuel steps depth (tokens' ++ rest) (by omega)
    (by omega) hends.1 trivial
  have hchain := h fuel steps depth rest error (by omega) (by omega) hends.2 herror
  simp only [production] at hread hchain ⊢
  rw [List.append_assoc, expression, hread]
  exact hchain

/-- Links fail behind the beginning of the condition behind their first junction. -/
theorem stopsBehind_right {token : Token} {tokens : List Token} {op : LogicalOp} {left : Query}
    {due : Due} (hop : token.kind = op.kind) (h : StopsBehind setting .condition tokens due) :
    StopsBehind setting (.links left) (token :: tokens) due := by
  intro fuel steps depth rest error hfuel hsteps hends herror
  rw [List.forall_mem_cons] at hends
  rw [List.length_cons] at hfuel hsteps
  obtain ⟨steps, rfl⟩ : ∃ n, steps = n + 1 := ⟨steps - 1, by omega⟩
  obtain ⟨next, hread⟩ := exists_eq_error
    (h fuel steps depth rest error (by omega) (by omega) hends.2 herror)
  simp only [production] at hread ⊢
  simp only [chain, List.cons_append, Token.Kind.logicalOp?_eq_some_iff.mpr hop, hread]

/-- Links fail behind the beginning of those behind the first one. -/
theorem stopsBehind_link (hlimit : setting.depthLimit = none) {token : Token}
    {tokens tokens' : List Token} {op : LogicalOp} {left right : Query} {due : Due}
    (hop : token.kind = op.kind) (hright : Derives .condition tokens right)
    (h : StopsBehind setting (.links (.logical op left right)) tokens' due) :
    StopsBehind setting (.links left) (token :: (tokens ++ tokens')) due := by
  intro fuel steps depth rest error hfuel hsteps hends herror
  rw [List.forall_mem_cons, List.forall_mem_append] at hends
  rw [List.length_cons, List.length_append] at hfuel hsteps
  obtain ⟨steps, rfl⟩ : ∃ n, steps = n + 1 := ⟨steps - 1, by omega⟩
  have hread := readsToEnd_of_derives hlimit hright fuel steps depth (tokens' ++ rest) (by omega)
    (by omega) hends.2.1 trivial
  have hchain := h fuel steps depth rest error (by omega) (by omega) hends.2.2 herror
  simp only [production] at hread hchain ⊢
  simp only [chain, List.cons_append, List.append_assoc,
    Token.Kind.logicalOp?_eq_some_iff.mpr hop, hread]
  exact hchain

/-- A condition fails in front of anything that starts none. -/
theorem stopsBehind_nothing : StopsBehind setting .condition [] .condition := by
  intro fuel steps depth rest error _ _ _ herror
  obtain ⟨hfirst, rfl⟩ := missed?_eq_some_iff.mp herror
  rw [production, List.nil_append]
  cases fuel with
  | zero => rw [condition, expected_eq]
  | succ fuel =>
    cases rest with
    | nil => rfl
    | cons token rest =>
      replace hfirst := mt Token.Kind.contains_conditionFirst.mpr
        (Bool.eq_false_iff.mp (hfirst token rfl))
      simp only [condition]
      split
      next hkind => exact absurd (.inr (.inr hkind)) hfirst
      next hkind => exact absurd (.inl hkind) hfirst
      next hkind => exact absurd (.inr (.inl hkind)) hfirst
      next => rfl

/-- Reading one level deeper fails as reading does, if nesting is not limited. -/
theorem nested_of_eq_error (hlimit : setting.depthLimit = none) (opening : Token)
    {inner : Cursor → Outcome Query} {rest : List Token} (cursor : Cursor) {error : ParseError}
    (h : (inner ⟨rest, cursor.depth + 1⟩).1 = .error error) :
    ∃ next, nested setting opening inner rest cursor = (.error error, next) := by
  simp only [nested, hlimit, Option.filter_none, h]
  exact ⟨_, rfl⟩

/-- A negation fails behind the beginning of what is negated. -/
theorem stopsBehind_not (hlimit : setting.depthLimit = none) {token : Token} {tokens : List Token}
    {due : Due} (hnot : token.kind = .not) (h : StopsBehind setting .condition tokens due) :
    StopsBehind setting .condition (token :: tokens) due := by
  intro fuel steps depth rest error hfuel hsteps hends herror
  rw [List.forall_mem_cons] at hends
  rw [List.length_cons] at hfuel hsteps
  obtain ⟨fuel, rfl⟩ : ∃ n, fuel = n + 1 := ⟨fuel - 1, by omega⟩
  have hread := h fuel steps (depth + 1) rest error (by omega) (by omega) hends.2 herror
  simp only [production] at hread ⊢
  simp only [condition, List.cons_append, hnot]
  obtain ⟨next, hnested⟩ :=
    nested_of_eq_error hlimit token ⟨token :: (tokens ++ rest), depth⟩ hread
  rw [hnested]

/-- A group fails behind the beginning of what stands in it. -/
theorem stopsBehind_group (hlimit : setting.depthLimit = none) {opening : Token}
    {tokens : List Token} {due : Due} (hopening : opening.kind = .parenOpen)
    (h : StopsBehind setting .expression tokens due) :
    StopsBehind setting .condition (opening :: tokens) due := by
  intro fuel steps depth rest error hfuel _ hends herror
  rw [List.forall_mem_cons] at hends
  rw [List.length_cons] at hfuel
  obtain ⟨fuel, rfl⟩ : ∃ n, fuel = n + 1 := ⟨fuel - 1, by omega⟩
  have hread := h fuel fuel (depth + 1) rest error (by omega) (by omega) hends.2 herror
  simp only [production] at hread ⊢
  simp only [condition, List.cons_append, hopening]
  obtain ⟨next, hnested⟩ :=
    nested_of_eq_error hlimit opening ⟨opening :: (tokens ++ rest), depth⟩ hread
  rw [hnested]

/-- A group that is complete but for its end fails there. -/
theorem stopsBehind_groupEnd (hlimit : setting.depthLimit = none) {opening : Token}
    {tokens : List Token} {inner : Query} (hopening : opening.kind = .parenOpen)
    (hinner : Derives .expression tokens inner) :
    StopsBehind setting .condition (opening :: tokens) (.groupEnd opening) := by
  intro fuel steps depth rest error hfuel _ hends herror
  obtain ⟨hmissed, rfl⟩ := missed?_eq_some_iff.mp herror
  rw [List.forall_mem_cons] at hends
  rw [List.length_cons] at hfuel
  obtain ⟨fuel, rfl⟩ : ∃ n, fuel = n + 1 := ⟨fuel - 1, by omega⟩
  have hstop : Ends .expression rest := fun token htoken => by
    simpa using (Bool.or_eq_false_iff.mp (hmissed token htoken)).2
  have hread := readsToEnd_of_derives hlimit hinner fuel fuel (depth + 1) rest (by omega) (by omega)
    hends.2 hstop
  simp only [production] at hread ⊢
  simp only [condition, List.cons_append, hopening]
  have hnested : nested setting opening (expression (condition setting fuel) fuel) (tokens ++ rest)
      ⟨opening :: (tokens ++ rest), depth⟩ = (.ok inner, ⟨rest, depth⟩) :=
    nested_of_eq_ok hlimit hread
  rw [hnested]
  cases rest with
  | nil => rfl
  | cons token rest =>
    have hclosing : token.kind ≠ .parenClose := by
      simpa using (Bool.or_eq_false_iff.mp (hmissed token rfl)).1
    simp only [groupEnd, if_neg hclosing]
    rfl

/-- A comparison fails behind its field name. -/
theorem stopsBehind_comparator {name : Token} (hname : name.kind = .identifier) :
    StopsBehind setting .condition [name] .comparator := by
  intro fuel steps depth rest error hfuel _ _ herror
  obtain ⟨hmissed, rfl⟩ := missed?_eq_some_iff.mp herror
  rw [List.length_singleton] at hfuel
  obtain ⟨fuel, rfl⟩ : ∃ n, fuel = n + 1 := ⟨fuel - 1, by omega⟩
  simp only [production, condition, List.cons_append, List.nil_append, hname]
  cases rest with
  | nil => rfl
  | cons token rest =>
    have hop : token.kind.compareOp? = none := by simpa using hmissed token rfl
    simp only [comparison, hop]
    rfl

/-- A comparison fails behind the beginning of its operand. -/
theorem stopsBehind_operand {name token : Token} {tokens : List Token} {op : CompareOp} {due : Due}
    (hname : name.kind = .identifier) (hop : token.kind = op.kind) (h : BeginsOperand tokens due) :
    StopsBehind setting .condition (name :: token :: tokens) due := by
  intro fuel steps depth rest error hfuel _ hends herror
  rw [List.forall_mem_cons, List.forall_mem_cons] at hends
  rw [List.length_cons] at hfuel
  obtain ⟨fuel, rfl⟩ : ∃ n, fuel = n + 1 := ⟨fuel - 1, by omega⟩
  obtain ⟨next, hread⟩ : ∃ next, operand setting ⟨tokens ++ rest, depth⟩ = (.error error, next) :=
    ⟨_, Prod.ext (operand_stops h hends.2.2 herror) rfl⟩
  simp only [production, condition, List.cons_append, hname, comparison,
    Token.Kind.compareOp?_eq_some_iff.mpr hop, hread]

/-- A production fails behind a beginning of its phrase, in front of anything that is not due
there. -/
theorem stopsBehind_of_begins (hlimit : setting.depthLimit = none) {phrase : Phrase}
    {tokens : List Token} {due : Due} (h : Begins phrase tokens due) :
    StopsBehind setting phrase tokens due := by
  induction h with
  | first _ ih => exact stopsBehind_first ih
  | links hfirst _ ih => exact stopsBehind_links hlimit hfirst ih
  | right hop _ ih => exact stopsBehind_right hop ih
  | link hop hright _ ih => exact stopsBehind_link hlimit hop hright ih
  | nothing => exact stopsBehind_nothing
  | not hnot _ ih => exact stopsBehind_not hlimit hnot ih
  | group hopening _ ih => exact stopsBehind_group hlimit hopening ih
  | groupEnd hopening hinner => exact stopsBehind_groupEnd hlimit hopening hinner
  | comparator hname => exact stopsBehind_comparator hname
  | operand hname hop h => exact stopsBehind_operand hname hop h

end StopsBehind

end Parser

/-! ## Whole token sequences -/

/-- Reading tokens as an expression, up to where that ends or fails. -/
def Query.reading (setting : Parser.Setting) (tokens : List Token) : Parser.Outcome Query :=
  Parser.expression (Parser.condition setting tokens.length) tokens.length ⟨tokens, 0⟩

/-- If nesting is not limited and reading tokens as a query fails, then those taken until then begin
a text, and what is left is not due there, as the error says. -/
theorem exists_due_of_ofTokens {setting : Parser.Setting} (hlimit : setting.depthLimit = none)
    {tokens : List Token} (hends : ∀ token ∈ tokens, token.HasEnds) {error : ParseError}
    (h : Query.ofTokens setting tokens = .error error) :
    ∃ taken due, tokens = taken ++ (Query.reading setting tokens).2.rest ∧ BeginsText taken due ∧
      due.error? setting.sourceLength (Query.reading setting tokens).2.rest.head? = some error := by
  have hreads := Parser.reads_condition setting tokens.length
  simp only [Query.ofTokens] at h
  split at h
  next error' next hread =>
    obtain rfl := Except.error.inj h
    have hfails := Parser.fails_condition hlimit tokens.length
    obtain ⟨taken, due, htokens, hbegins, herror⟩ :=
      Parser.fails_expression hreads hfails tokens.length _ _ _ (Nat.le_refl _) hends hread
    rw [Query.reading, hread]
    exact ⟨taken, due, htokens, .within hbegins, herror⟩
  next => cases h
  next q token rest depth hread =>
    obtain rfl := Except.error.inj h
    obtain ⟨taken, htokens, hderives, -⟩ :=
      Parser.reads_expression hreads tokens.length _ _ _ hends hread
    have hstop := Parser.ends_of_expression hreads _ _ (Nat.le_refl _) hends hread
    have hjunction : token.kind.logicalOp? = none := hstop token rfl
    rw [Query.reading, hread]
    refine ⟨taken, .textEnd, htokens, .behind hderives, ?_⟩
    exact if_neg (by simp [hjunction])

/-- If nesting is not limited, then reading tokens as a query fails exactly if some of them begin a
text and what comes behind these is not due there, with the error that says so. -/
theorem ofTokens_eq_error_iff {setting : Parser.Setting} (hlimit : setting.depthLimit = none)
    {tokens : List Token} (hends : ∀ token ∈ tokens, token.HasEnds) {error : ParseError} :
    Query.ofTokens setting tokens = .error error ↔
      ∃ taken rest due, tokens = taken ++ rest ∧ BeginsText taken due ∧
        due.error? setting.sourceLength rest.head? = some error := by
  constructor
  · intro h
    obtain ⟨taken, due, htokens, hbegins, herror⟩ := exists_due_of_ofTokens hlimit hends h
    exact ⟨taken, _, due, htokens, hbegins, herror⟩
  · rintro ⟨taken, rest, due, rfl, hbegins, herror⟩
    rw [List.forall_mem_append] at hends
    have hfuel : taken.length ≤ (taken ++ rest).length := by simp
    cases hbegins with
    | within hbegins =>
      obtain ⟨next, hread⟩ := Parser.exists_eq_error
        (Parser.stopsBehind_of_begins hlimit hbegins _ _ 0 rest error hfuel hfuel hends.1 herror)
      simp only [Parser.production] at hread
      simp only [Query.ofTokens, hread]
    | behind hderives =>
      cases rest with
      | nil => cases herror
      | cons token rest =>
        rw [List.head?_cons, Due.error?] at herror
        split_ifs at herror with hjunction
        have hstop : Parser.Ends .expression (token :: rest) := by
          rintro token' ⟨⟩
          simpa using hjunction
        have hread := Parser.readsToEnd_of_derives hlimit hderives _ _ 0 (token :: rest) hfuel hfuel
          hends.1 hstop
        simp only [Parser.production] at hread
        simp only [Query.ofTokens, hread]
        exact congrArg Except.error (Option.some.inj herror)

end ResumeFilter
