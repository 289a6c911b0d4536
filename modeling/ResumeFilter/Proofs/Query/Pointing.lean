import ResumeFilter.Proofs.Query.Earliest
import ResumeFilter.Proofs.Query.Limit
import ResumeFilter.Proofs.Token.Extent

/-!
# What parse errors point at

A parse error points at a token, or at the end of the source, and perhaps at an opening parenthesis
or brace that waits for its partner. That one is the innermost that is open where the error is
(`parse_error_points`): a phrase closes what it opens, so behind the beginning of a phrase the
innermost open one is that of the production which the error comes from.
-/

namespace ResumeFilter

open Grammar Text Token

/-! ## Open brackets -/

namespace Token

/-- The brackets that are open behind a token, the innermost first, if `opened` are in front of it.
A closing bracket closes the innermost one of its sort. -/
def bracketStep (opened : List Token) (token : Token) : List Token :=
  match token.kind with
  | .parenOpen | .braceOpen => token :: opened
  | .parenClose => opened.eraseP (·.kind = .parenOpen)
  | .braceClose => opened.eraseP (·.kind = .braceOpen)
  | _ => opened

/-- The brackets that are open behind tokens, the innermost first, if `opened` are in front of
them. -/
def openBrackets (opened tokens : List Token) : List Token := tokens.foldl bracketStep opened

/-- Whether a token is no bracket. -/
def IsPlain (token : Token) : Prop :=
  token.kind ∉ [.parenOpen, .parenClose, .braceOpen, .braceClose]

@[simp]
theorem openBrackets_nil (opened : List Token) : openBrackets opened [] = opened := rfl

@[simp]
theorem openBrackets_cons (opened : List Token) (token : Token) (tokens : List Token) :
    openBrackets opened (token :: tokens) = openBrackets (bracketStep opened token) tokens := rfl

@[simp]
theorem openBrackets_append (opened tokens tokens' : List Token) :
    openBrackets opened (tokens ++ tokens') = openBrackets (openBrackets opened tokens) tokens' :=
  List.foldl_append

/-- A token that is no bracket changes nothing. -/
theorem bracketStep_of_isPlain {token : Token} (h : token.IsPlain) (opened : List Token) :
    bracketStep opened token = opened := by
  rw [IsPlain] at h
  cases hkind : token.kind <;> simp_all [bracketStep]

/-- A token in front that is no bracket changes nothing. -/
theorem openBrackets_cons_of_isPlain {token : Token} (h : token.IsPlain)
    (opened tokens : List Token) :
    openBrackets opened (token :: tokens) = openBrackets opened tokens := by
  rw [openBrackets_cons, bracketStep_of_isPlain h]

/-- Tokens that are no brackets change nothing. -/
theorem openBrackets_of_isPlain {tokens : List Token} (h : ∀ token ∈ tokens, token.IsPlain)
    (opened : List Token) : openBrackets opened tokens = opened := by
  induction tokens with
  | nil => rfl
  | cons token tokens ih =>
    rw [List.forall_mem_cons] at h
    rw [openBrackets_cons_of_isPlain h.1, ih h.2]

/-- Whether two tokens are an opening bracket and the closing one of its sort. -/
def ArePartners (opening closing : Token) : Prop :=
  opening.kind = .parenOpen ∧ closing.kind = .parenClose ∨
    opening.kind = .braceOpen ∧ closing.kind = .braceClose

/-- An opening bracket is the innermost one behind it. -/
theorem bracketStep_of_opening {opening : Token}
    (h : opening.kind = .parenOpen ∨ opening.kind = .braceOpen) (opened : List Token) :
    bracketStep opened opening = opening :: opened := by
  rcases h with hkind | hkind <;> rw [bracketStep, hkind]

/-- A closing bracket closes its partner, if that is the innermost. -/
theorem bracketStep_of_partner {opening closing : Token} (h : ArePartners opening closing)
    (opened : List Token) : bracketStep (opening :: opened) closing = opened := by
  rcases h with ⟨hopening, hclosing⟩ | ⟨hopening, hclosing⟩ <;>
    simp [bracketStep, hopening, hclosing]

/-- Between brackets that are partners, what closes all that it opens leaves nothing open. -/
theorem openBrackets_enclosed {opening closing : Token} (hpartners : ArePartners opening closing)
    {tokens : List Token} (h : ∀ opened, openBrackets opened tokens = opened)
    (opened : List Token) : openBrackets opened (opening :: (tokens ++ [closing])) = opened := by
  rw [openBrackets_cons, bracketStep_of_opening (hpartners.imp And.left And.left),
    openBrackets_append, h, openBrackets_cons, bracketStep_of_partner hpartners, openBrackets_nil]

/-- What is open behind a token was open in front of it, or is the token itself. -/
theorem mem_bracketStep {opened : List Token} {token bracket : Token}
    (h : bracket ∈ bracketStep opened token) :
    bracket ∈ opened ∨ bracket = token ∧ (token.kind = .parenOpen ∨ token.kind = .braceOpen) := by
  rw [bracketStep] at h
  split at h
  next hkind => exact (List.mem_cons.mp h).symm.imp_right fun heq => ⟨heq, .inl hkind⟩
  next hkind => exact (List.mem_cons.mp h).symm.imp_right fun heq => ⟨heq, .inr hkind⟩
  next => exact .inl (List.mem_of_mem_eraseP h)
  next => exact .inl (List.mem_of_mem_eraseP h)
  next => exact .inl h

/-- What is open behind tokens was open in front of them, or is an opening bracket among them. -/
theorem mem_openBrackets {opened tokens : List Token} {token : Token}
    (h : token ∈ openBrackets opened tokens) :
    token ∈ opened ∨ token ∈ tokens ∧ (token.kind = .parenOpen ∨ token.kind = .braceOpen) := by
  induction tokens generalizing opened with
  | nil => exact .inl h
  | cons first tokens ih =>
    rcases ih h with hstep | ⟨hmem, hkind⟩
    · refine (mem_bracketStep hstep).imp_right ?_
      rintro ⟨rfl, hkind⟩
      exact ⟨List.mem_cons_self, hkind⟩
    · exact .inr ⟨List.mem_cons_of_mem _ hmem, hkind⟩

end Token

/-! ## What phrases leave open -/

/-- A token that denotes a literal is no bracket. -/
theorem Token.Denotes.isPlain {token : Token} {literal : Literal} (h : token.Denotes literal) :
    token.IsPlain := by
  rcases h with ⟨hkind, -⟩ | hkind | ⟨hkind, -⟩ <;> rw [IsPlain, hkind] <;> decide

/-- A token that joins conditions is no bracket. -/
theorem Token.isPlain_of_logicalOp {token : Token} {op : LogicalOp} (h : token.kind = op.kind) :
    token.IsPlain := by
  rw [IsPlain, h]
  cases op <;> decide

/-- A token that compares is no bracket. -/
theorem Token.isPlain_of_compareOp {token : Token} {op : CompareOp} (h : token.kind = op.kind) :
    token.IsPlain := by
  rw [IsPlain, h]
  rcases op with ⟨_ | _ | _ | _ | _ | _⟩ | _ <;> decide

/-- A token of any other kind than those of brackets is no bracket. -/
theorem Token.isPlain_of_kind {token : Token} {kind : Token.Kind} (h : token.kind = kind)
    (hkind : kind ∉ [.parenOpen, .parenClose, .braceOpen, .braceClose]) : token.IsPlain := by
  rwa [IsPlain, h]

namespace Grammar

/-- There are no brackets between the braces of a set. -/
theorem Scalars.isPlain {tokens : List Token} {values : List Value} (h : Scalars tokens values) :
    ∀ token ∈ tokens, token.IsPlain := by
  induction h with
  | one hdenotes => simpa using hdenotes.isPlain
  | more hdenotes hcomma _ ih =>
    rw [List.forall_mem_cons, List.forall_mem_cons]
    exact ⟨hdenotes.isPlain, isPlain_of_kind hcomma (by decide), ih⟩

/-- An operand leaves nothing open. -/
theorem IsOperand.openBrackets_eq {tokens : List Token} {o : Operand} (h : IsOperand tokens o) :
    ∀ opened, openBrackets opened tokens = opened := by
  cases h with
  | scalar hdenotes => exact openBrackets_of_isPlain (by simpa using hdenotes.isPlain)
  | emptySet hopening hclosing =>
    exact @openBrackets_enclosed _ _ (.inr ⟨hopening, hclosing⟩) [] openBrackets_nil
  | set hopening hscalars hclosing =>
    exact openBrackets_enclosed (.inr ⟨hopening, hclosing⟩)
      (openBrackets_of_isPlain hscalars.isPlain)

/-- A phrase leaves nothing open. -/
theorem Derives.openBrackets_eq {phrase : Phrase} {tokens : List Token} {q : Query}
    (h : Derives phrase tokens q) : ∀ opened, openBrackets opened tokens = opened := by
  induction h with
  | expression _ _ ihfirst ihlinks =>
    intro opened
    rw [openBrackets_append, ihfirst, ihlinks]
  | done => exact openBrackets_nil
  | link hop _ _ ihright ihlinks =>
    intro opened
    rw [openBrackets_cons_of_isPlain (isPlain_of_logicalOp hop), openBrackets_append, ihright,
      ihlinks]
  | not hnot _ ih =>
    intro opened
    rw [openBrackets_cons_of_isPlain (isPlain_of_kind hnot (by decide)), ih]
  | group hopening _ hclosing ih => exact openBrackets_enclosed (.inl ⟨hopening, hclosing⟩) ih
  | comparison hname hop hoperand =>
    intro opened
    rw [openBrackets_cons_of_isPlain (isPlain_of_kind hname (by decide)),
      openBrackets_cons_of_isPlain (isPlain_of_compareOp hop), hoperand.openBrackets_eq]

/-- The bracket that is due to be closed, if one is. -/
def Due.opening? : Due → Option Token
  | .firstElement opening | .nextElement opening | .separator opening | .groupEnd opening =>
    some opening
  | _ => none

/-- The beginning of the rest of a set has no brackets, and the brace is due to be closed. -/
theorem BeginsElements.isPlain {opening : Token} {tokens : List Token} {due : Due}
    (h : BeginsElements opening tokens due) :
    (∀ token ∈ tokens, token.IsPlain) ∧ due.opening? = some opening := by
  induction h with
  | value => exact ⟨by simp, rfl⟩
  | separator hdenotes => exact ⟨by simpa using hdenotes.isPlain, rfl⟩
  | more hdenotes hcomma _ ih =>
    rw [List.forall_mem_cons, List.forall_mem_cons]
    exact ⟨⟨hdenotes.isPlain, isPlain_of_kind hcomma (by decide), ih.1⟩, ih.2⟩

/-- Behind the beginning of an operand the bracket that is due to be closed is the innermost. -/
theorem BeginsOperand.head?_openBrackets {tokens : List Token} {due : Due}
    (h : BeginsOperand tokens due) {opening : Token} (hdue : due.opening? = some opening)
    (opened : List Token) : (openBrackets opened tokens).head? = some opening := by
  cases h with
  | nothing => cases hdue
  | opening hopening =>
    rw [openBrackets_cons, bracketStep_of_opening (.inr hopening)]
    exact hdue
  | elements hopening h =>
    rw [openBrackets_cons, bracketStep_of_opening (.inr hopening),
      openBrackets_of_isPlain h.isPlain.1, List.head?_cons, ← h.isPlain.2, hdue]

/-- Behind the beginning of a phrase the bracket that is due to be closed is the innermost. -/
theorem Begins.head?_openBrackets {phrase : Phrase} {tokens : List Token} {due : Due}
    (h : Begins phrase tokens due) {opening : Token} (hdue : due.opening? = some opening) :
    ∀ opened, (openBrackets opened tokens).head? = some opening := by
  induction h with
  | first _ ih => exact ih hdue
  | links hfirst _ ih =>
    intro opened
    rw [openBrackets_append, hfirst.openBrackets_eq]
    exact ih hdue opened
  | right hop _ ih =>
    intro opened
    rw [openBrackets_cons_of_isPlain (isPlain_of_logicalOp hop)]
    exact ih hdue opened
  | link hop hright _ ih =>
    intro opened
    rw [openBrackets_cons_of_isPlain (isPlain_of_logicalOp hop), openBrackets_append,
      hright.openBrackets_eq]
    exact ih hdue opened
  | nothing => cases hdue
  | not hnot _ ih =>
    intro opened
    rw [openBrackets_cons_of_isPlain (isPlain_of_kind hnot (by decide))]
    exact ih hdue opened
  | group _ _ ih => exact fun opened => ih hdue _
  | groupEnd hopening hinner =>
    intro opened
    rw [openBrackets_cons, bracketStep_of_opening (.inl hopening), hinner.openBrackets_eq]
    exact hdue
  | comparator => cases hdue
  | operand hname hop h =>
    intro opened
    rw [openBrackets_cons_of_isPlain (isPlain_of_kind hname (by decide)),
      openBrackets_cons_of_isPlain (isPlain_of_compareOp hop)]
    exact h.head?_openBrackets hdue opened

/-- Behind the beginning of a text the bracket that is due to be closed is the innermost. -/
theorem BeginsText.head?_openBrackets {tokens : List Token} {due : Due}
    (h : BeginsText tokens due) {opening : Token} (hdue : due.opening? = some opening) :
    (openBrackets [] tokens).head? = some opening := by
  cases h with
  | within h => exact h.head?_openBrackets hdue []
  | behind => cases hdue

end Grammar

/-! ## What errors say -/

/-- A bracket without a partner at the end of the text is always named. -/
theorem ParseError.isSome_related? {error : ParseError} (h : error.kind = .unclosed) :
    error.related?.isSome := by
  cases error with
  | unexpectedEnd expected =>
    cases expected with
    | groupEnd => rfl
    | _ => cases h
  | unclosedSet => rfl
  | _ => cases h

namespace Grammar

/-- A token that is no value is an error that names only the place of its expectation. -/
theorem related?_of_valueError? {expectation : Expectation} {token : Token} {error : ParseError}
    (h : valueError? expectation token = some error) {r : Related}
    (hr : error.related? = some r) : expectation.related? = some r := by
  obtain rfl | rfl := valueError?_cases h
  · cases hr
  · exact hr

/-- The place that an error names is that of the bracket that is due to be closed. -/
theorem Due.exists_opening {due : Due} {sourceLength : Nat} {next : Option Token}
    {error : ParseError} (h : due.error? sourceLength next = some error) {r : Related}
    (hr : error.related? = some r) :
    ∃ opening, due.opening? = some opening ∧ r.span = opening.span := by
  cases next with
  | none =>
    cases due with
    | condition | comparator | value =>
      cases h
      cases hr
    | firstElement opening | nextElement opening | separator opening | groupEnd opening =>
      cases h
      cases hr
      exact ⟨opening, rfl, rfl⟩
    | textEnd => cases h
  | some token =>
    -- Only a group names its bracket at a token that is not due.
    cases due with
    | condition | comparator =>
      obtain ⟨-, rfl⟩ := Expectation.missed?_eq_some_iff.mp h
      cases hr
    | groupEnd opening =>
      obtain ⟨-, rfl⟩ := Expectation.missed?_eq_some_iff.mp h
      cases hr
      exact ⟨opening, rfl, rfl⟩
    | value | firstElement =>
      rw [error?] at h
      split_ifs at h
      cases related?_of_valueError? h hr
    | nextElement => cases related?_of_valueError? h hr
    | separator | textEnd =>
      rw [error?] at h
      split_ifs at h
      cases h
      cases hr

end Grammar

/-- What an error says about its place, if reading the tokens of a source of some length fails with
it and the tokens `rest` are left.

- A token at fault is one of the tokens, and the error is at its place.
- At the end of the source no tokens are left, and none is at fault.
- A nesting that is too deep is at a NOT or an opening parenthesis.
- A bracket without a partner is named.
- A place that is named is that of the innermost bracket that is open in front of the error. -/
structure ParseError.PointsInto (sourceLength : Nat) (tokens rest : List Token)
    (error : ParseError) : Prop where
  syntactic : error.kind ≠ .lexical
  token : error.kind = .unexpectedToken ∨ error.kind = .trailingInput ∨
    error.kind = .invalidNumber →
      ∃ token ∈ tokens, error.token? = some token ∧ error.span = token.span
  ending : error.kind = .unexpectedEnd ∨ error.kind = .unclosed →
    error.token? = none ∧ rest = [] ∧ error.span = .empty sourceLength
  nesting : error.kind = .tooDeep → error.token? = none ∧
    ∃ token ∈ tokens, (token.kind = .not ∨ token.kind = .parenOpen) ∧ error.span = token.span
  unclosed : error.kind = .unclosed → error.related?.isSome
  related : ∀ r, error.related? = some r → ∃ opening outer,
    openBrackets [] (tokens.filter (·.span.start < error.offset)) = opening :: outer ∧
      r.span = opening.span

/-- An error at what is not due behind the beginning of a text says where. -/
theorem ParseError.pointsInto_of_due {source : List Char} {taken rest : List Token}
    (hscan : scan source = .ok (taken ++ rest)) {due : Due} (hbegins : BeginsText taken due)
    {error : ParseError} (herror : due.error? (byteLength source) rest.head? = some error) :
    error.PointsInto (byteLength source) (taken ++ rest) rest := by
  have htiles := tiles_of_scan hscan
  have hrelated : (taken ++ rest).filter (·.span.start < error.offset) = taken →
      ∀ r, error.related? = some r → ∃ opening outer,
        openBrackets [] ((taken ++ rest).filter (·.span.start < error.offset)) = opening :: outer ∧
          r.span = opening.span := by
    intro hfront r hr
    obtain ⟨opening, hopening, hspan⟩ := due.exists_opening herror hr
    obtain ⟨outer, houter⟩ := List.head?_eq_some_iff.mp (hbegins.head?_openBrackets hopening)
    rw [hfront]
    exact ⟨opening, outer, houter, hspan⟩
  cases rest with
  | nil =>
    obtain ⟨htoken, hspan, hkind⟩ := Due.of_error?_none herror
    refine ⟨?_, ?_, fun _ => ⟨htoken, rfl, hspan⟩, ?_, ParseError.isSome_related?, hrelated ?_⟩
    · rcases hkind with hkind | hkind <;> rw [hkind] <;> nofun
    · rcases hkind with hkind | hkind <;> rw [hkind] <;> simp
    · rcases hkind with hkind | hkind <;> rw [hkind] <;> nofun
    · rw [List.append_nil] at htiles ⊢
      refine List.filter_eq_self.mpr fun token htoken => ?_
      have hlt := (htiles.isTokenOf token htoken).nonempty
      have hle := (htiles.within token htoken).2
      rw [ParseError.offset, hspan, decide_eq_true_eq]
      exact Nat.lt_of_lt_of_le hlt hle
  | cons token after =>
    have htoken := Due.token?_of_error?_some herror
    obtain ⟨hspan, hkind⟩ := ParseError.of_token? htoken
    refine ⟨?_, fun _ => ⟨token, by simp, htoken, hspan⟩, ?_, ?_, ParseError.isSome_related?,
      hrelated ?_⟩
    · rcases hkind with hkind | hkind | hkind <;> rw [hkind] <;> nofun
    · rcases hkind with hkind | hkind | hkind <;> rw [hkind] <;> simp
    · rcases hkind with hkind | hkind | hkind <;> rw [hkind] <;> nofun
    · rw [ParseError.offset, hspan]
      exact htiles.inOrder.filter_eq

/-- An error of reading the tokens of a source says where it is, whatever the limit. -/
theorem ParseError.pointsInto_of_ofTokens {source : List Char} {limit : Option Nat}
    {tokens : List Token} {error : ParseError} (hscan : scan source = .ok tokens)
    (h : Query.ofTokens ⟨byteLength source, limit⟩ tokens = .error error) :
    error.PointsInto (byteLength source) tokens
      (Query.reading ⟨byteLength source, limit⟩ tokens).2.rest := by
  have hfree : Query.ofTokens ⟨byteLength source, none⟩ tokens = .error error →
      error.PointsInto (byteLength source) tokens
        (Query.reading ⟨byteLength source, none⟩ tokens).2.rest := by
    intro h
    obtain ⟨taken, due, htokens, hbegins, herror⟩ :=
      exists_due_of_ofTokens rfl (hasEnds_of_scan hscan) h
    generalize (Query.reading ⟨byteLength source, none⟩ tokens).2.rest = rest at *
    subst htokens
    exact pointsInto_of_due hscan hbegins herror
  cases limit with
  | none => exact hfree h
  | some limit =>
    -- The limit either makes no difference or is what reading fails on.
    cases hbeyond : Opening.beyond? limit [] (Query.taken (byteLength source) tokens) with
    | none =>
      have hsame := (Query.limited_taken limit (byteLength source) tokens).same hbeyond
      rw [Query.ofTokens_eq_of_beyond? hbeyond] at h
      rw [Query.reading, hsame]
      exact hfree h
    | some token =>
      obtain ⟨before, after, htaken, hopens, -⟩ := Opening.of_beyond?_eq_some hbeyond
      rw [Query.ofTokens_eq_tooDeep hbeyond] at h
      obtain rfl := Except.error.inj h
      have hmem : token ∈ Query.taken (byteLength source) tokens := by simp [htaken]
      have htoken : token ∈ tokens := List.mem_of_mem_take hmem
      refine ⟨by rintro ⟨⟩, by simp [kind], by simp [kind], fun _ => ⟨rfl, token, htoken, ?_, rfl⟩,
        by rintro ⟨⟩, by rintro _ ⟨⟩⟩
      simpa [Token.opens] using hopens

/-- An error of parsing a source that consists of tokens says where it is, whatever the limit. -/
theorem parse_error_points {source : String} {limit : Option Nat} {tokens : List Token}
    {error : ParseError} (hscan : scan source.toList = .ok tokens)
    (hparse : Query.parse source limit = .error error) :
    error.PointsInto (byteLength source.toList) tokens
      (Query.reading ⟨byteLength source.toList, limit⟩ tokens).2.rest := by
  rw [Query.parse, hscan] at hparse
  exact ParseError.pointsInto_of_ofTokens hscan hparse

/-- Of two parentheses that are open at the end, behind a set and a blank, the inner one is
named. -/
theorem parse_error_points_of_group :
    Query.parse "(A = 1 OR (B IN \x7b2\x7d " (some 2) =
        .error (.unexpectedEnd (.groupEnd ⟨10, 11⟩) 20) ∧
      ∃ tokens, scan "(A = 1 OR (B IN \x7b2\x7d ".toList = .ok tokens ∧
        (Query.reading ⟨20, some 2⟩ tokens).2.rest = [] ∧
        ∃ opening outer, openBrackets [] (tokens.filter (·.span.start < 20)) = opening :: outer ∧
          ⟨10, 11⟩ = opening.span := by
  have hparse : Query.parse "(A = 1 OR (B IN \x7b2\x7d " (some 2) =
      .error (.unexpectedEnd (.groupEnd ⟨10, 11⟩) 20) := by decide +kernel
  have hscan : ∃ tokens, scan "(A = 1 OR (B IN \x7b2\x7d ".toList = .ok tokens := ⟨_, rfl⟩
  obtain ⟨tokens, hscan⟩ := hscan
  have hpoints := parse_error_points hscan hparse
  exact ⟨hparse, tokens, hscan, (hpoints.ending (.inr rfl)).2.1, hpoints.related _ rfl⟩

end ResumeFilter
