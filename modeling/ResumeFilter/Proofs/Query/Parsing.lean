import ResumeFilter.Proofs.Query.Grammar

/-!
# The parser reads its grammar

What the parser accepts, the grammar derives, whatever the limit on nesting
(`derives_of_ofTokens`); and what the grammar derives, the parser accepts if nesting is not limited
(`ofTokens_of_derives`). A derivation knows nothing of what comes after it, so both directions are
about a production in front of any rest: on success it takes a phrase and leaves the rest and the
depth as they are, and a phrase is read to its end if the rest does not go on with it.
-/

namespace ResumeFilter

open Grammar

/-! ## What tokens mean -/

/-- The junction of a kind, read from the grammar's side. -/
theorem Token.Kind.logicalOp?_eq_some_iff {kind : Token.Kind} {op : LogicalOp} :
    kind.logicalOp? = some op ↔ kind = op.kind := by
  cases kind <;> cases op <;> decide

/-- The comparison of a kind, read from the grammar's side. -/
theorem Token.Kind.compareOp?_eq_some_iff {kind : Token.Kind} {op : CompareOp} :
    kind.compareOp? = some op ↔ kind = op.kind := by
  cases kind <;> rcases op with ⟨_ | _ | _ | _ | _ | _⟩ | _ <;> decide

/-- Whether a text starts and ends with a character of one byte, and these are two. -/
def Text.HasEnds (cs : List Char) : Prop :=
  2 ≤ Text.byteLength cs ∧ (∃ c ∈ cs.head?, c.utf8Size = 1) ∧ ∃ c ∈ cs.getLast?, c.utf8Size = 1

/-- A text with ends is made up of its ends and what is between them. -/
theorem Text.HasEnds.exists_eq {cs : List Char} (h : Text.HasEnds cs) :
    ∃ first body last, cs = first :: (body ++ [last]) ∧ first.utf8Size = 1 ∧ last.utf8Size = 1 := by
  obtain ⟨hlength, ⟨first, hfirst, hfirst1⟩, last, hlast, hlast1⟩ := h
  obtain ⟨rest, rfl⟩ := List.head?_eq_some_iff.mp hfirst
  rcases List.eq_nil_or_concat rest with rfl | ⟨body, d, rfl⟩
  · simp [hfirst1] at hlength
  · have hd : d = last := by simpa [List.getLast?_cons] using hlast
    exact ⟨first, body, last, by simp [hd], hfirst1, hlast1⟩

/-- The text between its ends is what is left without the first and last byte. -/
theorem Text.HasEnds.slice_eq {cs : List Char} (h : Text.HasEnds cs) :
    Text.slice cs ⟨1, Text.byteLength cs - 1⟩ = cs.tail.dropLast := by
  obtain ⟨first, body, last, rfl, hfirst, hlast⟩ := h.exists_eq
  have hslice := Text.slice_append [first] body [last]
  have hlength : Text.byteLength (first :: (body ++ [last])) - 1 = 1 + Text.byteLength body := by
    simp [hfirst, hlast, Nat.add_comm]
  rw [hlength, List.tail_cons, List.dropLast_concat]
  simpa [hfirst] using hslice

/-- Whether a token, if it is a string, starts and ends with a character of one byte. -/
def Token.HasEnds (token : Token) : Prop :=
  token.kind = .stringLit → Text.HasEnds token.text.toList

/-- A scalar does not end a set. -/
theorem Token.Denotes.kind_ne {token : Token} {literal : Literal} (h : token.Denotes literal) :
    token.kind ≠ .braceClose := by
  rcases h with ⟨hkind, -⟩ | hkind | ⟨hkind, -⟩ <;> rw [hkind] <;> decide

/-- The kinds of tokens that are scalars. -/
theorem Token.Kind.contains_scalars {kind : Token.Kind} :
    Token.KindSet.scalars.contains kind = true ↔
      kind = .numberLit ∨ kind = .stringLit ∨ kind = .boolLit := by
  cases kind <;> decide

/-- The kinds of tokens that start a condition. -/
theorem Token.Kind.contains_conditionFirst {kind : Token.Kind} :
    Token.KindSet.conditionFirst.contains kind = true ↔
      kind = .not ∨ kind = .parenOpen ∨ kind = .identifier := by
  cases kind <;> decide

/-- A scalar token is read as the literal that it denotes. -/
theorem Token.literal?_eq_some_iff {token : Token} (h : token.HasEnds) {literal : Literal} :
    Token.KindSet.scalars.contains token.kind ∧ token.literal? = some literal ↔
      token.Denotes literal := by
  rw [Token.Kind.contains_scalars]
  constructor
  · rintro ⟨hkind | hkind | hkind, hliteral⟩ <;> rw [Token.literal?, hkind] at hliteral
    · exact .number hkind hliteral
    · obtain rfl := Option.some.inj hliteral
      rw [← (h hkind).slice_eq]
      exact .string hkind
    · obtain rfl := Option.some.inj hliteral
      exact .bool hkind beq_iff_eq
  · rintro (⟨hkind, hvalue⟩ | hkind | ⟨hkind, hvalue⟩) <;> rw [Token.literal?, hkind]
    · exact ⟨.inl rfl, hvalue⟩
    · exact ⟨.inr (.inl rfl), by rw [(h hkind).slice_eq]⟩
    · refine ⟨.inr (.inr rfl), ?_⟩
      rw [Option.some.injEq, Literal.bool.injEq, Bool.eq_iff_iff, hvalue, beq_iff_eq]

/-- A token is read as the value that it denotes. -/
theorem Token.value_eq_ok_iff {token : Token} (h : token.HasEnds) {expected : Expectation}
    {value : Value} :
    token.value expected = .ok value ↔
      ∃ literal, token.Denotes literal ∧ value = ⟨literal, token.span⟩ := by
  simp only [← Token.literal?_eq_some_iff h, Token.value]
  split
  next hscalar =>
    split
    next literal hliteral => simp [hscalar, hliteral, eq_comm]
    next hliteral => simp [hliteral]
  next hscalar => simp [hscalar]

namespace Parser

/-! ## Soundness -/

/-- Asking for something else is no success. -/
theorem expected_ne_ok {α : Type} {setting : Setting} {expectation : Expectation}
    {cursor next : Cursor} {a : α} : expected setting expectation cursor ≠ (.ok a, next) := by
  unfold expected
  split <;> simp

/-- Successes are equal in their value and in where they leave off. -/
theorem ok_inj {α : Type} {a b : α} {cursor next : Cursor}
    (h : ((.ok a, cursor) : Outcome α) = (.ok b, next)) : a = b ∧ cursor = next :=
  ⟨Except.ok.inj (Prod.mk.inj h).1, (Prod.mk.inj h).2⟩

/-- What is read as a set are scalars up to a closing brace. -/
theorem setValues_sound {setting : Setting} {opened : Token} {depth : Nat} {tokens : List Token}
    {before : List Value} {operand : Operand} {next : Cursor}
    (hends : ∀ token ∈ tokens, token.HasEnds)
    (h : setValues setting opened depth tokens before = (.ok operand, next)) :
    ∃ taken closing values, tokens = taken ++ closing :: next.rest ∧ next.depth = depth ∧
      closing.kind = .braceClose ∧ Scalars taken values ∧
      operand = .set (before.reverse ++ values) (opened.span.cover closing.span) := by
  fun_induction setValues setting opened depth tokens before with
  | case1 | case2 | case3 => simp at h
  | case4 token before value hvalue closing rest hclosing =>
    obtain ⟨literal, hdenotes, rfl⟩ :=
      (Token.value_eq_ok_iff (hends token List.mem_cons_self)).mp hvalue
    obtain ⟨rfl, rfl⟩ := ok_inj h
    refine ⟨[token], closing, [⟨literal, token.span⟩], rfl, rfl, hclosing, .one hdenotes, ?_⟩
    rw [List.reverse_cons]
  | case5 token before value hvalue comma rest _ hcomma ih =>
    obtain ⟨literal, hdenotes, rfl⟩ :=
      (Token.value_eq_ok_iff (hends token List.mem_cons_self)).mp hvalue
    obtain ⟨taken, closing, values, rfl, hdepth, hclosing, hscalars, rfl⟩ :=
      ih (fun t ht => hends t (List.mem_cons_of_mem _ (List.mem_cons_of_mem _ ht))) h
    refine ⟨token :: comma :: taken, closing, ⟨literal, token.span⟩ :: values, rfl, hdepth,
      hclosing, .more hdenotes hcomma hscalars, ?_⟩
    rw [List.reverse_cons, List.append_assoc, List.singleton_append]
  | case6 => exact absurd h expected_ne_ok

/-- What is read as a set after its opening brace is a set. -/
theorem setLiteral_sound {setting : Setting} {opened : Token} {cursor next : Cursor}
    {operand : Operand} (hopened : opened.kind = .braceOpen)
    (hends : ∀ token ∈ cursor.rest, token.HasEnds)
    (h : setLiteral setting opened cursor = (.ok operand, next)) :
    ∃ taken, cursor.rest = taken ++ next.rest ∧ IsOperand (opened :: taken) operand ∧
      next.depth = cursor.depth := by
  unfold setLiteral at h
  split at h
  next => simp [setValues] at h
  next token rest hrest =>
    split at h
    next hclosing =>
      obtain ⟨rfl, rfl⟩ := ok_inj h
      exact ⟨[token], hrest, .emptySet hopened hclosing, rfl⟩
    next =>
      obtain ⟨taken, closing, values, htaken, hdepth, hclosing, hscalars, rfl⟩ :=
        setValues_sound (hrest ▸ hends) h
      refine ⟨taken ++ [closing], ?_, .set hopened hscalars hclosing, hdepth⟩
      rw [hrest, htaken, List.append_assoc, List.singleton_append]

/-- What is read as an operand is one. -/
theorem operand_sound {setting : Setting} {cursor next : Cursor} {o : Operand}
    (hends : ∀ token ∈ cursor.rest, token.HasEnds) (h : operand setting cursor = (.ok o, next)) :
    ∃ taken, cursor.rest = taken ++ next.rest ∧ IsOperand taken o ∧ next.depth = cursor.depth := by
  unfold operand at h
  split at h
  next => exact absurd h expected_ne_ok
  next token rest hrest =>
    rw [hrest, List.forall_mem_cons] at hends
    split at h
    next hopened =>
      obtain ⟨taken, htaken, hoperand, hdepth⟩ := setLiteral_sound hopened hends.2 h
      exact ⟨token :: taken, by rw [hrest, List.cons_append, ← htaken], hoperand, hdepth⟩
    next =>
      split at h
      next => simp at h
      next value hvalue =>
        obtain ⟨literal, hdenotes, rfl⟩ := (Token.value_eq_ok_iff hends.1).mp hvalue
        obtain ⟨rfl, rfl⟩ := ok_inj h
        exact ⟨[token], hrest, .scalar hdenotes, rfl⟩

/-- Whether a production reads phrases: on success it has taken one, and the depth is as before. -/
def Reads (phrase : Phrase) (production : Cursor → Outcome Query) : Prop :=
  ∀ cursor q next, (∀ token ∈ cursor.rest, token.HasEnds) →
    production cursor = (.ok q, next) →
    ∃ taken, cursor.rest = taken ++ next.rest ∧ Derives phrase taken q ∧ next.depth = cursor.depth

/-- What is read as a comparison after its field name is one. -/
theorem comparison_sound {setting : Setting} {field : Token} (hfield : field.kind = .identifier)
    {cursor next : Cursor} {q : Query} (hends : ∀ token ∈ cursor.rest, token.HasEnds)
    (h : comparison setting field cursor = (.ok q, next)) :
    ∃ taken, cursor.rest = taken ++ next.rest ∧ Derives .condition (field :: taken) q ∧
      next.depth = cursor.depth := by
  unfold comparison at h
  split at h
  next => exact absurd h expected_ne_ok
  next token rest hrest =>
    rw [hrest, List.forall_mem_cons] at hends
    split at h
    next => exact absurd h expected_ne_ok
    next op hop =>
      split at h
      next => simp at h
      next o after hoperand =>
        obtain ⟨taken, htaken, hoperand, hdepth⟩ := operand_sound hends.2 hoperand
        obtain ⟨rfl, rfl⟩ := ok_inj h
        refine ⟨token :: taken, ?_, .comparison hfield
          (Token.Kind.compareOp?_eq_some_iff.mp hop) hoperand, hdepth⟩
        rw [hrest, List.cons_append, ← htaken]

/-- Going no further after conditions which make up `left` takes no links. -/
theorem links_of_stop {left q : Query} {cursor next : Cursor}
    (h : ((.ok left, cursor) : Outcome Query) = (.ok q, next)) :
    ∃ taken, cursor.rest = taken ++ next.rest ∧ Derives (.links left) taken q ∧
      next.depth = cursor.depth := by
  obtain ⟨rfl, rfl⟩ := ok_inj h
  exact ⟨[], rfl, .done left, rfl⟩

/-- If a production reads conditions, then chains of them are links. -/
theorem reads_chain {condition : Cursor → Outcome Query} (hcondition : Reads .condition condition)
    (fuel : Nat) (left : Query) : Reads (.links left) (chain condition fuel left) := by
  intro cursor q next hends h
  -- Every link leaves less fuel; where there is none left, the chain just ends.
  induction fuel generalizing left cursor with
  | zero => exact links_of_stop h
  | succ fuel ih =>
    rw [chain] at h
    split at h
    next => exact links_of_stop h
    next token rest hrest =>
      rw [hrest, List.forall_mem_cons] at hends
      split at h
      next => exact links_of_stop h
      next op hop =>
        split at h
        next => simp at h
        next right after hright =>
          obtain ⟨taken, htaken, hderives, hdepth⟩ := hcondition _ _ _ hends.2 hright
          replace htaken : rest = taken ++ after.rest := htaken
          have hends' : ∀ t ∈ after.rest, t.HasEnds := fun t ht =>
            hends.2 t (htaken ▸ List.mem_append_right taken ht)
          obtain ⟨taken', htaken', hlinks, hdepth'⟩ := ih _ _ hends' h
          refine ⟨token :: (taken ++ taken'), ?_, .link
            (Token.Kind.logicalOp?_eq_some_iff.mp hop) hderives hlinks, hdepth'.trans hdepth⟩
          rw [hrest, List.cons_append, List.append_assoc, ← htaken', ← htaken]

/-- If a production reads conditions, then conditions joined from the left are an expression. -/
theorem reads_expression {condition : Cursor → Outcome Query}
    (hcondition : Reads .condition condition) (fuel : Nat) :
    Reads .expression (expression condition fuel) := by
  intro cursor q next hends h
  unfold expression at h
  split at h
  next => simp at h
  next first after hfirst =>
    obtain ⟨taken, htaken, hderives, hdepth⟩ := hcondition _ _ _ hends hfirst
    have hends' : ∀ t ∈ after.rest, t.HasEnds := fun t ht =>
      hends t (htaken ▸ List.mem_append_right taken ht)
    obtain ⟨taken', htaken', hlinks, hdepth'⟩ := reads_chain hcondition fuel first _ _ _ hends' h
    refine ⟨taken ++ taken', ?_, .expression hderives hlinks, hdepth'.trans hdepth⟩
    rw [htaken, htaken', List.append_assoc]

/-- What is read one level deeper leaves the depth as it was. -/
theorem nested_sound {setting : Setting} {opening : Token} {inner : Cursor → Outcome Query}
    {phrase : Phrase} (hinner : Reads phrase inner) {rest : List Token} {cursor next : Cursor}
    {q : Query} (hends : ∀ token ∈ rest, token.HasEnds)
    (h : nested setting opening inner rest cursor = (.ok q, next)) :
    ∃ taken, rest = taken ++ next.rest ∧ Derives phrase taken q ∧ next.depth = cursor.depth := by
  unfold nested at h
  split at h
  next => simp at h
  next =>
    simp only [Prod.mk.injEq] at h
    obtain ⟨hok, rfl⟩ := h
    obtain ⟨taken, htaken, hderives, hdepth⟩ := hinner ⟨rest, cursor.depth + 1⟩ q _ hends
      (Prod.ext hok rfl)
    refine ⟨taken, htaken, hderives, ?_⟩
    simp only [hdepth, Nat.add_sub_cancel]

/-- What ends a group is a closing parenthesis. -/
theorem groupEnd_sound {setting : Setting} {opening : Token} {inner q : Query}
    {cursor next : Cursor} (h : groupEnd setting opening inner cursor = (.ok q, next)) :
    ∃ closing, cursor.rest = closing :: next.rest ∧ closing.kind = .parenClose ∧ inner = q ∧
      next.depth = cursor.depth := by
  unfold groupEnd at h
  split at h
  next => exact absurd h expected_ne_ok
  next closing rest hrest =>
    split at h
    next hclosing =>
      obtain ⟨rfl, rfl⟩ := ok_inj h
      exact ⟨closing, hrest, hclosing, rfl, rfl⟩
    next => exact absurd h expected_ne_ok

/-- Every success of `condition` is a condition. -/
theorem reads_condition (setting : Setting) (fuel : Nat) :
    Reads .condition (condition setting fuel) := by
  induction fuel with
  | zero => exact fun _ _ _ _ h => absurd h expected_ne_ok
  | succ fuel ih =>
    intro cursor q next hends h
    rw [condition] at h
    split at h
    next => exact absurd h expected_ne_ok
    next token rest hrest =>
      rw [hrest, List.forall_mem_cons] at hends
      split at h
      next hkind =>
        obtain ⟨taken, htaken, hderives, hdepth⟩ := comparison_sound hkind hends.2 h
        exact ⟨token :: taken, by rw [hrest, List.cons_append, ← htaken], hderives, hdepth⟩
      next hkind =>
        split at h
        next => simp at h
        next inner after hinner =>
          obtain ⟨taken, htaken, hderives, hdepth⟩ := nested_sound ih hends.2 hinner
          obtain ⟨rfl, rfl⟩ := ok_inj h
          exact ⟨token :: taken, by rw [hrest, List.cons_append, ← htaken], .not hkind hderives,
            hdepth⟩
      next hkind =>
        split at h
        next => simp at h
        next inner after hinner =>
          obtain ⟨taken, htaken, hderives, hdepth⟩ :=
            nested_sound (reads_expression ih fuel) hends.2 hinner
          obtain ⟨closing, hrest', hclosing, rfl, hdepth'⟩ := groupEnd_sound h
          refine ⟨token :: (taken ++ [closing]), ?_, .group hkind hderives hclosing,
            hdepth'.trans hdepth⟩
          rw [hrest, htaken, hrest', List.cons_append, List.append_assoc, List.singleton_append]
      next => exact absurd h expected_ne_ok

/-! ## Completeness -/

/-- Scalars up to a closing brace are read as the values of a set. -/
theorem setValues_complete {setting : Setting} {opened closing : Token} {depth : Nat}
    {tokens rest : List Token} {values before : List Value} (h : Scalars tokens values)
    (hends : ∀ token ∈ tokens, token.HasEnds) (hclosing : closing.kind = .braceClose) :
    setValues setting opened depth (tokens ++ closing :: rest) before =
      (.ok (.set (before.reverse ++ values) (opened.span.cover closing.span)), ⟨rest, depth⟩) := by
  induction h generalizing before with
  | @one token literal hdenotes =>
    have hvalue : token.value .setValue = .ok ⟨literal, token.span⟩ :=
      (Token.value_eq_ok_iff (hends token List.mem_cons_self)).mpr ⟨literal, hdenotes, rfl⟩
    simp only [List.singleton_append, setValues, hvalue, if_pos hclosing, List.reverse_cons]
  | @more token comma literal tokens values hdenotes hcomma hrest ih =>
    rw [List.forall_mem_cons, List.forall_mem_cons] at hends
    have hvalue : token.value .setValue = .ok ⟨literal, token.span⟩ :=
      (Token.value_eq_ok_iff hends.1).mpr ⟨literal, hdenotes, rfl⟩
    have hnot : comma.kind ≠ .braceClose := by rw [hcomma]; decide
    simp only [List.cons_append, setValues, hvalue, if_neg hnot, if_pos hcomma, ih hends.2.2,
      List.reverse_cons, List.append_assoc, List.cons_append, List.nil_append]

/-- The first of a set's values is no brace. -/
theorem kind_ne_of_scalars {tokens : List Token} {values : List Value} (h : Scalars tokens values) :
    ∃ token rest, tokens = token :: rest ∧ token.kind ≠ .braceClose := by
  cases h with
  | one h => exact ⟨_, _, rfl, h.kind_ne⟩
  | more h => exact ⟨_, _, rfl, h.kind_ne⟩

/-- An operand is read to its end. -/
theorem operand_complete {setting : Setting} {depth : Nat} {tokens rest : List Token} {o : Operand}
    (h : IsOperand tokens o) (hends : ∀ token ∈ tokens, token.HasEnds) :
    operand setting ⟨tokens ++ rest, depth⟩ = (.ok o, ⟨rest, depth⟩) := by
  cases h with
  | @scalar token literal hdenotes =>
    have hvalue : token.value .value = .ok ⟨literal, token.span⟩ :=
      (Token.value_eq_ok_iff (hends token List.mem_cons_self)).mpr ⟨literal, hdenotes, rfl⟩
    have hnot : token.kind ≠ .braceOpen := by
      rcases hdenotes with ⟨hkind, -⟩ | hkind | ⟨hkind, -⟩ <;> rw [hkind] <;> decide
    simp only [operand, List.singleton_append, if_neg hnot, hvalue]
  | emptySet hopening hclosing =>
    simp only [operand, List.cons_append, List.nil_append, if_pos hopening, setLiteral,
      if_pos hclosing]
  | @set opening closing tokens values hopening hscalars hclosing =>
    have hset : setValues setting opening depth (tokens ++ closing :: rest) [] =
        (.ok (.set values (opening.span.cover closing.span)), ⟨rest, depth⟩) :=
      setValues_complete hscalars
        (fun t ht => hends t (List.mem_cons_of_mem _ (List.mem_append_left _ ht))) hclosing
    obtain ⟨token, tokens', rfl, hnot⟩ := kind_ne_of_scalars hscalars
    simp only [operand, List.cons_append, List.append_assoc, List.nil_append, if_pos hopening,
      setLiteral, if_neg hnot]
    exact hset

/-- A comparison is read to its end. -/
theorem comparison_complete {setting : Setting} {depth : Nat} {name token : Token}
    {tokens rest : List Token} {op : CompareOp} {o : Operand} (hop : token.kind = op.kind)
    (hoperand : IsOperand tokens o) (hends : ∀ token ∈ tokens, token.HasEnds) :
    comparison setting name ⟨token :: tokens ++ rest, depth⟩ =
      (.ok (.comparison ⟨⟨name.text, name.span⟩, op, o⟩), ⟨rest, depth⟩) := by
  simp only [comparison, List.cons_append, Token.Kind.compareOp?_eq_some_iff.mpr hop,
    operand_complete hoperand hends]

/-- The production of a phrase: `fuel` bounds the nesting and `steps` the length of a chain. -/
def production (setting : Setting) (fuel steps : Nat) : Phrase → Cursor → Outcome Query
  | .expression => expression (condition setting fuel) steps
  | .condition => condition setting fuel
  | .links left => chain (condition setting fuel) steps left

/-- Whether a phrase in front of tokens cannot go on with them. A condition never does. -/
def Ends : Phrase → List Token → Prop
  | .condition, _ => True
  | _, rest => ∀ token ∈ rest.head?, token.kind.logicalOp? = none

/-- Reading one level deeper does what reading does, if nesting is not limited. -/
theorem nested_of_eq_ok {setting : Setting} (hlimit : setting.depthLimit = none) {opening : Token}
    {inner : Cursor → Outcome Query} {rest rest' : List Token} {cursor : Cursor} {q : Query}
    (h : inner ⟨rest, cursor.depth + 1⟩ = (.ok q, ⟨rest', cursor.depth + 1⟩)) :
    nested setting opening inner rest cursor = (.ok q, ⟨rest', cursor.depth⟩) := by
  simp only [nested, hlimit, Option.filter_none, h, Nat.add_sub_cancel]

/-- Whether a phrase is read to its end in front of any rest that does not go on with it, at any
depth and with any fuel that its length does not exceed. -/
def ReadsToEnd (setting : Setting) (phrase : Phrase) (tokens : List Token) (q : Query) : Prop :=
  ∀ (fuel steps depth : Nat) (rest : List Token), tokens.length ≤ fuel → tokens.length ≤ steps →
    (∀ token ∈ tokens, token.HasEnds) → Ends phrase rest →
    production setting fuel steps phrase ⟨tokens ++ rest, depth⟩ = (.ok q, ⟨rest, depth⟩)

section ReadsToEnd

variable {setting : Setting}

/-- A condition and links are read as an expression. -/
theorem readsToEnd_expression {tokens tokens' : List Token} {first q : Query}
    (hfirst : ReadsToEnd setting .condition tokens first)
    (hlinks : ReadsToEnd setting (.links first) tokens' q) :
    ReadsToEnd setting .expression (tokens ++ tokens') q := by
  intro fuel steps depth rest hfuel hsteps hends hrest
  rw [List.forall_mem_append] at hends
  rw [List.length_append] at hfuel hsteps
  have hread := hfirst fuel steps depth (tokens' ++ rest) (by omega) (by omega) hends.1 trivial
  have hchain := hlinks fuel steps depth rest (by omega) (by omega) hends.2 hrest
  simp only [production] at hread hchain ⊢
  rw [List.append_assoc, expression, hread]
  exact hchain

/-- Links end where no junction follows. -/
theorem readsToEnd_done (left : Query) : ReadsToEnd setting (.links left) [] left := by
  intro fuel steps depth rest _ _ _ hrest
  cases steps with
  | zero => rfl
  | succ steps =>
    cases rest with
    | nil => rfl
    | cons token rest =>
      have hnone : token.kind.logicalOp? = none := hrest token rfl
      simp only [production, List.nil_append, chain, hnone]

/-- Links go on with a junction and a condition. -/
theorem readsToEnd_link {token : Token} {tokens tokens' : List Token} {op : LogicalOp}
    {left right q : Query} (hop : token.kind = op.kind)
    (hright : ReadsToEnd setting .condition tokens right)
    (hlinks : ReadsToEnd setting (.links (.logical op left right)) tokens' q) :
    ReadsToEnd setting (.links left) (token :: (tokens ++ tokens')) q := by
  intro fuel steps depth rest hfuel hsteps hends hrest
  rw [List.forall_mem_cons, List.forall_mem_append] at hends
  rw [List.length_cons, List.length_append] at hfuel hsteps
  obtain ⟨steps, rfl⟩ : ∃ n, steps = n + 1 := ⟨steps - 1, by omega⟩
  have hread := hright fuel steps depth (tokens' ++ rest) (by omega) (by omega) hends.2.1 trivial
  have hchain := hlinks fuel steps depth rest (by omega) (by omega) hends.2.2 hrest
  simp only [production] at hread hchain ⊢
  simp only [chain, List.cons_append, List.append_assoc,
    Token.Kind.logicalOp?_eq_some_iff.mpr hop, hread]
  exact hchain

/-- A negation is read as a condition. -/
theorem readsToEnd_not (hlimit : setting.depthLimit = none) {token : Token} {tokens : List Token}
    {inner : Query} (hnot : token.kind = .not)
    (hinner : ReadsToEnd setting .condition tokens inner) :
    ReadsToEnd setting .condition (token :: tokens) (.not inner) := by
  intro fuel steps depth rest hfuel hsteps hends _
  rw [List.forall_mem_cons] at hends
  rw [List.length_cons] at hfuel hsteps
  obtain ⟨fuel, rfl⟩ : ∃ n, fuel = n + 1 := ⟨fuel - 1, by omega⟩
  have hread := hinner fuel steps (depth + 1) rest (by omega) (by omega) hends.2 trivial
  simp only [production] at hread ⊢
  simp only [condition, List.cons_append, hnot]
  rw [nested_of_eq_ok hlimit hread]

/-- An expression in parentheses is read as a condition: a parenthesis is no junction. -/
theorem readsToEnd_group (hlimit : setting.depthLimit = none) {opening closing : Token}
    {tokens : List Token} {inner : Query} (hopening : opening.kind = .parenOpen)
    (hclosing : closing.kind = .parenClose)
    (hinner : ReadsToEnd setting .expression tokens inner) :
    ReadsToEnd setting .condition (opening :: (tokens ++ [closing])) inner := by
  intro fuel steps depth rest hfuel hsteps hends _
  rw [List.forall_mem_cons, List.forall_mem_append] at hends
  rw [List.length_cons, List.length_append] at hfuel
  obtain ⟨fuel, rfl⟩ : ∃ n, fuel = n + 1 := ⟨fuel - 1, by omega⟩
  have hstop : Ends .expression (closing :: rest) := by
    intro token htoken
    obtain rfl := Option.some.inj htoken
    rw [hclosing]
    rfl
  have hread := hinner fuel fuel (depth + 1) (closing :: rest) (by omega) (by omega) hends.2.1 hstop
  simp only [production] at hread ⊢
  simp only [condition, List.cons_append, List.append_assoc, List.nil_append, hopening]
  rw [nested_of_eq_ok hlimit hread]
  simp only [groupEnd, if_pos hclosing]

/-- A field name, a comparison and an operand are read as a condition. -/
theorem readsToEnd_comparison {name token : Token} {tokens : List Token} {op : CompareOp}
    {o : Operand} (hname : name.kind = .identifier) (hop : token.kind = op.kind)
    (hoperand : IsOperand tokens o) :
    ReadsToEnd setting .condition (name :: token :: tokens)
      (.comparison ⟨⟨name.text, name.span⟩, op, o⟩) := by
  intro fuel steps depth rest hfuel _ hends _
  rw [List.forall_mem_cons, List.forall_mem_cons] at hends
  rw [List.length_cons] at hfuel
  obtain ⟨fuel, rfl⟩ : ∃ n, fuel = n + 1 := ⟨fuel - 1, by omega⟩
  simp only [production, condition, List.cons_append, hname]
  exact comparison_complete hop hoperand hends.2.2

/-- A derived phrase is read to its end, if nesting is not limited. -/
theorem readsToEnd_of_derives (hlimit : setting.depthLimit = none) {phrase : Phrase}
    {tokens : List Token} {q : Query} (h : Derives phrase tokens q) :
    ReadsToEnd setting phrase tokens q := by
  induction h with
  | expression _ _ ihfirst ihlinks => exact readsToEnd_expression ihfirst ihlinks
  | done left => exact readsToEnd_done left
  | link hop _ _ ihright ihlinks => exact readsToEnd_link hop ihright ihlinks
  | not hnot _ ih => exact readsToEnd_not hlimit hnot ih
  | group hopening _ hclosing ih => exact readsToEnd_group hlimit hopening hclosing ih
  | comparison hname hop hoperand => exact readsToEnd_comparison hname hop hoperand

end ReadsToEnd

end Parser

/-! ## Whole token sequences -/

/-- What the parser accepts, under whatever limit, the grammar derives. -/
theorem derives_of_ofTokens {setting : Parser.Setting} {tokens : List Token} {q : Query}
    (hends : ∀ token ∈ tokens, token.HasEnds) (h : Query.ofTokens setting tokens = .ok q) :
    Derives .expression tokens q := by
  simp only [Query.ofTokens] at h
  split at h
  next => simp at h
  next q' _ hread =>
    obtain rfl := Except.ok.inj h
    obtain ⟨taken, htaken, hderives, -⟩ :=
      Parser.reads_expression (Parser.reads_condition _ _) _ _ _ _ hends hread
    replace htaken : tokens = taken := by rwa [List.append_nil] at htaken
    exact htaken ▸ hderives
  next => simp at h

/-- Tokens that are read to their end as an expression are read as a query. -/
theorem ofTokens_of_readsToEnd {setting : Parser.Setting} {tokens : List Token} {q : Query}
    (h : Parser.ReadsToEnd setting .expression tokens q) (hends : ∀ token ∈ tokens, token.HasEnds) :
    Query.ofTokens setting tokens = .ok q := by
  have hread := h tokens.length tokens.length 0 [] (Nat.le_refl _) (Nat.le_refl _) hends
    (by rintro token ⟨⟩)
  rw [List.append_nil] at hread
  simp only [Parser.production] at hread
  simp only [Query.ofTokens, hread]

/-- What the grammar derives, the parser accepts, if nesting is not limited. -/
theorem ofTokens_of_derives {setting : Parser.Setting} (hlimit : setting.depthLimit = none)
    {tokens : List Token} {q : Query} (hends : ∀ token ∈ tokens, token.HasEnds)
    (h : Derives .expression tokens q) : Query.ofTokens setting tokens = .ok q :=
  ofTokens_of_readsToEnd (Parser.readsToEnd_of_derives hlimit h) hends

/-- Tokens placed anywhere in a source are read as a query exactly if the grammar derives that query
from them, names, values and sets at the places of their tokens; so they derive one query at
most. -/
theorem ofTokens_eq_ok_iff_derives (source : List Char) (places : List (Token.Kind × Span))
    (hends : ∀ place ∈ places, place.1 = .stringLit → Text.HasEnds (Text.slice source place.2)) :
    (∀ q, Query.ofTokens ⟨Text.byteLength source, none⟩
        (places.map fun place => Token.at source place.1 place.2) = .ok q ↔
      Derives .expression (places.map fun place => Token.at source place.1 place.2) q) ∧
    ∀ q q', Derives .expression (places.map fun place => Token.at source place.1 place.2) q →
      Derives .expression (places.map fun place => Token.at source place.1 place.2) q' →
        q = q' := by
  have htokens : ∀ token ∈ places.map (fun place => Token.at source place.1 place.2),
      token.HasEnds := by
    intro token htoken hkind
    obtain ⟨place, hplace, rfl⟩ := List.mem_map.mp htoken
    simpa [Token.at] using hends place hplace hkind
  refine ⟨fun q => ⟨derives_of_ofTokens htokens, ofTokens_of_derives rfl htokens⟩, ?_⟩
  intro q q' h h'
  have hlimit : (⟨Text.byteLength source, none⟩ : Parser.Setting).depthLimit = none := rfl
  have hq := ofTokens_of_derives hlimit htokens h
  rw [ofTokens_of_derives hlimit htokens h'] at hq
  exact (Except.ok.inj hq).symm

/-- A string of two bytes and more between quotes is read without them, at the place of all of
it. -/
theorem derives_comparison_of_quoted :
    Derives .expression
      ([(.identifier, ⟨0, 4⟩), (.eq, ⟨5, 6⟩), (.stringLit, ⟨7, 12⟩)].map fun place =>
        Token.at "CITY = 'Bé'".toList place.1 place.2)
      (.comparison ⟨⟨"CITY", ⟨0, 4⟩⟩, .scalar .eq, .scalar ⟨.str "Bé", ⟨7, 12⟩⟩⟩) := by
  have hquoted : Text.HasEnds (Text.slice "CITY = 'Bé'".toList ⟨7, 12⟩) :=
    ⟨by decide, ⟨'\'', by decide, by decide⟩, '\'', by decide, by decide⟩
  refine ((ofTokens_eq_ok_iff_derives "CITY = 'Bé'".toList
    [(.identifier, ⟨0, 4⟩), (.eq, ⟨5, 6⟩), (.stringLit, ⟨7, 12⟩)] ?_).1 _).mp rfl
  intro place hplace hkind
  simp only [List.mem_cons, List.not_mem_nil, or_false] at hplace
  rcases hplace with rfl | rfl | rfl
  · exact absurd hkind (by decide)
  · exact absurd hkind (by decide)
  · exact hquoted

end ResumeFilter
