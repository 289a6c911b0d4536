import ResumeFilter.Proofs.Query.Spelling

/-!
# The text of a query reads back

Tokens with the spellings of a query that can be written derive this query, up to places
(`derives_of_spellings`): a chain leans to the left and is written without parentheses, and
everything else that is a chain is a group. As the text of the query is scanned into such tokens and
the parser reads whatever is derived, writing and reading are inverse on the queries that can be
written, and on no others (`parse_text_iff`).
-/

namespace ResumeFilter

open Grammar Token

/-! ## Operands -/

/-- A token with the spelling of a literal denotes it. -/
theorem Literal.denotes_of_spelling {literal : Literal} (h : literal.Printable) {token : Token}
    (htoken : token.spelling = literal.spelling) : token.Denotes literal := by
  obtain ⟨hkind, htext⟩ : token.kind = literal.kind ∧ token.text = literal.text :=
    Prod.mk.inj htoken
  cases literal with
  | int n => exact .number hkind (htext ▸ (ofNumber?_text_int h).2)
  | float x => exact .number hkind (htext ▸ (ofNumber?_text_float h).2)
  | str s =>
    have hends : Text.HasEnds token.text.toList := by
      rw [htext]
      exact IsString.hasEnds (Literal.matches_text h)
    have hbody : token.text.toList.tail.dropLast = s.toList := by
      rw [htext, Literal.text]
      split_ifs <;> simp
    have hdenotes := Token.Denotes.string hkind
    rw [hends.slice_eq, hbody, String.ofList_toList] at hdenotes
    exact hdenotes
  | bool b =>
    refine .bool hkind ?_
    rw [htext]
    cases b <;> decide

/-- Tokens with the spellings of the values of a set are scalars with these values. -/
theorem scalars_of_spellings {values : List Value}
    (h : ∀ value ∈ values, value.literal.Printable) (hne : values ≠ []) {tokens : List Token}
    (htokens : tokens.map Token.spelling = valueSpellings values) :
    ∃ values', Scalars tokens values' ∧ values'.map Value.unplaced = values.map Value.unplaced := by
  induction values using valueSpellings.induct generalizing tokens with
  | case1 => exact absurd rfl hne
  | case2 value =>
    obtain ⟨token, rfl, htoken⟩ := List.map_eq_singleton_iff.mp htokens
    exact ⟨_, .one (value.literal.denotes_of_spelling (h value List.mem_cons_self) htoken), rfl⟩
  | case3 value values hvalues ih =>
    rw [valueSpellings.eq_3 _ _ hvalues] at htokens
    obtain ⟨token, rest, rfl, htoken, hrest⟩ := List.map_eq_cons_iff.mp htokens
    obtain ⟨comma, rest, rfl, hcomma, hrest⟩ := List.map_eq_cons_iff.mp hrest
    rw [List.forall_mem_cons] at h
    obtain ⟨values', hscalars, hunplaced⟩ := ih h.2 hvalues hrest
    refine ⟨_, .more (value.literal.denotes_of_spelling h.1 htoken) (Prod.mk.inj hcomma).1 hscalars,
      ?_⟩
    rw [List.map_cons, List.map_cons, hunplaced]
    rfl

/-- Tokens with the spellings of an operand are this operand. -/
theorem operand_of_spellings {o : Operand} (h : o.Printable) {tokens : List Token}
    (htokens : tokens.map Token.spelling = o.spellings) :
    ∃ o', IsOperand tokens o' ∧ o'.unplaced = o.unplaced := by
  cases o with
  | scalar value =>
    obtain ⟨token, rfl, htoken⟩ := List.map_eq_singleton_iff.mp htokens
    exact ⟨_, .scalar (value.literal.denotes_of_spelling h htoken), rfl⟩
  | set values span =>
    obtain ⟨opening, rest, rfl, hopening, hrest⟩ := List.map_eq_cons_iff.mp htokens
    obtain ⟨inner, last, rfl, hinner, hlast⟩ := List.map_eq_append_iff.mp hrest
    obtain ⟨closing, rfl, hclosing⟩ := List.map_eq_singleton_iff.mp hlast
    by_cases hvalues : values = []
    · subst hvalues
      obtain rfl := List.map_eq_nil_iff.mp hinner
      exact ⟨_, .emptySet (Prod.mk.inj hopening).1 (Prod.mk.inj hclosing).1, rfl⟩
    · obtain ⟨values', hscalars, hunplaced⟩ := scalars_of_spellings h hvalues hinner
      refine ⟨_, .set (Prod.mk.inj hopening).1 hscalars (Prod.mk.inj hclosing).1, ?_⟩
      rw [Operand.unplaced, Operand.unplaced, hunplaced]

/-! ## Queries -/

/-- A condition is an expression. -/
theorem Grammar.Derives.expression_of_condition {tokens : List Token} {q : Query}
    (h : Derives .condition tokens q) : Derives .expression tokens q := by
  have hexpression := Derives.expression h (.done q)
  rwa [List.append_nil] at hexpression

/-- Links go on with one more. -/
theorem Grammar.Derives.links_concat {phrase : Phrase} {tokens tokens' : List Token} {token : Token}
    {op : LogicalOp} {q left right : Query} (h : Derives phrase tokens q)
    (hphrase : phrase = .links left) (hop : token.kind = op.kind)
    (hright : Derives .condition tokens' right) :
    Derives (.links left) (tokens ++ token :: tokens') (.logical op q right) := by
  -- The new link is the last one, so the induction runs along the links before it.
  induction h generalizing left with
  | done q =>
    obtain rfl := Phrase.links.inj hphrase
    have hlink := Derives.link hop hright (.done (.logical op q right))
    rwa [List.append_nil] at hlink
  | @link token' _ _ op' _ _ _ hop' hright' _ _ ih =>
    obtain rfl := Phrase.links.inj hphrase
    have hlink := Derives.link hop' hright' (ih rfl)
    rwa [← List.append_assoc, ← List.cons_append] at hlink
  | _ => exact absurd hphrase nofun

/-- An expression goes on with one more condition. -/
theorem Grammar.Derives.concat {tokens tokens' : List Token} {token : Token} {op : LogicalOp}
    {left right : Query} (h : Derives .expression tokens left) (hop : token.kind = op.kind)
    (hright : Derives .condition tokens' right) :
    Derives .expression (tokens ++ token :: tokens') (.logical op left right) := by
  cases h with
  | expression hfirst hlinks =>
    rw [List.append_assoc]
    exact .expression hfirst (hlinks.links_concat rfl hop hright)

/-- If tokens with spellings of a query derive it, and are a condition unless the query is a chain,
then with parentheses where these are called for they are a condition. -/
theorem condition_of_grouped {q : Query} {inner : List (Token.Kind × String)}
    (h : ∀ tokens : List Token, tokens.map Token.spelling = inner →
      ∃ q', q'.unplaced = q.unplaced ∧ Derives .expression tokens q' ∧
        (q.isLogical = false → Derives .condition tokens q'))
    {tokens : List Token} (htokens : tokens.map Token.spelling = grouped q.isLogical inner) :
    ∃ q', q'.unplaced = q.unplaced ∧ Derives .condition tokens q' := by
  cases hlogical : q.isLogical with
  | false =>
    rw [hlogical] at htokens
    obtain ⟨q', hunplaced, -, hcondition⟩ := h tokens htokens
    exact ⟨q', hunplaced, hcondition hlogical⟩
  | true =>
    rw [hlogical] at htokens
    obtain ⟨opening, rest, rfl, hopening, hrest⟩ := List.map_eq_cons_iff.mp htokens
    obtain ⟨tokens, last, rfl, hinner, hlast⟩ := List.map_eq_append_iff.mp hrest
    obtain ⟨closing, rfl, hclosing⟩ := List.map_eq_singleton_iff.mp hlast
    obtain ⟨q', hunplaced, hexpression, -⟩ := h tokens hinner
    exact ⟨q', hunplaced, .group (Prod.mk.inj hopening).1 hexpression (Prod.mk.inj hclosing).1⟩

/-- Tokens with the spellings of a query that can be written derive this query. -/
theorem derives_of_spellings {q : Query} (h : q.Printable) :
    ∀ tokens : List Token, tokens.map Token.spelling = q.spellings →
      ∃ q', q'.unplaced = q.unplaced ∧ Derives .expression tokens q' ∧
        (q.isLogical = false → Derives .condition tokens q') := by
  -- Both at once: only what is no chain is a condition, and only conditions are right sides.
  induction q with
  | comparison c =>
    intro tokens htokens
    obtain ⟨name, rest, rfl, hname, hrest⟩ := List.map_eq_cons_iff.mp htokens
    obtain ⟨op, rest, rfl, hop, hrest⟩ := List.map_eq_cons_iff.mp hrest
    obtain ⟨o', hoperand, hunplaced⟩ := operand_of_spellings h.2.2 hrest
    have hcondition := Derives.comparison (Prod.mk.inj hname).1 (Prod.mk.inj hop).1 hoperand
    refine ⟨_, ?_, hcondition.expression_of_condition, fun _ => hcondition⟩
    simp only [Query.unplaced, Comparison.unplaced, hunplaced, (Prod.mk.inj hname).2]
  | not inner ih =>
    intro tokens htokens
    obtain ⟨token, rest, rfl, hnot, hrest⟩ := List.map_eq_cons_iff.mp htokens
    obtain ⟨q', hunplaced, hinner⟩ := condition_of_grouped (ih h) hrest
    have hcondition := Derives.not (Prod.mk.inj hnot).1 hinner
    refine ⟨_, ?_, hcondition.expression_of_condition, fun _ => hcondition⟩
    rw [Query.unplaced, Query.unplaced, hunplaced]
  | logical op left right ihleft ihright =>
    intro tokens htokens
    obtain ⟨tokens, rest, rfl, hleft, hrest⟩ := List.map_eq_append_iff.mp htokens
    obtain ⟨token, rest, rfl, hop, hrest⟩ := List.map_eq_cons_iff.mp hrest
    obtain ⟨left', hunplaced, hexpression, -⟩ := ihleft h.1 tokens hleft
    obtain ⟨right', hunplaced', hright⟩ := condition_of_grouped (ihright h.2) hrest
    refine ⟨_, ?_, hexpression.concat (Prod.mk.inj hop).1 hright, nofun⟩
    rw [Query.unplaced, Query.unplaced, hunplaced, hunplaced']

/-- The text of a query that can be written is read as this query, if nesting is not limited. -/
theorem exists_parse_text {q : Query} (h : q.Printable) :
    ∃ q', Query.parse q.text none = .ok q' ∧ q'.unplaced = q.unplaced := by
  obtain ⟨tokens, hscan, htokens⟩ := q.scan_text h
  obtain ⟨q', hunplaced, hderives, -⟩ := derives_of_spellings h tokens htokens
  refine ⟨q', ?_, hunplaced⟩
  rw [Query.parse, hscan]
  exact ofTokens_of_derives rfl (hasEnds_of_scan hscan) hderives

/-- Writing and reading are inverse exactly on the queries that can be written: every query that was
read is one of them, and the text of a query is read as that query, up to places, just if the query
is one. -/
theorem parse_text_iff :
    (∀ source limit q, Query.parse source limit = .ok q → q.Printable) ∧
    ∀ q : Query, (∃ q', Query.parse q.text none = .ok q' ∧ q'.unplaced = q.unplaced) ↔
      q.Printable := by
  refine ⟨fun source limit q => Query.printable_of_parse, fun q => ⟨?_, exists_parse_text⟩⟩
  rintro ⟨q', hparse, hunplaced⟩
  rw [← Query.printable_unplaced, ← hunplaced, Query.printable_unplaced]
  exact Query.printable_of_parse hparse

end ResumeFilter
