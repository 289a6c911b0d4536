import ResumeFilter.Proofs.Query.Deepest
import ResumeFilter.Proofs.Query.RoundTrip

/-!
# The cheapest text of a query

A chain is a condition only in parentheses, and that is the only place where parentheses are called
for. So whatever tokens a query is derived from, there are at least as many as its text has
(`Grammar.Derives.isLong`), and they nest at least as deep (`Grammar.Derives.isDeep`). The text
itself needs no more (`peak_le_of_spellings`).
-/

namespace ResumeFilter

open Grammar Opening Token

/-! ## What a query costs -/

/-- How deep something nests in parentheses, where these are called for. -/
def Grammar.groupedDepth (isLogical : Bool) (depth : Nat) : Nat :=
  if isLogical then depth + 1 else depth

/-- How deep the text of a query nests: each NOT counts, and each chain that is negated or is a
right side. -/
def Query.textDepth : Query → Nat
  | .comparison _ => 0
  | .not inner => groupedDepth inner.isLogical inner.textDepth + 1
  | .logical _ left right => max left.textDepth (groupedDepth right.isLogical right.textDepth)

/-- Parentheses cost one level at most. -/
theorem Grammar.groupedDepth_le (isLogical : Bool) (depth : Nat) :
    depth ≤ groupedDepth isLogical depth ∧ groupedDepth isLogical depth ≤ depth + 1 := by
  cases isLogical <;> simp [groupedDepth]

/-- Parentheses cost two tokens at most. -/
theorem Grammar.length_grouped (isLogical : Bool) (spellings : List (Token.Kind × String)) :
    spellings.length ≤ (grouped isLogical spellings).length ∧
      (grouped isLogical spellings).length ≤ spellings.length + 2 := by
  cases isLogical with
  | false => exact ⟨Nat.le_refl _, Nat.le_add_right _ 2⟩
  | true =>
    simp only [grouped, if_true, List.length_cons, List.length_append, List.length_nil]
    omega

/-- Places do not decide what is a chain. -/
theorem Query.isLogical_unplaced (q : Query) : q.unplaced.isLogical = q.isLogical := by
  cases q <;> rfl

/-- Places play no part in how deep a text nests. -/
theorem Query.textDepth_unplaced (q : Query) : q.unplaced.textDepth = q.textDepth := by
  induction q with
  | comparison c => rfl
  | not inner ih => rw [unplaced, textDepth, textDepth, isLogical_unplaced, ih]
  | logical op left right ihleft ihright =>
    rw [unplaced, textDepth, textDepth, isLogical_unplaced, ihleft, ihright]

/-- Places play no part in the values of a set. -/
theorem Grammar.valueSpellings_unplaced (values : List Value) :
    valueSpellings (values.map Value.unplaced) = valueSpellings values := by
  induction values using valueSpellings.induct with
  | case1 => rfl
  | case2 value => rfl
  | case3 value values hne ih =>
    have hne' : values.map Value.unplaced ≠ [] := by simpa using hne
    rw [List.map_cons, valueSpellings.eq_3 _ _ hne', valueSpellings.eq_3 _ _ hne, ih]
    rfl

/-- Places play no part in how a query is spelled. -/
theorem Query.spellings_unplaced (q : Query) : q.unplaced.spellings = q.spellings := by
  induction q with
  | comparison c =>
    have hoperand : c.operand.unplaced.spellings = c.operand.spellings := by
      cases c.operand with
      | scalar value => rfl
      | set values span =>
        rw [Operand.unplaced, Operand.spellings, Operand.spellings, valueSpellings_unplaced]
    rw [unplaced, Comparison.unplaced, spellings, spellings, hoperand]
  | not inner ih => rw [unplaced, spellings, spellings, isLogical_unplaced, ih]
  | logical op left right ihleft ihright =>
    rw [unplaced, spellings, spellings, isLogical_unplaced, ihleft, ihright]

/-! ## No text has fewer tokens -/

/-- The values of a set are spelled in just the tokens that they were read from. -/
theorem Grammar.Scalars.length_spellings {tokens : List Token} {values : List Value}
    (h : Scalars tokens values) : values ≠ [] ∧ (valueSpellings values).length = tokens.length := by
  induction h with
  | one => exact ⟨nofun, rfl⟩
  | more _ _ _ ih =>
    obtain ⟨hne, hlength⟩ := ih
    refine ⟨nofun, ?_⟩
    rw [valueSpellings.eq_3 _ _ hne, List.length_cons, List.length_cons, hlength]
    rfl

/-- An operand is spelled in just the tokens that it was read from. -/
theorem Grammar.IsOperand.length_spellings {tokens : List Token} {o : Operand}
    (h : IsOperand tokens o) : o.spellings.length = tokens.length := by
  cases h with
  | scalar => rfl
  | emptySet => rfl
  | set _ h _ => simp [Operand.spellings, h.length_spellings.2]

/-- Whether tokens of a phrase are no fewer than those of the query's text, or of the part of it
that the phrase is. -/
def Grammar.Phrase.IsLong (tokens : List Token) (q : Query) : Phrase → Prop
  | .expression => q.spellings.length ≤ tokens.length
  | .condition => (grouped q.isLogical q.spellings).length ≤ tokens.length
  | .links left => q.spellings.length ≤ left.spellings.length + tokens.length

/-- No text of a query has fewer tokens than the canonical one. -/
theorem Grammar.Derives.isLong {phrase : Phrase} {tokens : List Token} {q : Query}
    (h : Derives phrase tokens q) : phrase.IsLong tokens q := by
  induction h with
  | @expression _ _ first _ _ _ ihfirst ihlinks =>
    have hgrouped := length_grouped first.isLogical first.spellings
    simp only [Phrase.IsLong, List.length_append] at ihfirst ihlinks ⊢
    omega
  | done q => exact Nat.le_refl _
  | link _ _ _ ihright ihlinks =>
    simp only [Phrase.IsLong, Query.spellings, List.length_append, List.length_cons]
      at ihright ihlinks ⊢
    omega
  | not _ _ ih => exact Nat.succ_le_succ ih
  | @group _ _ _ inner _ _ _ ih =>
    have hgrouped := length_grouped inner.isLogical inner.spellings
    simp only [Phrase.IsLong, List.length_append, List.length_cons, List.length_nil] at ih ⊢
    omega
  | comparison _ _ hoperand =>
    exact Nat.add_le_add_right (Nat.le_of_eq hoperand.length_spellings) 2

/-! ## No text nests less deep -/

/-- Whether tokens of a phrase nest no less deep than the query's text, or the part of it that the
phrase is. The NOTs in front of an expression or of links may be complete before the deepest point
is reached, so they do not count there. -/
def Grammar.Phrase.IsDeep (opened : List Opening) (tokens : List Token) (q : Query) : Phrase → Prop
  | .expression => (settle opened).length + q.textDepth ≤ peak opened tokens
  | .condition => opened.length + groupedDepth q.isLogical q.textDepth ≤ peak opened tokens
  | .links left =>
    (settle opened).length + q.textDepth ≤
      max ((settle opened).length + left.textDepth) (peak opened tokens)

/-- No text of a query nests less deep than the canonical one. -/
theorem Grammar.Derives.isDeep {phrase : Phrase} {tokens : List Token} {q : Query}
    (h : Derives phrase tokens q) (opened : List Opening) : phrase.IsDeep opened tokens q := by
  induction h generalizing opened with
  | @expression tokens _ first q hfirst _ ihfirst ihlinks =>
    have hcondition := ihfirst opened
    have hlinks := ihlinks (behind opened tokens)
    have hsettle := length_settle_le opened
    have hgrouped := groupedDepth_le first.isLogical first.textDepth
    simp only [Phrase.IsDeep, hfirst.settle_behind, peak_append] at hcondition hlinks ⊢
    omega
  | done q => exact Nat.le_max_left _ _
  | @link token tokens _ op left right q hop hright _ ihright ihlinks =>
    have hstep := step_of_logicalOp? (Kind.logicalOp?_eq_some_iff.mpr hop) opened
    have hcondition := ihright (settle opened)
    have hlinks := ihlinks (behind (settle opened) tokens)
    simp only [Phrase.IsDeep, Query.textDepth, hright.settle_behind, settle_settle, peak_cons,
      peak_append, hstep] at hcondition hlinks ⊢
    omega
  | @not token tokens inner hnot _ ih =>
    have hinner := ih (.not :: opened)
    have hdepth : groupedDepth (Query.not inner).isLogical (Query.not inner).textDepth =
        groupedDepth inner.isLogical inner.textDepth + 1 := rfl
    simp only [Phrase.IsDeep, hdepth, peak_not hnot, List.length_cons] at hinner ⊢
    omega
  | @group _ _ _ inner hopening _ hclosing ih =>
    have hinner := ih (.group :: opened)
    have hgrouped := groupedDepth_le inner.isLogical inner.textDepth
    simp only [Phrase.IsDeep, settle, peak_group hopening hclosing, List.length_cons] at hinner ⊢
    omega
  | comparison => exact length_le_peak opened _

/-! ## The text of a query costs no more -/

/-- If tokens with the spellings of a query nest as deep as it says, then so do tokens with
parentheses where these are called for. -/
theorem peak_le_of_grouped {inner : List (Token.Kind × String)} {depth : Nat}
    (h : ∀ tokens : List Token, tokens.map Token.spelling = inner →
      ∀ opened, peak opened tokens ≤ opened.length + depth)
    {isLogical : Bool} {tokens : List Token}
    (htokens : tokens.map Token.spelling = grouped isLogical inner) (opened : List Opening) :
    peak opened tokens ≤ opened.length + groupedDepth isLogical depth := by
  cases isLogical with
  | false => exact h tokens htokens opened
  | true =>
    obtain ⟨opening, rest, rfl, hopening, hrest⟩ := List.map_eq_cons_iff.mp htokens
    obtain ⟨tokens, last, rfl, hinner, hlast⟩ := List.map_eq_append_iff.mp hrest
    obtain ⟨closing, rfl, hclosing⟩ := List.map_eq_singleton_iff.mp hlast
    have hdepth := h tokens hinner (.group :: opened)
    rw [peak_group (Prod.mk.inj hopening).1 (Prod.mk.inj hclosing).1]
    simp only [groupedDepth, if_true, List.length_cons] at hdepth ⊢
    omega

/-- Tokens with the spellings of a query that can be written nest no deeper than they have to. -/
theorem peak_le_of_spellings {q : Query} (h : q.Printable) :
    ∀ tokens : List Token, tokens.map Token.spelling = q.spellings →
      ∀ opened, peak opened tokens ≤ opened.length + q.textDepth := by
  induction q with
  | comparison c =>
    intro tokens htokens opened
    obtain ⟨name, rest, rfl, hname, hrest⟩ := List.map_eq_cons_iff.mp htokens
    obtain ⟨op, rest, rfl, hop, hrest⟩ := List.map_eq_cons_iff.mp hrest
    obtain ⟨o', hoperand, -⟩ := operand_of_spellings h.2.2 hrest
    have hneutral := hoperand.isNeutral_comparison (Prod.mk.inj hname).1 (Prod.mk.inj hop).1
    exact Nat.le_of_eq (peak_of_isNeutral hneutral opened)
  | not inner ih =>
    intro tokens htokens opened
    obtain ⟨token, rest, rfl, hnot, hrest⟩ := List.map_eq_cons_iff.mp htokens
    have hinner := peak_le_of_grouped (ih h) hrest (.not :: opened)
    rw [peak_not (Prod.mk.inj hnot).1]
    simp only [Query.textDepth, List.length_cons] at hinner ⊢
    omega
  | logical op left right ihleft ihright =>
    intro tokens htokens opened
    obtain ⟨tokens, rest, rfl, hleft, hrest⟩ := List.map_eq_append_iff.mp htokens
    obtain ⟨token, rest, rfl, hop, hrest⟩ := List.map_eq_cons_iff.mp hrest
    obtain ⟨left', -, hderives, -⟩ := derives_of_spellings h.1 tokens hleft
    have hsettle := length_settle_le opened
    have hfirst := ihleft h.1 tokens hleft opened
    have hsecond := peak_le_of_grouped (ihright h.2) hrest (settle opened)
    rw [hderives.peak_junction (Prod.mk.inj hop).1, Query.textDepth]
    omega

/-- The text of a query that can be written has no more tokens than any text that is read as this
query, and nests no deeper. -/
theorem Query.exists_cheapest_text {q : Query} (h : q.Printable) :
    ∃ canon, scan q.text.toList = .ok canon ∧
      ∀ source limit tokens, q.ReadFrom source limit → scan source.toList = .ok tokens →
        canon.length ≤ tokens.length ∧ deepest canon ≤ deepest tokens := by
  obtain ⟨canon, hscan, hspelling⟩ := q.scan_text h
  refine ⟨canon, hscan, ?_⟩
  rintro source limit tokens ⟨q', hparse, hunplaced⟩ htokens
  obtain ⟨tokens', hscan', hderives, -⟩ := parse_eq_ok_iff.mp hparse
  obtain rfl := Except.ok.inj (htokens.symm.trans hscan')
  constructor
  · have hspellings : q'.spellings = q.spellings := by
      rw [← spellings_unplaced, hunplaced, spellings_unplaced]
    have hlong : q'.spellings.length ≤ tokens.length := hderives.isLong
    rwa [hspellings, ← hspelling, List.length_map] at hlong
  · have hdepth : q'.textDepth = q.textDepth := by
      rw [← textDepth_unplaced, hunplaced, textDepth_unplaced]
    have hcanon := peak_le_of_spellings h canon hspelling []
    have hdeep : [].length + q'.textDepth ≤ peak [] tokens := hderives.isDeep []
    rw [hdepth] at hdeep
    exact Nat.le_trans hcanon hdeep

end ResumeFilter
