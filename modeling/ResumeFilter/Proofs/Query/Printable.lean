import ResumeFilter.Proofs.Query.Literal
import ResumeFilter.Proofs.Token.Tiling

/-!
# Queries that have a text

A query can be written if its field names and literals can (`Query.Printable`); its shape does not
matter. Every query that was read from a text is such a query, whatever the limit on nesting.
-/

namespace ResumeFilter

open Grammar Token

/-! ## What can be written -/

/-- Whether every literal of an operand can be written. -/
def Operand.Printable : Operand → Prop
  | .scalar value => value.literal.Printable
  | .set values _ => ∀ value ∈ values, value.literal.Printable

/-- Whether the field name is a word that is no keyword, and the operand can be written. -/
def Comparison.Printable (c : Comparison) : Prop :=
  IsWord c.field.name.toList ∧ c.field.name.toList ∉ keywords ∧ c.operand.Printable

/-- Whether every comparison of a query can be written. -/
def Query.Printable : Query → Prop
  | .comparison c => c.Printable
  | .not inner => inner.Printable
  | .logical _ left right => left.Printable ∧ right.Printable

/-- Places play no part in writing an operand. -/
theorem Operand.printable_unplaced {o : Operand} : o.unplaced.Printable ↔ o.Printable := by
  cases o with
  | scalar value => rfl
  | set values span =>
    simp only [Operand.unplaced, Operand.Printable, List.forall_mem_map, Value.unplaced]

/-- Places play no part in writing a query. -/
theorem Query.printable_unplaced {q : Query} : q.unplaced.Printable ↔ q.Printable := by
  induction q with
  | comparison c =>
    exact and_congr_right fun _ => and_congr_right fun _ => Operand.printable_unplaced
  | not inner ih => exact ih
  | logical op left right ihleft ihright => exact and_congr ihleft ihright

/-! ## What is read can be written -/

/-- Whether the text of a token is one that the scanner reads as a token of its kind. -/
def Token.Fits (token : Token) : Prop :=
  token.kind.Matches token.text.toList ∧
    (token.text.toList ∈ keywords → token.kind ≠ .identifier)

/-- The tokens of a source fit. -/
theorem Token.Tiles.fits {source : List Char} {start stop : Nat} {tokens : List Token}
    (h : Tiles source start stop tokens) : ∀ token ∈ tokens, token.Fits := fun token htoken =>
  ⟨(h.isTokenOf token htoken).matches_text, (h.isTokenOf token htoken).not_identifier⟩

/-- Strings have quotes at their ends. -/
theorem Token.IsString.hasEnds {cs : List Char} (h : IsString cs) : Text.HasEnds cs := by
  obtain ⟨quote, body, hquote, -, rfl⟩ := h
  have hone : quote.utf8Size = 1 := by rcases hquote with rfl | rfl <;> rfl
  refine ⟨?_, ⟨quote, rfl, hone⟩, quote, ?_, hone⟩
  · rw [Text.byteLength_cons, Text.byteLength_append, Text.byteLength_cons, hone]
    omega
  · rw [← List.cons_append, List.getLast?_concat]
    rfl

/-- A token that fits has ends if it is a string. -/
theorem Token.Fits.hasEnds {token : Token} (h : token.Fits) : token.HasEnds := by
  intro hkind
  have hmatches := h.1
  rw [hkind] at hmatches
  exact IsString.hasEnds hmatches

/-- What a token that fits denotes can be written. -/
theorem Token.Denotes.printable {token : Token} {literal : Literal} (h : token.Denotes literal)
    (hfits : token.Fits) : literal.Printable := by
  have hmatches := hfits.1
  cases h with
  | number hkind hvalue =>
    rw [hkind] at hmatches
    exact Literal.printable_of_ofNumber? hmatches hvalue
  | string hkind =>
    rw [hkind] at hmatches
    rw [(IsString.hasEnds hmatches).slice_eq, Literal.Printable, String.toList_ofList]
    obtain ⟨quote, body, hquote, hbody, htext⟩ := hmatches
    rw [htext, List.tail_cons, List.dropLast_concat]
    rintro ⟨hsingle, hdouble⟩
    rcases hquote with rfl | rfl
    · exact hbody hsingle
    · exact hbody hdouble
  | bool => exact trivial

/-- The values of tokens that fit can be written. -/
theorem Grammar.Scalars.printable {tokens : List Token} {values : List Value}
    (h : Scalars tokens values) (hfits : ∀ token ∈ tokens, token.Fits) :
    ∀ value ∈ values, value.literal.Printable := by
  induction h with
  | one hdenotes =>
    rw [List.forall_mem_singleton] at hfits ⊢
    exact hdenotes.printable hfits
  | more hdenotes _ _ ih =>
    rw [List.forall_mem_cons, List.forall_mem_cons] at hfits
    rw [List.forall_mem_cons]
    exact ⟨hdenotes.printable hfits.1, ih hfits.2.2⟩

/-- An operand of tokens that fit can be written. -/
theorem Grammar.IsOperand.printable {tokens : List Token} {o : Operand} (h : IsOperand tokens o)
    (hfits : ∀ token ∈ tokens, token.Fits) : o.Printable := by
  cases h with
  | scalar hdenotes => exact hdenotes.printable (hfits _ List.mem_cons_self)
  | emptySet => exact List.forall_mem_nil _
  | set _ hscalars =>
    rw [List.forall_mem_cons, List.forall_mem_append] at hfits
    exact hscalars.printable hfits.2.1

/-- Whether the conditions in front of a phrase can be written. -/
def Grammar.Phrase.Printable : Phrase → Prop
  | .links left => left.Printable
  | _ => True

/-- A phrase of tokens that fit can be written, if what is in front of it can. -/
theorem Grammar.Derives.printable {phrase : Phrase} {tokens : List Token} {q : Query}
    (h : Derives phrase tokens q) (hfits : ∀ token ∈ tokens, token.Fits)
    (hphrase : phrase.Printable) : q.Printable := by
  induction h with
  | expression _ _ ihfirst ihlinks =>
    rw [List.forall_mem_append] at hfits
    exact ihlinks hfits.2 (ihfirst hfits.1 trivial)
  | done left => exact hphrase
  | link _ _ _ ihright ihlinks =>
    rw [List.forall_mem_cons, List.forall_mem_append] at hfits
    exact ihlinks hfits.2.2 ⟨hphrase, ihright hfits.2.1 trivial⟩
  | not _ _ ih =>
    rw [List.forall_mem_cons] at hfits
    exact ih hfits.2 trivial
  | group _ _ _ ih =>
    rw [List.forall_mem_cons, List.forall_mem_append] at hfits
    exact ih hfits.2.1 trivial
  | @comparison name token tokens op o hname _ hoperand =>
    rw [List.forall_mem_cons, List.forall_mem_cons] at hfits
    obtain ⟨⟨hmatches, hkeyword⟩, -, hrest⟩ := hfits
    rw [hname] at hmatches hkeyword
    exact ⟨hmatches, fun hmem => hkeyword hmem rfl, hoperand.printable hrest⟩

/-- Strings in a text start and end with a quote. -/
theorem Token.hasEnds_of_scan {source : List Char} {tokens : List Token}
    (h : scan source = .ok tokens) : ∀ token ∈ tokens, token.HasEnds :=
  fun token htoken => ((tiles_of_scan h).fits token htoken).hasEnds

/-- A query that was read from a text is derived from the tokens of the text, which fit. -/
theorem Query.exists_derives_of_parse {source : String} {limit : Option Nat} {q : Query}
    (h : Query.parse source limit = .ok q) :
    ∃ tokens, Token.scan source.toList = .ok tokens ∧ (∀ token ∈ tokens, token.Fits) ∧
      Grammar.Derives .expression tokens q := by
  rw [Query.parse] at h
  split at h
  next => exact absurd h nofun
  next tokens hscan =>
    exact ⟨tokens, hscan, (tiles_of_scan hscan).fits,
      derives_of_ofTokens (Token.hasEnds_of_scan hscan) h⟩

/-- Every query that was read from a text can be written. -/
theorem Query.printable_of_parse {source : String} {limit : Option Nat} {q : Query}
    (h : Query.parse source limit = .ok q) : q.Printable := by
  obtain ⟨tokens, -, hfits, hderives⟩ := exists_derives_of_parse h
  exact hderives.printable hfits trivial

end ResumeFilter
