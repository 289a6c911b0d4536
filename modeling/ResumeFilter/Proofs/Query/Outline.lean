import ResumeFilter.Proofs.Query.RoundTrip
import ResumeFilter.Query.Outline

/-!
# Outlines tell queries apart

An outline is not escaped: a string goes into it as it is, line breaks included, and nothing marks
the end of a set. Even so two queries that were read from texts have the same outline only if they
are the same up to their places (`outline_eq_iff`). A literal ends where the scanner would end it,
for it stands in front of a parenthesis, and a set ends at the first line that is not that of a
value.

The indentation plays no part in this, except that it is the same for the same node. Every lemma
below takes two texts that are equal and start with the lines of two nodes at the same level, and
says that the nodes are the same and so is what follows them.
-/

namespace ResumeFilter

open Token

/-! ## Tokens in front of other text -/

/-- Two texts that start with tokens which end there start with the same token. -/
theorem Token.Kind.Matches.append_inj {kind kind' : Kind} {text text' rest rest' : List Char}
    (h : kind.Matches text) (h' : kind'.Matches text')
    (hkeyword : text ∈ keywords → kind ≠ .identifier)
    (hkeyword' : text' ∈ keywords → kind' ≠ .identifier) (hends : EndsToken rest)
    (hends' : EndsToken rest') (heq : text ++ rest = text' ++ rest') :
    kind = kind' ∧ text = text' ∧ rest = rest' := by
  have hread := h.lexeme?_append hkeyword hends
  rw [heq, h'.lexeme?_append hkeyword' hends'] at hread
  obtain ⟨rfl, rfl, rfl⟩ := Lexeme.mk.inj (Option.some.inj hread)
  exact ⟨rfl, rfl, rfl⟩

/-- A parenthesis ends a token. -/
theorem endsToken_parenthesis (cs : List Char) : EndsToken (')' :: cs) :=
  endsToken_cons (by decide) cs

/-- Literals are told apart by their texts in front of a parenthesis. -/
theorem Literal.text_append_inj {a b : Literal} (ha : a.Printable) (hb : b.Printable)
    {cs ds : List Char} (h : a.text.toList ++ ')' :: cs = b.text.toList ++ ')' :: ds) :
    a = b ∧ cs = ds := by
  obtain ⟨hkind, htext, hrest⟩ := (matches_text ha).append_inj (matches_text hb)
    (fun _ => a.kind_ne) (fun _ => b.kind_ne) (endsToken_parenthesis cs)
    (endsToken_parenthesis ds) h
  -- A token with this text denotes both, and what it denotes is read from it.
  let token : Token := ⟨a.kind, .empty 0, a.text⟩
  have hspelling : token.spelling = b.spelling :=
    Prod.ext hkind (String.toList_injective htext)
  have hdenotes : token.Denotes a := denotes_of_spelling ha rfl
  have hdenotes' := denotes_of_spelling hb hspelling
  have hends : token.HasEnds := Token.Fits.hasEnds ⟨matches_text ha, fun _ => a.kind_ne⟩
  have hread := ((literal?_eq_some_iff hends).mpr hdenotes).2
  rw [((literal?_eq_some_iff hends).mpr hdenotes').2] at hread
  exact ⟨(Option.some.inj hread).symm, (List.cons.inj hrest).2⟩

/-- Comparisons are told apart by their spellings in front of a parenthesis. -/
theorem CompareOp.text_append_inj {a b : CompareOp} {cs ds : List Char}
    (h : a.text.toList ++ ')' :: cs = b.text.toList ++ ')' :: ds) : a = b ∧ cs = ds := by
  obtain ⟨hkind, -, hrest⟩ := a.matches_text.1.append_inj b.matches_text.1
    (fun _ => a.matches_text.2) (fun _ => b.matches_text.2) (endsToken_parenthesis cs)
    (endsToken_parenthesis ds) h
  have hop : some b = some a :=
    (Kind.compareOp?_eq_some_iff.mpr hkind).symm.trans (Kind.compareOp?_eq_some_iff.mpr rfl)
  exact ⟨(Option.some.inj hop).symm, (List.cons.inj hrest).2⟩

/-! ## Lines -/

/-- The text of an outline that starts with a line. -/
theorem toList_outlineLine_append (level : Nat) (label rest : String) :
    (outlineLine level label ++ rest).toList =
      List.replicate (2 * level) ' ' ++ (label.toList ++ '\n' :: rest.toList) := by
  simp [outlineLine]

/-- Lines at the same level start with the same indentation. -/
theorem outlineLine_append_inj {level : Nat} {a b rest rest' : String}
    (h : outlineLine level a ++ rest = outlineLine level b ++ rest') :
    a.toList ++ '\n' :: rest.toList = b.toList ++ '\n' :: rest'.toList := by
  have htext := congrArg String.toList h
  rw [toList_outlineLine_append, toList_outlineLine_append] at htext
  exact List.append_cancel_left htext

/-- Lines of the same sort at the same level differ from what is in their parentheses on. -/
theorem labelled_append_inj {level : Nat} {front a b : String} {span span' : Span}
    {rest rest' : String}
    (h : outlineLine level (front ++ a ++ ")" ++ span.outlineSuffix false) ++ rest =
      outlineLine level (front ++ b ++ ")" ++ span'.outlineSuffix false) ++ rest') :
    a.toList ++ ')' :: '\n' :: rest.toList = b.toList ++ ')' :: '\n' :: rest'.toList := by
  have hline := outlineLine_append_inj h
  simpa [Span.outlineSuffix] using hline

/-- Whether a text does not start with the line of a value. -/
def EndsValues (text : String) : Prop :=
  (text.toList.dropWhile (· = ' ')).head? ≠ some 'V'

/-- What a line starts with behind its indentation. -/
theorem head?_dropWhile_outlineLine (level : Nat) {label : String} (rest : String) {c : Char}
    (hlabel : label.toList.head? = some c) (hc : c ≠ ' ') :
    ((outlineLine level label ++ rest).toList.dropWhile (· = ' ')).head? = some c := by
  obtain ⟨cs, hcs⟩ := List.head?_eq_some_iff.mp hlabel
  rw [toList_outlineLine_append, hcs, List.dropWhile_append_of_pos (by simp)]
  simp [hc]

/-- The line of a node that is no value is not that of a value. -/
theorem endsValues_outlineLine (level : Nat) {label : String} (rest : String) {c : Char}
    (hlabel : label.toList.head? = some c) (hc : c ≠ ' ' ∧ c ≠ 'V') :
    EndsValues (outlineLine level label ++ rest) := by
  rw [EndsValues, head?_dropWhile_outlineLine level rest hlabel hc.1]
  exact fun h => hc.2 (Option.some.inj h)

/-- The line of a value is that of a value. -/
theorem not_endsValues_outline (v : Value) (level : Nat) (rest : String) :
    ¬EndsValues (v.outline false level ++ rest) :=
  fun h => h (head?_dropWhile_outlineLine level rest (by simp) (by decide))

/-! ## Values and operands -/

/-- Values are told apart by their lines. -/
theorem Value.outline_append_inj {level : Nat} {v w : Value} (hv : v.literal.Printable)
    (hw : w.literal.Printable) {rest rest' : String}
    (h : v.outline false level ++ rest = w.outline false level ++ rest') :
    v.unplaced = w.unplaced ∧ rest = rest' := by
  obtain ⟨hliteral, hrest⟩ := Literal.text_append_inj hv hw (labelled_append_inj h)
  refine ⟨?_, String.toList_injective (List.cons.inj hrest).2⟩
  rw [unplaced, unplaced, hliteral]

/-- The lines of the values of a set are told apart, and so is their number if no value follows. -/
theorem values_outline_append_inj {level : Nat} {values values' : List Value}
    (h : ∀ v ∈ values, v.literal.Printable) (h' : ∀ v ∈ values', v.literal.Printable)
    {rest rest' : List String} (hrest : EndsValues (String.join rest))
    (hrest' : EndsValues (String.join rest'))
    (heq : String.join (values.map (Value.outline false level) ++ rest) =
      String.join (values'.map (Value.outline false level) ++ rest')) :
    values.map Value.unplaced = values'.map Value.unplaced ∧
      String.join rest = String.join rest' := by
  -- The next line is that of a value for both sets or for none.
  induction values generalizing values' with
  | nil =>
    cases values' with
    | nil => exact ⟨rfl, heq⟩
    | cons w values' =>
      rw [List.map_nil, List.nil_append, List.map_cons, List.cons_append, String.join_cons] at heq
      exact absurd (heq ▸ hrest) (not_endsValues_outline w level _)
  | cons v values ih =>
    rw [List.forall_mem_cons] at h
    cases values' with
    | nil =>
      rw [List.map_nil, List.nil_append, List.map_cons, List.cons_append, String.join_cons] at heq
      exact absurd (heq ▸ hrest') (not_endsValues_outline v level _)
    | cons w values' =>
      rw [List.forall_mem_cons] at h'
      rw [List.map_cons, List.map_cons, List.cons_append, List.cons_append, String.join_cons,
        String.join_cons] at heq
      obtain ⟨hvalue, htail⟩ := Value.outline_append_inj h.1 h'.1 heq
      obtain ⟨hvalues, hjoin⟩ := ih h.2 h'.2 htail
      rw [List.map_cons, List.map_cons, hvalue, hvalues]
      exact ⟨rfl, hjoin⟩

/-- The first line of a set is not that of a value. -/
theorem endsValues_outline_set (values : List Value) (span : Span) (level : Nat)
    (rest : List String) :
    EndsValues (String.join ((Operand.set values span).outline false level ++ rest)) := by
  rw [Operand.outline, List.cons_append, String.join_cons]
  exact endsValues_outlineLine level (c := 'S') _ (by simp) (by decide)

/-- Operands are told apart by their lines if no value follows. -/
theorem Operand.outline_append_inj {level : Nat} {o o' : Operand} (h : o.Printable)
    (h' : o'.Printable) {rest rest' : List String} (hrest : EndsValues (String.join rest))
    (hrest' : EndsValues (String.join rest'))
    (heq : String.join (o.outline false level ++ rest) =
      String.join (o'.outline false level ++ rest')) :
    o.unplaced = o'.unplaced ∧ String.join rest = String.join rest' := by
  cases o with
  | scalar v =>
    rw [outline, List.singleton_append, String.join_cons] at heq
    cases o' with
    | scalar w =>
      rw [outline, List.singleton_append, String.join_cons] at heq
      obtain ⟨hvalue, hjoin⟩ := Value.outline_append_inj h h' heq
      rw [unplaced, unplaced, hvalue]
      exact ⟨rfl, hjoin⟩
    | set values' span' =>
      exact absurd (heq ▸ endsValues_outline_set values' span' level rest')
        (not_endsValues_outline v level _)
  | set values span =>
    cases o' with
    | scalar w =>
      rw [outline.eq_1, List.singleton_append, String.join_cons] at heq
      exact absurd (heq ▸ endsValues_outline_set values span level rest)
        (not_endsValues_outline w level _)
    | set values' span' =>
      rw [outline, outline, List.cons_append, List.cons_append, String.join_cons,
        String.join_cons] at heq
      have hlines := outlineLine_append_inj heq
      obtain ⟨hvalues, hjoin⟩ := values_outline_append_inj h h' hrest hrest'
        (String.toList_injective (by simpa [Span.outlineSuffix] using hlines))
      rw [unplaced, unplaced, hvalues]
      exact ⟨rfl, hjoin⟩

/-! ## Comparisons and queries -/

/-- Comparisons are told apart by their lines if no value follows. -/
theorem Comparison.outline_append_inj {level : Nat} {c d : Comparison} (hc : c.Printable)
    (hd : d.Printable) {rest rest' : List String} (hrest : EndsValues (String.join rest))
    (hrest' : EndsValues (String.join rest'))
    (heq : String.join (c.outline false level ++ rest) =
      String.join (d.outline false level ++ rest')) :
    c.unplaced = d.unplaced ∧ String.join rest = String.join rest' := by
  obtain ⟨hname, hkeyword, hoperand⟩ := hc
  obtain ⟨hname', hkeyword', hoperand'⟩ := hd
  have hmatches : Kind.Matches .identifier c.field.name.toList := hname
  have hmatches' : Kind.Matches .identifier d.field.name.toList := hname'
  simp only [outline, List.cons_append, String.join_cons] at heq
  obtain ⟨hop, hlines⟩ := CompareOp.text_append_inj (labelled_append_inj heq)
  obtain ⟨-, hfield, hlines⟩ := hmatches.append_inj hmatches'
    (fun h => absurd h hkeyword) (fun h => absurd h hkeyword') (endsToken_parenthesis _)
    (endsToken_parenthesis _)
    (labelled_append_inj (String.toList_injective (List.cons.inj hlines).2))
  obtain ⟨hoperand, hjoin⟩ := Operand.outline_append_inj hoperand hoperand' hrest hrest'
    (String.toList_injective (List.cons.inj (List.cons.inj hlines).2).2)
  rw [unplaced, unplaced, hop, String.toList_injective hfield, hoperand]
  exact ⟨rfl, hjoin⟩

/-- The first line of a query apart from its indentation. -/
def Query.heading : Query → String
  | .comparison c => "Comparison(" ++ c.op.text ++ ")"
  | .not _ => "Logical(NOT)"
  | .logical op _ _ => "Logical(" ++ op.text ++ ")"

/-- The lines of the parts of a query, and `rest` after them. -/
def Query.partsThen : Query → Nat → List String → List String
  | .comparison c, level, rest =>
    outlineLine (level + 1) ("Identifier(" ++ c.field.name ++ ")") ::
      (c.operand.outline false (level + 1) ++ rest)
  | .not inner, level, rest => inner.outlineThen false (level + 1) rest
  | .logical _ left right, level, rest =>
    left.outlineThen false (level + 1) (right.outlineThen false (level + 1) rest)

/-- The lines of a query are its heading and those of its parts. -/
theorem Query.join_outlineThen (q : Query) (level : Nat) (rest : List String) :
    String.join (q.outlineThen false level rest) =
      outlineLine level q.heading ++ String.join (q.partsThen level rest) := by
  cases q <;>
    simp [outlineThen, Comparison.outline, heading, partsThen, Span.outlineSuffix]

/-- What joins the parts of a query: nothing if it is a comparison, and NOT or a junction. -/
def Query.connective? : Query → Option (Option LogicalOp)
  | .comparison _ => none
  | .not _ => some none
  | .logical op _ _ => some (some op)

/-- The first line tells what joins the parts of a query; if something does, the lines of the parts
come right behind it. -/
theorem Query.heading_append_inj {q q' : Query} {cs ds : List Char}
    (h : q.heading.toList ++ '\n' :: cs = q'.heading.toList ++ '\n' :: ds) :
    q.connective? = q'.connective? ∧ (q.connective?.isSome → cs = ds) := by
  cases q with
  | comparison c => cases q' <;> simp_all [heading, connective?]
  | not inner =>
    cases q' with
    | comparison c => simp [heading] at h
    | not inner' => simpa [heading, connective?] using h
    | logical op left right => cases op <;> simp [heading, LogicalOp.text] at h
  | logical op left right =>
    cases q' with
    | comparison c => simp [heading] at h
    | not inner' => cases op <;> simp [heading, LogicalOp.text] at h
    | logical op' left' right' =>
      cases op <;> cases op' <;> simp_all [heading, connective?, LogicalOp.text]

/-- The lines of a query do not start with one of a value. -/
theorem Query.endsValues_outlineThen (q : Query) (level : Nat) (rest : List String) :
    EndsValues (String.join (q.outlineThen false level rest)) := by
  rw [join_outlineThen]
  cases q with
  | comparison c => exact endsValues_outlineLine level (c := 'C') _ (by simp [heading]) (by decide)
  | not inner => exact endsValues_outlineLine level (c := 'L') _ (by simp [heading]) (by decide)
  | logical op left right =>
    exact endsValues_outlineLine level (c := 'L') _ (by simp [heading]) (by decide)

/-- Queries are told apart by their lines if no value follows. -/
theorem Query.outlineThen_inj {q q' : Query} (h : q.Printable) (h' : q'.Printable) {level : Nat}
    {rest rest' : List String} (hrest : EndsValues (String.join rest))
    (hrest' : EndsValues (String.join rest'))
    (heq : String.join (q.outlineThen false level rest) =
      String.join (q'.outlineThen false level rest')) :
    q.unplaced = q'.unplaced ∧ String.join rest = String.join rest' := by
  induction q generalizing q' level rest rest' with
  | comparison c =>
    have hline := heq
    rw [join_outlineThen, join_outlineThen] at hline
    cases q' with
    | comparison d =>
      obtain ⟨hc, hjoin⟩ := Comparison.outline_append_inj h h' hrest hrest' heq
      rw [unplaced, unplaced, hc]
      exact ⟨rfl, hjoin⟩
    | not inner' => cases (heading_append_inj (outlineLine_append_inj hline)).1
    | logical op' left' right' => cases (heading_append_inj (outlineLine_append_inj hline)).1
  | not inner ih =>
    rw [join_outlineThen, join_outlineThen] at heq
    obtain ⟨hconnective, hparts⟩ := heading_append_inj (outlineLine_append_inj heq)
    cases q' with
    | comparison d => cases hconnective
    | not inner' =>
      have hprintable : inner'.Printable := h'
      obtain ⟨hinner, hjoin⟩ :=
        ih h hprintable hrest hrest' (String.toList_injective (hparts rfl))
      rw [unplaced, unplaced, hinner]
      exact ⟨rfl, hjoin⟩
    | logical op' left' right' => cases hconnective
  | logical op left right ihleft ihright =>
    rw [join_outlineThen, join_outlineThen] at heq
    obtain ⟨hconnective, hparts⟩ := heading_append_inj (outlineLine_append_inj heq)
    cases q' with
    | comparison d => cases hconnective
    | not inner' => cases hconnective
    | logical op' left' right' =>
      obtain rfl : op = op' := Option.some.inj (Option.some.inj hconnective)
      -- A set at the end of the left part ends in front of the right part.
      obtain ⟨hleft, hbetween⟩ := ihleft h.1 h'.1 (right.endsValues_outlineThen _ _)
        (right'.endsValues_outlineThen _ _) (String.toList_injective (hparts rfl))
      obtain ⟨hright, hjoin⟩ := ihright h.2 h'.2 hrest hrest' hbetween
      rw [unplaced, unplaced, hleft, hright]
      exact ⟨rfl, hjoin⟩

/-! ## Outlines without places -/

/-- Without places, the outline of an operand does not depend on them. -/
theorem Operand.outline_unplaced (o : Operand) (level : Nat) :
    o.unplaced.outline false level = o.outline false level := by
  cases o with
  | scalar v => rfl
  | set values span =>
    rw [unplaced, outline, outline, List.map_map]
    rfl

/-- Without places, the lines of a query do not depend on them. -/
theorem Query.outlineThen_unplaced (q : Query) (level : Nat) (rest : List String) :
    q.unplaced.outlineThen false level rest = q.outlineThen false level rest := by
  induction q generalizing level rest with
  | comparison c =>
    rw [unplaced, outlineThen, outlineThen, Comparison.outline, Comparison.outline,
      Comparison.unplaced, Operand.outline_unplaced]
    rfl
  | not inner ih => rw [unplaced, outlineThen, outlineThen, ih]
  | logical op left right ihleft ihright =>
    rw [unplaced, outlineThen, outlineThen, ihleft, ihright]

/-- Two queries that were read from texts have the same outline without places just if they are the
same query up to its places, whatever their strings hold. -/
theorem outline_eq_iff {source source' : String} {limit limit' : Option Nat} {q q' : Query}
    (h : Query.parse source limit = .ok q) (h' : Query.parse source' limit' = .ok q') :
    q.outline false = q'.outline false ↔ q.unplaced = q'.unplaced := by
  constructor
  · intro heq
    rw [Query.outline, Query.outline, String.join_cons, String.join_cons] at heq
    have hlines := outlineLine_append_inj heq
    have hends : EndsValues (String.join []) := by simp [EndsValues]
    exact (Query.outlineThen_inj (Query.printable_of_parse h) (Query.printable_of_parse h') hends
      hends (String.toList_injective (by simpa using hlines))).1
  · intro heq
    rw [Query.outline, Query.outline, ← q.outlineThen_unplaced, heq, q'.outlineThen_unplaced]

/-- A string that holds what looks like the end of a value and the line of another one is not taken
for two strings. -/
theorem outline_of_imitated_line :
    let one : Query := .not (.comparison ⟨⟨"A", ⟨4, 5⟩⟩, .isIn,
      .set [⟨.str "1)\n        Value(2", ⟨10, 30⟩⟩] ⟨9, 31⟩⟩)
    let two : Query := .not (.comparison ⟨⟨"A", ⟨5, 6⟩⟩, .isIn,
      .set [⟨.str "1", ⟨11, 14⟩⟩, ⟨.str "2", ⟨16, 19⟩⟩] ⟨10, 20⟩⟩)
    Query.parse "NOT A IN \x7b'1)\n        Value(2'\x7d" (some 1) = .ok one ∧
      Query.parse "NOT (A IN \x7b\"1\", '2'\x7d)" none = .ok two ∧
      one.outline false ≠ two.outline false := by
  intro one two
  have hone : Query.parse "NOT A IN \x7b'1)\n        Value(2'\x7d" (some 1) = .ok one := by
    decide +kernel
  have htwo : Query.parse "NOT (A IN \x7b\"1\", '2'\x7d)" none = .ok two := by decide +kernel
  have hne : one.unplaced ≠ two.unplaced := by decide +kernel
  exact ⟨hone, htwo, fun h => hne ((outline_eq_iff hone htwo).mp h)⟩

end ResumeFilter
