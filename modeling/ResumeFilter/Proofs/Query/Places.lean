import ResumeFilter.Proofs.Query.Literals
import ResumeFilter.Proofs.Query.Printable
import ResumeFilter.Proofs.Query.RoundTrip

/-!
# The places in a query

Every place that a parsed query names is that of the part of the source which says the same
(`parse_places`). Field names and values are at their tokens, sets go from brace to brace, and
comparisons follow each other as they do in the text. What stands at the place of a comparison is a
text of its own: it parses to the same comparison, moved to the start.
-/

namespace ResumeFilter

open Grammar Token Text

/-! ## Moved comparisons -/

/-- A value as it is in a text with `n` more bytes in front. -/
def Value.shift (n : Nat) (v : Value) : Value := { v with span := v.span.shift n }

/-- An operand as it is in a text with `n` more bytes in front. -/
def Operand.shift (n : Nat) : Operand → Operand
  | .scalar value => .scalar (value.shift n)
  | .set values span => .set (values.map (Value.shift n)) (span.shift n)

/-- A comparison as it is in a text with `n` more bytes in front. -/
def Comparison.shift (n : Nat) (c : Comparison) : Comparison :=
  ⟨⟨c.field.name, c.field.span.shift n⟩, c.op, c.operand.shift n⟩

/-- What a moved token denotes it denotes where it was. -/
theorem Token.Denotes.of_shift {n : Nat} {token : Token} {literal : Literal}
    (h : (token.shift n).Denotes literal) : token.Denotes literal := by
  cases h with
  | number hkind hvalue => exact .number hkind hvalue
  | string hkind => exact .string hkind
  | bool hkind hvalue => exact .bool hkind hvalue

namespace Grammar

/-- The values of moved scalars are moved values. -/
theorem Scalars.of_shift {n : Nat} {tokens : List Token} {values : List Value}
    (h : Scalars (tokens.map (Token.shift n)) values) :
    ∃ values', Scalars tokens values' ∧ values = values'.map (Value.shift n) := by
  generalize hmoved : tokens.map (Token.shift n) = moved at h
  induction h generalizing tokens with
  | one hdenotes =>
    obtain ⟨token, rfl, rfl⟩ := List.map_eq_singleton_iff.mp hmoved
    exact ⟨_, .one hdenotes.of_shift, rfl⟩
  | more hdenotes hcomma _ ih =>
    obtain ⟨token, others, rfl, rfl, hothers⟩ := List.map_eq_cons_iff.mp hmoved
    obtain ⟨comma, rest, rfl, rfl, hrest⟩ := List.map_eq_cons_iff.mp hothers
    obtain ⟨values', hscalars, rfl⟩ := ih hrest
    exact ⟨_, .more hdenotes.of_shift hcomma hscalars, rfl⟩

/-- What moved tokens are as an operand is a moved operand. -/
theorem IsOperand.of_shift {n : Nat} {tokens : List Token} {o : Operand}
    (h : IsOperand (tokens.map (Token.shift n)) o) :
    ∃ o', IsOperand tokens o' ∧ o = o'.shift n := by
  generalize hmoved : tokens.map (Token.shift n) = moved at h
  cases h with
  | scalar hdenotes =>
    obtain ⟨token, rfl, rfl⟩ := List.map_eq_singleton_iff.mp hmoved
    exact ⟨_, .scalar hdenotes.of_shift, rfl⟩
  | emptySet hopening hclosing =>
    obtain ⟨opening, others, rfl, rfl, hothers⟩ := List.map_eq_cons_iff.mp hmoved
    obtain ⟨closing, rfl, rfl⟩ := List.map_eq_singleton_iff.mp hothers
    refine ⟨_, .emptySet hopening hclosing, ?_⟩
    rw [Operand.shift, ← Span.cover_shift]
    rfl
  | set hopening hscalars hclosing =>
    obtain ⟨opening, others, rfl, rfl, hothers⟩ := List.map_eq_cons_iff.mp hmoved
    obtain ⟨inner, ends, rfl, rfl, hends⟩ := List.map_eq_append_iff.mp hothers
    obtain ⟨closing, rfl, rfl⟩ := List.map_eq_singleton_iff.mp hends
    obtain ⟨values, hinner, rfl⟩ := hscalars.of_shift
    refine ⟨_, .set hopening hinner hclosing, ?_⟩
    rw [Operand.shift, ← Span.cover_shift]
    rfl

/-- What moved tokens are as a comparison is a moved comparison. -/
theorem IsComparison.of_shift {n : Nat} {tokens : List Token} {c : Comparison}
    (h : IsComparison (tokens.map (Token.shift n)) c) :
    ∃ c', IsComparison tokens c' ∧ c = c'.shift n := by
  generalize hmoved : tokens.map (Token.shift n) = moved at h
  cases h with
  | intro hname hop hoperand =>
    obtain ⟨name, others, rfl, rfl, hothers⟩ := List.map_eq_cons_iff.mp hmoved
    obtain ⟨operator, rest, rfl, rfl, rfl⟩ := List.map_eq_cons_iff.mp hothers
    obtain ⟨o, ho, rfl⟩ := hoperand.of_shift
    exact ⟨_, .intro hname hop ho, rfl⟩

end Grammar

/-! ## Comparisons as texts -/

/-- The tokens of a comparison are read as it, whatever the limit: a comparison does not nest. -/
theorem Grammar.IsComparison.ofTokens_eq {setting : Parser.Setting} {tokens : List Token}
    {c : Comparison} (h : IsComparison tokens c) (hends : ∀ token ∈ tokens, token.HasEnds) :
    Query.ofTokens setting tokens = .ok (.comparison c) := by
  cases h with
  | intro hname hop hoperand =>
    have hread : Parser.ReadsToEnd setting _ _ _ := Parser.readsToEnd_expression
      (Parser.readsToEnd_comparison hname hop hoperand) (Parser.readsToEnd_done _)
    rw [List.append_nil] at hread
    exact ofTokens_of_readsToEnd hread hends

/-- The text that a comparison of a source extends over is parsed as this comparison, moved to the
start. -/
theorem Grammar.IsComparison.exists_parse {source : List Char} {before part after : List Token}
    {c : Comparison} (h : IsComparison part c) (hscan : scan source = .ok (before ++ part ++ after))
    (limit : Option Nat) :
    ∃ c', Query.parse (String.ofList (slice source c.span)) limit = .ok (.comparison c') ∧
      c = c'.shift c.span.start := by
  have horder : InOrder part :=
    (tiles_of_scan hscan).inOrder.sublist (List.infix_append before part after).sublist
  obtain ⟨tokens, hslice, hpart⟩ := exists_scan_slice hscan (h.isExtent horder)
  rw [hpart] at h
  obtain ⟨c', hc', hshift⟩ := h.of_shift
  refine ⟨c', ?_, hshift⟩
  rw [Query.parse, String.toList_ofList, hslice]
  exact hc'.ofTokens_eq (hasEnds_of_scan hslice)

/-! ## Sets -/

/-- Whether a set with some values stands in a span of a source: the span goes from an opening brace
to a closing one, and the values are between them and in order. -/
structure IsSetAt (tokens : List Token) (values : List Value) (span : Span) : Prop where
  opening : ∃ token ∈ tokens, token.kind = .braceOpen ∧ token.text = "\x7b" ∧
    token.span.start = span.start
  closing : ∃ token ∈ tokens, token.kind = .braceClose ∧ token.text = "\x7d" ∧
    token.span.stop = span.stop
  within : ∀ v ∈ values, span.start < v.span.start ∧ v.span.start < v.span.stop ∧
    v.span.stop < span.stop
  ordered : values.Pairwise fun v v' => v.span.stop ≤ v'.span.start

/-- The tokens of a set are its braces and between them those of its values. -/
theorem Grammar.IsOperand.exists_braces {part : List Token} {values : List Value} {span : Span}
    (h : IsOperand part (.set values span)) :
    ∃ opening inner closing, part = opening :: (inner ++ [closing]) ∧
      opening.kind = .braceOpen ∧ closing.kind = .braceClose ∧ ScalarsAre inner values := by
  cases h with
  | emptySet hopening hclosing => exact ⟨_, [], _, rfl, hopening, hclosing, .nil⟩
  | set hopening hscalars hclosing =>
    exact ⟨_, _, _, rfl, hopening, hclosing, hscalars.scalarsAre⟩

/-- Values of tokens in order are in order. -/
theorem ScalarsAre.pairwise {tokens : List Token} {values : List Value}
    (h : ScalarsAre tokens values) (horder : InOrder tokens) :
    values.Pairwise fun v v' => v.span.stop ≤ v'.span.start := by
  have hscalars : (Token.scalars tokens).Pairwise fun a b => a.span.stop ≤ b.span.start :=
    horder.ordered.sublist List.filter_sublist
  rw [← List.pairwise_map (f := Token.span) (R := fun a b => a.stop ≤ b.start), ← h.map_span,
    List.pairwise_map] at hscalars
  exact hscalars

/-- A set stands where its span says. -/
theorem Grammar.IsOperand.isSetAt {source : List Char} {tokens part : List Token}
    {values : List Value} {span : Span} (h : IsOperand part (.set values span))
    (htiles : Tiles source 0 (byteLength source) tokens) (hpart : part.Sublist tokens) :
    IsSetAt tokens values span := by
  have horder : InOrder part := htiles.inOrder.sublist hpart
  have hextent := h.isExtent horder
  obtain ⟨opening, inner, closing, rfl, hopening, hclosing, hvalues⟩ := h.exists_braces
  obtain rfl := hextent.eq
  have hmem : opening ∈ tokens ∧ closing ∈ tokens :=
    ⟨hpart.subset (by simp), hpart.subset (by simp)⟩
  have hopen := (htiles.isTokenOf opening hmem.1).matches_text
  have hclose := (htiles.isTokenOf closing hmem.2).matches_text
  rw [hopening] at hopen
  rw [hclosing] at hclose
  have hinner : InOrder inner :=
    horder.sublist (.cons _ (List.sublist_append_left _ _))
  refine ⟨⟨opening, hmem.1, hopening, String.toList_inj.mp hopen, rfl⟩,
    ⟨closing, hmem.2, hclosing, String.toList_inj.mp hclose, rfl⟩, fun v hv => ?_,
    hvalues.pairwise hinner⟩
  obtain ⟨token, htoken, hvalue⟩ := hvalues.exists_token hv
  have htoken : token ∈ inner := List.mem_of_mem_filter htoken
  rw [hvalue.span]
  have hbehind := (List.pairwise_cons.mp horder.ordered).1 token (by simp [htoken])
  have hfront := (List.pairwise_append.mp (List.pairwise_cons.mp horder.ordered).2).2.2 token htoken
    closing (by simp)
  exact ⟨Nat.lt_of_lt_of_le (horder.nonempty opening (by simp)) hbehind,
    hinner.nonempty token htoken, Nat.lt_of_le_of_lt hfront (horder.nonempty closing (by simp))⟩

/-! ## Queries -/

/-- Whether the places of a comparison are those of what it says in the source.

- What stands at the place of the field is its name.
- What stands at the place of a value is the text of a token that denotes the literal.
- A set goes from its opening brace to its closing one, with its values in between.
- What stands at the place of the comparison is a text that parses to it, moved to the start. -/
structure Comparison.IsPlaced (source : List Char) (tokens : List Token) (c : Comparison) :
    Prop where
  nonempty : c.span.start < c.span.stop
  field : slice source c.field.span = c.field.name.toList
  value : ∀ v ∈ c.operand.values,
    ∃ token ∈ tokens, token.IsValue v ∧ slice source v.span = token.text.toList
  set : ∀ values span, c.operand = .set values span → IsSetAt tokens values span
  alone : ∀ limit, ∃ c',
    Query.parse (String.ofList (slice source c.span)) limit = .ok (.comparison c') ∧
      c = c'.shift c.span.start

/-- Whether the places of a query are those of what it says in the source: its comparisons are in
their places and in order, and they use each field name and each scalar among the tokens once. -/
structure Query.IsPlaced (source : List Char) (tokens : List Token) (q : Query) : Prop where
  comparison : ∀ c ∈ q.comparisons, c.IsPlaced source tokens
  ordered : q.comparisons.Pairwise fun c c' => c.span.stop ≤ c'.span.start
  fields : List.Forall₂ Token.IsField (Token.fields tokens) q.comparisons
  values : List.Forall₂ Token.IsValue (Token.scalars tokens)
    (q.comparisons.flatMap fun c => c.operand.values)

/-- A comparison that tokens of a source hold is in its place. -/
theorem Grammar.IsComparison.isPlaced {source : List Char} {before part after : List Token}
    {c : Comparison} (h : IsComparison part c)
    (hscan : scan source = .ok (before ++ part ++ after)) :
    c.IsPlaced source (before ++ part ++ after) := by
  have htiles := tiles_of_scan hscan
  have hpart : part.Sublist (before ++ part ++ after) :=
    (List.infix_append before part after).sublist
  have hextent := h.isExtent (htiles.inOrder.sublist hpart)
  refine ⟨(hextent.bounds (htiles.inOrder.sublist hpart)).1, ?_, ?_, ?_, h.exists_parse hscan⟩
  · cases h with
    | @intro name _ _ _ _ hname _ _ =>
      exact (htiles.isTokenOf name (by simp)).text_eq.symm
  · cases h with
    | @intro name token tokens _ operand _ _ hoperand =>
      intro v hv
      obtain ⟨scalar, hscalar, hvalue⟩ := hoperand.scalarsAre.exists_token hv
      have hmem : scalar ∈ tokens := List.mem_of_mem_filter hscalar
      have htoken : scalar ∈ before ++ (name :: token :: tokens) ++ after := by simp [hmem]
      refine ⟨scalar, htoken, hvalue, ?_⟩
      rw [hvalue.span, (htiles.isTokenOf scalar htoken).text_eq]
  · cases h with
    | intro _ _ hoperand =>
      rintro values span rfl
      exact hoperand.isSetAt htiles ((List.Sublist.cons _ (List.sublist_cons_self _ _)).trans hpart)

/-- The places of a query that was parsed from a source are those of what it says there. -/
theorem parse_places {source : String} {limit : Option Nat} {q : Query}
    (h : Query.parse source limit = .ok q) :
    ∃ tokens, scan source.toList = .ok tokens ∧ q.IsPlaced source.toList tokens := by
  obtain ⟨tokens, hscan, -, hderives⟩ := Query.exists_derives_of_parse h
  have hholds := hderives.holds
  refine ⟨tokens, hscan, fun c hc => ?_, hholds.pairwise (tiles_of_scan hscan).inOrder,
    hholds.fields, hholds.scalarsAre⟩
  obtain ⟨before, part, after, rfl, hpart⟩ := hholds.exists_part hc
  exact hpart.isPlaced hscan

/-- What stands at the place of a nested comparison, behind a character of two bytes, parses to this
comparison at the start of a text. -/
theorem parse_places_of_nested :
    Query.parse "A = 'é' OR NOT (B IN \x7b1, 2\x7d)" none = .ok
      (.logical .or
        (.comparison ⟨⟨"A", ⟨0, 1⟩⟩, .scalar .eq, .scalar ⟨.str "é", ⟨4, 8⟩⟩⟩)
        (.not (.comparison
          ⟨⟨"B", ⟨17, 18⟩⟩, .isIn, .set [⟨.int 1, ⟨23, 24⟩⟩, ⟨.int 2, ⟨26, 27⟩⟩] ⟨22, 28⟩⟩))) ∧
    ∃ c, Query.parse "B IN \x7b1, 2\x7d" (some 0) = .ok (.comparison c) ∧
      ⟨⟨"B", ⟨17, 18⟩⟩, .isIn, .set [⟨.int 1, ⟨23, 24⟩⟩, ⟨.int 2, ⟨26, 27⟩⟩] ⟨22, 28⟩⟩ =
        c.shift 17 := by
  have hparse : Query.parse "A = 'é' OR NOT (B IN \x7b1, 2\x7d)" none = .ok
      (.logical .or
        (.comparison ⟨⟨"A", ⟨0, 1⟩⟩, .scalar .eq, .scalar ⟨.str "é", ⟨4, 8⟩⟩⟩)
        (.not (.comparison ⟨⟨"B", ⟨17, 18⟩⟩, .isIn,
          .set [⟨.int 1, ⟨23, 24⟩⟩, ⟨.int 2, ⟨26, 27⟩⟩] ⟨22, 28⟩⟩))) := by
    decide +kernel
  obtain ⟨tokens, -, hplaced⟩ := parse_places hparse
  exact ⟨hparse, (hplaced.comparison _ (List.mem_cons_of_mem _ List.mem_cons_self)).alone (some 0)⟩

end ResumeFilter
