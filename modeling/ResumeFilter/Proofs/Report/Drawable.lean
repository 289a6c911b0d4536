import ResumeFilter.Proofs.Lowering.Failure
import ResumeFilter.Proofs.Query.Comparisons
import ResumeFilter.Proofs.Query.Pointing
import ResumeFilter.Report.Diagnostic

/-!
# What is drawn for an error

A report draws the characters of a span, so the span must be inside the source and cut no character.
That is so for the span of every error of scanning, parsing and planning, once an empty span has
grown to the character at its place (`Error.isDrawable_of_arises`). Only an error at the end of the
source has nothing to draw.
-/

namespace ResumeFilter

open Grammar Text Token

/-! ## Spans that can be drawn -/

namespace Text

/-- The character that starts behind a part of a text. -/
theorem charAt?_append (before : List Char) (c : Char) (after : List Char) :
    charAt? (byteLength before) (before ++ c :: after) = some c := by
  induction before with
  | nil => rfl
  | cons d before ih =>
    have := d.utf8Size_pos
    rw [byteLength_cons, List.cons_append, charAt?, if_neg (by omega), if_pos (by omega),
      Nat.add_sub_cancel_left, ih]

/-- No character starts at the end of a text. -/
theorem charAt?_byteLength (cs : List Char) : charAt? (byteLength cs) cs = none := by
  induction cs with
  | nil => rfl
  | cons c cs ih =>
    have := c.utf8Size_pos
    rw [byteLength_cons, charAt?, if_neg (by omega), if_pos (by omega), Nat.add_sub_cancel_left, ih]

end Text

namespace Span

/-- Whether a span is inside a source and cuts no character. -/
structure Fits (source : List Char) (span : Span) : Prop where
  le : span.start ≤ span.stop
  within : span.stop ≤ byteLength source
  start_boundary : IsBoundary source span.start
  stop_boundary : IsBoundary source span.stop

/-- A span that is not empty is drawn as it is. -/
theorem drawn_of_lt {source : List Char} {span : Span} (h : span.start < span.stop) :
    span.drawn source = span := if_neg (Nat.ne_of_lt h)

/-- An empty span in front of a character is drawn as this character. -/
theorem drawn_empty (before : List Char) (c : Char) (after : List Char) :
    (empty (byteLength before)).drawn (before ++ c :: after) =
      ⟨byteLength before, byteLength before + c.utf8Size⟩ := by
  simp only [drawn, empty, if_true, charAt?_append]

/-- The empty span at the end of a source stays empty. -/
theorem drawn_empty_byteLength (source : List Char) :
    (empty (byteLength source)).drawn source = empty (byteLength source) := by
  simp only [drawn, empty, if_true, charAt?_byteLength]

end Span

/-- What tokens of a source extend over fits the source and is not empty, and so is drawn as it
is. -/
theorem Token.IsExtent.fits {source : List Char} {tokens part : List Token} {span : Span}
    (h : IsExtent part span) (htiles : Tiles source 0 (byteLength source) tokens)
    (hpart : part.Sublist tokens) :
    span.Fits source ∧ span.start < span.stop ∧ span.drawn source = span := by
  have hlt := (h.bounds (htiles.inOrder.sublist hpart)).1
  obtain ⟨hstart, hstop⟩ := h.boundaries fun token htoken =>
    htiles.isTokenOf token (hpart.subset htoken)
  exact ⟨⟨Nat.le_of_lt hlt, hstop.le, hstart, hstop⟩, hlt, Span.drawn_of_lt hlt⟩

/-- The span of a token of a source fits the source and is not empty, and so is drawn as it is. -/
theorem Token.fits_of_mem {source : List Char} {tokens : List Token} {token : Token}
    (htoken : token ∈ tokens) (htiles : Tiles source 0 (byteLength source) tokens) :
    token.span.Fits source ∧ token.span.start < token.span.stop ∧
      token.span.drawn source = token.span :=
  (isExtent_singleton token).fits htiles (List.singleton_sublist.mpr htoken)

/-! ## Errors -/

/-- An error of reading tokens is at the end of the source, or at one of the tokens. -/
theorem ParseError.PointsInto.span_cases {sourceLength : Nat} {tokens rest : List Token}
    {error : ParseError} (h : error.PointsInto sourceLength tokens rest) :
    (error.kind = .unexpectedEnd ∨ error.kind = .unclosed) ∧ error.span = .empty sourceLength ∨
      ¬(error.kind = .unexpectedEnd ∨ error.kind = .unclosed) ∧
        ∃ token ∈ tokens, error.span = token.span := by
  by_cases hend : error.kind = .unexpectedEnd ∨ error.kind = .unclosed
  · exact .inl ⟨hend, (h.ending hend).2.2⟩
  · refine .inr ⟨hend, ?_⟩
    rw [not_or] at hend
    cases hkind : error.kind with
    | lexical => exact absurd hkind h.syntactic
    | unexpectedEnd => exact absurd hkind hend.1
    | unclosed => exact absurd hkind hend.2
    | tooDeep =>
      obtain ⟨-, token, htoken, -, hspan⟩ := h.nesting hkind
      exact ⟨token, htoken, hspan⟩
    | unexpectedToken | invalidNumber | trailingInput =>
      obtain ⟨token, htoken, -, hspan⟩ := h.token (by simp [hkind])
      exact ⟨token, htoken, hspan⟩

namespace Error

/-- Whether an error comes from a source: from scanning it, from parsing it under some limit, or
from lowering what was parsed onto some backend. -/
inductive Arises (source : String) : Error → Prop
  | scan {error : LexError} (h : Token.scan source.toList = .error error) :
    Arises source (.parse (.lexical error))
  | parse {limit : Option Nat} {error : ParseError} (h : Query.parse source limit = .error error) :
    Arises source (.parse error)
  | resolve {σ κ π : Type} {backend : Backend σ κ π} {state : σ} {limit : Option Nat} {q : Query}
    {error : ResolveError} (hparse : Query.parse source limit = .ok q)
    (h : (q.lower backend state).1 = .error error) : Arises source (.resolve error)

/-- Whether an error is that the source ends too early. -/
def IsAtEnd : Error → Prop
  | .parse error => error.kind = .unexpectedEnd ∨ error.kind = .unclosed
  | .resolve _ => False

/-- Whether what is drawn for an error fits the source.

- At the end of the source nothing is drawn, and elsewhere at least a character.
- An error of scanning is drawn as the one character with which no token and no blank starts.
- The related place of an error is not empty, and comes in front of the error. -/
structure IsDrawable (source : List Char) (error : Error) : Prop where
  fits : (error.span.drawn source).Fits source
  ending : error.IsAtEnd → error.span.drawn source = .empty (byteLength source)
  nonempty : ¬error.IsAtEnd → (error.span.drawn source).start < (error.span.drawn source).stop
  lexical : ∀ lexical, error = .parse (.lexical lexical) → ∃ before c after,
    source = before ++ c :: after ∧
      error.span.drawn source = ⟨byteLength before, byteLength before + c.utf8Size⟩ ∧
      c ∉ blanks ∧ ∀ text, text <+: c :: after → ∀ kind : Kind, ¬kind.Matches text
  related : ∀ r, error.related? = some r → (r.span.drawn source).Fits source ∧
    (r.span.drawn source).start < (r.span.drawn source).stop ∧
      (r.span.drawn source).stop ≤ (error.span.drawn source).start

/-- An error of scanning is drawn as a character. -/
theorem isDrawable_of_scan {source : List Char} (hlength : byteLength source < 2 ^ 32)
    {error : LexError} (h : Token.scan source = .error error) :
    IsDrawable source (.parse (.lexical error)) := by
  obtain ⟨before, c, after, rfl, rfl, hstuck⟩ := exists_stuck_of_scan h
  have hoffset : byteLength before ≤ LexError.maxOffset := by
    rw [byteLength_append] at hlength
    rw [LexError.maxOffset]
    omega
  have hspan : (Error.parse (.lexical ⟨byteLength before, .invalidCharacter c⟩)).span =
      .empty (byteLength before) :=
    congrArg Span.empty (Nat.min_eq_left hoffset)
  have hdrawn := Span.drawn_empty before c after
  have hpos := c.utf8Size_pos
  have hstop : IsBoundary (before ++ c :: after) (byteLength before + c.utf8Size) :=
    ⟨before ++ [c], after, by simp, by simp⟩
  refine ⟨?_, nofun, fun _ => ?_, fun _ _ => ⟨before, c, after, rfl, ?_, ?_, ?_⟩, nofun⟩
  · rw [hspan, hdrawn]
    exact ⟨Nat.le_add_right _ _, hstop.le, isBoundary_append before _, hstop⟩
  · rw [hspan, hdrawn]
    exact Nat.lt_add_of_pos_right hpos
  · rw [hspan, hdrawn]
  · rw [← isBlank_iff, (hstuck c rfl).1]
    exact Bool.false_ne_true
  · intro text hstart kind hmatches
    exact (hstuck.not_matches hmatches.ne_nil hstart).1 kind hmatches

/-- An error of reading tokens is drawn as a token, or nothing is drawn at the end. -/
theorem isDrawable_of_pointsInto {source : List Char} {tokens rest : List Token}
    (htiles : Tiles source 0 (byteLength source) tokens) {error : ParseError}
    (h : error.PointsInto (byteLength source) tokens rest) :
    IsDrawable source (.parse error) := by
  have hlexical : ∀ lexical, Error.parse error ≠ .parse (.lexical lexical) := by
    rintro lexical ⟨⟩
    exact h.syntactic rfl
  have hopening : ∀ r, error.related? = some r → ∃ opening ∈ tokens,
      r.span = opening.span ∧ opening.span.start < error.span.start := by
    intro r hr
    obtain ⟨opening, outer, houter, hspan⟩ := h.related r hr
    have hmem : opening ∈ openBrackets [] (tokens.filter (·.span.start < error.offset)) := by
      simp [houter]
    obtain ⟨htoken, hlt⟩ :=
      List.mem_filter.mp ((mem_openBrackets hmem).resolve_left List.not_mem_nil).1
    exact ⟨opening, htoken, hspan, of_decide_eq_true hlt⟩
  rcases h.span_cases with ⟨hend, hspan⟩ | ⟨hend, token, htoken, hspan⟩
  · have hdrawn : (Error.parse error).span.drawn source = .empty (byteLength source) := by
      rw [span, hspan, Span.drawn_empty_byteLength]
    refine ⟨?_, fun _ => hdrawn, fun hnot => absurd hend hnot,
      fun lexical heq => absurd heq (hlexical lexical), fun r hr => ?_⟩
    · rw [hdrawn]
      have hboundary : IsBoundary source (byteLength source) := ⟨source, [], by simp, rfl⟩
      exact ⟨Nat.le_refl _, Nat.le_refl _, hboundary, hboundary⟩
    · obtain ⟨opening, hopening, hr, -⟩ := hopening r hr
      obtain ⟨hfits, hlt, hsame⟩ := Token.fits_of_mem hopening htiles
      rw [hr, hsame, hdrawn]
      exact ⟨hfits, hlt, hfits.within⟩
  · obtain ⟨hfits, hlt, hsame⟩ := Token.fits_of_mem htoken htiles
    have hdrawn : (Error.parse error).span.drawn source = token.span := by
      rw [span, hspan, hsame]
    refine ⟨hdrawn ▸ hfits, fun hat => absurd hat hend, fun _ => hdrawn ▸ hlt,
      fun lexical heq => absurd heq (hlexical lexical), fun r hr => ?_⟩
    obtain ⟨opening, hopening, hr, hfront⟩ := hopening r hr
    obtain ⟨hfits', hlt', hsame'⟩ := Token.fits_of_mem hopening htiles
    rw [hr, hsame', hdrawn]
    exact ⟨hfits', hlt', htiles.inOrder.stop_le hopening htoken (hspan ▸ hfront)⟩

/-- An error of a comparison is drawn as its field name or its operand. -/
theorem isDrawable_of_fault {source : List Char} {tokens part : List Token}
    (htiles : Tiles source 0 (byteLength source) tokens) (hpart : part.Sublist tokens)
    {c : Comparison} (h : IsComparison part c) {error : ResolveError} (hfault : c.Fault error) :
    IsDrawable source (.resolve error) := by
  have hextent : ∃ part', part'.Sublist tokens ∧ IsExtent part' error.span := by
    cases h with
    | @intro name token operands op operand hname hop hoperand =>
      have hoperands : operands.Sublist tokens :=
        ((List.sublist_cons_self _ _).trans (List.sublist_cons_self _ _)).trans hpart
      have hspan := hoperand.isExtent (htiles.inOrder.sublist hoperands)
      cases hfault with
      | unknownField =>
        exact ⟨[name], (List.singleton_sublist.mpr List.mem_cons_self).trans hpart,
          isExtent_singleton name⟩
      | scalarWithIn => exact ⟨operands, hoperands, hspan⟩
      | setWithScalarOperator => exact ⟨operands, hoperands, hspan⟩
  obtain ⟨part', hpart', hspan⟩ := hextent
  obtain ⟨hfits, hlt, hsame⟩ := hspan.fits htiles hpart'
  have hdrawn : (Error.resolve error).span.drawn source = error.span := hsame
  exact ⟨hdrawn ▸ hfits, False.elim, fun _ => hdrawn ▸ hlt, nofun, nofun⟩

/-- Whatever error comes from a source of less than 4 GiB, what is drawn for it fits the source. -/
theorem isDrawable_of_arises {source : String} (hlength : byteLength source.toList < 2 ^ 32)
    {error : Error} (h : error.Arises source) : error.IsDrawable source.toList := by
  cases h with
  | scan h => exact isDrawable_of_scan hlength h
  | parse h =>
    rw [Query.parse] at h
    split at h
    next hscan =>
      obtain rfl := Except.error.inj h
      exact isDrawable_of_scan hlength hscan
    next tokens hscan =>
      exact isDrawable_of_pointsInto (tiles_of_scan hscan)
        (ParseError.pointsInto_of_ofTokens hscan h)
  | @resolve _ _ _ _ _ _ q _ hparse h =>
    obtain ⟨tokens, hscan, -, hderives⟩ := Query.exists_derives_of_parse hparse
    obtain ⟨before, c, after, hleaves, -, hfault⟩ :=
      Query.plan_eq_error_iff_fault.mp (Query.lower_eq_error_iff.mp h)
    have hc : c ∈ q.comparisons := by
      rw [q.comparisons_eq_leaves, hleaves]
      simp
    obtain ⟨front, part, behind, rfl, hpart⟩ := hderives.holds.exists_part hc
    exact isDrawable_of_fault (tiles_of_scan hscan) (List.infix_append front part behind).sublist
      hpart hfault

/-- A letter of two bytes that starts no token is drawn as these two bytes. -/
theorem isDrawable_of_letter :
    Query.parse "YOE > é" none = .error (.lexical ⟨6, .invalidCharacter 'é'⟩) ∧
      (Span.empty 6).drawn "YOE > é".toList = ⟨6, 8⟩ ∧ Span.Fits "YOE > é".toList ⟨6, 8⟩ := by
  have hparse : Query.parse "YOE > é" none = .error (.lexical ⟨6, .invalidCharacter 'é'⟩) := by
    decide +kernel
  have hdrawn : (Span.empty 6).drawn "YOE > é".toList = ⟨6, 8⟩ := by decide
  have hdrawable := isDrawable_of_arises (by decide) (.parse hparse)
  have hfits : ((Span.empty 6).drawn "YOE > é".toList).Fits "YOE > é".toList := hdrawable.fits
  exact ⟨hparse, hdrawn, hdrawn ▸ hfits⟩

end Error

end ResumeFilter
