import ResumeFilter.Proofs.Query.Failing
import ResumeFilter.Proofs.Query.Limit
import ResumeFilter.Proofs.Query.Lockstep
import ResumeFilter.Proofs.Query.Splicing

/-!
# Layout

The blanks between the tokens of a source are layout. If the tokens are set apart by other blanks,
they are still found (`scan_source`), and tokens with the same kinds and texts are read as the same
query or with the same error, wherever they stand (`corresponds_ofTokens`).
-/

namespace ResumeFilter

open Grammar Opening Text Token

/-! ## Tokens set apart by blanks -/

/-- How a number of tokens is laid out: the blanks in front of the first one and behind each. Only
the last token may have none behind it. -/
structure Layout (count : Nat) where
  lead : List Char
  gaps : List (List Char)
  length_gaps : gaps.length = count
  blank_lead : ∀ c ∈ lead, c ∈ blanks
  blank_gaps : ∀ gap ∈ gaps, ∀ c ∈ gap, c ∈ blanks
  gaps_ne_nil : ∀ gap ∈ gaps.dropLast, gap ≠ []

/-- The texts of tokens, each with a gap behind it. -/
def Token.spaced : List Token → List (List Char) → List Char
  | token :: tokens, gap :: gaps => token.text.toList ++ (gap ++ spaced tokens gaps)
  | _, _ => []

/-- The text that tokens are laid out as. -/
def Layout.source {count : Nat} (layout : Layout count) (tokens : List Token) : List Char :=
  layout.lead ++ spaced tokens layout.gaps

/-- Blanks in front of a text spell nothing. -/
theorem spells_blanks {gap cs : List Char} {spellings : List (Token.Kind × String)}
    (hgap : ∀ c ∈ gap, c ∈ blanks) (h : Spells cs spellings) : Spells (gap ++ cs) spellings := by
  induction gap with
  | nil => exact h
  | cons c gap ih =>
    rw [List.forall_mem_cons] at hgap
    exact .blank (isBlank_iff.mpr hgap.1) (ih hgap.2)

/-- A gap ends the token in front of it, and so does the end of the text. -/
theorem endsToken_gap {gap cs : List Char} (hgap : ∀ c ∈ gap, c ∈ blanks)
    (h : gap = [] → cs = []) : EndsToken (gap ++ cs) := by
  cases gap with
  | nil =>
    rw [h rfl]
    exact endsToken_nil
  | cons c gap => exact endsToken_cons (List.mem_append_left _ (hgap c List.mem_cons_self)) _

/-- Tokens that are set apart by gaps are spelled by the text that they make up. -/
theorem spells_spaced {tokens : List Token} {gaps : List (List Char)}
    (hfits : ∀ token ∈ tokens, token.Fits) (hlength : gaps.length = tokens.length)
    (hblank : ∀ gap ∈ gaps, ∀ c ∈ gap, c ∈ blanks) (hne : ∀ gap ∈ gaps.dropLast, gap ≠ []) :
    Spells (spaced tokens gaps) (tokens.map Token.spelling) := by
  induction tokens generalizing gaps with
  | nil =>
    rw [spaced]
    · exact .nil
    · nofun
  | cons token tokens ih =>
    obtain ⟨gap, gaps, rfl⟩ : ∃ gap gaps', gaps = gap :: gaps' :=
      List.exists_cons_of_length_eq_add_one hlength
    rw [List.forall_mem_cons] at hfits hblank
    obtain ⟨hmatches, hkeyword⟩ := hfits.1
    have hlast : gap = [] → gaps = [] := by
      rintro rfl
      by_contra hgaps
      rw [List.dropLast_cons_of_ne_nil hgaps] at hne
      exact hne [] List.mem_cons_self rfl
    have hne' : ∀ gap ∈ gaps.dropLast, gap ≠ [] := by
      intro other hother
      cases gaps with
      | nil => cases hother
      | cons next gaps => exact hne other (List.mem_cons_of_mem gap hother)
    have htext := spells_blanks hblank.1
      (ih hfits.2 (by simpa using hlength) hblank.2 hne')
    have hends : EndsToken (gap ++ spaced tokens gaps) := by
      refine endsToken_gap hblank.1 fun hgap => ?_
      rw [hlast hgap]
      cases tokens <;> rfl
    exact spells_token hmatches hkeyword hends htext

/-- The tokens of a source are found again in every layout. -/
theorem Layout.scan_source {cs : List Char} {tokens : List Token} (h : scan cs = .ok tokens)
    (layout : Layout tokens.length) :
    ∃ tokens', scan (layout.source tokens) = .ok tokens' ∧
      tokens'.map Token.spelling = tokens.map Token.spelling :=
  scan_of_spells (spells_blanks layout.blank_lead
    (spells_spaced (tiles_of_scan h).fits layout.length_gaps layout.blank_gaps layout.gaps_ne_nil))

/-! ## Tokens with the same spellings -/

/-- What a token is apart from its place decides its literal. -/
theorem Token.literal?_of_spelling {t t' : Token} (h : t.spelling = t'.spelling) :
    t.literal? = t'.literal? := by
  obtain ⟨hkind, htext⟩ := Prod.mk.inj h
  rw [literal?, literal?, hkind, htext]

/-- If corresponding tokens have the same spelling, then the parser cannot tell them apart. -/
theorem Token.links_of_spelling_eq {T : Token → Token → Prop}
    (h : ∀ {t t' : Token}, T t t' → t.spelling = t'.spelling) : Token.Links T Eq where
  kind ht kind _ := by rw [(Prod.mk.inj (h ht)).1]
  name ht _ := (Prod.mk.inj (h ht)).2
  literal {t t'} ht _ := by
    rw [literal?_of_spelling (h ht)]
    cases t'.literal? with
    | none => exact .none
    | some literal => exact .some rfl

/-- Values with the same literal differ in their places only. -/
theorem Value.Alike.unplaced_eq {v v' : Value} (h : v.Alike Eq v') : v.unplaced = v'.unplaced :=
  congrArg (fun literal => Value.mk literal (.empty 0)) h

/-- Operands with the same literals differ in their places only. -/
theorem Operand.Alike.unplaced_eq {o o' : Operand} (h : o.Alike Eq o') :
    o.unplaced = o'.unplaced := by
  cases h with
  | scalar h => exact congrArg Operand.scalar h.unplaced_eq
  | @set values values' h span span' =>
    have hvalues : values.map Value.unplaced = values'.map Value.unplaced := by
      rw [← List.forall₂_eq_eq_eq, List.forall₂_map_left_iff, List.forall₂_map_right_iff]
      exact h.imp fun _ _ => Value.Alike.unplaced_eq
    rw [Operand.unplaced, Operand.unplaced, hvalues]

/-- Queries with the same literals differ in their places only. -/
theorem Query.Alike.unplaced_eq {q q' : Query} (h : q.Alike Eq q') : q.unplaced = q'.unplaced := by
  induction h with
  | comparison h =>
    rw [Query.unplaced, Query.unplaced, Comparison.unplaced, Comparison.unplaced, h.name, h.op,
      h.operand.unplaced_eq]
  | not h ih => rw [Query.unplaced, Query.unplaced, ih]
  | logical op hleft hright ihleft ihright => rw [Query.unplaced, Query.unplaced, ihleft, ihright]

/-- Tokens with the same spellings have the same one by one. -/
theorem forall₂_spelling_eq {tokens tokens' : List Token}
    (h : tokens.map Token.spelling = tokens'.map Token.spelling) :
    List.Forall₂ (fun t t' => t.spelling = t'.spelling) tokens tokens' := by
  rw [← List.forall₂_eq_eq_eq, List.forall₂_map_left_iff, List.forall₂_map_right_iff] at h
  exact h

/-- Tokens with the same spellings have their ends in the same places. -/
theorem forall_hasEnds_of_map_spelling {tokens tokens' : List Token}
    (hspelling : tokens.map Token.spelling = tokens'.map Token.spelling)
    (hends : ∀ token ∈ tokens, token.HasEnds) : ∀ token ∈ tokens', token.HasEnds := by
  intro token' htoken'
  have hmem : token'.spelling ∈ tokens.map Token.spelling :=
    hspelling ▸ List.mem_map_of_mem htoken'
  obtain ⟨token, htoken, heq⟩ := List.mem_map.mp hmem
  obtain ⟨hkind, htext⟩ := Prod.mk.inj heq
  have := hends token htoken
  rwa [Token.HasEnds, hkind, htext] at this

/-- Tokens with the same spellings are the same query, apart from its places. -/
theorem Grammar.Derives.respell {tokens tokens' : List Token} {q : Query}
    (h : Derives .expression tokens q) (hends : ∀ token ∈ tokens, token.HasEnds)
    (hspelling : tokens.map Token.spelling = tokens'.map Token.spelling) :
    ∃ q', q'.unplaced = q.unplaced ∧ Derives .expression tokens' q' := by
  have hread : Query.ofTokens ⟨0, none⟩ tokens = .ok q := ofTokens_of_derives rfl hends h
  have hlinks : Token.Links (fun t t' => t.spelling = t'.spelling) Eq := links_of_spelling_eq id
  obtain ⟨q', hread', halike⟩ :=
    (linked_ofTokens hlinks rfl (forall₂_spelling_eq hspelling)).exists_ok hread
  have hends' := forall_hasEnds_of_map_spelling hspelling hends
  exact ⟨q', halike.unplaced_eq.symm, derives_of_ofTokens hends' hread'⟩

/-! ## Errors at corresponding places -/

section Corresponding

variable (tokens tokens' : List Token)

/-- Whether two spans are those of the tokens at one index. -/
def Token.AtOneIndex (span span' : Span) : Prop :=
  ∃ (i : Nat) (t t' : Token), tokens[i]? = some t ∧ tokens'[i]? = some t' ∧
    span = t.span ∧ span' = t'.span

/-- Whether the same is wrong in two sources with these tokens, at tokens of one index or at the
ends of both sources, with the same remarks on tokens of one index. -/
structure ParseError.Corresponds (sourceLength sourceLength' : Nat) (e e' : ParseError) : Prop where
  kind : e.kind = e'.kind
  message : e.message = e'.message
  span : AtOneIndex tokens tokens' e.span e'.span ∨
    e.span = .empty sourceLength ∧ e'.span = .empty sourceLength'
  related : Option.Rel
    (fun r r' => r.message = r'.message ∧ AtOneIndex tokens tokens' r.span r'.span)
    e.related? e'.related?

/-- Whether tokens stand at one index and have the same spelling. -/
def Token.Counterparts (t t' : Token) : Prop :=
  (∃ i : Nat, tokens[i]? = some t ∧ tokens'[i]? = some t') ∧ t.spelling = t'.spelling

end Corresponding

section Counterparts

variable {tokens tokens' : List Token}

/-- Tokens with the same spellings are counterparts, one by one. -/
theorem forall₂_counterparts (h : tokens.map Token.spelling = tokens'.map Token.spelling) :
    List.Forall₂ (Counterparts tokens tokens') tokens tokens' := by
  rw [List.forall₂_iff_get]
  refine ⟨by simpa using congrArg List.length h, fun i hi hi' => ⟨⟨i, ?_, ?_⟩, ?_⟩⟩
  · exact List.getElem?_eq_getElem hi
  · exact List.getElem?_eq_getElem hi'
  · have heq := congrArg (fun spellings => spellings[i]?) h
    simpa [hi, hi'] using heq

/-- Counterparts stand at one index. -/
theorem Token.Counterparts.atOneIndex {t t' : Token} (h : Counterparts tokens tokens' t t') :
    AtOneIndex tokens tokens' t.span t'.span := by
  obtain ⟨⟨i, ht, ht'⟩, -⟩ := h
  exact ⟨i, t, t', ht, ht', rfl, rfl⟩

/-- Counterparts have one text. -/
theorem Token.Counterparts.text_eq {t t' : Token} (h : Counterparts tokens tokens' t t') :
    t.text = t'.text := (Prod.mk.inj h.2).2

/-- Linked expectations have one text, and the places that explain them are at one index. -/
theorem Expectation.Linked.text_eq_and_related {expected expected' : Expectation}
    (h : expected.Linked (Counterparts tokens tokens') expected') :
    expected.text = expected'.text ∧ Option.Rel
      (fun r r' => r.message = r'.message ∧ AtOneIndex tokens tokens' r.span r'.span)
      expected.related? expected'.related? := by
  cases h with
  | same h =>
    rw [h]
    exact ⟨rfl, .none⟩
  | groupEnd h => exact ⟨rfl, .some ⟨rfl, h.atOneIndex⟩⟩

/-- An error about something missing is at the end of the source. -/
theorem span_eq_empty_of_ofTokens {sourceLength : Nat} {depthLimit : Option Nat} {e : ParseError}
    (h : Query.ofTokens ⟨sourceLength, depthLimit⟩ tokens = .error e)
    (hends : ∀ token ∈ tokens, token.HasEnds)
    (hkind : e.kind = .unexpectedEnd ∨ e.kind = .unclosed) : e.span = .empty sourceLength := by
  have hfree : Query.ofTokens ⟨sourceLength, none⟩ tokens = .error e := by
    cases depthLimit with
    | none => exact h
    | some limit =>
      cases hbeyond : beyond? limit [] (Query.taken sourceLength tokens) with
      | none => rwa [Query.ofTokens_eq_of_beyond? hbeyond] at h
      | some token =>
        rw [Query.ofTokens_eq_tooDeep hbeyond] at h
        obtain rfl := Except.error.inj h
        rcases hkind with hkind | hkind <;> cases hkind
  obtain ⟨taken, rest, due, -, -, herror⟩ := (ofTokens_eq_error_iff rfl hends).mp hfree
  cases rest with
  | nil => exact (Due.of_error?_none herror).2.1
  | cons token rest =>
    obtain ⟨-, hkind'⟩ := ParseError.of_token? (Due.token?_of_error?_some herror)
    rcases hkind with hkind | hkind <;> simp [hkind] at hkind'

/-- Linked errors correspond to each other, if those about something missing are at the ends of
their sources. -/
theorem ParseError.Linked.corresponds {sourceLength sourceLength' : Nat} {e e' : ParseError}
    (h : e.Linked (Counterparts tokens tokens') e')
    (hend : e.kind = .unexpectedEnd ∨ e.kind = .unclosed → e.span = .empty sourceLength)
    (hend' : e'.kind = .unexpectedEnd ∨ e'.kind = .unclosed → e'.span = .empty sourceLength') :
    e.Corresponds tokens tokens' sourceLength sourceLength' e' := by
  cases h with
  | @unexpectedToken expected expected' found found' hexpected hfound =>
    obtain ⟨htext, hrelated⟩ := hexpected.text_eq_and_related
    refine ⟨rfl, ?_, .inl hfound.atOneIndex, hrelated⟩
    exact congrArg₂ (fun expected found => "expected " ++ expected ++ ", found `" ++ found ++ "`")
      htext hfound.text_eq
  | @unexpectedEnd expected expected' hexpected offset offset' =>
    obtain ⟨htext, hrelated⟩ := hexpected.text_eq_and_related
    have hkind : (ParseError.unexpectedEnd expected offset).kind =
        (ParseError.unexpectedEnd expected' offset').kind := by
      cases hexpected with
      | same => cases expected <;> rfl
      | groupEnd => rfl
    have hmissing : (ParseError.unexpectedEnd expected offset).kind = .unexpectedEnd ∨
        (ParseError.unexpectedEnd expected offset).kind = .unclosed := by
      cases expected <;> simp [ParseError.kind]
    have hmessage := congrArg (fun text => "expected " ++ text ++ ", found end of input") htext
    exact ⟨hkind, hmessage, .inr ⟨hend hmissing, hend' (hkind ▸ hmissing)⟩, hrelated⟩
  | unclosedSet hopened offset offset' =>
    exact ⟨rfl, rfl, .inr ⟨hend (.inr rfl), hend' (.inr rfl)⟩, .some ⟨rfl, hopened.atOneIndex⟩⟩
  | invalidNumber h =>
    have hmessage := congrArg (fun text => "invalid number `" ++ text ++ "`") h.text_eq
    exact ⟨rfl, hmessage, .inl h.atOneIndex, .none⟩
  | trailingInput h =>
    have hmessage :=
      congrArg (fun text => "expected end of input, found `" ++ text ++ "`") h.text_eq
    exact ⟨rfl, hmessage, .inl h.atOneIndex, .none⟩
  | tooDeep limit h => exact ⟨rfl, rfl, .inl h.atOneIndex, .none⟩

end Counterparts

/-! ## Layout independence -/

/-- How a source is laid out does not matter. Its tokens are found again in every layout, and any
source with tokens of the same kinds and texts is read as the same query, apart from its places, or
with the same error at the corresponding place, under every limit on nesting. -/
theorem layout_independent {source : String} {tokens : List Token}
    (hscan : scan source.toList = .ok tokens) :
    (∀ layout : Layout tokens.length, ∃ tokens', scan (layout.source tokens) = .ok tokens' ∧
      tokens'.map Token.spelling = tokens.map Token.spelling) ∧
    ∀ (source' : String) (tokens' : List Token), scan source'.toList = .ok tokens' →
      tokens.map Token.spelling = tokens'.map Token.spelling → ∀ depthLimit : Option Nat,
      (∃ q q', Query.parse source depthLimit = .ok q ∧ Query.parse source' depthLimit = .ok q' ∧
        q.unplaced = q'.unplaced) ∨
      ∃ e e', Query.parse source depthLimit = .error e ∧
        Query.parse source' depthLimit = .error e' ∧
        e.Corresponds tokens tokens' (byteLength source.toList) (byteLength source'.toList) e' := by
  refine ⟨fun layout => layout.scan_source hscan, fun source' tokens' hscan' hspelling limit => ?_⟩
  have hlinks : Token.Links (Counterparts tokens tokens') Eq :=
    links_of_spelling_eq fun h => h.2
  have hlimit : (Parser.Setting.mk (byteLength source.toList) limit).depthLimit =
      (Parser.Setting.mk (byteLength source'.toList) limit).depthLimit := rfl
  have hlinked := linked_ofTokens hlinks hlimit (forall₂_counterparts hspelling)
  simp only [Query.parse, hscan, hscan']
  cases hread : Query.ofTokens ⟨byteLength source.toList, limit⟩ tokens with
  | ok q =>
    obtain ⟨q', hread', halike⟩ := hlinked.exists_ok hread
    exact .inl ⟨q, q', rfl, hread', halike.unplaced_eq⟩
  | error e =>
    obtain ⟨e', hread', herror⟩ := hlinked.exists_error hread
    exact .inr ⟨e, e', rfl, hread', herror.corresponds
      (span_eq_empty_of_ofTokens hread (hasEnds_of_scan hscan))
      (span_eq_empty_of_ofTokens hread' (hasEnds_of_scan hscan'))⟩

/-- Tokens that touch stay apart when they are moved apart, and the set that is not closed is found
at the same token. -/
theorem layout_of_touching_tokens :
    (∃ tokens', scan " A\t>= 5\nAND B IN \x7b 'x' ".toList = .ok tokens' ∧
      tokens'.map Token.spelling = [(.identifier, "A"), (.gtEq, ">="), (.numberLit, "5"),
        (.and, "AND"), (.identifier, "B"), (.isIn, "IN"), (.braceOpen, "\x7b"),
        (.stringLit, "'x'")]) ∧
      ∃ e e', Query.parse "A>=5AND B IN\x7b'x'" none = .error e ∧
        Query.parse " A\t>= 5\nAND B IN \x7b 'x' " none = .error e' ∧ e.message = e'.message ∧
        e.related? = some ⟨⟨12, 13⟩, "set opened here"⟩ ∧
        e'.related? = some ⟨⟨17, 18⟩, "set opened here"⟩ := by
  let tokens : List Token := [⟨.identifier, ⟨0, 1⟩, "A"⟩, ⟨.gtEq, ⟨1, 3⟩, ">="⟩,
    ⟨.numberLit, ⟨3, 4⟩, "5"⟩, ⟨.and, ⟨4, 7⟩, "AND"⟩, ⟨.identifier, ⟨8, 9⟩, "B"⟩,
    ⟨.isIn, ⟨10, 12⟩, "IN"⟩, ⟨.braceOpen, ⟨12, 13⟩, "\x7b"⟩, ⟨.stringLit, ⟨13, 16⟩, "'x'"⟩]
  let layout : Layout 8 := ⟨[' '], [['\t'], [' '], ['\n'], [' '], [' '], [' '], [' '], [' ']],
    rfl, by simp [blanks], by simp [blanks], by simp⟩
  have hscan : scan "A>=5AND B IN\x7b'x'".toList = .ok tokens := by decide +kernel
  have hsource : layout.source tokens = " A\t>= 5\nAND B IN \x7b 'x' ".toList := by decide +kernel
  have hread : Query.parse "A>=5AND B IN\x7b'x'" none = .error (.unclosedSet ⟨12, 13⟩ 16) := by
    decide +kernel
  have hread' : Query.parse " A\t>= 5\nAND B IN \x7b 'x' " none =
      .error (.unclosedSet ⟨17, 18⟩ 23) := by decide +kernel
  obtain ⟨hlayout, hsame⟩ := layout_independent hscan
  obtain ⟨tokens', hscan', hspelling⟩ := hlayout layout
  rw [hsource] at hscan'
  refine ⟨⟨tokens', hscan', hspelling⟩, ?_⟩
  rcases hsame _ tokens' hscan' hspelling.symm none with
    ⟨q, -, hparse, -⟩ | ⟨e, e', hparse, hparse', h⟩
  · cases hread.symm.trans hparse
  · obtain rfl := Except.error.inj (hread.symm.trans hparse)
    obtain rfl := Except.error.inj (hread'.symm.trans hparse')
    exact ⟨_, _, hparse, hparse', h.message, rfl, rfl⟩

end ResumeFilter
