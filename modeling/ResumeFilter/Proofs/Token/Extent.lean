import ResumeFilter.Proofs.Token.Tiling

/-!
# Parts of a scan

Some of the tokens of a source that stand next to each other extend over a part of the source, from
the start of the first one to the stop of the last (`IsExtent`). Scanning this part alone finds just
these tokens, with their places counted from its start (`exists_scan_slice`).
-/

namespace ResumeFilter

/-! ## Moved spans -/

/-- A span as it is in a text with `n` more bytes in front. -/
def Span.shift (n : Nat) (span : Span) : Span := ⟨span.start + n, span.stop + n⟩

/-- A token as it is in a text with `n` more bytes in front. -/
def Token.shift (n : Nat) (token : Token) : Token := { token with span := token.span.shift n }

/-- The span that holds two moved ones is moved itself. -/
theorem Span.cover_shift (n : Nat) (a b : Span) :
    (a.shift n).cover (b.shift n) = (a.cover b).shift n := by
  rw [cover, cover, shift, shift, shift, Nat.add_min_add_right, Nat.add_max_add_right]

namespace Token

open Text

/-! ## Tokens in order -/

/-- Whether tokens stand one behind the other, and each takes some room. -/
structure InOrder (tokens : List Token) : Prop where
  nonempty : ∀ token ∈ tokens, token.span.start < token.span.stop
  ordered : tokens.Pairwise fun a b => a.span.stop ≤ b.span.start

/-- Tokens that tile a source are in order. -/
theorem Tiles.inOrder {source : List Char} {start stop : Nat} {tokens : List Token}
    (h : Tiles source start stop tokens) : InOrder tokens :=
  ⟨fun token htoken => (h.isTokenOf token htoken).nonempty, h.ordered⟩

/-- Some of the tokens of a list in order are in order. -/
theorem InOrder.sublist {tokens tokens' : List Token} (h : InOrder tokens)
    (hsub : tokens'.Sublist tokens) : InOrder tokens' :=
  ⟨fun token htoken => h.nonempty token (hsub.subset htoken), h.ordered.sublist hsub⟩

/-- The tokens that start before one of the tokens does are those in front of it. -/
theorem InOrder.filter_eq {before after : List Token} {token : Token}
    (h : InOrder (before ++ token :: after)) :
    (before ++ token :: after).filter (·.span.start < token.span.start) = before := by
  obtain ⟨-, hbehind, hfront⟩ := List.pairwise_append.mp h.ordered
  have hbefore : ∀ t ∈ before, t.span.start < token.span.start := fun t ht =>
    Nat.lt_of_lt_of_le (h.nonempty t (List.mem_append_left _ ht))
      (hfront t ht token List.mem_cons_self)
  have hafter : ∀ t ∈ token :: after, token.span.start ≤ t.span.start := by
    rw [List.forall_mem_cons]
    refine ⟨Nat.le_refl _, fun t ht => ?_⟩
    exact Nat.le_trans (Nat.le_of_lt (h.nonempty token (by simp)))
      ((List.pairwise_cons.mp hbehind).1 t ht)
  rw [List.filter_append, List.filter_eq_self.mpr (by simpa using hbefore),
    List.filter_eq_nil_iff.mpr (by simpa using hafter), List.append_nil]

/-- Of two tokens, the one that starts first stops before the other starts. -/
theorem InOrder.stop_le {tokens : List Token} (h : InOrder tokens) {a b : Token} (ha : a ∈ tokens)
    (hb : b ∈ tokens) (hlt : a.span.start < b.span.start) : a.span.stop ≤ b.span.start := by
  obtain ⟨before, after, rfl⟩ := List.append_of_mem hb
  have hmem : a ∈ (before ++ b :: after).filter (·.span.start < b.span.start) :=
    List.mem_filter.mpr ⟨ha, decide_eq_true hlt⟩
  rw [h.filter_eq] at hmem
  exact (List.pairwise_append.mp h.ordered).2.2 a hmem b List.mem_cons_self

/-- Whether a span goes from the start of the first of some tokens to the stop of the last. -/
def IsExtent (tokens : List Token) (span : Span) : Prop :=
  ∃ first last, tokens.head? = some first ∧ tokens.getLast? = some last ∧
    span = ⟨first.span.start, last.span.stop⟩

/-- The extent of tokens in order is not empty, and holds each of them. -/
theorem IsExtent.bounds {tokens : List Token} {span : Span} (h : IsExtent tokens span)
    (horder : InOrder tokens) :
    span.start < span.stop ∧
      ∀ token ∈ tokens, span.start ≤ token.span.start ∧ token.span.stop ≤ span.stop := by
  obtain ⟨first, last, hfirst, hlast, rfl⟩ := h
  have hstart : ∀ token ∈ tokens, first.span.start ≤ token.span.start := by
    obtain ⟨others, rfl⟩ := List.head?_eq_some_iff.mp hfirst
    intro token htoken
    rcases List.mem_cons.mp htoken with rfl | htoken
    · exact Nat.le_refl _
    · have hbehind := (List.pairwise_cons.mp horder.ordered).1 token htoken
      exact Nat.le_trans (Nat.le_of_lt (horder.nonempty first List.mem_cons_self)) hbehind
  have hstop : ∀ token ∈ tokens, token.span.stop ≤ last.span.stop := by
    obtain ⟨init, rfl⟩ := List.getLast?_eq_some_iff.mp hlast
    intro token htoken
    rcases List.mem_append.mp htoken with htoken | htoken
    · have hfront := (List.pairwise_append.mp horder.ordered).2.2 token htoken last (by simp)
      exact Nat.le_trans hfront (Nat.le_of_lt (horder.nonempty last (by simp)))
    · exact List.mem_singleton.mp htoken ▸ Nat.le_refl _
  have hmem := List.mem_of_mem_getLast? hlast
  exact ⟨Nat.lt_of_le_of_lt (hstart last hmem) (horder.nonempty last hmem),
    fun token htoken => ⟨hstart token htoken, hstop token htoken⟩⟩

/-- A token extends over itself. -/
theorem isExtent_singleton (token : Token) : IsExtent [token] token.span :=
  ⟨token, token, rfl, rfl, rfl⟩

/-- Tokens extend from the first one to the last one. -/
theorem IsExtent.eq {first last : Token} {between : List Token} {span : Span}
    (h : IsExtent (first :: (between ++ [last])) span) :
    span = ⟨first.span.start, last.span.stop⟩ := by
  obtain ⟨first', last', hfirst, hlast, hspan⟩ := h
  rw [← List.cons_append, List.getLast?_concat] at hlast
  obtain rfl := Option.some.inj hfirst
  obtain rfl := Option.some.inj hlast
  exact hspan

/-- The least span that holds the first of some tokens and what the last ones extend over is the
extent of them all. -/
theorem IsExtent.cover {first : Token} {between tokens : List Token} {span : Span}
    (h : IsExtent tokens span) (horder : InOrder (first :: (between ++ tokens))) :
    IsExtent (first :: (between ++ tokens)) (first.span.cover span) := by
  obtain ⟨hlt, -⟩ := h.bounds (horder.sublist (.cons _ (List.sublist_append_right _ _)))
  obtain ⟨second, last, hsecond, hlast, rfl⟩ := h
  have hmem : second ∈ between ++ tokens :=
    List.mem_append_right _ (List.mem_of_mem_head? hsecond)
  have hbehind := (List.pairwise_cons.mp horder.ordered).1 second hmem
  have hfirst := horder.nonempty first List.mem_cons_self
  have hstart : first.span.start ≤ second.span.start := by omega
  have hstop : first.span.stop ≤ last.span.stop := Nat.le_trans hbehind (Nat.le_of_lt hlt)
  refine ⟨first, last, rfl, ?_, ?_⟩
  · rw [List.getLast?_cons, List.getLast?_append, hlast, Option.some_or, Option.getD_some]
  · rw [Span.cover, Nat.min_eq_left hstart, Nat.max_eq_right hstop]

/-! ## Parts of the text -/

/-- The extent of tokens of a source starts and stops between characters. -/
theorem IsExtent.boundaries {source : List Char} {tokens : List Token} {span : Span}
    (h : IsExtent tokens span) (htokens : ∀ token ∈ tokens, token.IsTokenOf source) :
    IsBoundary source span.start ∧ IsBoundary source span.stop := by
  obtain ⟨first, last, hfirst, hlast, rfl⟩ := h
  exact ⟨(htokens first (List.mem_of_mem_head? hfirst)).start_boundary,
    (htokens last (List.mem_of_mem_getLast? hlast)).stop_boundary⟩

/-- A part of the tokens that a run finds is found in the text that they extend over. -/
theorem Run.slice {stop : Nat} {source rest : List Char} {before part after : List Token}
    (h : Run 0 source (before ++ part ++ after) stop rest) {span : Span}
    (hextent : IsExtent part span) :
    Run span.start (slice source span) part span.stop [] := by
  obtain ⟨first, last, hfirst, hlast, rfl⟩ := hextent
  obtain ⟨others, rfl⟩ := List.head?_eq_some_iff.mp hfirst
  obtain ⟨init, hinit⟩ := List.getLast?_eq_some_iff.mp hlast
  rw [List.append_assoc, List.cons_append] at h
  obtain ⟨behind, hbefore, htoken, hafter⟩ := h.cut
  have hpart := htoken.trans hafter
  rw [List.singleton_append, ← List.cons_append, hinit, List.append_assoc,
    List.singleton_append] at hpart
  obtain ⟨_, hthrough, -⟩ := hpart.cut_behind
  obtain ⟨ahead, hsource, hstart⟩ := hbefore.exists_append
  obtain ⟨text, htext, hstop⟩ := hthrough.exists_append
  rw [Nat.zero_add] at hstart
  have hslice : Text.slice source ⟨first.span.start, last.span.stop⟩ = text := by
    rw [hstop, hsource, htext, ← List.append_assoc, hstart]
    exact slice_append ahead text _
  rw [hslice, hinit]
  exact hthrough.truncate htext

/-- What a run finds from byte `n + k` on, it finds from byte `k` on, moved by `n` bytes. -/
theorem Run.exists_shift {n offset stop : Nat} {cs rest : List Char} {tokens : List Token}
    (h : Run offset cs tokens stop rest) {k : Nat} (hoffset : offset = k + n) :
    ∃ tokens' stop', Run k cs tokens' stop' rest ∧ tokens = tokens'.map (Token.shift n) := by
  induction h generalizing k with
  | done offset cs => exact ⟨[], k, .done k cs, rfl⟩
  | @blank _ _ c _ _ _ hblank _ ih =>
    obtain ⟨tokens', stop', hrun, htokens⟩ := ih (k := k + c.utf8Size) (by omega)
    exact ⟨tokens', stop', .blank hblank hrun, htokens⟩
  | @token _ _ _ _ _ lexeme hlexeme _ ih =>
    obtain ⟨tokens', stop', hrun, htokens⟩ := ih (k := k + byteLength lexeme.text) (by omega)
    refine ⟨lexeme.token k :: tokens', stop', .token hlexeme hrun, ?_⟩
    rw [List.map_cons, ← htokens, hoffset, Lexeme.token, Lexeme.token, shift, Span.shift,
      Nat.add_right_comm]

/-- Scanning the text that a part of the tokens of a source extends over finds this part, moved to
the start. -/
theorem exists_scan_slice {source : List Char} {before part after : List Token}
    (h : scan source = .ok (before ++ part ++ after)) {span : Span} (hextent : IsExtent part span) :
    ∃ tokens, scan (slice source span) = .ok tokens ∧
      part = tokens.map (Token.shift span.start) := by
  have hrun := (run_of_scan h).slice hextent
  obtain ⟨tokens, stop, hmoved, hpart⟩ := hrun.exists_shift (Nat.zero_add _).symm
  exact ⟨tokens, scan_of_run hmoved (by simp [Stuck]), hpart⟩

end Token

end ResumeFilter
