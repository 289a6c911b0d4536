import Mathlib.Logic.Basic
import ResumeFilter.Proofs.Token.Pattern

/-!
# The scanner tiles its source

A scan covers the source from its start with longest tokens and, between them, blanks. Either that
reaches the end, or it stops at a character at which neither a token nor a blank starts; the tokens
before that character are those of the text before it (`scan_spec`). If the source is not refused
for its length, then spans have room for every place that comes up (`scanBounded_places`).

The proof follows a run of the scanner, `Run`, which leaves out the fuel and the tokens found
before: what it finds is a tiling (`Run.tiles`), it finds the same in the text cut off behind it
(`Run.truncate`), and the scanner takes it until it is stuck (`scanFrom_of_run`).
-/

namespace ResumeFilter.Token

open Text

/-! ## Tilings -/

/-- The characters that separate tokens. -/
def blanks : List Char := [' ', '\t', '\r', '\n']

/-- A token that stands in a source, and that is the longest one at its place. -/
structure IsTokenOf (source : List Char) (token : Token) : Prop where
  nonempty : token.span.start < token.span.stop
  start_boundary : IsBoundary source token.span.start
  stop_boundary : IsBoundary source token.span.stop
  text_eq : token.text.toList = slice source token.span
  matches_text : token.kind.Matches token.text.toList
  longest : ∀ (kind : Kind) (text : List Char), kind.Matches text →
    text <+: dropBytes token.span.start source → text.length ≤ token.text.toList.length
  not_identifier : token.text.toList ∈ keywords → token.kind ≠ .identifier

/-- Tokens of a source that cover it from byte `start` to byte `stop`, in order and without overlap,
except for characters that separate tokens. -/
structure Tiles (source : List Char) (start stop : Nat) (tokens : List Token) : Prop where
  isTokenOf : ∀ token ∈ tokens, token.IsTokenOf source
  within : ∀ token ∈ tokens, start ≤ token.span.start ∧ token.span.stop ≤ stop
  ordered : tokens.Pairwise fun a b => a.span.stop ≤ b.span.start
  blank : ∀ before c after, source = before ++ c :: after → start ≤ byteLength before →
    byteLength before < stop →
    (∀ token ∈ tokens,
      ¬(token.span.start ≤ byteLength before ∧ byteLength before < token.span.stop)) →
    c ∈ blanks

/-- The scanner skips the blanks. -/
theorem isBlank_iff {c : Char} : isBlank c ↔ c ∈ blanks := by
  simp [isBlank, blanks, or_assoc]

/-- No token starts with a blank. -/
theorem lexeme?_of_isBlank {c : Char} (h : isBlank c) (cs : List Char) :
    lexeme? (c :: cs) = none := by
  have hall : blanks.all fun c => decide (c ∉ marks) && !c.isDigit && !c.isUpper := by decide
  have hc : c ∉ marks ∧ c.isDigit = false ∧ c.isUpper = false := by
    simpa [and_assoc] using List.all_eq_true.mp hall c (isBlank_iff.mp h)
  rw [lexeme?_of_not_mem_marks hc.1, if_neg (by simp [hc]), if_neg (by simp [hc])]

/-- The token that a lexeme is at a place. -/
def Lexeme.token (lexeme : Lexeme) (offset : Nat) : Token :=
  ⟨lexeme.kind, ⟨offset, offset + byteLength lexeme.text⟩, String.ofList lexeme.text⟩

@[simp]
theorem Lexeme.token_start (lexeme : Lexeme) (offset : Nat) :
    (lexeme.token offset).span.start = offset := rfl

@[simp]
theorem Lexeme.token_stop (lexeme : Lexeme) (offset : Nat) :
    (lexeme.token offset).span.stop = offset + byteLength lexeme.text := rfl

@[simp]
theorem Lexeme.toList_token_text (lexeme : Lexeme) (offset : Nat) :
    (lexeme.token offset).text.toList = lexeme.text := String.toList_ofList

/-- What is found at a place of a source is a token of the source. -/
theorem isTokenOf_of_lexeme? {cs : List Char} {lexeme : Lexeme} (h : lexeme? cs = some lexeme)
    (before : List Char) : (lexeme.token (byteLength before)).IsTokenOf (before ++ cs) := by
  have hlongest := lexeme?_eq_some_iff.mp h
  have hsource : before ++ cs = before ++ lexeme.text ++ lexeme.rest := by
    rw [List.append_assoc, ← hlongest.split]
  have hpos := byteLength_pos hlongest.matches_text.ne_nil
  refine ⟨?_, isBoundary_append before cs, ?_, ?_, ?_, ?_, ?_⟩
  · rw [Lexeme.token_start, Lexeme.token_stop]
    omega
  · rw [Lexeme.token_stop, hsource, ← byteLength_append]
    exact isBoundary_append (before ++ lexeme.text) lexeme.rest
  · rw [Lexeme.toList_token_text, hsource]
    exact (slice_append before lexeme.text lexeme.rest).symm
  · rw [Lexeme.toList_token_text]
    exact hlongest.matches_text
  · intro kind text hmatches hstart
    rw [Lexeme.token_start, dropBytes_append] at hstart
    rw [Lexeme.toList_token_text]
    exact hlongest.longest kind text hmatches hstart
  · rw [Lexeme.toList_token_text]
    exact hlongest.not_identifier

/-- A character of a text is the one at an earlier place, or it stands behind that one. -/
theorem eq_or_byteLength_le {before cs before' cs' : List Char} {c c' : Char}
    (h : before ++ c :: cs = before' ++ c' :: cs') (hle : byteLength before ≤ byteLength before') :
    c = c' ∨ byteLength before + c.utf8Size ≤ byteLength before' := by
  rcases List.append_eq_append_iff.mp h with ⟨between, rfl, hcs⟩ | ⟨between, rfl, hcs⟩
  · cases between with
    | nil => exact .inl (List.cons.inj hcs).1
    | cons d between =>
      obtain rfl : c = d := (List.cons.inj hcs).1
      right
      rw [byteLength_append, byteLength_cons]
      omega
  · cases between with
    | nil => exact .inl (List.cons.inj hcs).1.symm
    | cons d between =>
      have := d.utf8Size_pos
      rw [byteLength_append, byteLength_cons] at hle
      omega

/-! ## Runs of the scanner -/

/-- A run of the scanner from byte `offset` on, where the source goes on with a text: it finds
tokens and comes to byte `stop`, with the rest of the text still in front of it. -/
inductive Run : Nat → List Char → List Token → Nat → List Char → Prop
  | done (offset : Nat) (cs : List Char) : Run offset cs [] offset cs
  | blank {offset stop : Nat} {c : Char} {cs rest : List Char} {tokens : List Token}
    (hblank : isBlank c) (h : Run (offset + c.utf8Size) cs tokens stop rest) :
    Run offset (c :: cs) tokens stop rest
  | token {offset stop : Nat} {cs rest : List Char} {tokens : List Token} {lexeme : Lexeme}
    (hlexeme : lexeme? cs = some lexeme)
    (h : Run (offset + byteLength lexeme.text) lexeme.rest tokens stop rest) :
    Run offset cs (lexeme.token offset :: tokens) stop rest

/-- A run takes a beginning of the text. -/
theorem Run.exists_append {offset stop : Nat} {cs rest : List Char} {tokens : List Token}
    (h : Run offset cs tokens stop rest) :
    ∃ taken, cs = taken ++ rest ∧ stop = offset + byteLength taken := by
  induction h with
  | done offset cs => exact ⟨[], rfl, rfl⟩
  | @blank offset stop c cs rest tokens hblank h ih =>
    obtain ⟨taken, rfl, rfl⟩ := ih
    exact ⟨c :: taken, rfl, by rw [byteLength_cons, Nat.add_assoc]⟩
  | @token offset stop cs rest tokens lexeme hlexeme h ih =>
    obtain ⟨taken, hrest, rfl⟩ := ih
    refine ⟨lexeme.text ++ taken, ?_, by rw [byteLength_append, Nat.add_assoc]⟩
    rw [List.append_assoc, ← hrest]
    exact (lexeme?_eq_some_iff.mp hlexeme).split

/-- A run tiles the stretch of the source that it takes. -/
theorem Run.tiles {offset stop : Nat} {cs rest : List Char} {tokens : List Token}
    (h : Run offset cs tokens stop rest) (before : List Char)
    (hoffset : offset = byteLength before) : Tiles (before ++ cs) offset stop tokens := by
  induction h generalizing before with
  | done offset cs =>
    exact ⟨by simp, by simp, .nil, fun _ _ _ _ hge hlt => absurd hlt (Nat.not_lt.mpr hge)⟩
  | @blank offset stop c cs rest tokens hblank h ih =>
    subst hoffset
    have htiles := ih (before ++ [c]) (by simp)
    rw [List.append_assoc, List.singleton_append] at htiles
    refine ⟨htiles.isTokenOf, fun token htoken => ?_, htiles.ordered, ?_⟩
    · have := htiles.within token htoken
      omega
    · intro before' c' after hsource hge hlt houtside
      rcases eq_or_byteLength_le hsource hge with rfl | hge'
      · exact isBlank_iff.mp hblank
      · exact htiles.blank before' c' after hsource hge' hlt houtside
  | @token offset stop cs rest tokens lexeme hlexeme h ih =>
    subst hoffset
    have hsplit := (lexeme?_eq_some_iff.mp hlexeme).split
    have htiles := ih (before ++ lexeme.text) (by simp)
    rw [List.append_assoc, ← hsplit] at htiles
    obtain ⟨taken, -, hstop⟩ := h.exists_append
    refine ⟨?_, ?_, ?_, ?_⟩
    · rw [List.forall_mem_cons]
      exact ⟨isTokenOf_of_lexeme? hlexeme before, htiles.isTokenOf⟩
    · rw [List.forall_mem_cons]
      refine ⟨by rw [Lexeme.token_start, Lexeme.token_stop]; omega, fun token htoken => ?_⟩
      have := htiles.within token htoken
      omega
    · exact List.pairwise_cons.mpr
        ⟨fun token htoken => (htiles.within token htoken).1, htiles.ordered⟩
    · intro before' c after hsource hge hlt houtside
      rw [List.forall_mem_cons, Lexeme.token_start, Lexeme.token_stop] at houtside
      refine htiles.blank before' c after hsource ?_ hlt houtside.2
      have := houtside.1
      omega

/-- A run finds the same tokens if the text ends where the run does. -/
theorem Run.truncate {offset stop : Nat} {cs rest : List Char} {tokens : List Token}
    (h : Run offset cs tokens stop rest) {taken : List Char} (hcs : cs = taken ++ rest) :
    Run offset taken tokens stop [] := by
  induction h generalizing taken with
  | done offset cs =>
    obtain rfl : taken = [] := by simpa using hcs
    exact .done offset []
  | @blank offset stop c cs rest tokens hblank h ih =>
    obtain ⟨taken', rfl, -⟩ := h.exists_append
    obtain rfl : c :: taken' = taken := List.append_cancel_right hcs
    exact .blank hblank (ih rfl)
  | @token offset stop cs rest tokens lexeme hlexeme h ih =>
    obtain ⟨taken', hrest, -⟩ := h.exists_append
    have hlongest := lexeme?_eq_some_iff.mp hlexeme
    have htaken : lexeme.text ++ taken' ++ rest = taken ++ rest := by
      rw [← hcs, List.append_assoc, ← hrest, ← hlongest.split]
    obtain rfl := List.append_cancel_right htaken
    -- With less behind it the token is still the longest: every beginning of the text that is cut
    -- off is one of the whole text.
    have hcut : lexeme? (lexeme.text ++ taken') = some ⟨lexeme.kind, lexeme.text, taken'⟩ :=
      lexeme?_eq_some_iff.mpr ⟨rfl, hlongest.matches_text,
        fun kind text htext hstart =>
          hlongest.longest kind text htext (hstart.trans ⟨rest, hcs.symm⟩),
        hlongest.not_identifier⟩
    have hrun := Run.token hcut (ih hrest)
    exact hrun

/-- A run goes on with another one. -/
theorem Run.trans {offset middle stop : Nat} {cs behind rest : List Char}
    {tokens tokens' : List Token} (h : Run offset cs tokens middle behind)
    (h' : Run middle behind tokens' stop rest) : Run offset cs (tokens ++ tokens') stop rest := by
  induction h with
  | done => exact h'
  | blank hblank _ ih => exact .blank hblank (ih h')
  | token hlexeme _ ih => exact .token hlexeme (ih h')

/-- Around a token that a run finds, the run falls into three. -/
theorem Run.cut {offset stop : Nat} {cs rest : List Char} {before after : List Token}
    {token : Token} (h : Run offset cs (before ++ token :: after) stop rest) :
    ∃ behind, Run offset cs before token.span.start (token.text.toList ++ behind) ∧
      Run token.span.start (token.text.toList ++ behind) [token] token.span.stop behind ∧
      Run token.span.stop behind after stop rest := by
  generalize htokens : before ++ token :: after = tokens at h
  induction h generalizing before with
  | done offset cs => exact absurd htokens (by simp)
  | @blank offset stop c cs rest tokens hblank h ih =>
    obtain ⟨behind, hbefore, htoken, hafter⟩ := ih htokens
    exact ⟨behind, .blank hblank hbefore, htoken, hafter⟩
  | @token offset stop cs rest tokens lexeme hlexeme h ih =>
    cases before with
    | nil =>
      obtain ⟨rfl, rfl⟩ := List.cons.inj htokens
      have hsplit := (lexeme?_eq_some_iff.mp hlexeme).split
      refine ⟨lexeme.rest, ?_⟩
      rw [Lexeme.toList_token_text, ← hsplit]
      exact ⟨.done offset cs, .token hlexeme (.done _ _), h⟩
    | cons first before =>
      rw [List.cons_append, List.cons.injEq] at htokens
      obtain ⟨rfl, htokens⟩ := htokens
      obtain ⟨behind, hbefore, htoken, hafter⟩ := ih htokens
      exact ⟨behind, .token hlexeme hbefore, htoken, hafter⟩

/-- Behind a token that a run finds, the run falls into two. -/
theorem Run.cut_behind {offset stop : Nat} {cs rest : List Char} {before after : List Token}
    {token : Token} (h : Run offset cs (before ++ token :: after) stop rest) :
    ∃ behind, Run offset cs (before ++ [token]) token.span.stop behind ∧
      Run token.span.stop behind after stop rest := by
  obtain ⟨behind, hbefore, htoken, hafter⟩ := h.cut
  exact ⟨behind, hbefore.trans htoken, hafter⟩

/-- A run finds the same tokens in front of more text that ends its tokens. -/
theorem Run.append {offset stop : Nat} {cs rest : List Char} {tokens : List Token}
    (h : Run offset cs tokens stop rest) {more : List Char} (hends : EndsToken more) :
    Run offset (cs ++ more) tokens stop (rest ++ more) := by
  induction h with
  | done offset cs => exact .done offset _
  | blank hblank _ ih => exact .blank hblank ih
  | @token offset stop cs rest tokens lexeme hlexeme _ ih =>
    have hrun := Run.token (lexeme?_append_of_endsToken hlexeme hends) ih
    exact hrun

/-! ## What a scan gives -/

/-- Whether neither a blank nor a token starts a text. -/
def Stuck (cs : List Char) : Prop := ∀ c ∈ cs.head?, isBlank c = false ∧ lexeme? cs = none

/-- What the scanner gives when it is stuck with a text at byte `offset`. -/
def verdict (tokens : List Token) (offset : Nat) : List Char → Except LexError (List Token)
  | [] => .ok tokens
  | c :: _ => .error ⟨offset, .invalidCharacter c⟩

/-- From every place there is a run until the scanner is stuck. -/
theorem exists_run (offset : Nat) (cs : List Char) :
    ∃ tokens stop rest, Run offset cs tokens stop rest ∧ Stuck rest := by
  -- A token can be of any length, so the induction is on the length of the text.
  induction hlength : cs.length using Nat.strongRecOn generalizing offset cs with
  | ind n ih =>
    subst hlength
    cases cs with
    | nil => exact ⟨[], offset, [], .done offset [], by simp [Stuck]⟩
    | cons c cs =>
      by_cases hblank : isBlank c
      · obtain ⟨tokens, stop, rest, hrun, hstuck⟩ :=
          ih cs.length (by simp) (offset + c.utf8Size) cs rfl
        exact ⟨tokens, stop, rest, .blank hblank hrun, hstuck⟩
      · cases hlexeme : lexeme? (c :: cs) with
        | none =>
          exact ⟨[], offset, c :: cs, .done offset _, by simpa [Stuck, hblank] using hlexeme⟩
        | some lexeme =>
          have hlt := (lexeme?_eq_some_iff.mp hlexeme).length_rest_lt
          obtain ⟨tokens, stop, rest, hrun, hstuck⟩ :=
            ih lexeme.rest.length hlt (offset + byteLength lexeme.text) lexeme.rest rfl
          exact ⟨_, stop, rest, .token hlexeme hrun, hstuck⟩

/-- The scanner takes the run until it is stuck. -/
theorem scanFrom_of_run {offset stop : Nat} {cs rest : List Char} {tokens : List Token}
    (h : Run offset cs tokens stop rest) (hstuck : Stuck rest) {fuel : Nat}
    (hfuel : cs.length ≤ fuel) (found : List Token) :
    scanFrom fuel offset cs found = verdict (found.reverse ++ tokens) stop rest := by
  induction h generalizing fuel found with
  | done offset cs =>
    rw [List.append_nil]
    cases cs with
    | nil => cases fuel <;> rfl
    | cons c cs =>
      obtain ⟨fuel, rfl⟩ := Nat.exists_eq_add_of_le' (Nat.lt_of_lt_of_le (Nat.succ_pos _) hfuel)
      obtain ⟨hblank, hlexeme⟩ := hstuck c rfl
      rw [scanFrom, if_neg (by simp [hblank]), hlexeme]
      rfl
  | @blank offset stop c cs rest tokens hblank h ih =>
    obtain ⟨fuel, rfl⟩ := Nat.exists_eq_add_of_le' (Nat.lt_of_lt_of_le (Nat.succ_pos _) hfuel)
    rw [scanFrom, if_pos hblank]
    exact ih hstuck (Nat.le_of_succ_le_succ hfuel) found
  | @token offset stop cs rest tokens lexeme hlexeme h ih =>
    have hlt := (lexeme?_eq_some_iff.mp hlexeme).length_rest_lt
    obtain ⟨fuel, rfl⟩ := Nat.exists_eq_add_of_le' (by omega : 1 ≤ fuel)
    obtain ⟨c, cs, rfl⟩ := List.exists_cons_of_length_pos (by omega : 0 < cs.length)
    have hblank : ¬isBlank c := fun hc => by simp [lexeme?_of_isBlank hc] at hlexeme
    rw [scanFrom, if_neg hblank, hlexeme]
    have hrest := ih hstuck (by omega : lexeme.rest.length ≤ fuel) (lexeme.token offset :: found)
    rw [List.reverse_cons, List.append_assoc, List.singleton_append] at hrest
    exact hrest

/-- A scan gives what the run from the start of the source gives. -/
theorem scan_of_run {source rest : List Char} {tokens : List Token} {stop : Nat}
    (h : Run 0 source tokens stop rest) (hstuck : Stuck rest) :
    scan source = verdict tokens stop rest :=
  scanFrom_of_run h hstuck (Nat.le_refl _) []

/-- A scan that succeeds is a run through all of the source. -/
theorem run_of_scan {source : List Char} {tokens : List Token} (h : scan source = .ok tokens) :
    Run 0 source tokens (byteLength source) [] := by
  obtain ⟨tokens', stop, rest, hrun, hstuck⟩ := exists_run 0 source
  obtain ⟨taken, hsource, hstop⟩ := hrun.exists_append
  rw [scan_of_run hrun hstuck] at h
  cases rest with
  | nil =>
    obtain rfl := Except.ok.inj h
    rw [List.append_nil] at hsource
    rw [Nat.zero_add, ← hsource] at hstop
    exact hstop ▸ hrun
  | cons c after => exact absurd h nofun

/-- A scan that fails does so at the character with which it is stuck. -/
theorem exists_stuck_of_scan {source : List Char} {error : LexError}
    (h : scan source = .error error) :
    ∃ before c after, source = before ++ c :: after ∧
      error = ⟨byteLength before, .invalidCharacter c⟩ ∧ Stuck (c :: after) := by
  obtain ⟨tokens, stop, rest, hrun, hstuck⟩ := exists_run 0 source
  obtain ⟨before, hsource, hstop⟩ := hrun.exists_append
  rw [scan_of_run hrun hstuck] at h
  cases rest with
  | nil => exact absurd h nofun
  | cons c after =>
    rw [Nat.zero_add] at hstop
    exact ⟨before, c, after, hsource, hstop ▸ (Except.error.inj h).symm, hstuck⟩

/-- The tokens of a scan that succeeds are the longest ones in a tiling of all of the source. -/
theorem tiles_of_scan {source : List Char} {tokens : List Token} (h : scan source = .ok tokens) :
    Tiles source 0 (byteLength source) tokens :=
  (run_of_scan h).tiles [] rfl

/-- If the scanner is stuck before the end of a text, then nothing that the text starts with is a
token or blank. -/
theorem Stuck.not_matches {c : Char} {cs : List Char} (h : Stuck (c :: cs)) {text : List Char}
    (hne : text ≠ []) (hstart : text <+: c :: cs) :
    (∀ kind : Kind, ¬kind.Matches text) ∧ ¬∀ d ∈ text, d ∈ blanks := by
  obtain ⟨hblank, hlexeme⟩ := h c rfl
  refine ⟨fun kind hmatches => lexeme?_eq_none_iff.mp hlexeme kind text hmatches hstart, ?_⟩
  intro hblanks
  obtain ⟨d, text, rfl⟩ := List.exists_cons_of_ne_nil hne
  obtain rfl : d = c := (List.cons_prefix_cons.mp hstart).1
  simp [isBlank_iff.mpr (hblanks d List.mem_cons_self)] at hblank

/-- Either a scan succeeds, and its tokens tile the source; or it fails at a character at which
neither a token nor a blank starts, and the tokens that tile the source before that character are
those of the text before it. -/
theorem scan_spec (source : List Char) :
    Xor
      (∃ tokens, scan source = .ok tokens ∧ Tiles source 0 (byteLength source) tokens)
      (∃ error before c after tokens, scan source = .error error ∧
        source = before ++ c :: after ∧ error.offset = byteLength before ∧
        error.message = "invalid character sequence starting with " ++ quotedChar c ∧
        scan before = .ok tokens ∧ Tiles source 0 error.offset tokens ∧
        ∀ text, text ≠ [] → text <+: c :: after →
          (∀ kind : Kind, ¬kind.Matches text) ∧ ¬∀ d ∈ text, d ∈ blanks) := by
  obtain ⟨tokens, stop, rest, hrun, hstuck⟩ := exists_run 0 source
  obtain ⟨taken, hsource, hstop⟩ := hrun.exists_append
  have htiles : Tiles source 0 stop tokens := hrun.tiles [] rfl
  have hscan := scan_of_run hrun hstuck
  cases rest with
  | nil =>
    refine .inl ⟨⟨tokens, hscan, tiles_of_scan hscan⟩, ?_⟩
    rintro ⟨error, -, -, -, -, herror, -⟩
    exact absurd (hscan.symm.trans herror) nofun
  | cons c after =>
    refine .inr ⟨⟨⟨stop, .invalidCharacter c⟩, taken, c, after, tokens, hscan, hsource, ?_, rfl, ?_,
      htiles, fun text hne hstart => hstuck.not_matches hne hstart⟩, ?_⟩
    · exact hstop.trans (Nat.zero_add _)
    · exact scan_of_run (hrun.truncate hsource) (by simp [Stuck])
    · rintro ⟨_, htokens, -⟩
      exact absurd (hscan.symm.trans htokens) nofun

/-- A source is refused for its length, or scanned. In either case no place that comes up is beyond
what a span can name: tokens end by then, and the span of an error is at the place of the error. -/
theorem scanBounded_places (source : List Char) :
    (∀ tokens, scanBounded source = .ok tokens →
      scan source = .ok tokens ∧ ∀ token ∈ tokens, token.span.stop ≤ LexError.maxOffset) ∧
    ∀ error, scanBounded source = .error error →
      error.span = .empty error.offset ∧ error.offset ≤ LexError.maxOffset ∧
        (error.reason = .tooLong (byteLength source) ∨ scan source = .error error) := by
  rw [scanBounded]
  by_cases hlength : LexError.maxOffset < byteLength source
  · rw [if_pos hlength]
    refine ⟨nofun, fun error herror => ?_⟩
    obtain rfl := Except.error.inj herror
    exact ⟨rfl, Nat.zero_le _, .inl rfl⟩
  · rw [if_neg hlength]
    refine ⟨fun tokens htokens => ⟨htokens, fun token hmem => ?_⟩, fun error herror => ?_⟩
    · obtain ⟨-, hstop⟩ := (tiles_of_scan htokens).within token hmem
      exact Nat.le_trans hstop (Nat.not_lt.mp hlength)
    · obtain ⟨before, c, after, rfl, rfl, -⟩ := exists_stuck_of_scan herror
      have hoffset : byteLength before ≤ LexError.maxOffset := by
        rw [byteLength_append] at hlength
        omega
      exact ⟨congrArg Span.empty (Nat.min_eq_left hoffset), hoffset, .inr herror⟩

end ResumeFilter.Token
