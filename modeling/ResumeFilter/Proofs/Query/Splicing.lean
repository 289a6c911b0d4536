import ResumeFilter.Proofs.Query.Spelling

/-!
# Texts put together and taken apart

A text that ends in a token can be followed by anything that ends the token, and a text that was
scanned can be cut around each of its tokens; either way the other tokens stay what they are, apart
from their places. So a token of a source can be replaced by other text, if blanks set it off
(`exists_scan_splice`).
-/

namespace ResumeFilter

open Text Token

/-! ## Runs and spellings -/

/-- What a run through all of a text finds is what the text spells. -/
theorem Token.Run.spells {offset stop : Nat} {cs : List Char} {tokens : List Token}
    (h : Run offset cs tokens stop []) : Spells cs (tokens.map Token.spelling) := by
  generalize hrest : ([] : List Char) = rest at h
  induction h with
  | done offset cs =>
    subst hrest
    exact .nil
  | blank hblank h ih => exact .blank hblank (ih hrest)
  | @token offset stop cs rest tokens lexeme hlexeme h ih =>
    have hsplit := (lexeme?_eq_some_iff.mp hlexeme).split
    have hread : lexeme? ((String.ofList lexeme.text).toList ++ lexeme.rest) =
        some ⟨lexeme.kind, (String.ofList lexeme.text).toList, lexeme.rest⟩ := by
      rw [String.toList_ofList, ← hsplit]
      exact hlexeme
    have hspells := Spells.token hread (ih hrest)
    rw [String.toList_ofList, ← hsplit] at hspells
    exact hspells

/-- A text in front of one that ends its tokens spells what both spell. -/
theorem Spells.append {cs rest : List Char} {first second : List (Token.Kind × String)}
    (h : Spells cs first) (hends : EndsToken rest) (hrest : Spells rest second) :
    Spells (cs ++ rest) (first ++ second) := by
  induction h with
  | nil => exact hrest
  | blank hc _ ih => exact .blank hc ih
  | @token kind text cs spellings hread _ ih =>
    have hread' := lexeme?_append_of_endsToken hread hends
    rw [List.append_assoc] at hread'
    have hspells := Spells.token hread' ih
    rw [← List.append_assoc] at hspells
    exact hspells

/-- A text in front of a blank and another text spells what both spell. -/
theorem Spells.append_blank {cs rest : List Char} {first second : List (Token.Kind × String)}
    (h : Spells cs first) (hrest : Spells rest second) :
    Spells (cs ++ ' ' :: rest) (first ++ second) :=
  h.append (endsToken_blank rest) (spells_blank hrest)

/-! ## Cutting a source -/

/-- In front of a token of a source and behind it, the source spells the other tokens. -/
theorem spells_around_token {source : List Char} {before after : List Token} {token : Token}
    (h : scan source = .ok (before ++ token :: after)) :
    Spells (takeBytes token.span.start source) (before.map Token.spelling) ∧
      Spells (dropBytes token.span.stop source) (after.map Token.spelling) := by
  obtain ⟨behind, hbefore, htoken, hafter⟩ := (run_of_scan h).cut
  obtain ⟨taken, hsource, hstart⟩ := hbefore.exists_append
  obtain ⟨through, hthrough, hstop⟩ := (hbefore.trans htoken).exists_append
  have htake : takeBytes token.span.start source = taken := by
    rw [hstart, Nat.zero_add, hsource, takeBytes_append]
  have hdrop : dropBytes token.span.stop source = behind := by
    rw [hstop, Nat.zero_add, hthrough, dropBytes_append]
  rw [htake, hdrop]
  exact ⟨(hbefore.truncate hsource).spells, hafter.spells⟩

/-- A source with other text in place of what stands in a span, and with a blank on either side of
that text. -/
def Text.splice (source : List Char) (span : Span) (text : List Char) : List Char :=
  takeBytes span.start source ++ ' ' :: (text ++ ' ' :: dropBytes span.stop source)

/-- If a token of a source is replaced by other text, the tokens of that text take its place. -/
theorem exists_scan_splice {source text : List Char} {before inner after : List Token}
    {token : Token} (h : scan source = .ok (before ++ token :: after))
    (htext : scan text = .ok inner) :
    ∃ tokens, scan (splice source token.span text) = .ok tokens ∧
      tokens.map Token.spelling = (before ++ inner ++ after).map Token.spelling := by
  obtain ⟨hbefore, hafter⟩ := spells_around_token h
  have hinner : Spells text (inner.map Token.spelling) := (run_of_scan htext).spells
  have hspells := hbefore.append_blank (hinner.append_blank hafter)
  rw [← List.append_assoc, ← List.map_append, ← List.map_append] at hspells
  exact scan_of_spells hspells

end ResumeFilter
