import ResumeFilter.Proofs.Query.Failing
import ResumeFilter.Proofs.Query.Splicing

/-!
# Syntax errors are found as early as can be

A text that is not a query is rejected at the first token behind which it is lost
(`parse_error_earliest`): what stands in front of that token can still be completed to a query, and
with the token and a blank behind it nothing can. Where no token is at fault the text just ends too
early, and can be completed as it is.

A completion supplies what is due behind the beginning of a query and closes the groups that are
open there. The tokens in front stay what they are, as a blank sets the completion off.
-/

namespace ResumeFilter

open Grammar Text Token

/-! ## Completions -/

/-- Whether the spelling of a token is one that the scanner reads. -/
def Token.Spellable (spelling : Token.Kind × String) : Prop :=
  spelling.1.Matches spelling.2.toList ∧
    (spelling.2.toList ∈ keywords → spelling.1 ≠ .identifier)

/-- A blank and the texts of tokens with blanks between them spell these tokens. -/
theorem exists_spells {spellings : List (Token.Kind × String)}
    (h : ∀ spelling ∈ spellings, Spellable spelling) :
    ∃ more, Spells (' ' :: more) spellings := by
  induction spellings with
  | nil => exact ⟨[], spells_blank .nil⟩
  | cons spelling spellings ih =>
    rw [List.forall_mem_cons] at h
    obtain ⟨⟨hmatches, hkeyword⟩, hrest⟩ := h
    obtain ⟨more, hspells⟩ := ih hrest
    exact ⟨_, spells_blank (spells_token hmatches hkeyword (endsToken_blank more) hspells)⟩

/-- What is due can be spelled. -/
theorem Grammar.Due.spellable_supply (due : Due) :
    ∀ spelling ∈ due.supply, Spellable spelling := by
  have hfield : Spellable (.identifier, "A") := ⟨⟨'A', [], rfl, nofun, rfl⟩, by decide⟩
  have hvalue : Spellable (.boolLit, "TRUE") := ⟨.inl rfl, nofun⟩
  have heq : Spellable (.eq, "=") := ⟨rfl, nofun⟩
  have hbrace : Spellable (.braceClose, "\x7d") := ⟨rfl, nofun⟩
  have hparen : Spellable (.parenClose, ")") := ⟨rfl, nofun⟩
  cases due <;> simp [supply, hfield, hvalue, heq, hbrace, hparen]

/-- Closing parentheses can be spelled. -/
theorem Grammar.spellable_closings (n : Nat) : ∀ spelling ∈ closings n, Spellable spelling := by
  intro spelling hspelling
  rw [List.eq_of_mem_replicate hspelling]
  exact ⟨rfl, nofun⟩

/-- Up to where it comes, a run goes through all of the text in front. -/
theorem Token.Run.take {stop : Nat} {cs rest : List Char} {tokens : List Token}
    (h : Run 0 cs tokens stop rest) : Run 0 (takeBytes stop cs) tokens stop [] := by
  obtain ⟨taken, hcs, hstop⟩ := h.exists_append
  have htake : takeBytes stop cs = taken := by
    rw [hcs, hstop, Nat.zero_add, takeBytes_append]
  rw [htake]
  exact h.truncate hcs

/-- A text whose tokens begin a query can be completed to one. -/
theorem exists_parse_append {cs : List Char} {tokens : List Token} {stop : Nat} {due : Due}
    (h : Run 0 cs tokens stop []) (hbegins : BeginsText tokens due) :
    ∃ more q, Query.parse (String.ofList cs ++ more) none = .ok q := by
  obtain ⟨n, hn⟩ := hbegins.exists_derives
  have hspellable : ∀ spelling ∈ due.supply ++ closings n, Spellable spelling :=
    List.forall_mem_append.mpr ⟨due.spellable_supply, spellable_closings n⟩
  obtain ⟨more, hspells⟩ := exists_spells hspellable
  obtain ⟨rest, stop', hrun, hrest⟩ := hspells.exists_run stop
  obtain ⟨q, hderives⟩ := hn rest hrest
  have hscan : scan (cs ++ ' ' :: more) = .ok (tokens ++ rest) :=
    scan_of_run ((h.append (endsToken_blank more)).trans hrun) (by simp [Stuck])
  refine ⟨String.ofList (' ' :: more), q, ?_⟩
  rw [← String.ofList_append, Query.parse, String.toList_ofList, hscan]
  exact ofTokens_of_derives rfl (hasEnds_of_scan hscan) hderives

/-- Behind a token that is not what is due, nothing that a blank sets off makes a text a query. -/
theorem parse_append_ne_ok {cs : List Char} {before : List Token} {token : Token} {stop : Nat}
    {due : Due} {sourceLength : Nat} {error : ParseError}
    (h : Run 0 cs (before ++ [token]) stop []) (hbegins : BeginsText before due)
    (herror : due.error? sourceLength (some token) = some error) (more : String) (q : Query) :
    Query.parse (String.ofList cs ++ " " ++ more) none ≠ .ok q := by
  obtain ⟨after, stop', rest, hrun, hstuck⟩ := exists_run stop (' ' :: more.toList)
  have hscan : scan (cs ++ ' ' :: more.toList) = verdict (before ++ [token] ++ after) stop' rest :=
    scan_of_run ((h.append (endsToken_blank more.toList)).trans hrun) hstuck
  have htext : (String.ofList cs ++ " " ++ more).toList = cs ++ ' ' :: more.toList := by
    simp
  rw [Query.parse, htext, hscan]
  cases rest with
  | cons => rintro ⟨⟩
  | nil =>
    have hfails : Query.ofTokens ⟨byteLength (cs ++ ' ' :: more.toList), none⟩
        (before ++ [token] ++ after) = .error error :=
      (ofTokens_eq_error_iff rfl (hasEnds_of_scan hscan)).mpr
        ⟨before, token :: after, due, by simp, hbegins, (due.error?_some_eq token _ _).trans herror⟩
    simp only [verdict, hfails]
    rintro ⟨⟩

/-- Syntax errors are found as early as can be. If a token of the source is at fault, then the text
in front of it can be completed to a query, but the text up to its end and a blank cannot; otherwise
the error is at the end of the source, and the source can be completed to a query. -/
theorem parse_error_earliest {source : String} {tokens : List Token} {error : ParseError}
    (hscan : Token.scan source.toList = .ok tokens)
    (hparse : Query.parse source none = .error error) :
    (∃ token ∈ tokens, error.token? = some token ∧ error.span = token.span ∧
      (error.kind = .unexpectedToken ∨ error.kind = .trailingInput ∨ error.kind = .invalidNumber) ∧
      (∃ more q, Query.parse (String.ofList (takeBytes token.span.start source.toList) ++ more)
        none = .ok q) ∧
      ∀ more q, Query.parse
        (String.ofList (takeBytes token.span.stop source.toList) ++ " " ++ more) none ≠ .ok q) ∨
    (error.token? = none ∧ error.span = .empty (byteLength source.toList) ∧
      (error.kind = .unexpectedEnd ∨ error.kind = .unclosed) ∧
      ∃ more q, Query.parse (source ++ more) none = .ok q) := by
  rw [Query.parse, hscan] at hparse
  obtain ⟨before, rest, due, htokens, hbegins, herror⟩ :=
    (ofTokens_eq_error_iff rfl (hasEnds_of_scan hscan)).mp hparse
  have hrun := run_of_scan hscan
  subst htokens
  cases rest with
  | nil =>
    right
    rw [List.append_nil] at hrun
    obtain ⟨htoken, hspan, hkind⟩ := Due.of_error?_none herror
    have hcompletion := exists_parse_append hrun hbegins
    rw [String.ofList_toList] at hcompletion
    exact ⟨htoken, hspan, hkind, hcompletion⟩
  | cons token after =>
    left
    have htoken := Due.token?_of_error?_some herror
    obtain ⟨hspan, hkind⟩ := ParseError.of_token? htoken
    obtain ⟨_, hbefore, -, -⟩ := hrun.cut
    obtain ⟨_, hthrough, -⟩ := hrun.cut_behind
    exact ⟨token, by simp, htoken, hspan, hkind, exists_parse_append hbefore.take hbegins,
      parse_append_ne_ok hthrough.take hbegins herror⟩

/-- A second comparison operator is at fault, not the operand behind it: up to the first one the
group can be completed. -/
theorem parse_error_of_second_comparator :
    Query.parse "NOT (A > > 5" none = .error (.unexpectedToken .value ⟨.gt, ⟨9, 10⟩, ">"⟩) ∧
      (∃ more q, Query.parse ("NOT (A > " ++ more) none = .ok q) ∧
      ∀ more q, Query.parse ("NOT (A > >" ++ " " ++ more) none ≠ .ok q := by
  have hscan : Token.scan "NOT (A > > 5".toList = .ok [⟨.not, ⟨0, 3⟩, "NOT"⟩,
      ⟨.parenOpen, ⟨4, 5⟩, "("⟩, ⟨.identifier, ⟨5, 6⟩, "A"⟩, ⟨.gt, ⟨7, 8⟩, ">"⟩,
      ⟨.gt, ⟨9, 10⟩, ">"⟩, ⟨.numberLit, ⟨11, 12⟩, "5"⟩] := by rfl
  have hparse : Query.parse "NOT (A > > 5" none =
      .error (.unexpectedToken .value ⟨.gt, ⟨9, 10⟩, ">"⟩) := by rfl
  rcases parse_error_earliest hscan hparse with ⟨token, -, htoken, -, -, h⟩ | ⟨hnone, -⟩
  · obtain rfl := Option.some.inj htoken
    exact ⟨hparse, h⟩
  · cases hnone

end ResumeFilter
