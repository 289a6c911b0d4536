import ResumeFilter.Proofs.Query.Deepest
import ResumeFilter.Proofs.Query.Layout
import ResumeFilter.Proofs.Query.RoundTrip

/-!
# Texts composed of texts

Texts that are queries can be put in parentheses, negated and joined, and what results is the query
that is composed of theirs in the same way (`parse_composed`). Places are left out of this until the
end: a text is written in tokens that may stand anywhere, as long as the text spells them
(`Grammar.Writing`), and these are composed.
-/

namespace ResumeFilter

open Grammar Opening Token

/-! ## Single conditions -/

/-- Links make up a chain, unless there are none. -/
theorem Grammar.Derives.links_eq_or_isLogical {phrase : Phrase} {tokens : List Token}
    {left q : Query} (h : Derives phrase tokens q) (hphrase : phrase = .links left) :
    tokens = [] ∧ q = left ∨ q.isLogical = true := by
  induction h generalizing left with
  | done q =>
    obtain rfl := Phrase.links.inj hphrase
    exact .inl ⟨rfl, rfl⟩
  | link _ _ _ _ ih =>
    rcases ih rfl with ⟨-, rfl⟩ | hlogical
    · exact .inr rfl
    · exact .inr hlogical
  | _ => cases hphrase

/-- An expression that is no chain is a single condition. -/
theorem Grammar.Derives.condition_of_isLogical_eq {tokens : List Token} {q : Query}
    (h : Derives .expression tokens q) (hlogical : q.isLogical = false) :
    Derives .condition tokens q := by
  cases h with
  | expression hfirst hlinks =>
    rcases hlinks.links_eq_or_isLogical rfl with ⟨rfl, rfl⟩ | hchain
    · rwa [List.append_nil]
    · exact absurd (hchain.symm.trans hlogical) nofun

/-! ## How deep composed tokens nest -/

section Nesting

variable {tokens tokens' : List Token}

/-- Parentheses nest what is in them one level deeper. -/
theorem deepest_group_le {opening closing : Token} (hopening : opening.kind = .parenOpen)
    (hclosing : closing.kind = .parenClose) :
    deepest (opening :: (tokens ++ [closing])) ≤ deepest tokens + 1 := by
  rw [deepest, peak_group hopening hclosing, Nat.add_comm]
  exact peak_le_add [.group] tokens

/-- A NOT nests its condition one level deeper. -/
theorem deepest_not_le {token : Token} (hnot : token.kind = .not) :
    deepest (token :: tokens) ≤ deepest tokens + 1 := by
  rw [deepest, peak_not hnot, Nat.add_comm]
  exact peak_le_add [.not] tokens

end Nesting

/-! ## Writing -/

/-- A token without a place of its own. -/
def Token.bare (kind : Token.Kind) (text : String) : Token := ⟨kind, .empty 0, text⟩

@[simp]
theorem Token.spelling_bare (kind : Token.Kind) (text : String) :
    (bare kind text).spelling = (kind, text) := rfl

/-- A text written in tokens, wherever these stand, that are a phrase which makes up a query, and
that nest no deeper than a bound. -/
structure Grammar.Writing (phrase : Phrase) (cs : List Char) (q : Query) (bound : Nat) where
  tokens : List Token
  spells : Spells cs (tokens.map Token.spelling)
  hasEnds : ∀ token ∈ tokens, token.HasEnds
  derives : Derives phrase tokens q
  deepest_le : deepest tokens ≤ bound

namespace Grammar.Writing

variable {cs cs' : List Char} {q left right : Query} {bound bound' : Nat}

/-- A text that is read is written in its tokens. -/
def ofScan {tokens : List Token} (hscan : scan cs = .ok tokens) (h : Derives .expression tokens q)
    (hbound : deepest tokens ≤ bound) : Writing .expression cs q bound :=
  ⟨tokens, (run_of_scan hscan).spells, hasEnds_of_scan hscan, h, hbound⟩

/-- What is written in a text is read from it, if it nests within the limit. -/
theorem readFrom {source : String} {depthLimit : Option Nat}
    (w : Writing .expression source.toList q bound) (hlimit : ∀ limit ∈ depthLimit, bound ≤ limit) :
    q.ReadFrom source depthLimit := by
  obtain ⟨placed, hscan, hspelling⟩ := scan_of_spells w.spells
  obtain ⟨q', hunplaced, hderives⟩ := w.derives.respell w.hasEnds hspelling.symm
  have hkinds : placed.map Token.kind = w.tokens.map Token.kind := by
    have hfst := congrArg (List.map Prod.fst) hspelling
    rw [List.map_map, List.map_map] at hfst
    exact hfst
  have hdeepest : deepest placed = deepest w.tokens := peak_eq_of_map_kind hkinds []
  have hplaced : ∀ limit ∈ depthLimit, deepest placed ≤ limit := fun limit hmem =>
    hdeepest ▸ Nat.le_trans w.deepest_le (hlimit limit hmem)
  exact ⟨q', parse_eq_ok_iff.mpr ⟨placed, hscan, hderives, hplaced⟩, hunplaced⟩

/-- A condition as an expression. -/
def expression (w : Writing .condition cs q bound) : Writing .expression cs q bound :=
  { w with derives := w.derives.expression_of_condition }

/-- An expression that is no chain as a condition. -/
def condition (w : Writing .expression cs q bound) (hlogical : q.isLogical = false) :
    Writing .condition cs q bound :=
  { w with derives := w.derives.condition_of_isLogical_eq hlogical }

/-- An expression in parentheses. -/
def group (w : Writing .expression cs q bound) :
    Writing .condition ('(' :: (cs ++ [')'])) q (bound + 1) where
  tokens := bare .parenOpen "(" :: (w.tokens ++ [bare .parenClose ")"])
  spells := by
    have hclosing : Spells [')'] [(.parenClose, ")")] :=
      @Spells.token .parenClose ")" [] [] rfl .nil
    have hinner := w.spells.append (endsToken_cons (by decide) []) hclosing
    simpa using @Spells.token .parenOpen "(" _ _ rfl hinner
  hasEnds := by
    rw [List.forall_mem_cons, List.forall_mem_append, List.forall_mem_singleton]
    exact ⟨nofun, w.hasEnds, nofun⟩
  derives := .group rfl w.derives rfl
  deepest_le := Nat.le_trans (deepest_group_le rfl rfl) (Nat.succ_le_succ w.deepest_le)

/-- A condition behind a NOT. -/
def not (w : Writing .condition cs q bound) :
    Writing .condition ("NOT ".toList ++ cs) (.not q) (bound + 1) where
  tokens := bare .not "NOT" :: w.tokens
  spells := @spells_token .not "NOT" _ _ rfl nofun (endsToken_blank cs) (spells_blank w.spells)
  hasEnds := List.forall_mem_cons.mpr ⟨nofun, w.hasEnds⟩
  derives := .not rfl w.derives
  deepest_le := Nat.le_trans (deepest_not_le rfl) (Nat.succ_le_succ w.deepest_le)

/-- An expression that goes on with one more condition. -/
def concat (op : LogicalOp) (w : Writing .expression cs left bound)
    (w' : Writing .condition cs' right bound') :
    Writing .expression (cs ++ ' ' :: (op.text.toList ++ ' ' :: cs')) (.logical op left right)
      (max bound bound') where
  tokens := w.tokens ++ bare op.kind op.text :: w'.tokens
  spells := by
    obtain ⟨hmatches, hne⟩ := op.matches_text
    have hop := spells_token hmatches (fun _ => hne) (endsToken_blank cs') (spells_blank w'.spells)
    simpa using w.spells.append_blank hop
  hasEnds := by
    have hop : (bare op.kind op.text).HasEnds := by cases op <;> nofun
    exact List.forall_mem_append.mpr ⟨w.hasEnds, List.forall_mem_cons.mpr ⟨hop, w'.hasEnds⟩⟩
  derives := w.derives.concat rfl w'.derives
  deepest_le := by
    rw [deepest, w.derives.peak_junction rfl]
    exact max_le_max w.deepest_le w'.deepest_le

end Grammar.Writing

/-! ## Composed texts -/

/-- Texts that are queries compose: in parentheses such a text is the same query, with NOT in front
of the parentheses it is negated, and it is joined by AND or OR with another one in parentheses, or
without them if that one is no chain. Parentheses cost a level of nesting, and so does NOT, but a
junction costs none. -/
theorem parse_composed {source₁ : String} {limit₁ : Option Nat} {q₁ : Query}
    (h₁ : Query.parse source₁ limit₁ = .ok q₁) :
    q₁.ReadFrom ("(" ++ source₁ ++ ")") (limit₁.map (· + 1)) ∧
      (Query.not q₁).ReadFrom ("NOT (" ++ source₁ ++ ")") (limit₁.map (· + 2)) ∧
      ∀ source₂ limit₂ q₂, Query.parse source₂ limit₂ = .ok q₂ → ∀ op : LogicalOp,
        (Query.logical op q₁ q₂).ReadFrom (source₁ ++ " " ++ op.text ++ " (" ++ source₂ ++ ")")
          (Option.map₂ max limit₁ (limit₂.map (· + 1))) ∧
        (q₂.isLogical = false →
          (Query.logical op q₁ q₂).ReadFrom (source₁ ++ " " ++ op.text ++ " " ++ source₂)
            (Option.map₂ max limit₁ limit₂)) := by
  obtain ⟨tokens₁, hscan₁, hderives₁, hlimit₁⟩ := parse_eq_ok_iff.mp h₁
  have w₁ : Writing .expression source₁.toList q₁ (deepest tokens₁) :=
    .ofScan hscan₁ hderives₁ (Nat.le_refl _)
  refine ⟨?_, ?_, fun source₂ limit₂ q₂ h₂ op => ?_⟩
  · have w : Writing .expression ("(" ++ source₁ ++ ")").toList q₁ (deepest tokens₁ + 1) := by
      simpa using w₁.group.expression
    refine w.readFrom fun limit hlimit => ?_
    obtain ⟨limit, hmem, rfl⟩ := Option.mem_map.mp hlimit
    exact Nat.succ_le_succ (hlimit₁ limit hmem)
  · have w : Writing .expression ("NOT (" ++ source₁ ++ ")").toList (.not q₁)
        (deepest tokens₁ + 2) := by
      simpa using w₁.group.not.expression
    refine w.readFrom fun limit hlimit => ?_
    obtain ⟨limit, hmem, rfl⟩ := Option.mem_map.mp hlimit
    exact Nat.add_le_add_right (hlimit₁ limit hmem) 2
  · obtain ⟨tokens₂, hscan₂, hderives₂, hlimit₂⟩ := parse_eq_ok_iff.mp h₂
    have w₂ : Writing .expression source₂.toList q₂ (deepest tokens₂) :=
      .ofScan hscan₂ hderives₂ (Nat.le_refl _)
    constructor
    · have w : Writing .expression (source₁ ++ " " ++ op.text ++ " (" ++ source₂ ++ ")").toList
          (.logical op q₁ q₂) (max (deepest tokens₁) (deepest tokens₂ + 1)) := by
        simpa using w₁.concat op w₂.group
      refine w.readFrom fun limit hlimit => ?_
      obtain ⟨limit, _, hmem, hsucc, rfl⟩ := Option.mem_map₂_iff.mp hlimit
      obtain ⟨limit', hmem', rfl⟩ := Option.mem_map.mp hsucc
      exact max_le_max (hlimit₁ limit hmem) (Nat.succ_le_succ (hlimit₂ limit' hmem'))
    · intro hlogical
      have w : Writing .expression (source₁ ++ " " ++ op.text ++ " " ++ source₂).toList
          (.logical op q₁ q₂) (max (deepest tokens₁) (deepest tokens₂)) := by
        simpa using w₁.concat op (w₂.condition hlogical)
      refine w.readFrom fun limit hlimit => ?_
      obtain ⟨limit, limit', hmem, hmem', rfl⟩ := Option.mem_map₂_iff.mp hlimit
      exact max_le_max (hlimit₁ limit hmem) (hlimit₂ limit' hmem')

/-- A chain stays a group of its own when it is negated, and both ways of joining it with a negation
make up one chain. -/
theorem parse_composed_chain_and_negation :
    ∃ q₁ q₂, Query.parse "A=1 OR B=2" (some 0) = .ok q₁ ∧
      Query.parse "NOT C=3" (some 1) = .ok q₂ ∧
      (Query.not q₁).ReadFrom "NOT (A=1 OR B=2)" (some 2) ∧
      (Query.logical .and q₁ q₂).ReadFrom "A=1 OR B=2 AND (NOT C=3)" (some 2) ∧
      (Query.logical .and q₁ q₂).ReadFrom "A=1 OR B=2 AND NOT C=3" (some 1) := by
  have h₁ : Query.parse "A=1 OR B=2" (some 0) = .ok (.logical .or
      (.comparison ⟨⟨"A", ⟨0, 1⟩⟩, .scalar .eq, .scalar ⟨.int 1, ⟨2, 3⟩⟩⟩)
      (.comparison ⟨⟨"B", ⟨7, 8⟩⟩, .scalar .eq, .scalar ⟨.int 2, ⟨9, 10⟩⟩⟩)) := by decide +kernel
  have h₂ : Query.parse "NOT C=3" (some 1) = .ok (.not
      (.comparison ⟨⟨"C", ⟨4, 5⟩⟩, .scalar .eq, .scalar ⟨.int 3, ⟨6, 7⟩⟩⟩)) := by decide +kernel
  obtain ⟨-, hnot, hjoined⟩ := parse_composed h₁
  obtain ⟨hgrouped, hplain⟩ := hjoined _ _ _ h₂ .and
  exact ⟨_, _, h₁, h₂, hnot, hgrouped, hplain rfl⟩

end ResumeFilter
