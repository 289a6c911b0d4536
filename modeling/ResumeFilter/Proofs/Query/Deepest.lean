import ResumeFilter.Proofs.Query.Limit
import ResumeFilter.Proofs.Query.Printable

/-!
# How deep a text nests

The deepest point of a text is where most is open, NOTs without a complete condition and
parentheses that are not closed (`deepest`). It decides under which limits the text is read
(`parse_eq_ok_iff`). Behind every phrase of the grammar as much is open as in front of it, apart
from the NOTs that the phrase completes (`settle_behind`), so the deepest point of a text can be
told from those of its phrases.
-/

namespace ResumeFilter

open Grammar Opening Token

namespace Opening

/-! ## The deepest point -/

/-- The most that is open at any point of tokens, if `opened` is in front of them. -/
def peak : List Opening → List Token → Nat
  | opened, [] => opened.length
  | opened, token :: tokens => max opened.length (peak (step opened token) tokens)

@[simp]
theorem peak_nil (opened : List Opening) : peak opened [] = opened.length := rfl

@[simp]
theorem peak_cons (opened : List Opening) (token : Token) (tokens : List Token) :
    peak opened (token :: tokens) = max opened.length (peak (step opened token) tokens) := rfl

/-- What is open in front of tokens counts. -/
theorem length_le_peak (opened : List Opening) (tokens : List Token) :
    opened.length ≤ peak opened tokens := by
  cases tokens with
  | nil => exact Nat.le_refl _
  | cons token tokens => exact Nat.le_max_left _ _

/-- A bound on the deepest point is one on every point. -/
theorem peak_le_iff {opened : List Opening} {tokens : List Token} {bound : Nat} :
    peak opened tokens ≤ bound ↔
      ∀ before, before <+: tokens → (behind opened before).length ≤ bound := by
  induction tokens generalizing opened with
  | nil => simp
  | cons token tokens ih =>
    rw [peak_cons, Nat.max_le, ih]
    constructor
    · rintro ⟨hopened, hrest⟩ before hbefore
      cases before with
      | nil => exact hopened
      | cons _ before =>
        obtain ⟨rfl, hprefix⟩ := List.cons_prefix_cons.mp hbefore
        exact hrest before hprefix
    · intro h
      exact ⟨h [] List.nil_prefix, fun before hprefix =>
        h (token :: before) (List.cons_prefix_cons.mpr ⟨rfl, hprefix⟩)⟩

/-- The deepest point of tokens is in the first part of them or in the rest behind it. -/
theorem peak_append (opened : List Opening) (tokens tokens' : List Token) :
    peak opened (tokens ++ tokens') =
      max (peak opened tokens) (peak (behind opened tokens) tokens') := by
  induction tokens generalizing opened with
  | nil => simp [length_le_peak]
  | cons token tokens ih =>
    rw [List.cons_append, peak_cons, ih, peak_cons, behind_cons, Nat.max_assoc]

/-- What is open behind tokens counts. -/
theorem length_behind_le_peak (opened : List Opening) (tokens : List Token) :
    (behind opened tokens).length ≤ peak opened tokens :=
  peak_le_iff.mp (Nat.le_refl _) tokens List.prefix_rfl

/-- The texts and places of tokens do not matter to what is open. -/
theorem peak_eq_of_map_kind {tokens tokens' : List Token}
    (h : tokens.map Token.kind = tokens'.map Token.kind) (opened : List Opening) :
    peak opened tokens = peak opened tokens' := by
  induction tokens generalizing tokens' opened with
  | nil =>
    obtain rfl := List.map_eq_nil_iff.mp h.symm
    rfl
  | cons token tokens ih =>
    obtain ⟨token', tokens', rfl, hkind, hrest⟩ := List.map_eq_cons_iff.mp h.symm
    rw [peak_cons, peak_cons, step, step, hkind, ih hrest.symm]

/-- Neutral tokens are nowhere deeper than their start. -/
theorem peak_of_isNeutral {tokens : List Token} (h : ∀ token ∈ tokens, token.IsNeutral)
    (opened : List Opening) : peak opened tokens = opened.length := by
  induction tokens with
  | nil => rfl
  | cons token tokens ih =>
    rw [List.forall_mem_cons] at h
    rw [peak_cons, step_of_isNeutral h.1, ih h.2, Nat.max_self]

/-! ## What is open further out -/

/-- Settling stops at the innermost parenthesis. -/
theorem settle_append (inner outer : List Opening) :
    settle (inner ++ outer) =
      if settle inner = [] then settle outer else settle inner ++ outer := by
  induction inner with
  | nil => rfl
  | cons opening inner ih =>
    cases opening with
    | not => exact ih
    | group => rfl

/-- Settling completes only what is innermost. -/
theorem settle_suffix (opened : List Opening) : settle opened <:+ opened := by
  induction opened with
  | nil => exact List.suffix_rfl
  | cons opening opened ih =>
    cases opening with
    | not => exact ih.trans (List.suffix_cons _ _)
    | group => exact List.suffix_rfl

/-- A token that goes on inside of what is open may close some of that, and does the same to what
was opened since. -/
theorem exists_step_append (inner outer : List Opening) (token : Token) :
    ∃ outer', outer' <:+ outer ∧ step (inner ++ outer) token = step inner token ++ outer' := by
  have hsettle : ∃ outer', outer' <:+ outer ∧ settle (inner ++ outer) = settle inner ++ outer' := by
    rw [settle_append]
    split_ifs with hinner
    · exact ⟨settle outer, settle_suffix outer, by rw [hinner, List.nil_append]⟩
    · exact ⟨outer, List.suffix_rfl, rfl⟩
  unfold step
  split
  · exact ⟨outer, List.suffix_rfl, rfl⟩
  · exact ⟨outer, List.suffix_rfl, rfl⟩
  · obtain ⟨outer', hsuffix, heq⟩ := hsettle
    rw [heq]
    cases settle inner with
    | nil => exact ⟨outer'.tail, (List.tail_suffix outer').trans hsuffix, rfl⟩
    | cons opening inner => exact ⟨outer', hsuffix, rfl⟩
  · exact hsettle
  · exact hsettle
  · exact ⟨outer, List.suffix_rfl, rfl⟩

/-- Tokens that go on inside of what is open may close some of that, and do the same to what was
opened since. -/
theorem exists_behind_append (inner outer : List Opening) (tokens : List Token) :
    ∃ outer', outer' <:+ outer ∧
      behind (inner ++ outer) tokens = behind inner tokens ++ outer' := by
  induction tokens generalizing inner outer with
  | nil => exact ⟨outer, List.suffix_rfl, rfl⟩
  | cons token tokens ih =>
    obtain ⟨outer', hsuffix, hstep⟩ := exists_step_append inner outer token
    obtain ⟨outer'', hsuffix', hbehind⟩ := ih (step inner token) outer'
    exact ⟨outer'', hsuffix'.trans hsuffix, by rw [behind_cons, hstep, hbehind, behind_cons]⟩

/-- Inside of what is open tokens nest at most as much deeper as that is. -/
theorem peak_le_add (opened : List Opening) (tokens : List Token) :
    peak opened tokens ≤ opened.length + peak [] tokens := by
  rw [peak_le_iff]
  intro before hbefore
  obtain ⟨outer, hsuffix, hbehind⟩ := exists_behind_append [] opened before
  have hinner := peak_le_iff.mp (Nat.le_refl (peak [] tokens)) before hbefore
  have houter := hsuffix.length_le
  rw [List.nil_append] at hbehind
  rw [hbehind, List.length_append]
  omega

end Opening

/-- How many NOTs and parentheses are open where most are, in a text with these tokens. -/
def deepest (tokens : List Token) : Nat := peak [] tokens

/-- A bound on the deepest point of a text is one on every point of it. -/
theorem deepest_le_iff {tokens : List Token} {bound : Nat} :
    deepest tokens ≤ bound ↔ ∀ before, before <+: tokens → nesting before ≤ bound := peak_le_iff

/-! ## Phrases -/

/-- A scalar neither opens nor completes nor closes anything. -/
theorem Token.Denotes.isNeutral {token : Token} {literal : Literal} (h : token.Denotes literal) :
    token.IsNeutral := by
  cases h with
  | number hkind | string hkind | bool hkind => simp [IsNeutral, hkind]

/-- The values of a set and the commas between them are neutral. -/
theorem Grammar.Scalars.isNeutral {tokens : List Token} {values : List Value}
    (h : Scalars tokens values) : ∀ token ∈ tokens, token.IsNeutral := by
  induction h with
  | one h => exact List.forall_mem_singleton.mpr h.isNeutral
  | more h hcomma _ ih =>
    rw [List.forall_mem_cons, List.forall_mem_cons]
    exact ⟨h.isNeutral, by simp [IsNeutral, hcomma], ih⟩

/-- The tokens of a comparison are neutral. -/
theorem Grammar.IsOperand.isNeutral_comparison {name token : Token} {tokens : List Token}
    {op : CompareOp} {o : Operand} (hname : name.kind = .identifier) (hop : token.kind = op.kind)
    (h : IsOperand tokens o) : ∀ t ∈ name :: token :: tokens, t.IsNeutral := by
  have hop' : token.IsNeutral := by
    rcases op with ⟨_ | _ | _ | _ | _ | _⟩ | _ <;>
      simp [IsNeutral, hop, CompareOp.kind]
  have hoperand : ∀ t ∈ tokens, t.IsNeutral := by
    cases h with
    | scalar h => exact List.forall_mem_singleton.mpr h.isNeutral
    | emptySet hopening hclosing => simp [IsNeutral, hopening, hclosing]
    | set hopening h hclosing =>
      rw [List.forall_mem_cons, List.forall_mem_append, List.forall_mem_singleton]
      exact ⟨by simp [IsNeutral, hopening], h.isNeutral, by simp [IsNeutral, hclosing]⟩
  rw [List.forall_mem_cons, List.forall_mem_cons]
  exact ⟨by simp [IsNeutral, hname], hop', hoperand⟩

/-- Behind a phrase is open what is open in front of it, but for the NOTs that it completes. -/
theorem Grammar.Derives.settle_behind {phrase : Phrase} {tokens : List Token} {q : Query}
    (h : Derives phrase tokens q) (opened : List Opening) :
    settle (behind opened tokens) = settle opened := by
  induction h generalizing opened with
  | expression _ _ ihfirst ihlinks => rw [behind_append, ihlinks, ihfirst]
  | done => rfl
  | link hop _ _ ihright ihlinks =>
    have hjunction := step_of_logicalOp? (Kind.logicalOp?_eq_some_iff.mpr hop) opened
    rw [behind_cons, behind_append, ihlinks, ihright, hjunction, settle_settle]
  | not hnot _ ih =>
    rw [behind_cons, ih]
    simp only [step, hnot, settle]
  | group hopening _ hclosing ih =>
    have hinner := ih (.group :: opened)
    simp only [behind_cons, behind_append, behind_nil, step, hopening, hclosing, hinner, settle,
      List.tail_cons]
  | comparison hname hop hoperand =>
    rw [(behind_of_isNeutral (hoperand.isNeutral_comparison hname hop) 0 opened).1]

/-! ## The deepest point of what phrases make up -/

section Phrases

variable {tokens tokens' : List Token}

/-- Behind a NOT all is one level deeper. -/
theorem peak_not {token : Token} (hnot : token.kind = .not) (opened : List Opening) :
    peak opened (token :: tokens) = peak (.not :: opened) tokens := by
  have hinner := length_le_peak (.not :: opened) tokens
  have hopen : step opened token = .not :: opened := by simp [step, hnot]
  rw [peak_cons, hopen]
  exact Nat.max_eq_right (Nat.le_of_succ_le hinner)

/-- In parentheses all is one level deeper. -/
theorem peak_group {opening closing : Token} (hopening : opening.kind = .parenOpen)
    (hclosing : closing.kind = .parenClose) (opened : List Opening) :
    peak opened (opening :: (tokens ++ [closing])) = peak (.group :: opened) tokens := by
  have hinner := length_le_peak (.group :: opened) tokens
  have hbehind := length_behind_le_peak (.group :: opened) tokens
  have hopen : step opened opening = .group :: opened := by simp [step, hopening]
  have hclose : (step (behind (.group :: opened) tokens) closing).length ≤
      (behind (.group :: opened) tokens).length :=
    length_step_le (by simp [Token.opens, hclosing])
  rw [List.length_cons] at hinner
  rw [peak_cons, hopen, peak_append, peak_cons, peak_nil]
  omega

/-- Behind a junction all is as deep as if the NOTs in front of the chain were complete. -/
theorem Grammar.Derives.peak_junction {phrase : Phrase} {left : Query}
    (h : Derives phrase tokens left) {token : Token} {op : LogicalOp} (hop : token.kind = op.kind)
    (opened : List Opening) :
    peak opened (tokens ++ token :: tokens') =
      max (peak opened tokens) (peak (settle opened) tokens') := by
  have hbehind := length_behind_le_peak opened tokens
  have hstep := step_of_logicalOp? (Kind.logicalOp?_eq_some_iff.mpr hop) (behind opened tokens)
  rw [peak_append, peak_cons, hstep, h.settle_behind, ← Nat.max_assoc, Nat.max_eq_left hbehind]

end Phrases

/-! ## Limits -/

/-- A text is read as a query under a limit if its tokens are the query and nest within the
limit. -/
theorem parse_eq_ok_iff {source : String} {depthLimit : Option Nat} {q : Query} :
    Query.parse source depthLimit = .ok q ↔
      ∃ tokens, scan source.toList = .ok tokens ∧ Derives .expression tokens q ∧
        ∀ limit ∈ depthLimit, deepest tokens ≤ limit := by
  have hlimited : ∀ {tokens : List Token} {length : Nat}, (∀ token ∈ tokens, token.HasEnds) →
      (Query.ofTokens ⟨length, depthLimit⟩ tokens = .ok q ↔
        Derives .expression tokens q ∧ ∀ limit ∈ depthLimit, deepest tokens ≤ limit) := by
    intro tokens length hends
    have hfree : Query.ofTokens ⟨length, none⟩ tokens = .ok q ↔ Derives .expression tokens q :=
      ⟨derives_of_ofTokens hends, ofTokens_of_derives rfl hends⟩
    cases depthLimit with
    | none => simpa using hfree
    | some limit => simp [Query.ofTokens_limited_eq_ok_iff, hfree, deepest_le_iff]
  rw [Query.parse]
  cases hscan : scan source.toList with
  | error error => simp
  | ok tokens => simp [hlimited (hasEnds_of_scan hscan)]

/-- Whether a text is read as a query, apart from its places. -/
def Query.ReadFrom (source : String) (depthLimit : Option Nat) (q : Query) : Prop :=
  ∃ q', Query.parse source depthLimit = .ok q' ∧ q'.unplaced = q.unplaced

end ResumeFilter
