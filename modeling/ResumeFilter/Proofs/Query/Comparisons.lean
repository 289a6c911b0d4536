import Mathlib.Data.List.Forall2
import ResumeFilter.Proofs.Query.Grammar
import ResumeFilter.Proofs.Query.Traversal
import ResumeFilter.Proofs.Token.Extent

/-!
# The comparisons of a query stand in its tokens

The tokens of a query are those of its comparisons, one comparison after the other, and between them
tokens that join, negate or group (`Grammar.Derives.holds`). So there is one field name for each
comparison, and the comparisons are in the order of the tokens, whatever the nesting.
-/

namespace ResumeFilter

open Token (InOrder IsExtent isExtent_singleton)

namespace Grammar

/-! ## Tokens that hold comparisons -/

/-- Whether tokens are a comparison: a field name, an operator and what the field is compared
with. -/
inductive IsComparison : List Token → Comparison → Prop
  | intro {name token : Token} {tokens : List Token} {op : CompareOp} {operand : Operand}
    (hname : name.kind = .identifier) (hop : token.kind = op.kind)
    (hoperand : IsOperand tokens operand) :
    IsComparison (name :: token :: tokens) ⟨⟨name.text, name.span⟩, op, operand⟩

/-- The kinds of tokens that stand around comparisons. -/
def connectives : List Token.Kind := [.and, .or, .not, .parenOpen, .parenClose]

/-- Whether tokens hold comparisons in their order, with nothing but connectives around them. -/
inductive Holds : List Token → List Comparison → Prop
  | nil : Holds [] []
  | skip {token : Token} {tokens : List Token} {cs : List Comparison}
    (htoken : token.kind ∈ connectives) (h : Holds tokens cs) : Holds (token :: tokens) cs
  | cons {part tokens : List Token} {c : Comparison} {cs : List Comparison}
    (hpart : IsComparison part c) (h : Holds tokens cs) : Holds (part ++ tokens) (c :: cs)

/-- Tokens hold what is held by one part of them and then by the other. -/
theorem Holds.append {first second : List Token} {cs cs' : List Comparison} (h : Holds first cs)
    (h' : Holds second cs') : Holds (first ++ second) (cs ++ cs') := by
  induction h with
  | nil => exact h'
  | skip htoken _ ih => exact .skip htoken ih
  | cons hpart _ ih =>
    rw [List.append_assoc]
    exact .cons hpart ih

/-- A connective at the end holds nothing. -/
theorem Holds.concat {token : Token} {tokens : List Token} {cs : List Comparison}
    (h : Holds tokens cs) (htoken : token.kind ∈ connectives) : Holds (tokens ++ [token]) cs := by
  have hconcat := h.append (.skip htoken .nil)
  rwa [List.append_nil] at hconcat

/-- A comparison is held by its tokens. -/
theorem IsComparison.holds {part : List Token} {c : Comparison} (h : IsComparison part c) :
    Holds part [c] := by
  have hcons := Holds.cons h .nil
  rwa [List.append_nil] at hcons

/-- The comparisons that tokens hold are parts of them. -/
theorem Holds.exists_part {tokens : List Token} {cs : List Comparison} (h : Holds tokens cs)
    {c : Comparison} (hc : c ∈ cs) :
    ∃ before part after, tokens = before ++ part ++ after ∧ IsComparison part c := by
  induction h with
  | nil => cases hc
  | @skip token _ _ _ _ ih =>
    obtain ⟨before, part, after, rfl, hpart⟩ := ih hc
    exact ⟨token :: before, part, after, rfl, hpart⟩
  | @cons first tokens _ _ hfirst _ ih =>
    rcases List.mem_cons.mp hc with rfl | hc
    · exact ⟨[], first, tokens, rfl, hfirst⟩
    · obtain ⟨before, part, after, rfl, hpart⟩ := ih hc
      exact ⟨first ++ before, part, after, by simp, hpart⟩

/-! ## Derivations -/

/-- Junctions are connectives. -/
theorem mem_connectives_of_op {token : Token} {op : LogicalOp} (h : token.kind = op.kind) :
    token.kind ∈ connectives := by
  rw [h]
  cases op <;> decide

/-- The comparisons in front of a phrase that belong to what it makes up. -/
def Phrase.leaves : Phrase → List Comparison
  | .expression | .condition => []
  | .links left => left.leaves

/-- The comparisons of what a phrase makes up are those in front of it and those that its tokens
hold. -/
theorem Derives.exists_holds {phrase : Phrase} {tokens : List Token} {q : Query}
    (h : Derives phrase tokens q) : ∃ cs, Holds tokens cs ∧ q.leaves = phrase.leaves ++ cs := by
  induction h with
  | @expression _ _ first _ _ _ ihfirst ihlinks =>
    obtain ⟨cs, hcs, hfirst⟩ := ihfirst
    obtain ⟨cs', hcs', hq⟩ := ihlinks
    refine ⟨cs ++ cs', hcs.append hcs', ?_⟩
    have hleft : (Phrase.links first).leaves = cs := hfirst
    rw [hq, hleft]
    rfl
  | done left => exact ⟨[], .nil, (List.append_nil _).symm⟩
  | @link _ _ _ op left right _ hop _ _ ihright ihlinks =>
    obtain ⟨cs, hcs, hright⟩ := ihright
    obtain ⟨cs', hcs', hq⟩ := ihlinks
    refine ⟨cs ++ cs', .skip (mem_connectives_of_op hop) (hcs.append hcs'), ?_⟩
    have hlink : (Query.logical op left right).leaves = left.leaves ++ right.leaves := rfl
    rw [hq, Phrase.leaves, hlink, hright, List.append_assoc]
    rfl
  | not hnot _ ih =>
    obtain ⟨cs, hcs, hinner⟩ := ih
    exact ⟨cs, .skip (hnot ▸ by decide) hcs, hinner⟩
  | group hopening _ hclosing ih =>
    obtain ⟨cs, hcs, hinner⟩ := ih
    exact ⟨cs, .skip (hopening ▸ by decide) (hcs.concat (hclosing ▸ by decide)), hinner⟩
  | comparison hname hop hoperand =>
    exact ⟨_, (IsComparison.intro hname hop hoperand).holds, rfl⟩

/-- The tokens of a query hold its comparisons. -/
theorem Derives.holds {tokens : List Token} {q : Query} (h : Derives .expression tokens q) :
    Holds tokens q.comparisons := by
  obtain ⟨cs, hcs, hq⟩ := h.exists_holds
  rw [Query.comparisons_eq_leaves, hq]
  exact hcs

end Grammar

/-! ## Field names -/

/-- The field names among tokens. -/
def Token.fields (tokens : List Token) : List Token := tokens.filter (·.kind = .identifier)

/-- Whether the field of a comparison is that of a token: the name that the token is, at its
place. -/
structure Token.IsField (token : Token) (c : Comparison) : Prop where
  name : c.field.name = token.text
  span : c.field.span = token.span

namespace Grammar

/-- There are no field names in a set. -/
theorem Scalars.kind_ne {tokens : List Token} {values : List Value} (h : Scalars tokens values) :
    ∀ token ∈ tokens, token.kind ≠ .identifier := by
  have hdenotes : ∀ {token : Token} {literal : Literal}, token.Denotes literal →
      token.kind ≠ .identifier := fun htoken => by
    rcases htoken with ⟨hkind, -⟩ | hkind | ⟨hkind, -⟩ <;> simp [hkind]
  induction h with
  | one htoken => simpa using hdenotes htoken
  | more htoken hcomma _ ih =>
    rw [List.forall_mem_cons, List.forall_mem_cons, hcomma]
    exact ⟨hdenotes htoken, by decide, ih⟩

/-- There are no field names in an operand. -/
theorem IsOperand.kind_ne {tokens : List Token} {o : Operand} (h : IsOperand tokens o) :
    ∀ token ∈ tokens, token.kind ≠ .identifier := by
  cases h with
  | scalar htoken => exact (Scalars.one htoken).kind_ne
  | emptySet hopening hclosing => simp [hopening, hclosing]
  | set hopening hscalars hclosing =>
    rw [List.forall_mem_cons, List.forall_mem_append, List.forall_mem_singleton, hopening, hclosing]
    exact ⟨by decide, hscalars.kind_ne, by decide⟩

/-- The field name of a comparison is the only one among its tokens. -/
theorem IsComparison.fields {part : List Token} {c : Comparison} (h : IsComparison part c) :
    List.Forall₂ Token.IsField (Token.fields part) [c] := by
  cases h with
  | @intro name token tokens op operand hname hop hoperand =>
    have hoperator : token.kind ≠ .identifier := by
      rw [hop]
      rcases op with ⟨_ | _ | _ | _ | _ | _⟩ | _ <;> decide
    have hnone : tokens.filter (·.kind = .identifier) = [] := by
      simpa [List.filter_eq_nil_iff] using hoperand.kind_ne
    have hfields : Token.fields (name :: token :: tokens) = [name] := by
      rw [Token.fields, List.filter_cons_of_pos (by simpa using hname),
        List.filter_cons_of_neg (by simpa using hoperator), hnone]
    rw [hfields]
    exact .cons ⟨rfl, rfl⟩ .nil

/-- The field names of tokens are those of the comparisons that the tokens hold, one for each and in
their order. -/
theorem Holds.fields {tokens : List Token} {cs : List Comparison} (h : Holds tokens cs) :
    List.Forall₂ Token.IsField (Token.fields tokens) cs := by
  induction h with
  | nil => exact .nil
  | @skip token tokens _ htoken _ ih =>
    have hkind : token.kind ≠ .identifier := fun hkind => by
      rw [hkind] at htoken
      exact absurd htoken (by decide)
    rw [Token.fields, List.filter_cons_of_neg (by simpa using hkind)]
    exact ih
  | @cons part tokens c cs hpart _ ih =>
    rw [Token.fields, List.filter_append, ← List.singleton_append]
    exact List.rel_append hpart.fields ih

end Grammar

/-! ## Spans -/

namespace Grammar

/-- An operand extends over its tokens. -/
theorem IsOperand.isExtent {tokens : List Token} {o : Operand} (h : IsOperand tokens o)
    (horder : InOrder tokens) : IsExtent tokens o.span := by
  cases h with
  | scalar => exact isExtent_singleton _
  | @emptySet opening closing =>
    exact @IsExtent.cover opening [] [closing] _ (isExtent_singleton closing) horder
  | set => exact (isExtent_singleton _).cover horder

/-- A comparison extends over its tokens. -/
theorem IsComparison.isExtent {part : List Token} {c : Comparison} (h : IsComparison part c)
    (horder : InOrder part) : IsExtent part c.span := by
  cases h with
  | @intro name token tokens op operand hname hop hoperand =>
    have htokens : InOrder tokens := horder.sublist (.cons _ (.cons _ (List.Sublist.refl _)))
    exact @IsExtent.cover name [token] tokens _ (hoperand.isExtent htokens) horder

/-- Comparisons that tokens in order hold are in order themselves. -/
theorem Holds.pairwise {tokens : List Token} {cs : List Comparison} (h : Holds tokens cs)
    (horder : InOrder tokens) : cs.Pairwise fun c c' => c.span.stop ≤ c'.span.start := by
  induction h with
  | nil => exact .nil
  | skip _ _ ih => exact ih (horder.sublist (List.sublist_cons_self _ _))
  | @cons part tokens c cs hpart h ih =>
    have htokens : InOrder tokens := horder.sublist (List.sublist_append_right _ _)
    refine List.pairwise_cons.mpr ⟨fun c' hc' => ?_, ih htokens⟩
    obtain ⟨before, part', after, rfl, hpart'⟩ := h.exists_part hc'
    have horder' : InOrder part' :=
      htokens.sublist (List.infix_append before part' after).sublist
    -- The last token of the one comparison stands in front of the first of the other.
    obtain ⟨_, last, -, hlast, hspan⟩ :=
      hpart.isExtent (horder.sublist (List.sublist_append_left _ _))
    obtain ⟨first, _, hfirst, -, hspan'⟩ := hpart'.isExtent horder'
    rw [hspan, hspan']
    have hlast := List.mem_of_mem_getLast? hlast
    have hfirst := List.mem_of_mem_head? hfirst
    exact (List.pairwise_append.mp horder.ordered).2.2 last hlast first (by simp [hfirst])

end Grammar

end ResumeFilter
