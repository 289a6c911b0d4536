import ResumeFilter.Proofs.Query.Comparisons
import ResumeFilter.Proofs.Sql.Lowered

/-!
# The values of a query are its scalar tokens

Every number, string or truth value of the tokens that a query is derived from is one of its values,
and the values are in the order of these tokens (`Query.values_of_derives`). Fields, operators and
punctuation marks bring no values.
-/

namespace ResumeFilter

open Grammar

/-! ## Scalar tokens -/

/-- Whether tokens of a kind are numbers, strings or truth values. -/
def Token.Kind.isScalar : Kind → Bool
  | .numberLit | .stringLit | .boolLit => true
  | _ => false

/-- These kinds are what the set of scalars contains. -/
theorem Token.Kind.isScalar_eq (kind : Token.Kind) :
    Token.KindSet.scalars.contains kind = kind.isScalar := by
  cases kind <;> rfl

/-- The numbers, strings and truth values among tokens. -/
def Token.scalars (tokens : List Token) : List Token := tokens.filter (·.kind.isScalar)

/-- Whether a value is that of a token: the literal that the token denotes, at its place. -/
structure Token.IsValue (token : Token) (value : Value) : Prop where
  denotes : token.Denotes value.literal
  span : value.span = token.span

/-- What denotes a literal is a scalar. -/
theorem Token.isScalar_of_denotes {token : Token} {literal : Literal} (h : token.Denotes literal) :
    token.kind.isScalar = true := by
  rcases h with ⟨hkind, -⟩ | hkind | ⟨hkind, -⟩ <;> rw [hkind] <;> rfl

/-- Junctions are no scalars. -/
theorem LogicalOp.isScalar_kind (op : LogicalOp) : op.kind.isScalar = false := by
  cases op <;> rfl

/-- Comparisons are no scalars. -/
theorem CompareOp.isScalar_kind (op : CompareOp) : op.kind.isScalar = false := by
  rcases op with ⟨_ | _ | _ | _ | _ | _⟩ | _ <;> rfl

/-! ## The values of a query -/

/-- The values of an operand in order. -/
def Operand.values : Operand → List Value
  | .scalar value => [value]
  | .set values _ => values

/-- The values of a query in order. -/
def Query.values : Query → List Value
  | .comparison c => c.operand.values
  | .not inner => inner.values
  | .logical _ left right => left.values ++ right.values

/-- The literals of a query are those of its values. -/
theorem Query.map_literal_values (q : Query) : q.values.map Value.literal = q.literals := by
  induction q with
  | comparison c =>
    rw [Query.values, Query.literals]
    cases c.operand <;> rfl
  | not inner ih => exact ih
  | logical op left right ihleft ihright =>
    rw [Query.values, Query.literals, List.map_append, ihleft, ihright]

/-! ## Derivations -/

/-- Whether values are those of the scalars among tokens, one for each and in their order. -/
def ScalarsAre (tokens : List Token) (values : List Value) : Prop :=
  List.Forall₂ Token.IsValue (Token.scalars tokens) values

namespace ScalarsAre

/-- No tokens bring no values. -/
theorem nil : ScalarsAre [] [] := List.Forall₂.nil

/-- A token that is no scalar brings no value. -/
theorem skip {token : Token} {kind : Token.Kind} (htoken : token.kind = kind)
    (hkind : kind.isScalar = false) {tokens : List Token} {values : List Value}
    (h : ScalarsAre tokens values) : ScalarsAre (token :: tokens) values := by
  have hskip : Token.scalars (token :: tokens) = Token.scalars tokens :=
    List.filter_cons_of_neg (by simp [htoken, hkind])
  rw [ScalarsAre, hskip]
  exact h

/-- A token that denotes a literal brings it as a value. -/
theorem cons {token : Token} {literal : Literal} (htoken : token.Denotes literal)
    {tokens : List Token} {values : List Value} (h : ScalarsAre tokens values) :
    ScalarsAre (token :: tokens) (⟨literal, token.span⟩ :: values) := by
  have hcons : Token.scalars (token :: tokens) = token :: Token.scalars tokens :=
    List.filter_cons_of_pos (Token.isScalar_of_denotes htoken)
  rw [ScalarsAre, hcons]
  exact .cons ⟨htoken, rfl⟩ h

/-- The values of tokens and of others behind them. -/
theorem append {first second : List Token} {values values' : List Value}
    (h : ScalarsAre first values) (h' : ScalarsAre second values') :
    ScalarsAre (first ++ second) (values ++ values') := by
  rw [ScalarsAre, Token.scalars, List.filter_append]
  exact List.rel_append h h'

/-- A token at the end that is no scalar brings no value. -/
theorem concat {token : Token} {kind : Token.Kind} (htoken : token.kind = kind)
    (hkind : kind.isScalar = false) {tokens : List Token} {values : List Value}
    (h : ScalarsAre tokens values) : ScalarsAre (tokens ++ [token]) values := by
  have hconcat := h.append (skip htoken hkind nil)
  rwa [List.append_nil] at hconcat

/-- Every value is that of one of the scalars. -/
theorem exists_token {tokens : List Token} {values : List Value} (h : ScalarsAre tokens values)
    {v : Value} (hv : v ∈ values) : ∃ token ∈ Token.scalars tokens, token.IsValue v := by
  obtain ⟨k, hk, rfl⟩ := List.mem_iff_getElem.mp hv
  exact ⟨_, List.getElem_mem _, h.get (h.length_eq ▸ hk) hk⟩

/-- The places of the values are those of the scalars. -/
theorem map_span {tokens : List Token} {values : List Value} (h : ScalarsAre tokens values) :
    values.map Value.span = (Token.scalars tokens).map Token.span := by
  rw [eq_comm, ← List.forall₂_eq_eq_eq, List.forall₂_map_left_iff, List.forall₂_map_right_iff]
  exact h.imp fun _ _ hvalue => hvalue.span.symm

end ScalarsAre

/-- The values of a set that is not empty are its scalars. -/
theorem Grammar.Scalars.scalarsAre {tokens : List Token} {values : List Value}
    (h : Scalars tokens values) : ScalarsAre tokens values := by
  induction h with
  | one hdenotes => exact .cons hdenotes .nil
  | more hdenotes hcomma _ ih =>
    exact .cons hdenotes (.skip hcomma rfl ih)

/-- The values of an operand are its scalars. -/
theorem Grammar.IsOperand.scalarsAre {tokens : List Token} {o : Operand} (h : IsOperand tokens o) :
    ScalarsAre tokens o.values := by
  cases h with
  | scalar hdenotes => exact .cons hdenotes .nil
  | emptySet hopening hclosing =>
    exact .skip hopening rfl (.skip hclosing rfl .nil)
  | set hopening hscalars hclosing =>
    exact .skip hopening rfl (hscalars.scalarsAre.concat hclosing rfl)

/-- A connective brings no value. -/
theorem ScalarsAre.skip_connective {token : Token} (htoken : token.kind ∈ connectives)
    {tokens : List Token} {values : List Value} (h : ScalarsAre tokens values) :
    ScalarsAre (token :: tokens) values := by
  have hnone : ∀ kind ∈ connectives, kind.isScalar = false := by decide
  exact .skip rfl (hnone _ htoken) h

/-- The values of a comparison are its scalars. -/
theorem Grammar.IsComparison.scalarsAre {part : List Token} {c : Comparison}
    (h : IsComparison part c) : ScalarsAre part c.operand.values := by
  cases h with
  | @intro _ _ _ op _ hname hop hoperand =>
    exact .skip hname rfl (.skip hop op.isScalar_kind hoperand.scalarsAre)

/-- The values of the comparisons that tokens hold are the scalars of the tokens. -/
theorem Grammar.Holds.scalarsAre {tokens : List Token} {cs : List Comparison}
    (h : Holds tokens cs) : ScalarsAre tokens (cs.flatMap fun c => c.operand.values) := by
  induction h with
  | nil => exact .nil
  | skip htoken _ ih => exact .skip_connective htoken ih
  | cons hpart _ ih =>
    rw [List.flatMap_cons]
    exact hpart.scalarsAre.append ih

/-- The values of a query are those of its comparisons. -/
theorem Query.values_eq_flatMap (q : Query) :
    q.values = q.comparisons.flatMap fun c => c.operand.values := by
  rw [comparisons_eq_leaves]
  induction q with
  | comparison c => simp [values, leaves]
  | not inner ih => exact ih
  | logical op left right ihleft ihright =>
    rw [values, leaves, List.flatMap_append, ihleft, ihright]

/-- The values of a query are the scalars of the tokens that it is derived from. -/
theorem Query.values_of_derives {tokens : List Token} {q : Query}
    (h : Derives .expression tokens q) : ScalarsAre tokens q.values := by
  rw [q.values_eq_flatMap]
  exact h.holds.scalarsAre

/-- The literals of a query are what the scalars of its tokens denote. -/
theorem Query.literals_of_derives {tokens : List Token} {q : Query}
    (h : Derives .expression tokens q) :
    List.Forall₂ Token.Denotes (Token.scalars tokens) q.literals := by
  rw [← q.map_literal_values, List.forall₂_map_right_iff]
  exact (Query.values_of_derives h).imp fun _ _ hvalue => hvalue.denotes

/-- Every scalar of the tokens of a query denotes a literal. -/
theorem Grammar.Derives.exists_denotes {tokens : List Token} {q : Query}
    (h : Derives .expression tokens q) {token : Token} (htoken : token ∈ Token.scalars tokens) :
    ∃ literal, token.Denotes literal := by
  have hdenotes := Query.literals_of_derives h
  obtain ⟨k, hk, rfl⟩ := List.mem_iff_getElem.mp htoken
  exact ⟨_, hdenotes.get hk (hdenotes.length_eq ▸ hk)⟩

end ResumeFilter
