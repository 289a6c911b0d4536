import ResumeFilter.Lowering
import ResumeFilter.Proofs.Lowering.Plan
import ResumeFilter.Proofs.Sql.Binding
import ResumeFilter.Sql.Builder

/-!
# The condition that a query becomes

The steps of a query push one condition onto the stack and append the literals of the query to the
parameters (`lowers_foldl`). The parameters of the condition are those literals, in order, and with
their values the condition means what the query means (`Lowers`), in every logic and for every
interpretation of the atoms.
-/

namespace ResumeFilter

/-! ## The literals of a query -/

/-- The literals of an operand in order. -/
def Operand.literals : Operand → List Literal
  | .scalar value => [value.literal]
  | .set values _ => values.map Value.literal

/-- The literals of a query in source order. -/
def Query.literals : Query → List Literal
  | .comparison c => c.operand.literals
  | .not inner => inner.literals
  | .logical _ left right => left.literals ++ right.literals

namespace Sql

/-- Whether parameters counted from `index` on have the literals as their values. -/
def HoldsFrom (values : Nat → Literal) (index : Nat) (literals : List Literal) : Prop :=
  ∀ k literal, literals[k]? = some literal → values (index + k) = literal

/-- Values of more literals are values of the first and of the others. -/
theorem holdsFrom_append {values : Nat → Literal} {index : Nat} {first second : List Literal}
    (h : HoldsFrom values index (first ++ second)) :
    HoldsFrom values index first ∧ HoldsFrom values (index + first.length) second := by
  constructor
  · intro k literal hk
    obtain ⟨hlt, -⟩ := List.getElem?_eq_some_iff.mp hk
    exact h k literal (by rwa [List.getElem?_append_left hlt])
  · intro k literal hk
    rw [Nat.add_assoc]
    apply h
    rwa [List.getElem?_append_right (Nat.le_add_right _ _), Nat.add_sub_cancel_left]

/-- The values of the parameters of literals are the literals. -/
theorem HoldsFrom.map_range' {values : Nat → Literal} {index : Nat} {literals : List Literal}
    (h : HoldsFrom values index literals) :
    (List.range' index literals.length).map values = literals := by
  induction literals generalizing index with
  | nil => rfl
  | cons literal literals ih =>
    have hsplit : HoldsFrom values index ([literal] ++ literals) := h
    have hfirst : values index = literal := h 0 literal rfl
    have hrest : HoldsFrom values (index + 1) literals := (holdsFrom_append hsplit).2
    rw [List.length_cons, List.range'_succ, List.map_cons, hfirst, ih hrest]

/-- Whether a condition is what a query becomes when `index` parameters have been bound before. -/
structure Lowers (q : Query) (index : Nat) (c : Condition) : Prop where
  inCatalog : c.InCatalog
  params : c.params = List.range' index q.literals.length
  meaning : ∀ (values : Nat → Literal), HoldsFrom values index q.literals →
    ∀ (τ : Type) (logic : Logic τ) (I : Interpretation τ),
      q.meaning? logic I = some ((c.formula values).meaning logic I)

/-! ## One step -/

/-- What steps leave of a lowering besides its joins: the parameters with literals behind them, one
more condition on the stack, and the configuration and filter as they were. -/
structure Pushes (before after : Lowering Builder Condition) (literals : List Literal)
    (c : Condition) : Prop where
  params : after.params.toList = before.params.toList ++ literals
  stack : after.stack = c :: before.stack
  config : after.state.config = before.state.config
  filter : after.state.filter = before.state.filter

/-- Before a comparison, at most a join is declared; then its condition is pushed and its values are
bound. -/
theorem compare_eq (resolved : Resolved) (lowering : Lowering Builder Condition) :
    ∃ joins state, state.config = lowering.state.config ∧ state.filter = lowering.state.filter ∧
      lowering.compare Builder.backend resolved =
        match resolved with
        | .scalar field op value =>
          ⟨state, lowering.params.push value, joins,
            .compare field.column op lowering.params.size :: lowering.stack⟩
        | .isIn field values =>
          ⟨state, lowering.params ++ values, joins, .isIn field.column
            ((Lowering.binds lowering.params.size values).map Bind.index) :: lowering.stack⟩ := by
  rw [Lowering.compare]
  cases resolved.field.join? with
  | none => exact ⟨_, _, rfl, rfl, by cases resolved <;> rfl⟩
  | some join =>
    have hbuilder := lowering.state.config_and_filter_join join
    simp only [Lowering.declare]
    split_ifs
    · exact ⟨_, _, rfl, rfl, by cases resolved <;> rfl⟩
    · exact ⟨_, _, hbuilder.1, hbuilder.2, by cases resolved <;> rfl⟩

/-- The indices of bound values are counted from the first on. -/
theorem map_index_binds (index : Nat) (values : List Literal) :
    (Lowering.binds index values).map Bind.index = List.range' index values.length := by
  have hsnd : (Bind.index ∘ fun (p : Literal × Nat) => ⟨p.2, p.1⟩) = Prod.snd := rfl
  rw [Lowering.binds, List.map_map, hsnd, List.zipIdx_map_snd]

/-- A comparison pushes its condition. -/
theorem pushes_compare {c : Comparison} {resolved : Resolved} (h : c.resolve = .ok resolved)
    (lowering : Lowering Builder Condition) :
    ∃ condition, Lowers (.comparison c) lowering.params.size condition ∧
      Pushes lowering (lowering.compare Builder.backend resolved) (Query.comparison c).literals
        condition := by
  obtain ⟨field, hfield, hshape⟩ := Comparison.resolve_eq_ok_iff.mp h
  obtain ⟨joins, state, hconfig, hfilter, hcompare⟩ := compare_eq resolved lowering
  rw [hcompare]
  rcases hshape with ⟨op, value, hop, hoperand, rfl⟩ | ⟨values, span, hop, hoperand, rfl⟩
  · refine ⟨.compare field.column op lowering.params.size, ⟨⟨field, rfl⟩, ?_, ?_⟩,
      ⟨?_, rfl, hconfig, hfilter⟩⟩
    · rw [Query.literals, hoperand]
      rfl
    · intro values hvalues τ logic I
      rw [Query.literals, hoperand] at hvalues
      have hvalue : values lowering.params.size = value.literal := hvalues 0 _ rfl
      rw [Query.meaning?, Comparison.meaning?, hfield, hop, hoperand, Condition.formula, hvalue]
      rfl
    · rw [Query.literals, hoperand]
      exact Array.toList_push
  · refine ⟨.isIn field.column ((Lowering.binds lowering.params.size
      (values.map Value.literal)).map Bind.index), ⟨⟨field, rfl⟩, ?_, ?_⟩,
      ⟨?_, rfl, hconfig, hfilter⟩⟩
    · rw [Query.literals, hoperand]
      exact map_index_binds _ _
    · intro vs hvalues τ logic I
      rw [Query.literals, hoperand, Operand.literals] at hvalues
      rw [Query.meaning?, Comparison.meaning?, hfield, hop, hoperand, Condition.formula,
        map_index_binds, hvalues.map_range', Formula.meaning_among]
      rfl
    · rw [Query.literals, hoperand]
      exact Array.toList_appendList

/-! ## All steps -/

/-- The steps of a query push one condition, which is what the query becomes. -/
theorem lowers_foldl {q : Query} {steps : List (Step Resolved)} (h : q.plan = .ok steps)
    (lowering : Lowering Builder Condition) :
    ∃ condition, Lowers q lowering.params.size condition ∧
      Pushes lowering (steps.foldl (Lowering.step Builder.backend) lowering) q.literals
        condition := by
  -- For any lowering: the right side of a junction starts where the left side has ended.
  induction q generalizing steps lowering with
  | comparison c =>
    obtain ⟨resolved, hresolved, rfl⟩ := Query.plan_comparison_eq_ok_iff.mp h
    exact pushes_compare hresolved lowering
  | not inner ih =>
    obtain ⟨first, hfirst, rfl⟩ := Query.plan_not_eq_ok_iff.mp h
    obtain ⟨condition, hlowers, hpushes⟩ := ih hfirst lowering
    refine ⟨.not condition, ⟨hlowers.inCatalog, hlowers.params, ?_⟩, ?_⟩
    · intro values hvalues τ logic I
      rw [Query.meaning?, hlowers.meaning values hvalues τ logic I]
      rfl
    · rw [List.foldl_append, List.foldl_cons, List.foldl_nil, Lowering.step, hpushes.stack]
      exact ⟨hpushes.params, rfl, hpushes.config, hpushes.filter⟩
  | logical op left right ihleft ihright =>
    obtain ⟨first, second, hfirst, hsecond, rfl⟩ := Query.plan_logical_eq_ok_iff.mp h
    obtain ⟨a, hlowers, hpushes⟩ := ihleft hfirst lowering
    rw [List.foldl_append, List.foldl_append]
    -- Only what the left side has pushed matters from here on.
    generalize first.foldl (Lowering.step Builder.backend) lowering = middle at hpushes ⊢
    obtain ⟨b, hlowers', hpushes'⟩ := ihright hsecond middle
    have hsize : middle.params.size = lowering.params.size + left.literals.length := by
      rw [← Array.length_toList, hpushes.params, List.length_append, Array.length_toList]
    rw [hsize] at hlowers'
    refine ⟨.combine op a b, ⟨⟨hlowers.inCatalog, hlowers'.inCatalog⟩, ?_, ?_⟩, ?_⟩
    · rw [Condition.params, hlowers.params, hlowers'.params, List.range'_append_1, Query.literals,
        List.length_append]
    · intro values hvalues τ logic I
      obtain ⟨hleft, hright⟩ := holdsFrom_append hvalues
      rw [Query.meaning?, hlowers.meaning values hleft τ logic I,
        hlowers'.meaning values hright τ logic I]
      rfl
    · rw [List.foldl_cons, List.foldl_nil, Lowering.step, hpushes'.stack, hpushes.stack]
      refine ⟨?_, rfl, hpushes'.config.trans hpushes.config, hpushes'.filter.trans hpushes.filter⟩
      have hparams := hpushes'.params
      rw [hpushes.params, List.append_assoc] at hparams
      exact hparams

end Sql

end ResumeFilter
