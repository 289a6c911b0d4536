import ResumeFilter.Lowering
import ResumeFilter.Proofs.Lowering.Joins
import ResumeFilter.Proofs.Lowering.Plan

/-!
# Lowering by recursion

A second lowering, which knows no steps and no stack: it goes down the query, lowers the parts and
calls the backend on what they became (`Query.build?`). The lowering by steps does the same, for any
backend: from any stack the steps of a query lead to the state, the parameters and the joins that
the recursion leads to, with its predicate on top of the stack, and no step ever misses a predicate
that it needs (`exists_build?_of_plan`).
-/

namespace ResumeFilter

variable {σ κ π : Type}

/-! ## The recursion -/

/-- What a lowering has done so far. -/
structure Trail (σ : Type) where
  state : σ
  binds : List Bind
  joins : List Join

/-- Declares the join of a field, if it has one that has not been declared yet. -/
def Trail.reach (backend : Backend σ κ π) (field : Field) (trail : Trail σ) : Trail σ :=
  match field.join? with
  | none => trail
  | some join =>
    if join ∈ trail.joins then trail
    else { trail with state := backend.join join trail.state, joins := trail.joins ++ [join] }

/-- One bind for each literal, numbered on from those that there are. -/
def Trail.newBinds (trail : Trail σ) (literals : List Literal) : List Bind :=
  literals.mapIdx fun i literal => ⟨trail.binds.length + i, literal⟩

/-- New binds carry the literals. -/
theorem Trail.map_value_newBinds (trail : Trail σ) (literals : List Literal) :
    (trail.newBinds literals).map Bind.value = literals := by
  apply List.ext_getElem
  · simp only [newBinds, List.length_map, List.length_mapIdx]
  · intro k _ _
    simp only [newBinds, List.getElem_map, List.getElem_mapIdx]

/-- Lowers a comparison: its join first, then its column, then the operation of its operator. -/
def Comparison.build? (backend : Backend σ κ π) (c : Comparison) (trail : Trail σ) :
    Option (π × Trail σ) :=
  (Field.ofName? c.field.name).bind fun field =>
    let trail := trail.reach backend field
    let (column, state) := backend.column field trail.state
    match c.op, c.operand with
    | .scalar op, .scalar value =>
      let bind : Bind := ⟨trail.binds.length, value.literal⟩
      let (predicate, state) := backend.compare op column bind state
      some (predicate, { trail with state, binds := trail.binds ++ [bind] })
    | .isIn, .set values _ =>
      let binds := trail.newBinds (values.map Value.literal)
      let (predicate, state) := backend.isIn column binds state
      some (predicate, { trail with state, binds := trail.binds ++ binds })
    | _, _ => none

/-- A comparison with a single value is one bind. -/
theorem Comparison.build?_scalar (backend : Backend σ κ π) {c : Comparison} {field : Field}
    {op : ScalarOp} {value : Value} (hfield : Field.ofName? c.field.name = some field)
    (hop : c.op = .scalar op) (hoperand : c.operand = .scalar value) (trail : Trail σ) :
    c.build? backend trail =
      let reached := trail.reach backend field
      let found := backend.column field reached.state
      let bind : Bind := ⟨reached.binds.length, value.literal⟩
      let made := backend.compare op found.1 bind found.2
      some (made.1, ⟨made.2, reached.binds ++ [bind], reached.joins⟩) := by
  rw [build?, hfield, hop, hoperand]
  rfl

/-- A membership test is a bind for each value. -/
theorem Comparison.build?_isIn (backend : Backend σ κ π) {c : Comparison} {field : Field}
    {values : List Value} {span : Span} (hfield : Field.ofName? c.field.name = some field)
    (hop : c.op = .isIn) (hoperand : c.operand = .set values span) (trail : Trail σ) :
    c.build? backend trail =
      let reached := trail.reach backend field
      let found := backend.column field reached.state
      let binds := reached.newBinds (values.map Value.literal)
      let made := backend.isIn found.1 binds found.2
      some (made.1, ⟨made.2, reached.binds ++ binds, reached.joins⟩) := by
  rw [build?, hfield, hop, hoperand]
  rfl

/-- Lowers a query by lowering its parts, the left one first. -/
def Query.build? (backend : Backend σ κ π) : Query → Trail σ → Option (π × Trail σ)
  | .comparison c, trail => c.build? backend trail
  | .not inner, trail =>
    (inner.build? backend trail).map fun (a, trail) =>
      let (predicate, state) := backend.not a trail.state
      (predicate, { trail with state })
  | .logical op left right, trail =>
    (left.build? backend trail).bind fun (a, trail) =>
      (right.build? backend trail).map fun (b, trail) =>
        let (predicate, state) := backend.combine op a b trail.state
        (predicate, { trail with state })

/-- A negation is lowered after its operand. -/
theorem Query.build?_not {backend : Backend σ κ π} {inner : Query} {trail after : Trail σ} {a : π}
    (h : inner.build? backend trail = some (a, after)) :
    (Query.not inner).build? backend trail =
      some ((backend.not a after.state).1,
        { after with state := (backend.not a after.state).2 }) := by
  rw [build?, h]
  rfl

/-- A junction is lowered after its left and its right side. -/
theorem Query.build?_logical {backend : Backend σ κ π} (op : LogicalOp) {left right : Query}
    {trail middle after : Trail σ} {a b : π} (hleft : left.build? backend trail = some (a, middle))
    (hright : right.build? backend middle = some (b, after)) :
    (Query.logical op left right).build? backend trail =
      some ((backend.combine op a b after.state).1,
        { after with state := (backend.combine op a b after.state).2 }) := by
  simp only [build?, hleft, hright, Option.bind_some, Option.map_some]

/-! ## What the recursion keeps -/

/-- Declaring a join binds nothing. -/
theorem Trail.binds_reach (backend : Backend σ κ π) (field : Field) (trail : Trail σ) :
    (trail.reach backend field).binds = trail.binds := by
  unfold reach
  cases field.join? with
  | none => rfl
  | some join =>
    by_cases hmem : join ∈ trail.joins
    · simp only [if_pos hmem]
    · simp only [if_neg hmem]

/-- Joins that are declared once each stay so. -/
theorem Trail.joins_reach {trail : Trail σ} {joins : List Join} (h : trail.joins = joins.eraseDups)
    (backend : Backend σ κ π) (field : Field) :
    (trail.reach backend field).joins = (joins ++ field.join?.toList).eraseDups := by
  unfold reach
  cases field.join? with
  | none => simpa using h
  | some join =>
    simp only [h, Option.toList_some, eraseDups_concat]
    by_cases hmem : join ∈ joins.eraseDups
    · simp only [if_pos hmem, h]
    · simp only [if_neg hmem]

/-- What a comparison leaves besides the state: new binds for its literals, and the join of its
field among those that are declared. -/
theorem Comparison.exists_of_build? {backend : Backend σ κ π} {c : Comparison} {predicate : π}
    {trail after : Trail σ} (h : c.build? backend trail = some (predicate, after)) :
    ∃ field literals, Field.ofName? c.field.name = some field ∧
      after.binds = trail.binds ++ trail.newBinds literals ∧
      after.joins = (trail.reach backend field).joins := by
  obtain ⟨field, hfield, hbuild⟩ := Option.bind_eq_some_iff.mp h
  have hbinds := trail.binds_reach backend field
  have hnew (literals : List Literal) :
      (trail.reach backend field).newBinds literals = trail.newBinds literals := by
    rw [Trail.newBinds, hbinds, Trail.newBinds]
  split at hbuild
  next op value _ _ =>
    obtain ⟨-, rfl⟩ := Prod.mk.inj (Option.some.inj hbuild)
    exact ⟨field, [value.literal], hfield, by rw [← hnew, ← hbinds]; rfl, rfl⟩
  next values _ _ _ =>
    obtain ⟨-, rfl⟩ := Prod.mk.inj (Option.some.inj hbuild)
    exact ⟨field, values.map Value.literal, hfield, by rw [← hnew, ← hbinds], rfl⟩
  next => exact absurd hbuild nofun

/-- Whether binds are numbered in the order in which they were made. -/
def Trail.Numbered (trail : Trail σ) : Prop :=
  ∀ (k : Nat) (bind : Bind), trail.binds[k]? = some bind → bind.index = k

/-- New binds are numbered on. -/
theorem Trail.Numbered.append {trail after : Trail σ} (h : trail.Numbered) {literals : List Literal}
    (hafter : after.binds = trail.binds ++ trail.newBinds literals) : after.Numbered := by
  intro k bind hk
  rw [hafter] at hk
  by_cases hlt : k < trail.binds.length
  · exact h k bind (by rwa [List.getElem?_append_left hlt] at hk)
  · rw [List.getElem?_append_right (Nat.le_of_not_lt hlt), newBinds, List.getElem?_mapIdx,
      Option.map_eq_some_iff] at hk
    obtain ⟨literal, -, rfl⟩ := hk
    show trail.binds.length + (k - trail.binds.length) = k
    omega

/-- What does not depend on the state, and is kept by every comparison, is kept by every query.
The joins are those that have been needed so far. -/
theorem Query.keeps_of_build? {backend : Backend σ κ π} {P : List Join → Trail σ → Prop}
    (hstate : ∀ {joins : List Join} {trail : Trail σ} (state : σ),
      P joins trail → P joins { trail with state })
    (hcomparison : ∀ {c : Comparison} {predicate : π} {trail after : Trail σ} {joins : List Join},
      c.build? backend trail = some (predicate, after) → P joins trail →
        P (joins ++ (Query.comparison c).joins) after)
    {q : Query} {predicate : π} {trail after : Trail σ} (joins : List Join)
    (h : q.build? backend trail = some (predicate, after)) (hbefore : P joins trail) :
    P (joins ++ q.joins) after := by
  induction q generalizing predicate trail after joins with
  | comparison c => exact hcomparison h hbefore
  | not inner ih =>
    obtain ⟨⟨a, last⟩, hinner, hafter⟩ := Option.map_eq_some_iff.mp h
    obtain ⟨-, rfl⟩ := Prod.mk.inj hafter
    exact hstate _ (ih joins hinner hbefore)
  | logical op left right ihleft ihright =>
    obtain ⟨⟨a, middle⟩, hleft, hrest⟩ := Option.bind_eq_some_iff.mp h
    obtain ⟨⟨b, last⟩, hright, hafter⟩ := Option.map_eq_some_iff.mp hrest
    obtain ⟨-, rfl⟩ := Prod.mk.inj hafter
    have hlast := ihright _ hright (ihleft joins hleft hbefore)
    rw [List.append_assoc, ← Query.joins_logical op] at hlast
    exact hstate _ hlast

/-- After a query the binds are numbered if they were before. -/
theorem Query.numbered_of_build? {backend : Backend σ κ π} {q : Query} {predicate : π}
    {trail after : Trail σ} (h : q.build? backend trail = some (predicate, after))
    (hnumbered : trail.Numbered) : after.Numbered := by
  refine Query.keeps_of_build? (P := fun _ trail => trail.Numbered)
    (fun _ hbefore => hbefore) ?_ [] h hnumbered
  intro c predicate trail after joins hbuild hbefore
  obtain ⟨field, literals, -, hbinds, -⟩ := Comparison.exists_of_build? hbuild
  exact hbefore.append hbinds

/-- After a query the joins are those that were needed before and in the query, each of them
once. -/
theorem Query.joins_of_build? {backend : Backend σ κ π} {q : Query} {predicate : π}
    {trail after : Trail σ} {joins : List Join}
    (h : q.build? backend trail = some (predicate, after))
    (hjoins : trail.joins = joins.eraseDups) :
    after.joins = (joins ++ q.joins).eraseDups := by
  refine Query.keeps_of_build? (P := fun joins trail => trail.joins = joins.eraseDups)
    (fun _ hbefore => hbefore) ?_ joins h hjoins
  intro c predicate trail after joins hbuild hbefore
  obtain ⟨field, literals, hfield, -, hafter⟩ := Comparison.exists_of_build? hbuild
  rw [hafter, Query.joins_comparison hfield]
  exact Trail.joins_reach hbefore backend field

/-! ## Stacks that hold enough -/

/-- How many predicates a step takes off the stack. -/
def Step.operands {α : Type} : Step α → Nat
  | .compare _ => 0
  | .negate => 1
  | .combine _ => 2

namespace Lowering

/-- Whether every one of the steps finds the predicates that it takes off the stack. -/
def Runs (backend : Backend σ κ π) : Lowering σ π → List (Step Resolved) → Prop
  | _, [] => True
  | lowering, step :: rest =>
    step.operands ≤ lowering.stack.length ∧ (lowering.step backend step).Runs backend rest

/-- Steps run if the first of them do and the others do behind these. -/
theorem runs_append {backend : Backend σ κ π} {lowering : Lowering σ π}
    {first second : List (Step Resolved)} :
    lowering.Runs backend (first ++ second) ↔
      lowering.Runs backend first ∧
        (first.foldl (Lowering.step backend) lowering).Runs backend second := by
  induction first generalizing lowering with
  | nil => simp [Runs]
  | cons step first ih => rw [List.cons_append, Runs, Runs, ih, List.foldl_cons, and_assoc]

/-! ## Both lowerings -/

/-- Whether a lowering by steps has come as far as one by recursion. -/
structure Agrees (lowering : Lowering σ π) (trail : Trail σ) : Prop where
  state : lowering.state = trail.state
  params : lowering.params.toList = trail.binds.map Bind.value
  joins : lowering.joins = trail.joins

/-- The next parameter has the number of the next bind. -/
theorem Agrees.size_params {lowering : Lowering σ π} {trail : Trail σ} (h : lowering.Agrees trail) :
    lowering.params.size = trail.binds.length := by
  rw [← Array.length_toList, h.params, List.length_map]

/-- Literals become the same binds in both lowerings. -/
theorem binds_eq_newBinds {trail : Trail σ} (literals : List Literal) :
    binds trail.binds.length literals = trail.newBinds literals := by
  rw [binds, Trail.newBinds, List.mapIdx_eq_zipIdx_map, List.zipIdx_eq_map_add, List.map_map]
  rfl

/-- A lowering once the join of a field has been declared. -/
def reach (backend : Backend σ κ π) (field : Field) (lowering : Lowering σ π) : Lowering σ π :=
  match field.join? with
  | some join => lowering.declare backend join
  | none => lowering

/-- A comparison with a single value calls for one bind. -/
theorem compare_scalar (backend : Backend σ κ π) (field : Field) (op : ScalarOp) (value : Literal)
    (lowering : Lowering σ π) :
    lowering.compare backend (.scalar field op value) =
      let reached := lowering.reach backend field
      let found := backend.column field reached.state
      let made := backend.compare op found.1 ⟨reached.params.size, value⟩ found.2
      ⟨made.2, reached.params.push value, reached.joins, made.1 :: reached.stack⟩ := rfl

/-- A membership test calls for all binds at once. -/
theorem compare_isIn (backend : Backend σ κ π) (field : Field) (values : List Literal)
    (lowering : Lowering σ π) :
    lowering.compare backend (.isIn field values) =
      let reached := lowering.reach backend field
      let found := backend.column field reached.state
      let made := backend.isIn found.1 (binds reached.params.size values) found.2
      ⟨made.2, reached.params ++ values, reached.joins, made.1 :: reached.stack⟩ := rfl

/-- Negating takes the last predicate. -/
theorem step_negate (backend : Backend σ κ π) {lowering : Lowering σ π} {a : π} {rest : List π}
    (h : lowering.stack = a :: rest) :
    lowering.step backend .negate =
      let made := backend.not a lowering.state
      ⟨made.2, lowering.params, lowering.joins, made.1 :: rest⟩ := by
  rw [step, h]

/-- Combining takes the last two predicates, of which the right one was made last. -/
theorem step_combine (backend : Backend σ κ π) (op : LogicalOp) {lowering : Lowering σ π} {a b : π}
    {rest : List π} (h : lowering.stack = b :: a :: rest) :
    lowering.step backend (.combine op) =
      let made := backend.combine op a b lowering.state
      ⟨made.2, lowering.params, lowering.joins, made.1 :: rest⟩ := by
  rw [step, h]

/-- The stack plays no part in declaring a join. -/
theorem stack_reach (backend : Backend σ κ π) (field : Field) (lowering : Lowering σ π) :
    (lowering.reach backend field).stack = lowering.stack := by
  unfold reach declare
  cases field.join? with
  | none => rfl
  | some join =>
    by_cases hmem : join ∈ lowering.joins
    · simp only [if_pos hmem]
    · simp only [if_neg hmem]

/-- Both lowerings declare a join in the same cases. -/
theorem Agrees.reach {lowering : Lowering σ π} {trail : Trail σ} (h : lowering.Agrees trail)
    (backend : Backend σ κ π) (field : Field) :
    (lowering.reach backend field).Agrees (trail.reach backend field) := by
  unfold Lowering.reach Trail.reach Lowering.declare
  cases field.join? with
  | none => exact h
  | some join =>
    simp only [h.joins]
    by_cases hmem : join ∈ trail.joins
    · simpa only [if_pos hmem] using h
    · simp only [if_neg hmem]
      exact ⟨congrArg (backend.join join) h.state, h.params, rfl⟩

/-- A comparison leads both lowerings to the same predicate. -/
theorem exists_build?_comparison (backend : Backend σ κ π) {c : Comparison} {resolved : Resolved}
    (hresolved : c.resolve = .ok resolved) {lowering : Lowering σ π} {trail : Trail σ}
    (h : lowering.Agrees trail) :
    ∃ predicate after, c.build? backend trail = some (predicate, after) ∧
      (lowering.compare backend resolved).Agrees after ∧
      (lowering.compare backend resolved).stack = predicate :: lowering.stack := by
  obtain ⟨field, hfield, hshape⟩ := Comparison.resolve_eq_ok_iff.mp hresolved
  have hreach := h.reach backend field
  have hstack := lowering.stack_reach backend field
  rcases hshape with ⟨op, value, hop, hoperand, rfl⟩ | ⟨values, span, hop, hoperand, rfl⟩
  · rw [compare_scalar, Comparison.build?_scalar backend hfield hop hoperand]
    simp only [hreach.size_params, hreach.state, hstack]
    refine ⟨_, _, rfl, ⟨rfl, ?_, hreach.joins⟩, rfl⟩
    rw [Array.toList_push, hreach.params, List.map_append]
    rfl
  · rw [compare_isIn, Comparison.build?_isIn backend hfield hop hoperand]
    simp only [hreach.size_params, hreach.state, hstack, binds_eq_newBinds]
    refine ⟨_, _, rfl, ⟨rfl, ?_, hreach.joins⟩, rfl⟩
    rw [Array.toList_appendList, hreach.params, List.map_append, Trail.map_value_newBinds]

/-- The steps of a query lead to the predicate that the recursion leads to, which is all that they
add to the stack. -/
theorem exists_build?_of_plan (backend : Backend σ κ π) {q : Query} {steps : List (Step Resolved)}
    (hplan : q.plan = .ok steps) {lowering : Lowering σ π} {trail : Trail σ}
    (h : lowering.Agrees trail) :
    ∃ predicate after, q.build? backend trail = some (predicate, after) ∧
      lowering.Runs backend steps ∧ (steps.foldl (step backend) lowering).Agrees after ∧
      (steps.foldl (step backend) lowering).stack = predicate :: lowering.stack := by
  -- For any stack: the right side of a junction is lowered while the left side waits on it.
  induction q generalizing steps lowering trail with
  | comparison c =>
    obtain ⟨resolved, hresolved, rfl⟩ := Query.plan_comparison_eq_ok_iff.mp hplan
    obtain ⟨predicate, after, hbuild, hagrees, hstack⟩ :=
      exists_build?_comparison backend hresolved h
    exact ⟨predicate, after, hbuild, ⟨Nat.zero_le _, trivial⟩, hagrees, hstack⟩
  | not inner ih =>
    obtain ⟨first, hfirst, rfl⟩ := Query.plan_not_eq_ok_iff.mp hplan
    obtain ⟨a, middle, hbuild, hruns, hagrees, hstack⟩ := ih hfirst h
    rw [runs_append, List.foldl_append]
    generalize first.foldl (step backend) lowering = lowered at hagrees hstack ⊢
    rw [List.foldl_cons, List.foldl_nil, step_negate backend hstack, hagrees.state]
    refine ⟨_, _, Query.build?_not hbuild, ⟨hruns, ?_, trivial⟩,
      ⟨rfl, hagrees.params, hagrees.joins⟩, rfl⟩
    rw [hstack, List.length_cons]
    exact Nat.succ_le_succ (Nat.zero_le _)
  | logical op left right ihleft ihright =>
    obtain ⟨first, second, hfirst, hsecond, rfl⟩ := Query.plan_logical_eq_ok_iff.mp hplan
    obtain ⟨a, middle, hbuild, hruns, hagrees, hstack⟩ := ihleft hfirst h
    rw [runs_append, runs_append, List.foldl_append, List.foldl_append]
    generalize first.foldl (step backend) lowering = between at hagrees hstack ⊢
    obtain ⟨b, last, hbuild', hruns', hagrees', hstack'⟩ := ihright hsecond hagrees
    generalize second.foldl (step backend) between = lowered at hagrees' hstack' ⊢
    rw [hstack] at hstack'
    rw [List.foldl_cons, List.foldl_nil, step_combine backend op hstack', hagrees'.state]
    refine ⟨_, _, Query.build?_logical op hbuild hbuild', ⟨hruns, hruns', ?_, trivial⟩,
      ⟨rfl, hagrees'.params, hagrees'.joins⟩, rfl⟩
    rw [hstack', List.length_cons, List.length_cons]
    exact Nat.succ_le_succ (Nat.succ_le_succ (Nat.zero_le _))

end Lowering
end ResumeFilter
