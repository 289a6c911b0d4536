import ResumeFilter.Proofs.Lowering.InTurn
import ResumeFilter.Proofs.Lowering.Refinement
import ResumeFilter.Proofs.Sql.Lowered

/-!
# What a query adds to a builder

A query that is lowered onto a builder declares its joins there and adds one condition to the
filter. Which condition that is depends on the fields and operators of the query and on the numbers
of its literals alone (`Query.condition?`); neither the literals nor the builder play a part
(`lower_builder`).
-/

namespace ResumeFilter

open Sql

/-! ## The condition of a query -/

/-- The condition that a comparison becomes when `index` parameters have been bound before. -/
def Comparison.condition? (c : Comparison) (index : Nat) : Option Condition :=
  (Field.ofName? c.field.name).bind fun field =>
    match c.op, c.operand with
    | .scalar op, .scalar _ => some (.compare field.column op index)
    | .isIn, .set values _ => some (.isIn field.column (List.range' index values.length))
    | _, _ => none

/-- The condition that a query becomes when `index` parameters have been bound before. -/
def Query.condition? : Query → Nat → Option Condition
  | .comparison c, index => c.condition? index
  | .not inner, index => (inner.condition? index).map .not
  | .logical op left right, index =>
    (left.condition? index).bind fun a =>
      (right.condition? (index + left.literals.length)).map fun b => .combine op a b

namespace Sql

/-! ## Declaring joins -/

/-- Declares joins one after the other. -/
def Builder.joinAll (joins : List Join) (builder : Builder) : Builder :=
  joins.foldl (fun builder join => builder.join join) builder

/-- Declaring one more join is the last thing that is done. -/
theorem Builder.joinAll_concat (joins : List Join) (join : Join) (builder : Builder) :
    builder.joinAll (joins ++ [join]) = (builder.joinAll joins).join join := by
  rw [joinAll, List.foldl_append, List.foldl_cons, List.foldl_nil, joinAll]

/-- The joins of a builder are those that it had and the one that was declared. -/
theorem Builder.mem_joins_join {join other : Join} {builder : Builder} :
    other ∈ (builder.join join).joins ↔ other ∈ builder.joins ∨ other = join := by
  rw [joins_join]
  by_cases hmem : join ∈ builder.joins
  · rw [if_pos hmem]
    constructor
    · exact Or.inl
    · rintro (hother | rfl)
      · exact hother
      · exact hmem
  · rw [if_neg hmem, List.mem_append, List.mem_singleton]

/-- The joins of a builder are those that it had and those that were declared. -/
theorem Builder.mem_joins_joinAll {joins : List Join} {join : Join} {builder : Builder} :
    join ∈ (builder.joinAll joins).joins ↔ join ∈ builder.joins ∨ join ∈ joins := by
  induction joins generalizing builder with
  | nil => simp [joinAll]
  | cons first joins ih =>
    have hfirst : builder.joinAll (first :: joins) = (builder.join first).joinAll joins := rfl
    rw [hfirst, ih, mem_joins_join, List.mem_cons, or_assoc]

/-- Declaring joins leaves the configuration and the filter. -/
theorem Builder.config_and_filter_joinAll (joins : List Join) (builder : Builder) :
    (builder.joinAll joins).config = builder.config ∧
      (builder.joinAll joins).filter = builder.filter := by
  induction joins generalizing builder with
  | nil => exact ⟨rfl, rfl⟩
  | cons first joins ih =>
    obtain ⟨hconfig, hfilter⟩ := builder.config_and_filter_join first
    obtain ⟨hconfig', hfilter'⟩ := ih (builder.join first)
    exact ⟨hconfig'.trans hconfig, hfilter'.trans hfilter⟩

/-- Joins that are declared once each stay so. -/
theorem Builder.joins_joinAll {before : List Join} {builder : Builder}
    (h : builder.joins = before.eraseDups) (joins : List Join) :
    (builder.joinAll joins).joins = (before ++ joins).eraseDups := by
  induction joins generalizing builder before with
  | nil => simpa [joinAll] using h
  | cons first joins ih =>
    have hfirst : (builder.join first).joins = (before ++ [first]).eraseDups := by
      rw [joins_join, h, eraseDups_concat]
    have hrest := ih hfirst
    rw [List.append_assoc, List.singleton_append] at hrest
    exact hrest

/-! ## Lowering onto a builder -/

/-- A join that this lowering has declared is one that the builder has, so the builder knows all
joins that the lowering has come across. -/
theorem state_reach {builder : Builder} {trail : Trail Builder} {joins : List Join}
    (hstate : trail.state = builder.joinAll joins) (hjoins : trail.joins = joins.eraseDups)
    (field : Field) :
    (trail.reach Builder.backend field).state =
      builder.joinAll (joins ++ field.join?.toList) := by
  unfold Trail.reach
  cases field.join? with
  | none => simpa using hstate
  | some join =>
    simp only [Option.toList_some, Builder.joinAll_concat, hjoins]
    by_cases hmem : join ∈ joins.eraseDups
    · have hknown : join ∈ (builder.joinAll joins).joins :=
        Builder.mem_joins_joinAll.mpr (.inr (List.mem_eraseDups.mp hmem))
      rw [if_pos hmem, Builder.join, if_pos hknown, hstate]
    · rw [if_neg hmem, ← hstate]
      rfl

end Sql

/-- New binds are numbered on. -/
theorem Trail.map_index_newBinds {σ : Type} (trail : Trail σ) (literals : List Literal) :
    (trail.newBinds literals).map Bind.index = List.range' trail.binds.length literals.length := by
  rw [← Lowering.binds_eq_newBinds, map_index_binds]

/-- What a comparison leaves on a builder: its condition, its join and binds for its literals. -/
theorem Comparison.condition?_of_build? {c : Comparison} {condition : Condition}
    {trail after : Trail Builder} {builder : Builder} {joins : List Join}
    (h : c.build? Builder.backend trail = some (condition, after))
    (hstate : trail.state = builder.joinAll joins) (hjoins : trail.joins = joins.eraseDups) :
    c.condition? trail.binds.length = some condition ∧
      after.state = builder.joinAll (joins ++ (Query.comparison c).joins) ∧
      after.binds.map Bind.value = trail.binds.map Bind.value ++ c.operand.literals := by
  obtain ⟨field, hfield, hbuild⟩ := Option.bind_eq_some_iff.mp h
  have hreach := state_reach hstate hjoins field
  have hbinds := trail.binds_reach Builder.backend field
  rw [Query.joins_comparison hfield]
  split at hbuild
  next op value hop hoperand =>
    obtain ⟨rfl, rfl⟩ := Prod.mk.inj (Option.some.inj hbuild)
    rw [condition?, hfield, hop, hoperand]
    simp only [hbinds, List.map_append]
    exact ⟨rfl, hreach, rfl⟩
  next values span hop hoperand =>
    obtain ⟨rfl, rfl⟩ := Prod.mk.inj (Option.some.inj hbuild)
    have hindices := (trail.reach Builder.backend field).map_index_newBinds
      (values.map Value.literal)
    rw [List.length_map, hbinds] at hindices
    rw [condition?, hfield, hop, hoperand]
    simp only [hbinds, List.map_append, Trail.map_value_newBinds]
    refine ⟨?_, hreach, rfl⟩
    rw [← hindices]
    rfl
  next => exact absurd hbuild nofun

/-- What a query leaves on a builder: its condition, its joins and binds for its literals. -/
theorem Query.condition?_of_build? {q : Query} {condition : Condition}
    {trail after : Trail Builder} {builder : Builder} {joins : List Join}
    (h : q.build? Builder.backend trail = some (condition, after))
    (hstate : trail.state = builder.joinAll joins) (hjoins : trail.joins = joins.eraseDups) :
    q.condition? trail.binds.length = some condition ∧
      after.state = builder.joinAll (joins ++ q.joins) ∧
      after.binds.map Bind.value = trail.binds.map Bind.value ++ q.literals := by
  induction q generalizing condition trail after joins with
  | comparison c => exact Comparison.condition?_of_build? h hstate hjoins
  | not inner ih =>
    obtain ⟨⟨a, last⟩, hinner, hafter⟩ := Option.map_eq_some_iff.mp h
    obtain ⟨rfl, rfl⟩ := Prod.mk.inj hafter
    obtain ⟨hcondition, hlast⟩ := ih hinner hstate hjoins
    exact ⟨by rw [condition?, hcondition]; rfl, hlast⟩
  | logical op left right ihleft ihright =>
    obtain ⟨⟨a, middle⟩, hleft, hrest⟩ := Option.bind_eq_some_iff.mp h
    obtain ⟨⟨b, last⟩, hright, hafter⟩ := Option.map_eq_some_iff.mp hrest
    obtain ⟨rfl, rfl⟩ := Prod.mk.inj hafter
    obtain ⟨hcondition, hstate', hbinds⟩ := ihleft hleft hstate hjoins
    have hjoins' := joins_of_build? hleft hjoins
    obtain ⟨hcondition', hlast, hbinds'⟩ := ihright hright hstate' hjoins'
    have hlength : middle.binds.length = trail.binds.length + left.literals.length := by
      have hlength := congrArg List.length hbinds
      simpa only [List.length_map, List.length_append] using hlength
    rw [hlength] at hcondition'
    rw [hbinds, List.append_assoc] at hbinds'
    rw [List.append_assoc, ← Query.joins_logical op] at hlast
    exact ⟨by rw [condition?, hcondition, Option.bind_some, hcondition']; rfl, hlast, hbinds'⟩

/-- A query with a plan adds its joins and its condition to a builder; its literals become the
parameters. -/
theorem Query.lower_builder {q : Query} {steps : List (Step Resolved)} (hplan : q.plan = .ok steps)
    (builder : Builder) :
    ∃ condition, q.condition? 0 = some condition ∧
      q.lower Builder.backend builder =
        (.ok ⟨q.literals, q.joins.eraseDups⟩, (builder.joinAll q.joins).addFilter condition) := by
  obtain ⟨condition, trail, hbuild, hlower, -, -⟩ :=
    Query.exists_lower_eq Builder.backend hplan builder
  have hempty : ([] : List Join) = [].eraseDups := rfl
  have hstart : builder = builder.joinAll [] := rfl
  obtain ⟨hcondition, hstate, hbinds⟩ := Query.condition?_of_build? hbuild hstart hempty
  have hjoins := Query.joins_of_build? hbuild hempty
  refine ⟨condition, hcondition, ?_⟩
  rw [hlower, hbinds, hjoins, hstate]
  rfl

/-! ## Several queries -/

/-- Whether all comparisons of a query can be resolved. -/
def Query.resolves (q : Query) : Bool := q.comparisons.all fun c => c.resolve.isOk

/-- A query has a plan if all its comparisons can be resolved. -/
theorem Query.resolves_iff {q : Query} : q.resolves = true ↔ ∃ steps, q.plan = .ok steps := by
  rw [exists_plan_iff, resolves, List.all_eq_true]
  refine forall₂_congr fun c _ => ?_
  cases c.resolve <;> simp [Except.isOk, Except.toBool]

/-- A query either fails on every builder, or does the same to every builder: it adds its joins and
its condition. Which of the two it is depends on whether its comparisons can be resolved. -/
theorem Query.lower_cases (q : Query) :
    (q.resolves = false ∧
      ∃ error, ∀ builder, q.lower Builder.backend builder = (.error error, builder)) ∨
    (q.resolves = true ∧ ∃ condition, q.condition? 0 = some condition ∧ ∀ builder,
      q.lower Builder.backend builder =
        (.ok ⟨q.literals, q.joins.eraseDups⟩, (builder.joinAll q.joins).addFilter condition)) := by
  cases hplan : q.plan with
  | error error =>
    refine .inl ⟨Bool.eq_false_iff.mpr fun hresolves => ?_, error, fun builder => ?_⟩
    · obtain ⟨steps, hsteps⟩ := resolves_iff.mp hresolves
      exact absurd (hplan.symm.trans hsteps) nofun
    · rw [lower, hplan]
  | ok steps =>
    obtain ⟨condition, hcondition, -⟩ := lower_builder hplan (Builder.empty ⟨.question, true⟩)
    refine .inr ⟨resolves_iff.mpr ⟨steps, hplan⟩, condition, hcondition, fun builder => ?_⟩
    obtain ⟨other, hother, hlower⟩ := lower_builder hplan builder
    obtain rfl := Option.some.inj (hcondition.symm.trans hother)
    exact hlower

end ResumeFilter
