import ResumeFilter.Backend.Borrowed
import ResumeFilter.Backend.Tally
import ResumeFilter.Proofs.Lowering.Recursion

/-!
# Lowering by steps is lowering by recursion

For every backend and every query whose comparisons can all be resolved, the steps of the query
drive the backend as the recursion does, and the predicate that is left becomes the filter
(`lower_eq_recursion`). A backend that works on a part of a larger state is driven as if the part
were its own (`Query.lower_borrowed`).
-/

namespace ResumeFilter

variable {τ σ κ π : Type}

/-! ## Borrowed states -/

/-- Changing a part that was just set. -/
theorem Part.update_set (part : Part τ σ) (f : σ → σ) (state : σ) (whole : τ) :
    part.update f (part.set state whole) = part.set (f state) whole := by
  rw [update, part.get_set, part.set_set]

/-- Changing a part that was just set, with an answer. -/
theorem Part.visit_set {α : Type} (part : Part τ σ) (f : σ → α × σ) (state : σ) (whole : τ) :
    part.visit f (part.set state whole) = ((f state).1, part.set (f state).2 whole) := by
  rw [visit, part.get_set]
  simp only [part.set_set]

namespace Lowering

/-- A lowering whose backend has its state within a larger one. -/
def within (part : Part τ σ) (whole : τ) (lowering : Lowering σ π) : Lowering τ π :=
  { lowering with state := part.set lowering.state whole }

section Within

variable (part : Part τ σ) (whole : τ) (backend : Backend σ κ π) (lowering : Lowering σ π)

/-- Joins are declared within the larger state. -/
theorem reach_within (field : Field) :
    (lowering.within part whole).reach (backend.borrowed part) field =
      (lowering.reach backend field).within part whole := by
  unfold reach declare
  cases field.join? with
  | none => rfl
  | some join =>
    by_cases hmem : join ∈ lowering.joins
    · have hmem' : join ∈ (lowering.within part whole).joins := hmem
      simp only [if_pos hmem, if_pos hmem']
    · have hmem' : join ∉ (lowering.within part whole).joins := hmem
      simp only [if_neg hmem, if_neg hmem']
      simp only [within, Backend.borrowed, part.update_set]

/-- A step is taken within the larger state. -/
theorem step_within (s : Step Resolved) :
    (lowering.within part whole).step (backend.borrowed part) s =
      (lowering.step backend s).within part whole := by
  cases s with
  | compare resolved =>
    rw [step, step]
    cases resolved with
    | scalar field op value =>
      simp only [compare_scalar, reach_within]
      simp only [within, Backend.borrowed, part.visit_set]
    | isIn field values =>
      simp only [compare_isIn, reach_within]
      simp only [within, Backend.borrowed, part.visit_set]
  | negate =>
    obtain ⟨state, params, joins, stack⟩ := lowering
    cases stack with
    | nil => rfl
    | cons inner rest => simp only [step, within, Backend.borrowed, part.visit_set]
  | combine op =>
    obtain ⟨state, params, joins, stack⟩ := lowering
    cases stack with
    | nil => rfl
    | cons right rest =>
      cases rest with
      | nil => rfl
      | cons left rest => simp only [step, within, Backend.borrowed, part.visit_set]

/-- The last predicate becomes the filter within the larger state. -/
theorem filtered_within :
    (lowering.within part whole).filtered (backend.borrowed part) =
      part.set (lowering.filtered backend) whole := by
  obtain ⟨state, params, joins, stack⟩ := lowering
  cases stack with
  | nil => rfl
  | cons predicate rest => simp only [filtered, within, Backend.borrowed, part.update_set]

end Within

end Lowering

/-- A query is lowered onto a part of a state as it is lowered onto the part alone; nothing else of
the state changes. -/
theorem Query.lower_borrowed (q : Query) (backend : Backend σ κ π) (part : Part τ σ) (whole : τ) :
    q.lower (backend.borrowed part) whole =
      ((q.lower backend (part.get whole)).1,
        part.set (q.lower backend (part.get whole)).2 whole) := by
  rw [lower, lower]
  cases q.plan with
  | error error => simp only [part.set_get]
  | ok steps =>
    have hstart : (Lowering.start whole : Lowering τ π) =
        (Lowering.start (part.get whole)).within part whole := by
      rw [Lowering.start, Lowering.start, Lowering.within, part.set_get]
    have hsteps : steps.foldl (Lowering.step (backend.borrowed part)) (Lowering.start whole) =
        (steps.foldl (Lowering.step backend) (Lowering.start (part.get whole))).within part
          whole := by
      rw [hstart]
      exact List.foldl_hom _ fun lowering s => lowering.step_within part whole backend s
    simp only [hsteps, Lowering.filtered_within]
    rfl

/-! ## The whole lowering -/

/-- A query with a plan is lowered as the recursion does, and its predicate becomes the filter. -/
theorem Query.exists_lower_eq (backend : Backend σ κ π) {q : Query} {steps : List (Step Resolved)}
    (hplan : q.plan = .ok steps) (state : σ) :
    ∃ predicate trail, q.build? backend ⟨state, [], []⟩ = some (predicate, trail) ∧
      q.lower backend state = (.ok ⟨trail.binds.map Bind.value, trail.joins⟩,
        backend.filter predicate trail.state) ∧
      (Lowering.start state).Runs backend steps ∧
      (steps.foldl (Lowering.step backend) (Lowering.start state)).stack = [predicate] := by
  have hstart : (Lowering.start state : Lowering σ π).Agrees ⟨state, [], []⟩ := ⟨rfl, rfl, rfl⟩
  obtain ⟨predicate, trail, hbuild, hruns, hagrees, hstack⟩ :=
    Lowering.exists_build?_of_plan backend hplan hstart
  refine ⟨predicate, trail, hbuild, ?_, hruns, hstack⟩
  rw [lower, hplan]
  simp only [Lowering.filtered, hstack, hagrees.state, hagrees.params, hagrees.joins]

/-- A query whose comparisons can all be resolved is lowered as the recursion does, onto any
backend: in the same calls, the filter last. The binds are numbered as they are made, with the
parameters as their values, and the joins are those of the fields in the order of their first use.
Every step finds its predicates, and one is left in the end. If the state is a part of a larger one,
then all this is done to the part. -/
theorem lower_eq_recursion (backend : Backend σ κ π) {q : Query}
    (h : ∀ c ∈ q.comparisons, ∃ resolved, c.resolve = .ok resolved) (state : σ) :
    ∃ predicate trail lowered steps,
      q.build? backend ⟨state, [], []⟩ = some (predicate, trail) ∧
        q.lower backend state = (.ok lowered, backend.filter predicate trail.state) ∧
        lowered.params.length = trail.binds.length ∧
        (∀ (k : Nat) (bind : Bind), trail.binds[k]? = some bind →
          bind.index = k ∧ lowered.params[k]? = some bind.value) ∧
        lowered.joins = trail.joins ∧ lowered.joins = q.joins.eraseDups ∧
        q.plan = .ok steps ∧ (Lowering.start state).Runs backend steps ∧
        (steps.foldl (Lowering.step backend) (Lowering.start state)).stack = [predicate] ∧
        ∀ (τ : Type) (part : Part τ σ) (whole : τ),
          q.lower (backend.borrowed part) (part.set state whole) =
            (.ok lowered, part.set (backend.filter predicate trail.state) whole) := by
  obtain ⟨steps, hplan⟩ := Query.exists_plan_iff.mpr h
  obtain ⟨predicate, trail, hbuild, hlower, hruns, hstack⟩ :=
    Query.exists_lower_eq backend hplan state
  have hnone : (⟨state, [], []⟩ : Trail σ).Numbered := by
    intro k bind hk
    exact absurd hk (by simp)
  have hempty : ([] : List Join) = [].eraseDups := rfl
  have hnumbered := Query.numbered_of_build? hbuild hnone
  have hjoins := Query.joins_of_build? hbuild hempty
  refine ⟨predicate, trail, _, steps, hbuild, hlower, List.length_map _, ?_, rfl, hjoins, hplan,
    hruns, hstack, ?_⟩
  · intro k bind hk
    refine ⟨hnumbered k bind hk, ?_⟩
    rw [List.getElem?_map, hk, Option.map_some]
  · intro τ part whole
    rw [Query.lower_borrowed, part.get_set, hlower, part.set_set]

/-- A query that needs one join twice, and another one in between, on a tally that is half of a
pair. -/
theorem lower_of_repeated_join :
    let skills := fun op value => Query.comparison
      ⟨⟨"SKILLS", .empty 0⟩, .scalar op, .scalar ⟨.str value, .empty 0⟩⟩
    let degrees := Query.comparison ⟨⟨"EDUCATION", .empty 0⟩, .isIn,
      .set [⟨.str "BSc", .empty 0⟩, ⟨.str "MSc", .empty 0⟩] (.empty 0)⟩
    let q := Query.logical .and (skills .eq "Lean")
      (.not (.logical .or degrees (skills .notEq "C")))
    let half : Part (Tally × Nat) Tally := ⟨Prod.fst, fun tally pair => (tally, pair.2),
      fun _ _ => rfl, fun _ => rfl, fun _ _ _ => rfl⟩
    (∀ c ∈ q.comparisons, ∃ resolved, c.resolve = .ok resolved) ∧
      (∃ predicate trail, q.build? Tally.backend ⟨Tally.zero, [], []⟩ = some (predicate, trail) ∧
        Tally.backend.filter predicate trail.state = ⟨[.skills, .education], 3, 2, 1, some 3⟩) ∧
      q.lower (Tally.backend.borrowed half) (Tally.zero, 7) =
        (.ok ⟨[.str "Lean", .str "BSc", .str "MSc", .str "C"], [.skills, .education]⟩,
          (⟨[.skills, .education], 3, 2, 1, some 3⟩, 7)) := by
  intro skills degrees q half
  have hresolves : ∀ c ∈ q.comparisons, ∃ resolved, c.resolve = .ok resolved := by
    rw [← Query.exists_plan_iff]
    exact ⟨_, rfl⟩
  obtain ⟨predicate, trail, lowered, steps, hbuild, hlower, -, -, -, -, -, -, -, hborrowed⟩ :=
    lower_eq_recursion Tally.backend hresolves Tally.zero
  have hcalls : q.lower Tally.backend Tally.zero =
      (.ok ⟨[.str "Lean", .str "BSc", .str "MSc", .str "C"], [.skills, .education]⟩,
        ⟨[.skills, .education], 3, 2, 1, some 3⟩) :=
    rfl
  rw [hcalls] at hlower
  obtain ⟨hlowered, hfiltered⟩ := Prod.mk.inj hlower
  refine ⟨hresolves, ⟨predicate, trail, hbuild, hfiltered.symm⟩, ?_⟩
  have hpair := hborrowed _ half (Tally.zero, 7)
  rw [← hlowered, ← hfiltered] at hpair
  exact hpair

end ResumeFilter
