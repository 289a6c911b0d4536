import ResumeFilter.Backend.Borrowed
import ResumeFilter.Proofs.Sql.Building
import ResumeFilter.Proofs.Sql.Conjunction

/-!
# Several texts on one builder

Texts are lowered one after the other onto one builder, and some of them fail. Those that fail
leave the builder as it is. Each of the others leaves just what it leaves on a builder of its own:
its joins, if they are not there yet, and its condition, joined to the filter by AND
(`lowerTexts_accumulates`). So with question marks the parameters of all of them, in order, are
those of the statement; numbered placeholders start again with every text.
-/

namespace ResumeFilter

open Sql

/-! ## Lowering texts -/

section Texts

variable {σ τ κ π : Type}

/-- Reads a text under a limit on nesting and lowers it onto a backend. -/
def lowerText (backend : Backend σ κ π) (text : String × Option Nat) (state : σ) :
    Except Error Lowered × σ :=
  match Query.parse text.1 text.2 with
  | .error error => (.error (.parse error), state)
  | .ok q =>
    match q.lower backend state with
    | (.error error, state) => (.error (.resolve error), state)
    | (.ok lowered, state) => (.ok lowered, state)

/-- Lowers texts one after the other onto a backend; with what became of each of them comes the
state that this ends in. -/
def lowerTexts (backend : Backend σ κ π) :
    List (String × Option Nat) → σ → List (Except Error Lowered) × σ :=
  inTurn (lowerText backend)

/-- Adding a query to a builder is lowering its text under the usual limit. -/
theorem Sql.Builder.addQuery_eq_lowerText (source : String) (builder : Builder) :
    builder.addQuery source =
      lowerText Builder.backend (source, some Parser.defaultDepthLimit) builder := by
  rw [Builder.addQuery, lowerText]
  cases Query.parse source with
  | error error => rfl
  | ok q =>
    simp only
    cases q.lower Builder.backend builder with
    | mk result last => cases result <;> rfl

/-- A text does to a part of a state what it does to the part alone. -/
theorem lowerText_borrowed (backend : Backend σ κ π) (part : Part τ σ)
    (text : String × Option Nat) (state : σ) (whole : τ) :
    lowerText (backend.borrowed part) text (part.set state whole) =
      ((lowerText backend text state).1, part.set (lowerText backend text state).2 whole) := by
  rw [lowerText, lowerText]
  cases Query.parse text.1 text.2 with
  | error error => rfl
  | ok q =>
    simp only [Query.lower_borrowed, part.get_set, part.set_set]
    cases q.lower backend state with
    | mk result next => cases result <;> rfl

/-- Texts do to a part of a state what they do to the part alone. -/
theorem lowerTexts_borrowed (backend : Backend σ κ π) (part : Part τ σ)
    (texts : List (String × Option Nat)) (state : σ) (whole : τ) :
    lowerTexts (backend.borrowed part) texts (part.set state whole) =
      ((lowerTexts backend texts state).1, part.set (lowerTexts backend texts state).2 whole) :=
  inTurn_borrowed part (fun text state => lowerText_borrowed backend part text state whole)
    texts state

end Texts

/-- What a text leaves of itself and on a builder of its own, if it does not fail. -/
def alone? (config : Config) (text : String × Option Nat) : Option (Lowered × Builder) :=
  match lowerText Builder.backend text (Builder.empty config) with
  | (.ok lowered, builder) => some (lowered, builder)
  | (.error _, _) => none

/-! ## One text -/

/-- A text either fails on every builder, or does the same to every builder: it declares its joins
and adds one condition to the filter. -/
theorem lowerText_cases (text : String × Option Nat) :
    (∃ error, ∀ builder, lowerText Builder.backend text builder = (.error error, builder)) ∨
    ∃ (joins : List Join) (bound : Bound), ∀ builder,
      lowerText Builder.backend text builder =
        (.ok ⟨bound.params, joins.eraseDups⟩,
          (builder.joinAll joins).addFilter bound.condition) := by
  cases hparse : Query.parse text.1 text.2 with
  | error error =>
    refine .inl ⟨.parse error, fun builder => ?_⟩
    simp only [lowerText, hparse]
  | ok q =>
    rcases q.lower_cases with ⟨-, error, herror⟩ | ⟨-, condition, -, hok⟩
    · refine .inl ⟨.resolve error, fun builder => ?_⟩
      simp only [lowerText, hparse, herror]
    · obtain ⟨condition', hlowers, -, -, hfilter⟩ := lower_empty (hok (.empty ⟨.question, true⟩))
      -- The condition on an empty builder is the filter there, so this is the one that is meant.
      obtain rfl : condition = condition' := by
        have hjoins := (Builder.empty ⟨.question, true⟩).config_and_filter_joinAll q.joins
        rw [filter_addFilter_of_none hjoins.2] at hfilter
        exact Option.some.inj hfilter
      refine .inr ⟨q.joins, ⟨condition, q.literals, hlowers.inCatalog, hlowers.params⟩,
        fun builder => ?_⟩
      simp only [lowerText, hparse, hok]

/-- Declaring joins that were declared once each declares them all. -/
theorem eraseDups_append_eraseDups (before joins : List Join) :
    (before ++ joins.eraseDups).eraseDups = (before ++ joins).eraseDups := by
  induction joins using List.reverseRecOn with
  | nil => rfl
  | append_singleton joins join ih =>
    rw [← List.append_assoc, eraseDups_concat joins join, eraseDups_concat (before ++ joins) join]
    by_cases hmem : join ∈ joins.eraseDups
    · have hmem' : join ∈ (before ++ joins).eraseDups :=
        List.mem_eraseDups.mpr (List.mem_append_right before (List.mem_eraseDups.mp hmem))
      rw [if_pos hmem, if_pos hmem', ih]
    · rw [if_neg hmem, ← List.append_assoc, eraseDups_concat, ih]

/-! ## What texts leave on a builder -/

/-- Whether a condition with its values is what a text has left, of itself and on a builder of its
own. -/
structure Leaves (config : Config) (added : Lowered × Builder) (bound : Bound) : Prop where
  params_eq : added.1.params = bound.params
  config_eq : added.2.config = config
  filter_eq : added.2.filter = some bound.condition

/-- What a builder is after texts that have each left something on a builder of their own. -/
structure Accumulates (config : Config) (added : List (Lowered × Builder)) (builder : Builder) :
    Prop where
  config_eq : builder.config = config
  joins_eq : builder.joins = (added.flatMap fun a => a.1.joins).eraseDups
  exists_bounds : ∃ bounds, List.Forall₂ (Leaves config) added bounds ∧
    builder.filter = Bound.conjunction? bounds

/-- One more text does to the builder what it does on a builder of its own, and becomes what it
becomes there. -/
theorem Accumulates.step {config : Config} {done : List (String × Option Nat)} {builder : Builder}
    (h : Accumulates config (done.filterMap (alone? config)) builder)
    (text : String × Option Nat) :
    (lowerText Builder.backend text builder).1 =
        (lowerText Builder.backend text (Builder.empty config)).1 ∧
      Accumulates config ((done ++ [text]).filterMap (alone? config))
        (lowerText Builder.backend text builder).2 := by
  rw [List.filterMap_append]
  rcases lowerText_cases text with ⟨error, herror⟩ | ⟨joins, bound, hok⟩
  · have hnone : alone? config text = none := by rw [alone?, herror]
    rw [herror, herror, List.filterMap_cons_none hnone, List.filterMap_nil, List.append_nil]
    exact ⟨rfl, h⟩
  · have hsome : alone? config text = some (⟨bound.params, joins.eraseDups⟩,
        ((Builder.empty config).joinAll joins).addFilter bound.condition) := by rw [alone?, hok]
    have hempty := (Builder.empty config).config_and_filter_joinAll joins
    have hbuilder := builder.config_and_filter_joinAll joins
    obtain ⟨bounds, hbounds, hfilter⟩ := h.exists_bounds
    rw [hok, hok, List.filterMap_cons_some hsome, List.filterMap_nil]
    refine ⟨rfl, ⟨hbuilder.1.trans h.config_eq, ?_, bounds ++ [bound], ?_, ?_⟩⟩
    · have hjoins := Builder.joins_joinAll h.joins_eq joins
      rw [List.flatMap_append, List.flatMap_singleton, eraseDups_append_eraseDups]
      exact hjoins
    · exact List.rel_append hbounds
        (.cons ⟨rfl, hempty.1, filter_addFilter_of_none hempty.2 bound.condition⟩ .nil)
    · have hadd := conjoin?_concat (Condition.combine .and) (bounds.map Bound.condition)
        bound.condition
      rw [← Bound.conjunction?, ← hfilter, ← hbuilder.2] at hadd
      rw [Bound.conjunction?, List.map_append, List.map_singleton, hadd]
      show ((builder.joinAll joins).addFilter bound.condition).filter = _
      rw [Builder.filter_addFilter]
      cases (builder.joinAll joins).filter <;> rfl

/-- Texts do to the builder what each of them does on a builder of its own, and become what they
become there. -/
theorem accumulates_lowerTexts (config : Config) (texts : List (String × Option Nat)) :
    (lowerTexts Builder.backend texts (Builder.empty config)).1 =
        texts.map (fun text => (lowerText Builder.backend text (Builder.empty config)).1) ∧
      Accumulates config (texts.filterMap (alone? config))
        (lowerTexts Builder.backend texts (Builder.empty config)).2 := by
  have hempty : Accumulates config ([].filterMap (alone? config)) (Builder.empty config) :=
    ⟨rfl, rfl, [], .nil, rfl⟩
  obtain ⟨hresults, hlast⟩ :=
    inTurn_invariant id (fun done => Accumulates config (done.filterMap (alone? config)))
      Accumulates.step hempty texts
  rw [List.map_id] at hresults
  exact ⟨hresults, hlast⟩

/-! ## The text of the builder -/

/-- What a text leaves on a builder of its own is read, with its own parameters, as its formula. -/
theorem Leaves.readSelect? {config : Config} {added : Lowered × Builder} {bound : Bound}
    (h : Leaves config added bound) (tight : LogicalOp) :
    readSelect? tight added.1.params added.2.render = some bound.formula := by
  rw [h.params_eq, Builder.render, Builder.select_eq, h.config_eq, h.filter_eq]
  exact readSelect?_text tight added.2.joins bound

/-- What is made of the parameters of texts, one after the other. -/
theorem flatMap_params_of_leaves {γ : Type} (f : List Literal → List γ) {config : Config}
    {added : List (Lowered × Builder)} {bounds : List Bound}
    (h : List.Forall₂ (Leaves config) added bounds) :
    (added.flatMap fun a => f a.1.params) = bounds.flatMap fun bound => f bound.params := by
  induction h with
  | nil => rfl
  | cons hfirst _ ih => rw [List.flatMap_cons, List.flatMap_cons, hfirst.params_eq, ih]

/-- The filters that texts leave on builders of their own. -/
theorem map_filter_of_leaves {config : Config} {added : List (Lowered × Builder)}
    {bounds : List Bound} (h : List.Forall₂ (Leaves config) added bounds) :
    (added.map fun a => a.2.filter) = (bounds.map Bound.condition).map some := by
  induction h with
  | nil => rfl
  | cons hfirst _ ih => rw [List.map_cons, List.map_cons, List.map_cons, hfirst.filter_eq, ih]

namespace Accumulates

variable {config : Config} {added : List (Lowered × Builder)} {builder : Builder}

/-- The placeholders of the builder are those of the texts, counted from the first one on for each
of them. -/
theorem placeholders_render (h : Accumulates config added builder) :
    placeholders builder.render.toList = added.flatMap fun a =>
      (List.range' 0 a.1.params.length).map (placeholder config) := by
  obtain ⟨bounds, hbounds, hfilter⟩ := h.exists_bounds
  have hcounted := flatMap_params_of_leaves
    (fun params => (List.range' 0 params.length).map (placeholder config)) hbounds
  rw [hcounted, Builder.render, builder.select_eq, h.config_eq, hfilter]
  exact placeholders_conjunction builder.joins bounds

/-- Question marks are as many as the texts have parameters. -/
theorem placeholders_render_question (h : Accumulates config added builder)
    (hquestion : config.placeholder = .question) :
    placeholders builder.render.toList =
      (added.flatMap fun a => a.1.params).map fun _ => ['?'] := by
  rw [h.placeholders_render, List.map_flatMap]
  simp only [map_placeholder_question hquestion, List.map_const']

/-- Numbers start again with every text. -/
theorem placeholders_render_dollar (h : Accumulates config added builder)
    (hdollar : config.placeholder = .dollar) :
    placeholders builder.render.toList = added.flatMap fun a =>
      (List.range a.1.params.length).map fun k => '$' :: (toString (k + 1)).toList := by
  rw [h.placeholders_render]
  simp only [map_placeholder_dollar hdollar]

/-- With question marks the builder is read, with the parameters of all texts in order, as the
conjunction of what each text is read as on a builder of its own. -/
theorem readSelect?_render (h : Accumulates config added builder)
    (hquestion : config.placeholder = .question) :
    ∃ formulas, List.Forall₂ (fun a formula => ∀ tight,
        readSelect? tight a.1.params a.2.render = some formula) added formulas ∧
      ∀ tight, readSelect? tight (added.flatMap fun a => a.1.params) builder.render =
        conjoin? (.combine .and) formulas := by
  obtain ⟨bounds, hbounds, hfilter⟩ := h.exists_bounds
  refine ⟨bounds.map Bound.formula, ?_, fun tight => ?_⟩
  · rw [List.forall₂_map_right_iff]
    exact hbounds.imp fun _ _ hleaves => hleaves.readSelect?
  · have hparams : (added.flatMap fun a => a.1.params) = bounds.flatMap Bound.params :=
      flatMap_params_of_leaves id hbounds
    rw [hparams, Builder.render, builder.select_eq, h.config_eq, hfilter]
    exact readSelect?_conjunction hquestion tight builder.joins bounds

end Accumulates

/-- Texts on one builder, wherever it is kept, make up a conjunction, and texts that fail leave no
trace. The joins are those of the texts, each once and in the order of their first use, and the
filter is the conditions of the texts, joined by AND from the left; each text becomes what it
becomes on a builder of its own. So with question marks the builder is read, with the parameters of
all texts in order, as the conjunction of what each text stands for, and with numbers every text
starts again at one. -/
theorem lowerTexts_accumulates (config : Config) (texts : List (String × Option Nat)) {τ : Type}
    (part : Part τ Builder) (whole : τ) :
    let run := lowerTexts (Builder.backend.borrowed part) texts
      (part.set (Builder.empty config) whole)
    let added := texts.filterMap (alone? config)
    ∃ builder conditions, run.2 = part.set builder whole ∧
      run.1 = texts.map (fun text =>
        (lowerText Builder.backend text (Builder.empty config)).1) ∧
      builder.config = config ∧
      builder.joins = (added.flatMap fun a => a.1.joins).eraseDups ∧
      builder.select.joins = builder.joins.flatMap Join.steps ∧
      (added.map fun a => a.2.filter) = conditions.map some ∧
      builder.filter = conjoin? (.combine .and) conditions ∧
      (config.placeholder = .question →
        (placeholders builder.render.toList =
          (added.flatMap fun a => a.1.params).map fun _ => ['?']) ∧
        ∃ formulas, List.Forall₂ (fun a formula => ∀ tight,
            readSelect? tight a.1.params a.2.render = some formula) added formulas ∧
          ∀ tight, readSelect? tight (added.flatMap fun a => a.1.params) builder.render =
            conjoin? (.combine .and) formulas) ∧
      (config.placeholder = .dollar →
        placeholders builder.render.toList = added.flatMap fun a =>
          (List.range a.1.params.length).map fun k => '$' :: (toString (k + 1)).toList) := by
  intro run added
  obtain ⟨hresults, h⟩ := accumulates_lowerTexts config texts
  obtain ⟨bounds, hbounds, hfilter⟩ := h.exists_bounds
  have hrun : run = _ := lowerTexts_borrowed Builder.backend part texts (Builder.empty config) whole
  rw [hrun]
  exact ⟨_, bounds.map Bound.condition, rfl, hresults, h.config_eq, h.joins_eq, Builder.steps_eq _,
    map_filter_of_leaves hbounds, hfilter,
    fun hquestion => ⟨h.placeholders_render_question hquestion, h.readSelect?_render hquestion⟩,
    h.placeholders_render_dollar⟩

/-- A disjunction stays a group when a further text is added, and between them a text that is no
query, one with a field that does not exist and one that nests too deep leave no trace. -/
theorem lowerTexts_of_disjunction_and_failures :
    let config : Config := ⟨.question, false⟩
    let texts := [("YOE > 5 OR SALARY < 7", none), ("YOE >", none), ("NOPE = 1", none),
      ("NOT (YOE = 1)", some 1), ("SKILLS IN \x7b'lean', 'rust'\x7d", some 0)]
    let disjunction := Condition.combine .or (.compare ⟨.resumes, "years_of_experience"⟩ .gt 0)
      (.compare ⟨.resumes, "current_salary"⟩ .lt 1)
    let part : Part (Builder × Nat) Builder :=
      ⟨Prod.fst, fun builder whole => (builder, whole.2), fun _ _ => rfl, fun _ => rfl,
        fun _ _ _ => rfl⟩
    ∃ builder, (lowerTexts (Builder.backend.borrowed part) texts (Builder.empty config, 3)).2 =
        (builder, 3) ∧
      builder.joins = [.skills] ∧
      builder.filter = some (.combine .and disjunction (.isIn ⟨.skills, "name"⟩ [0, 1])) ∧
      placeholders builder.render.toList = [['?'], ['?'], ['?'], ['?']] ∧
      ∃ formulas, ∀ tight, readSelect? tight [.int 5, .int 7, .str "lean", .str "rust"]
        builder.render = conjoin? (.combine .and) formulas := by
  intro config texts disjunction part
  have hadded : texts.filterMap (alone? config) =
      [(⟨[.int 5, .int 7], []⟩, (Builder.empty config).addFilter disjunction),
        (⟨[.str "lean", .str "rust"], [.skills]⟩,
          ((Builder.empty config).join .skills).addFilter (.isIn ⟨.skills, "name"⟩ [0, 1]))] := by
    decide +kernel
  obtain ⟨builder, conditions, hlast, -, -, hjoins, -, hconditions, hfilter, hquestion, -⟩ :=
    lowerTexts_accumulates config texts part (Builder.empty config, 3)
  obtain ⟨hplaceholders, formulas, -, hread⟩ := hquestion rfl
  rw [hadded] at hjoins hconditions hplaceholders hread
  obtain rfl : [disjunction, .isIn ⟨.skills, "name"⟩ [0, 1]] = conditions :=
    List.map_injective_iff.mpr (Option.some_injective _) hconditions
  exact ⟨builder, hlast, hjoins, hfilter, hplaceholders, formulas, hread⟩

end ResumeFilter
