import ResumeFilter.Proofs.Sql.Placeholders

/-!
# Conditions joined by AND

A filter that grows is joined from the left, each condition with the parameters of its own counted
from zero. The text of such a conjunction spells each condition as if it stood alone, and numbered
placeholders start again with every one of them (`placeholders_conjunction`). If the placeholders
are question marks, then the values of the first condition, those of the second and so on are
supplied where they belong, and each condition stays one side of an AND
(`readCondition?_conjunction`): the parameters can as well be counted through
(`Condition.renumber`).
-/

namespace ResumeFilter.Sql

variable {α β : Type}

/-! ## Joining from the left -/

/-- The members of a list joined from the left, if there are any. -/
def conjoin? (and : α → α → α) : List α → Option α
  | [] => none
  | first :: rest => some (rest.foldl and first)

/-- A further member is joined to all before it. -/
theorem conjoin?_concat (and : α → α → α) (as : List α) (a : α) :
    conjoin? and (as ++ [a]) =
      some (match conjoin? and as with
        | none => a
        | some before => and before a) := by
  cases as with
  | nil => rfl
  | cons first rest =>
    rw [List.cons_append, conjoin?, List.foldl_append]
    rfl

/-- Joining what members are turned into is turning what they are joined to. -/
theorem map_conjoin? {and : α → α → α} {and' : β → β → β} {f : α → β}
    (h : ∀ a b, f (and a b) = and' (f a) (f b)) (as : List α) :
    (conjoin? and as).map f = conjoin? and' (as.map f) := by
  cases as with
  | nil => rfl
  | cons first rest =>
    have hfold : ∀ first, f (rest.foldl and first) = (rest.map f).foldl and' (f first) := by
      induction rest with
      | nil => exact fun _ => rfl
      | cons next rest ih =>
        intro first
        rw [List.foldl_cons, ih, h, List.map_cons, List.foldl_cons]
    rw [conjoin?, Option.map_some, hfold, List.map_cons, conjoin?]

/-- Members that are related one by one are joined to what is related. -/
theorem rel_conjoin? {R : α → β → Prop} {and : α → α → α} {and' : β → β → β}
    (h : ∀ {a a' b b'}, R a a' → R b b' → R (and a b) (and' a' b')) {as : List α} {as' : List β}
    (has : List.Forall₂ R as as') : Option.Rel R (conjoin? and as) (conjoin? and' as') := by
  cases has with
  | nil => exact .none
  | @cons first first' rest rest' hfirst hrest =>
    refine .some ?_
    induction hrest generalizing first first' with
    | nil => exact hfirst
    | cons hnext _ ih => exact ih (h hfirst hnext)

/-- What holds of members and of joined members holds of what all are joined to. -/
theorem forall_mem_conjoin? {P : α → Prop} {and : α → α → α} (h : ∀ {a b}, P a → P b → P (and a b))
    {as : List α} (has : ∀ a ∈ as, P a) : ∀ a ∈ conjoin? and as, P a := by
  cases as with
  | nil => nofun
  | cons first rest =>
    rw [List.forall_mem_cons] at has
    rintro _ ⟨⟩
    exact List.foldlRecOn rest and has.1 fun _ ha b hb => h ha (has.2 b hb)

/-- Lists joined one to the other. -/
theorem getD_conjoin?_append (lists : List (List α)) :
    (conjoin? (· ++ ·) lists).getD [] = lists.flatten := by
  cases lists with
  | nil => rfl
  | cons first rest =>
    rw [conjoin?, Option.getD_some]
    induction rest generalizing first with
    | nil => rw [List.foldl_nil, List.flatten_singleton]
    | cons next rest ih => rw [List.foldl_cons, ih, List.flatten_cons, List.flatten_cons,
        List.flatten_cons, List.append_assoc]

/-! ## Counting parameters otherwise -/

namespace Condition

/-- A condition with its parameters numbered otherwise. -/
def renumber (f : Nat → Nat) : Condition → Condition
  | .compare column op param => .compare column op (f param)
  | .isIn column params => .isIn column (params.map f)
  | .not inner => .not (inner.renumber f)
  | .combine op left right => .combine op (left.renumber f) (right.renumber f)

variable (f : Nat → Nat)

/-- Numbers play no part in how a condition is put together. -/
theorem junction?_renumber (c : Condition) : (c.renumber f).junction? = c.junction? := by
  cases c <;> rfl

/-- The parameters of a condition that are numbered otherwise. -/
theorem params_renumber (c : Condition) : (c.renumber f).params = c.params.map f := by
  induction c with
  | compare column op param => rfl
  | isIn column params => rfl
  | not inner ih => exact ih
  | combine op left right ihleft ihright =>
    rw [renumber, params, params, List.map_append, ihleft, ihright]

/-- The words of a condition whose parameters are numbered otherwise. -/
theorem words_renumber (g : Nat → α) (c : Condition) :
    (c.renumber f).words g = c.words (g ∘ f) := by
  induction c with
  | compare column op param => rfl
  | isIn column params => rw [renumber, words, words, List.map_map]
  | not inner ih => rw [renumber, words, words, ih]
  | combine op left right ihleft ihright =>
    rw [renumber, words, words, ihleft, ihright, junction?_renumber, junction?_renumber]

/-- The formula of a condition whose parameters are numbered otherwise. -/
theorem formula_renumber (values : Nat → Literal) (c : Condition) :
    (c.renumber f).formula values = c.formula (values ∘ f) := by
  induction c with
  | compare column op param => rfl
  | isIn column params => rw [renumber, formula, formula, List.map_map]
  | not inner ih => rw [renumber, formula, formula, ih]
  | combine op left right ihleft ihright => rw [renumber, formula, formula, ihleft, ihright]

/-- Only the values of its parameters matter to the formula of a condition. -/
theorem formula_congr {values values' : Nat → Literal} {c : Condition}
    (h : ∀ index ∈ c.params, values index = values' index) :
    c.formula values = c.formula values' := by
  induction c with
  | compare column op param => rw [formula, formula, h param List.mem_cons_self]
  | isIn column params =>
    have hparams : params.map values = params.map values' := List.map_congr_left h
    rw [formula, formula, hparams]
  | not inner ih => rw [formula, formula, ih h]
  | combine op left right ihleft ihright =>
    rw [params, List.forall_mem_append] at h
    rw [formula, formula, ihleft h.1, ihright h.2]

/-- Whether two conditions have the same text where placeholders are all alike. -/
structure SameText (c c' : Condition) : Prop where
  junction : c.junction? = c'.junction?
  words : c.words (fun _ => (none : Option Nat)) = c'.words fun _ => none

/-- The text of a junction is that of its sides. -/
theorem SameText.combine {c c' d d' : Condition} (h : c.SameText c') (h' : d.SameText d')
    (op : LogicalOp) : (Condition.combine op c d).SameText (.combine op c' d') where
  junction := rfl
  words := by rw [Condition.words, Condition.words, h.junction, h.words, h'.junction, h'.words]

/-- A condition whose parameters are numbered otherwise has the same text. -/
theorem sameText_renumber (c : Condition) : c.SameText (c.renumber f) where
  junction := (c.junction?_renumber f).symm
  words := (c.words_renumber f fun _ => none).symm

end Condition

/-- The parameters of conditions joined to one are those of all. -/
theorem Condition.params_conjoin? (conditions : List Condition) :
    ((conjoin? (.combine .and) conditions).map params).getD [] = conditions.flatMap params := by
  have happend : ∀ c d : Condition, (Condition.combine .and c d).params = c.params ++ d.params :=
    fun _ _ => rfl
  rw [map_conjoin? happend, getD_conjoin?_append, List.flatMap_def]

/-! ## Conditions with their values -/

/-- A condition over columns of the catalog with the values of its parameters, which are counted
from zero in the order of the text. -/
structure Bound where
  condition : Condition
  params : List Literal
  inCatalog : condition.InCatalog
  params_eq : condition.params = List.range' 0 params.length

namespace Bound

/-- The value of a parameter. -/
def value (bound : Bound) (index : Nat) : Literal := bound.params[index]?.getD (.bool false)

/-- A parameter has the value that is supplied for it. -/
theorem getElem?_params (bound : Bound) {index : Nat} (h : index < bound.params.length) :
    bound.params[index]? = some (bound.value index) := by
  rw [value, List.getElem?_eq_getElem h, Option.getD_some]

/-- The formula of a condition with the values of its parameters. -/
def formula (bound : Bound) : Formula := bound.condition.formula bound.value

/-- The conjunction of conditions. -/
def conjunction? (bounds : List Bound) : Option Condition :=
  conjoin? (.combine .and) (bounds.map condition)

/-- A conjunction is over columns of the catalog. -/
theorem inCatalog_conjunction? (bounds : List Bound) : ∀ c ∈ conjunction? bounds, c.InCatalog := by
  refine forall_mem_conjoin? And.intro ?_
  rw [List.forall_mem_map]
  exact fun bound _ => bound.inCatalog

/-- The parameters of conditions can be counted through. The conditions have the same text then,
where placeholders are all alike, and with all values one after the other each has the formula that
it has on its own. -/
theorem exists_renumbered {bounds : List Bound} {start : Nat} {values : Nat → Literal}
    (h : HoldsFrom values start (bounds.flatMap params)) :
    ∃ conditions, List.Forall₂ Condition.SameText (bounds.map condition) conditions ∧
      conditions.flatMap Condition.params = List.range' start (bounds.flatMap params).length ∧
      conditions.map (Condition.formula values) = bounds.map formula := by
  induction bounds generalizing start with
  | nil => exact ⟨[], .nil, rfl, rfl⟩
  | cons bound bounds ih =>
    rw [List.flatMap_cons] at h
    obtain ⟨hfirst, hrest⟩ := holdsFrom_append h
    obtain ⟨conditions, htext, hparams, hformula⟩ := ih hrest
    refine ⟨bound.condition.renumber (start + ·) :: conditions,
      .cons (bound.condition.sameText_renumber _) htext, ?_, ?_⟩
    · rw [List.flatMap_cons, Condition.params_renumber, bound.params_eq, hparams,
        List.map_add_range', Nat.add_zero, List.range'_append_1, List.flatMap_cons,
        List.length_append]
    · have hvalues : ∀ index ∈ bound.condition.params,
          (values ∘ (start + ·)) index = bound.value index := by
        intro index hindex
        rw [bound.params_eq, List.mem_range'_1] at hindex
        exact hfirst index _ (bound.getElem?_params (by omega))
      rw [List.map_cons, List.map_cons, hformula, Condition.formula_renumber,
        Condition.formula_congr hvalues]
      rfl

end Bound

/-! ## Reading a conjunction -/

/-- The formula that the condition of a select stands for when its parameters have given values. -/
def readSelect? (tight : LogicalOp) (params : List Literal) (sql : String) : Option Formula :=
  (afterWhere? sql.toList).bind (readCondition? tight params)

variable {config : Config}

/-- The condition of a select is read with its values. -/
theorem readSelect?_text (tight : LogicalOp) (joins : List Join) (bound : Bound) :
    readSelect? tight bound.params
      (Select.text config ⟨joins.flatMap Join.steps, some bound.condition⟩) =
        some bound.formula := by
  rw [readSelect?, afterWhere?_text, Option.bind_some]
  exact readCondition?_text tight config bound.inCatalog bound.params_eq
    fun index hindex => bound.getElem?_params hindex

/-- If placeholders are question marks, then a conjunction is read with the values of all its
conditions one after the other, as the conjunction of what each of them is read as on its own. -/
theorem readCondition?_conjunction (hquestion : config.placeholder = .question) (tight : LogicalOp)
    {bounds : List Bound} {c : Condition} (hc : Bound.conjunction? bounds = some c) :
    readCondition? tight (bounds.flatMap Bound.params) (c.text config).toList =
      conjoin? (.combine .and) (bounds.map Bound.formula) := by
  obtain ⟨values, hholds, hvalues⟩ := exists_values (bounds.flatMap Bound.params)
  obtain ⟨conditions, htext, hparams, hformula⟩ := Bound.exists_renumbered hholds
  have hnumber : placeholderNumber config = fun _ => none := by
    funext index
    rw [placeholderNumber, hquestion]
  have hcombine : ∀ {c c' d d' : Condition}, c.SameText c' → d.SameText d' →
      (Condition.combine .and c d).SameText (.combine .and c' d') := fun h h' => h.combine h' .and
  have hjoined := rel_conjoin? hcombine htext
  rw [← Bound.conjunction?, hc] at hjoined
  -- Counted through, the conditions make up a conjunction of the same text.
  cases hsame : conjoin? (.combine .and) conditions with
  | none =>
    rw [hsame] at hjoined
    cases hjoined
  | some c' =>
    rw [hsame] at hjoined
    obtain ⟨⟨-, hwords⟩⟩ := hjoined
    have hindices : c'.params = List.range' 0 (bounds.flatMap Bound.params).length := by
      rw [← hparams, ← Condition.params_conjoin?, hsame, Option.map_some, Option.getD_some]
    have hformula' : some (c'.formula values) =
        conjoin? (.combine .and) (bounds.map Bound.formula) := by
      have hand : ∀ a b : Condition, (Condition.combine .and a b).formula values =
          .combine .and (a.formula values) (b.formula values) := fun _ _ => rfl
      rw [← hformula, ← map_conjoin? hand, hsame, Option.map_some]
    have hbound : bound? (bounds.flatMap Bound.params) (c.words (placeholderNumber config)) =
        some (c'.words values) := by
      rw [hnumber, hwords, ← hnumber]
      exact bound?_words config hindices hvalues
    rw [readCondition?, words?_text (Bound.inCatalog_conjunction? bounds c hc).named,
      Option.bind_some, hbound, Option.bind_some, formulaOf?_words, hformula']

/-- If placeholders are question marks, then the conjunction of a select is read with the values of
all its conditions one after the other; a select without conditions has none. -/
theorem readSelect?_conjunction (hquestion : config.placeholder = .question) (tight : LogicalOp)
    (joins : List Join) (bounds : List Bound) :
    readSelect? tight (bounds.flatMap Bound.params)
      (Select.text config ⟨joins.flatMap Join.steps, Bound.conjunction? bounds⟩) =
        conjoin? (.combine .and) (bounds.map Bound.formula) := by
  cases hc : Bound.conjunction? bounds with
  | none =>
    have hfront := not_mem_spell (Select.lacksW_frontPieces joins) config
    have htext : Select.text config ⟨joins.flatMap Join.steps, none⟩ =
        spell config (Select.frontPieces joins) := by
      rw [Select.text, Select.pieces, List.append_nil]
      rfl
    rw [readSelect?, htext, afterWhere?_of_not_mem hfront, Option.bind_none]
    cases bounds with
    | nil => rfl
    | cons bound bounds => cases hc
  | some c =>
    rw [readSelect?, afterWhere?_text, Option.bind_some]
    exact readCondition?_conjunction hquestion tight hc

/-! ## The placeholders of a conjunction -/

/-- The placeholders of a select with a conjunction are those of its conditions, which are counted
from the first one on for each of them. -/
theorem placeholders_conjunction (joins : List Join) (bounds : List Bound) :
    placeholders (Select.text config
      ⟨joins.flatMap Join.steps, Bound.conjunction? bounds⟩).toList =
        bounds.flatMap fun bound =>
          (List.range' 0 bound.params.length).map (placeholder config) := by
  have hparams : ((Bound.conjunction? bounds).map Condition.params).getD [] =
      bounds.flatMap fun bound => List.range' 0 bound.params.length := by
    rw [Bound.conjunction?, Condition.params_conjoin?, List.flatMap_map]
    simp only [Bound.params_eq]
  rw [← List.map_flatMap, ← hparams]
  cases hc : Bound.conjunction? bounds with
  | none =>
    have hfront : placeholders (spell config (Select.frontPieces joins ++ [])).toList =
        placeholders (spell config []).toList :=
      placeholders_spell_append (Select.isPlain_frontPieces joins)
    exact hfront
  | some c => exact placeholders_select joins (Bound.inCatalog_conjunction? bounds c hc)

end ResumeFilter.Sql
