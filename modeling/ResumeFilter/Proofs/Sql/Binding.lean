import ResumeFilter.Proofs.Sql.Words

/-!
# The values of placeholders

In the text of a condition a placeholder stands for one value of the list of parameters: its place
among the placeholders says which, or the number that it carries. If the parameters of a condition
are counted in the order of the text, then both ways lead to the value of the parameter, and the
condition is read with these values (`readCondition?_text`).
-/

namespace ResumeFilter.Sql

variable {α β γ : Type}

/-! ## Parameters of words -/

/-- The parameter that a word is, if it is one. -/
def Word.params : Word α → List α
  | .param a => [a]
  | _ => []

/-- The parameters of a condition in the order of the text. -/
def Condition.params : Condition → List Nat
  | .compare _ _ param => [param]
  | .isIn _ params => params
  | .not inner => inner.params
  | .combine _ left right => left.params ++ right.params

/-- Exchanging parameters leaves the parentheses. -/
theorem map_grouped (f : α → β) (parentheses : Bool) (words : List (Word α)) :
    (grouped parentheses words).map (Word.map f) =
      grouped parentheses (words.map (Word.map f)) := by
  cases parentheses with
  | false => rfl
  | true => simp [grouped, Word.map]

/-- Exchanging the parameters of a list. -/
theorem map_moreWords (f : α → β) (params : List α) :
    (moreWords params).map (Word.map f) = moreWords (params.map f) := by
  induction params with
  | nil => rfl
  | cons param params ih =>
    rw [moreWords, List.map_cons, List.map_cons, ih]
    rfl

/-- The words of a condition in which all parameters are exchanged. -/
theorem Condition.map_words (f : α → β) (g : Nat → α) (c : Condition) :
    (c.words g).map (Word.map f) = c.words (f ∘ g) := by
  induction c with
  | compare column op param => rfl
  | isIn column params =>
    cases params with
    | nil => rfl
    | cons first rest =>
      have hmore := map_moreWords f (rest.map g)
      rw [List.map_map] at hmore
      simp only [words, amongWords, columnWords, List.map_cons, List.cons_append, List.nil_append,
        hmore]
      rfl
  | not inner ih =>
    rw [words, List.map_cons, List.map_cons, List.map_append, ih]
    rfl
  | combine op left right ihleft ihright =>
    rw [words, List.map_append, List.map_cons, map_grouped, map_grouped, ihleft, ihright]
    rfl

/-- Parentheses have no parameters. -/
theorem flatMap_params_grouped (parentheses : Bool) (words : List (Word α)) :
    (grouped parentheses words).flatMap Word.params = words.flatMap Word.params := by
  cases parentheses with
  | false => rfl
  | true => simp [grouped, Word.params]

/-- The parameters of a list. -/
theorem flatMap_params_moreWords (params : List α) :
    (moreWords params).flatMap Word.params = params := by
  induction params with
  | nil => rfl
  | cons param params ih => simp [moreWords, Word.params, ih]

/-- The parameters of the words are those of the condition. -/
theorem Condition.flatMap_params_words (f : Nat → α) (c : Condition) :
    (c.words f).flatMap Word.params = c.params.map f := by
  induction c with
  | compare column op param => rfl
  | isIn column params =>
    cases params with
    | nil => rfl
    | cons first rest =>
      simp [words, amongWords, columnWords, params, Word.params, flatMap_params_moreWords]
  | not inner ih => simp [words, params, Word.params, ih]
  | combine op left right ihleft ihright =>
    simp [words, params, Word.params, flatMap_params_grouped, ihleft, ihright]

/-! ## Numbers and values -/

/-- Counting placeholders gives every parameter its number if the parameters are counted in the
order of the text. -/
theorem numbered_question {words : List (Word Nat)} {index n : Nat}
    (h : words.flatMap Word.params = List.range' index n) :
    numbered (index + 1) (words.map (Word.map fun _ => none)) = words.map (Word.map (· + 1)) := by
  induction words generalizing index n with
  | nil => rfl
  | cons word words ih =>
    cases word with
    | param param =>
      obtain ⟨n, rfl⟩ : ∃ m, n = m + 1 := by
        cases n with
        | zero => exact absurd h (List.cons_ne_nil _ _)
        | succ n => exact ⟨n, rfl⟩
      obtain ⟨rfl, hrest⟩ := List.cons.inj h
      rw [List.map_cons, List.map_cons, numbered, ← ih hrest]
      rfl
    | _ =>
      rw [List.map_cons, List.map_cons, numbered, ← ih h]
      rfl

/-- Placeholders with numbers keep them. -/
theorem numbered_dollar (words : List (Word Nat)) (next : Nat) :
    numbered next (words.map (Word.map fun index => some (index + 1))) =
      words.map (Word.map (· + 1)) := by
  induction words with
  | nil => rfl
  | cons word words ih =>
    cases word <;> rw [List.map_cons, List.map_cons, numbered, ← ih] <;> rfl

/-- If every parameter can be exchanged in two steps, then all of them can. -/
theorem mapM_map {f : β → Option γ} {g : α → β} {values : α → γ} {words : List (Word α)}
    (h : ∀ a ∈ words.flatMap Word.params, f (g a) = some (values a)) :
    (words.map (Word.map g)).mapM (Word.mapM f) = some (words.map (Word.map values)) := by
  induction words with
  | nil => rfl
  | cons word words ih =>
    have hword : (word.map g).mapM f = some (word.map values) := by
      cases word with
      | param a =>
        have hvalue : f (g a) = some (values a) := h a (by simp [Word.params])
        simp only [Word.map, Word.mapM, hvalue, Option.map_some]
      | _ => rfl
    have hwords := ih fun a ha => h a (by
      rw [List.flatMap_cons, List.mem_append]
      exact .inr ha)
    rw [List.map_cons, List.mapM_cons, hword, hwords]
    rfl

/-- Every parameter finds its value. -/
theorem mapM_valueOf? {params : List Literal} {values : Nat → Literal} {words : List (Word Nat)}
    (h : ∀ index ∈ words.flatMap Word.params, params[index]? = some (values index)) :
    (words.map (Word.map (· + 1))).mapM (Word.mapM (valueOf? params)) =
      some (words.map (Word.map values)) :=
  mapM_map h

/-- The placeholders of a text of a condition get the values of the condition's parameters. -/
theorem bound?_words (config : Config) {params : List Literal} {values : Nat → Literal}
    {c : Condition} {n : Nat} (hparams : c.params = List.range' 0 n)
    (hvalues : ∀ index < n, params[index]? = some (values index)) :
    bound? params (c.words (placeholderNumber config)) = some (c.words values) := by
  have hindices : (c.words id).flatMap Word.params = List.range' 0 n := by
    rw [c.flatMap_params_words, List.map_id, hparams]
  have hnumbered : numbered 1 (c.words (placeholderNumber config)) =
      (c.words id).map (Word.map (· + 1)) := by
    rw [← Function.comp_id (placeholderNumber config), ← c.map_words]
    cases hplaceholder : config.placeholder with
    | question =>
      have hnone : placeholderNumber config = fun _ => none := by
        funext index
        rw [placeholderNumber, hplaceholder]
      rw [hnone]
      exact numbered_question hindices
    | dollar =>
      have hsome : placeholderNumber config = fun index => some (index + 1) := by
        funext index
        rw [placeholderNumber, hplaceholder]
      rw [hsome]
      exact numbered_dollar (c.words id) 1
  rw [bound?, hnumbered, ← Function.comp_id values, ← c.map_words]
  apply mapM_valueOf?
  intro index hindex
  rw [hindices, List.mem_range'_1] at hindex
  exact hvalues index (by omega)

/-! ## Reading -/

/-- The text of a condition over columns of the catalog, its parameters counted in the order of the
text, is read as the condition, whichever junction binds tighter and however names and parameters
are spelled. -/
theorem readCondition?_text (tight : LogicalOp) (config : Config) {params : List Literal}
    {values : Nat → Literal} {c : Condition} {n : Nat} (hcatalog : c.InCatalog)
    (hparams : c.params = List.range' 0 n)
    (hvalues : ∀ index < n, params[index]? = some (values index)) :
    readCondition? tight params (c.text config).toList = some (c.formula values) := by
  rw [readCondition?, words?_text hcatalog.named, Option.bind_some,
    bound?_words config hparams hvalues, Option.bind_some, formulaOf?_words]

end ResumeFilter.Sql
