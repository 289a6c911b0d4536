import ResumeFilter.Proofs.Sql.Binding
import ResumeFilter.Proofs.Sql.Levels
import ResumeFilter.Proofs.Sql.Scope

/-!
# The text of a condition determines it

A condition over columns of the catalog is read back from its text, up to the columns of membership
tests without values (`text_determines_condition`). The reader is the one for SQL: it is given the
numbers of the parameters as their values, and what it reads tells the condition. It does not matter
which junction binds tighter, as the text never has both of them between the same parentheses.
-/

namespace ResumeFilter

/-! ## Names and numbers -/

/-- Every relation. -/
def Table.all : List Table := [.resumes, .resumeSkills, .skills, .education, .workExperience]

/-- The relation of a given name. -/
def Table.ofName? (name : String) : Option Table := all.find? fun table => table.name == name

/-- A relation has a name of its own. -/
theorem Table.ofName?_name (table : Table) : ofName? table.name = some table := by
  cases table <;> decide

/-- The column that is named in a condition. -/
def ColumnName.column? (name : ColumnName) : Option Column :=
  (Table.ofName? name.table).map fun table => ⟨table, name.column⟩

/-- A column has a name of its own. -/
theorem Column.column?_fullName (column : Column) : column.fullName.column? = some column := by
  rw [ColumnName.column?, fullName, Table.ofName?_name, Option.map_some]

/-- Whether the catalog has a column, for a field or where a join compares. -/
def Column.InCatalog (column : Column) : Prop :=
  (∃ field : Field, field.column = column) ∨
    ∃ join : Join, ∃ step ∈ join.steps, step.left = column ∨ step.right = column

namespace Sql

/-- The names of the catalog's columns can stand without quotes. -/
theorem isName_of_inCatalog {column : Column} (h : column.InCatalog) : IsName column.name := by
  rcases h with ⟨field, rfl⟩ | ⟨join, step, hstep, hcolumn⟩
  · exact isName_column field
  · have hid : IsName "id" := ⟨by decide, by decide, by decide, by decide⟩
    have hresume : IsName "resume_id" := ⟨by decide, by decide, by decide, by decide⟩
    have hskill : IsName "skill_id" := ⟨by decide, by decide, by decide, by decide⟩
    have hall : ∀ step ∈ join.steps, IsName step.left.name ∧ IsName step.right.name := by
      cases join <;> simp [Join.steps, hid, hresume, hskill]
    rcases hcolumn with rfl | rfl
    · exact (hall step hstep).1
    · exact (hall step hstep).2

/-- A condition over columns of the catalog can be named without quotes. -/
theorem Condition.named_of_inCatalog {c : Condition} (h : ∀ column ∈ c.columns, column.InCatalog) :
    c.Named := by
  induction c with
  | compare column op param => exact isName_of_inCatalog (h column List.mem_cons_self)
  | isIn column params => exact isName_of_inCatalog (h column List.mem_cons_self)
  | not inner ih => exact ih h
  | combine op left right ihleft ihright =>
    rw [columns, List.forall_mem_append] at h
    exact ⟨ihleft h.1, ihright h.2⟩

/-- The value that tells a parameter: its number in digits. -/
def parameterName (index : Nat) : Literal := .str (toString index)

/-- The value that tells the parameter of a placeholder with a number, the first one being number
one. -/
def parameterName? : Nat → Option Literal
  | 0 => none
  | index + 1 => some (parameterName index)

/-- The parameter that a value tells. -/
def parameterOf? : Literal → Option Nat
  | .str digits => Numeral.natural? digits.toList
  | _ => none

/-- A parameter is told by its value. -/
theorem parameterOf?_parameterName (index : Nat) :
    parameterOf? (parameterName index) = some index := by
  rw [parameterName, parameterOf?, toList_toString, Numeral.natural?_digits]

/-- Parameters are told by their values. -/
theorem mapM_parameterOf? (params : List Nat) :
    (params.map parameterName).mapM parameterOf? = some params := by
  induction params with
  | nil => rfl
  | cons param params ih =>
    rw [List.map_cons, List.mapM_cons, parameterOf?_parameterName, ih]
    rfl

/-! ## Conditions from their formulas -/

namespace Condition

/-- The condition that holds of no row, written as `1 = 0`. -/
def never : Condition := .isIn ⟨.base, "id"⟩ []

/-- The condition with the one that holds of no row in place of every membership test without
values. -/
def collapse : Condition → Condition
  | .compare column op param => .compare column op param
  | .isIn _ [] => never
  | .isIn column (first :: rest) => .isIn column (first :: rest)
  | .not inner => .not inner.collapse
  | .combine op left right => .combine op left.collapse right.collapse

/-- A condition keeps its junction. -/
theorem junction?_collapse (c : Condition) : c.collapse.junction? = c.junction? := by
  cases c with
  | isIn column params => cases params <;> rfl
  | _ => rfl

/-- The column of a membership test without values is not written. -/
theorem piecesThen_collapse (c : Condition) (rest : List Piece) :
    c.collapse.piecesThen rest = c.piecesThen rest := by
  induction c generalizing rest with
  | compare column op param => rfl
  | isIn column params => cases params <;> rfl
  | not inner ih => rw [collapse, piecesThen, piecesThen, ih]
  | combine op left right ihleft ihright =>
    rw [collapse, piecesThen, piecesThen]
    simp only [ihleft, ihright, junction?_collapse]

/-- The column of a membership test without values does not matter to the text. -/
theorem text_collapse (config : Config) (c : Condition) :
    c.collapse.text config = c.text config := by
  rw [text, text, pieces, pieces, piecesThen_collapse]

/-- The condition that holds of no row is written with constants. -/
example (config : Config) : never.text config = "1 = 0" := by rfl

end Condition

/-- The condition whose formula is given, with the parameters that the values tell. -/
def conditionOf? : Formula → Option Condition
  | .falsum => some .never
  | .compare column op value =>
    column.column?.bind fun column => (parameterOf? value).map (.compare column op)
  | .isIn column first rest =>
    column.column?.bind fun column => ((first :: rest).mapM parameterOf?).map (.isIn column)
  | .not inner => (conditionOf? inner).map .not
  | .combine op left right =>
    (conditionOf? left).bind fun left => (conditionOf? right).map (.combine op left)

/-- The formula of a condition, its parameters told by their values, is that of the condition. -/
theorem conditionOf?_formula (c : Condition) :
    conditionOf? (c.formula parameterName) = some c.collapse := by
  induction c with
  | compare column op param =>
    rw [Condition.formula, conditionOf?, column.column?_fullName, parameterOf?_parameterName]
    rfl
  | isIn column params =>
    cases params with
    | nil => rfl
    | cons first rest =>
      have hparams := mapM_parameterOf? (first :: rest)
      rw [List.map_cons] at hparams
      rw [Condition.formula, List.map_cons, Formula.among, conditionOf?, column.column?_fullName,
        Option.bind_some, hparams]
      rfl
  | not inner ih =>
    rw [Condition.formula, conditionOf?, ih]
    rfl
  | combine op left right ihleft ihright =>
    rw [Condition.formula, conditionOf?, ihleft, ihright]
    rfl

/-! ## Conditions from their texts -/

/-- The condition that a text stands for if one of the junctions binds tighter. -/
def readBack? (tight : LogicalOp) (cs : List Char) : Option Condition :=
  (words? cs).bind fun words =>
    ((numbered 1 words).mapM (Word.mapM parameterName?)).bind fun words =>
      (formulaOf? tight words).bind conditionOf?

/-- With numbers for placeholders, the text of a condition is read back as the condition. -/
theorem readBack?_text (tight : LogicalOp) {c : Condition} (h : c.Named) (quoteNames : Bool) :
    readBack? tight (c.text ⟨.dollar, quoteNames⟩).toList = some c.collapse := by
  have hnumbers : placeholderNumber ⟨.dollar, quoteNames⟩ = fun index => some (index + 1) := rfl
  have hnumbered : numbered 1 (c.words (placeholderNumber ⟨.dollar, quoteNames⟩)) =
      (c.words id).map (Word.map (· + 1)) := by
    rw [hnumbers, ← numbered_dollar (c.words id) 1, c.map_words]
    rfl
  have hnamed : ((c.words id).map (Word.map (· + 1))).mapM (Word.mapM parameterName?) =
      some ((c.words id).map (Word.map parameterName)) := mapM_map fun _ _ => rfl
  rw [readBack?, words?_text h, Option.bind_some, hnumbered, hnamed, Option.bind_some,
    c.map_words, Function.comp_id, formulaOf?_words, Option.bind_some, conditionOf?_formula]

/-- Over columns of the catalog and with numbers for placeholders, the text of a condition
determines the condition, up to the columns of membership tests without values: it is read back,
whichever junction binds tighter, so only conditions that agree in this way have one text. In the
text parentheses are balanced, between the same parentheses all junctions are the same, and what is
negated is a group. -/
theorem text_determines_condition {c : Condition} (h : ∀ column ∈ c.columns, column.InCatalog)
    (quoteNames : Bool) :
    (∀ tight, readBack? tight (c.text ⟨.dollar, quoteNames⟩).toList = some c.collapse) ∧
    (∀ c' : Condition, (∀ column ∈ c'.columns, column.InCatalog) →
      (c'.text ⟨.dollar, quoteNames⟩ = c.text ⟨.dollar, quoteNames⟩ ↔ c'.collapse = c.collapse)) ∧
    ∃ words, words? (c.text ⟨.dollar, quoteNames⟩).toList = some words ∧
      Balanced words ∧ Unmixed words ∧ NegatesGroups words := by
  have hread := fun tight => readBack?_text tight (Condition.named_of_inCatalog h) quoteNames
  refine ⟨hread, fun c' h' => ⟨fun htext => ?_, fun hcollapse => ?_⟩, ?_⟩
  · have hread' := readBack?_text .and (Condition.named_of_inCatalog h') quoteNames
    rw [htext, hread .and] at hread'
    exact (Option.some.inj hread').symm
  · rw [← Condition.text_collapse, hcollapse, Condition.text_collapse]
  · exact ⟨_, words?_text (Condition.named_of_inCatalog h), balanced_words _ c, unmixed_words _ c,
      negatesGroups_words _ c⟩

/-- A chain on the right is a group, also one of the same junction, and a membership test without
values is written as constants. -/
theorem read_back_of_right_chain :
    let c := Condition.not (.combine .or (.isIn ⟨.skills, "name"⟩ [])
      (.combine .or (.compare ⟨.resumes, "location"⟩ .eq 1) (.isIn ⟨.education, "degree"⟩ [0, 9])))
    c.text ⟨.dollar, true⟩ = "NOT (1 = 0 OR (\"resumes\".\"location\" = $2 OR " ++
        "\"education\".\"degree\" IN ($1, $10)))" ∧
      readBack? .and (c.text ⟨.dollar, true⟩).toList = some c.collapse ∧
      readBack? .or (c.text ⟨.dollar, true⟩).toList = some c.collapse := by
  intro c
  have hcatalog : ∀ column ∈ c.columns, column.InCatalog := by
    have hcolumns : c.columns = [Field.skills, .location, .education].map Field.column := rfl
    rw [hcolumns, List.forall_mem_map]
    exact fun field _ => .inl ⟨field, rfl⟩
  obtain ⟨hread, -⟩ := text_determines_condition hcatalog true
  exact ⟨by decide +kernel, hread .and, hread .or⟩

end Sql

end ResumeFilter
