import ResumeFilter.Proofs.Query.Printable
import ResumeFilter.Proofs.Sql.Lowered
import ResumeFilter.Sql.Statement

/-!
# The meaning of a statement

The condition of the statement that a filter text stands for means what the query of the text means
(`meaning_ofSource`): read as SQL with the parameters in place, it is true, false or unknown of the
same rows. Three stages meet here, which have different rules for chains: the grammar of filters, in
which the junctions are equally strong, the lowering by a stack, and the text, in which one junction
binds tighter.
-/

namespace ResumeFilter.Sql

/-! ## The condition in the text of a select -/

/-- Whether a piece is a word or name without the letter that `WHERE` starts with. -/
def Piece.lacksW : Piece → Bool
  | .word text => 'W' ∉ text.toList
  | .name text => 'W' ∉ text.toList
  | .param _ => false

/-- A piece without the letter is spelled without it. -/
theorem Piece.not_mem_text {piece : Piece} (h : piece.lacksW) (config : Config) :
    'W' ∉ (piece.text config).toList := by
  cases piece with
  | word text => exact of_decide_eq_true h
  | name text =>
    have htext : 'W' ∉ text.toList := of_decide_eq_true h
    rw [Piece.text]
    split_ifs
    · simpa using htext
    · exact htext
  | param index => exact absurd h Bool.false_ne_true

/-- Pieces without the letter are spelled without it. -/
theorem not_mem_spell {pieces : List Piece} (h : pieces.all Piece.lacksW) (config : Config) :
    'W' ∉ (spell config pieces).toList := by
  induction pieces with
  | nil => exact List.not_mem_nil
  | cons piece pieces ih =>
    rw [List.all_cons, Bool.and_eq_true] at h
    rw [toList_spell_cons, List.mem_append, not_or]
    exact ⟨Piece.not_mem_text h.1 config, ih h.2⟩

/-- No join has the letter in its pieces. -/
theorem lacksW_join (join : Join) : (join.steps.flatMap joinPieces).all Piece.lacksW := by
  cases join <;> decide

/-- Pieces are spelled one after the other. -/
theorem toList_spell_append (config : Config) (first second : List Piece) :
    (spell config (first ++ second)).toList =
      (spell config first).toList ++ (spell config second).toList := by
  rw [spell_append, String.toList_append]

/-- The condition is behind the first `WHERE`. -/
theorem afterWhere?_append {before : List Char} (h : 'W' ∉ before) (condition : List Char) :
    afterWhere? (before ++ ' ' :: 'W' :: 'H' :: 'E' :: 'R' :: 'E' :: ' ' :: condition) =
      some condition := by
  induction before with
  | nil => rfl
  | cons c before ih =>
    rw [List.mem_cons, not_or] at h
    rw [List.cons_append, afterWhere?]
    · exact ih h.2
    · -- A blank of `before` is not the one of ` WHERE `: what follows it is no `W`.
      intro condition' _ heq
      cases before with
      | nil => exact absurd (List.cons_eq_cons.mp heq).1 (by decide)
      | cons d before =>
        rw [List.cons_append, List.cons_eq_cons] at heq
        exact h.2 (List.mem_cons.mpr (.inl heq.1.symm))

/-- A text without the letter has no condition. -/
theorem afterWhere?_of_not_mem {cs : List Char} (h : 'W' ∉ cs) : afterWhere? cs = none := by
  induction cs with
  | nil => rfl
  | cons c cs ih =>
    rw [List.mem_cons, not_or] at h
    rw [afterWhere?]
    · exact ih h.2
    · rintro condition rfl rfl
      simp at h

/-- The pieces of a select in front of its condition. -/
def Select.frontPieces (joins : List Join) : List Piece :=
  [.word "SELECT ", .name Table.base.name, .word ".* FROM ", .name Table.base.name] ++
    (joins.flatMap Join.steps).flatMap joinPieces

/-- The front of a select is without the letter. -/
theorem Select.lacksW_frontPieces (joins : List Join) :
    (frontPieces joins).all Piece.lacksW := by
  have hjoins : ((joins.flatMap Join.steps).flatMap joinPieces).all Piece.lacksW := by
    rw [List.flatMap_assoc, List.all_flatMap, List.all_eq_true]
    exact fun join _ => lacksW_join join
  rw [frontPieces, List.all_append, hjoins]
  decide

/-- The condition of a select is found in its text. -/
theorem afterWhere?_text (config : Config) (joins : List Join) (condition : Condition) :
    afterWhere? (Select.text config ⟨joins.flatMap Join.steps, some condition⟩).toList =
      some (condition.text config).toList := by
  have hpiece : ((Piece.word " WHERE ").text config).toList =
      [' ', 'W', 'H', 'E', 'R', 'E', ' '] := by
    simp [Piece.text]
  rw [Select.text, Select.pieces, toList_spell_append, toList_spell_cons, hpiece]
  exact afterWhere?_append (not_mem_spell (Select.lacksW_frontPieces joins) config) _

/-! ## Statements -/

/-- The statement of a text is that of the query which is read from it. -/
theorem exists_parse_of_ofSource {config : Config} {source : String} {statement : Statement}
    (h : Statement.ofSource config source = .ok statement) :
    ∃ q lowered builder, Query.parse source = .ok q ∧
      q.lower Builder.backend (Builder.empty config) = (.ok lowered, builder) ∧
        statement = ⟨builder.render, lowered.params⟩ := by
  rw [Statement.ofSource, Builder.addQuery] at h
  cases hparse : Query.parse source with
  | error error =>
    rw [hparse] at h
    exact absurd h nofun
  | ok q =>
    simp only [hparse] at h
    cases hlower : q.lower Builder.backend (Builder.empty config) with
    | mk result builder =>
      rw [hlower] at h
      cases result with
      | error error => exact absurd h nofun
      | ok lowered => exact ⟨q, lowered, builder, rfl, hlower, (Except.ok.inj h).symm⟩

/-- The first condition that is demanded of the rows is the filter. -/
theorem filter_addFilter_of_none {builder : Builder} (h : builder.filter = none)
    (condition : Condition) : (builder.addFilter condition).filter = some condition := by
  rw [Builder.filter_addFilter, h]

/-- A query that is lowered onto an empty builder leaves its literals as the parameters and its
condition as the filter. -/
theorem lower_empty {config : Config} {q : Query} {lowered : Lowered} {builder : Builder}
    (h : q.lower Builder.backend (Builder.empty config) = (.ok lowered, builder)) :
    ∃ condition, Lowers q 0 condition ∧ lowered.params = q.literals ∧
      builder.config = config ∧ builder.filter = some condition := by
  rw [Query.lower] at h
  cases hplan : q.plan with
  | error error =>
    rw [hplan] at h
    exact absurd (Prod.mk.inj h).1 nofun
  | ok steps =>
    rw [hplan] at h
    obtain ⟨hlowered, hbuilder⟩ := Prod.mk.inj h
    obtain ⟨condition, hlowers, hpushes⟩ :=
      lowers_foldl hplan (Lowering.start (Builder.empty config))
    generalize steps.foldl (Lowering.step Builder.backend) (Lowering.start (Builder.empty config)) =
      lowering at hlowered hbuilder hpushes
    rw [Lowering.filtered, hpushes.stack] at hbuilder
    obtain rfl := Except.ok.inj hlowered
    refine ⟨condition, hlowers, hpushes.params, ?_, ?_⟩
    · rw [← hbuilder]
      exact hpushes.config
    · rw [← hbuilder]
      exact filter_addFilter_of_none hpushes.filter condition

/-- The literals of a list are the values of parameters. -/
theorem exists_values (literals : List Literal) :
    ∃ values : Nat → Literal, HoldsFrom values 0 literals ∧
      ∀ index < literals.length, literals[index]? = some (values index) := by
  refine ⟨fun index => literals[index]?.getD (.bool false), ?_, ?_⟩
  · intro k literal hk
    show literals[0 + k]?.getD (.bool false) = literal
    rw [Nat.zero_add, hk, Option.getD_some]
  · intro index hindex
    show literals[index]? = some (literals[index]?.getD (.bool false))
    rw [List.getElem?_eq_getElem hindex, Option.getD_some]

/-- The condition of the statement of a text, read as SQL with the parameters in place, means what
the query of the text means, in every logic and for every interpretation of the atoms. -/
theorem meaning_ofSource {config : Config} {source : String} {statement : Statement}
    (h : Statement.ofSource config source = .ok statement) :
    ∃ tokens q text formula, Token.scan source.toList = .ok tokens ∧
      Grammar.Derives .expression tokens q ∧ Query.parse source = .ok q ∧
        afterWhere? statement.sql.toList = some text ∧
          readCondition? .and statement.params text = some formula ∧
            ∀ (τ : Type) (logic : Logic τ) (I : Interpretation τ),
              q.meaning? logic I = some (formula.meaning logic I) := by
  obtain ⟨q, lowered, builder, hparse, hlower, rfl⟩ := exists_parse_of_ofSource h
  obtain ⟨condition, hlowers, hparams, hconfig, hfilter⟩ := lower_empty hlower
  obtain ⟨tokens, hscan, -, hderives⟩ := Query.exists_derives_of_parse hparse
  obtain ⟨values, hholds, hvalues⟩ := exists_values q.literals
  refine ⟨tokens, q, (condition.text config).toList, condition.formula values, hscan, hderives,
    hparse, ?_, ?_, hlowers.meaning values hholds⟩
  · rw [Builder.render, builder.select_eq, hconfig, hfilter]
    exact afterWhere?_text config builder.joins condition
  · rw [hparams]
    exact readCondition?_text .and config hlowers.inCatalog hlowers.params hvalues

/-- A chain whose second junction would bind tighter in SQL keeps its meaning, with two truth values
and with three. -/
theorem meaning_of_mixed_chain :
    ∃ statement q text formula,
      Statement.ofSource ⟨.dollar, false⟩ "YOE > 5 OR LOCATION = 'Oslo' AND SALARY < 7" =
          .ok statement ∧
        Query.parse "YOE > 5 OR LOCATION = 'Oslo' AND SALARY < 7" = .ok q ∧
          afterWhere? statement.sql.toList = some text ∧
            readCondition? .and statement.params text = some formula ∧
              (∀ I, q.meaning? .classical I = some (formula.meaning .classical I)) ∧
                ∀ I, q.meaning? .kleene I = some (formula.meaning .kleene I) := by
  have h : Statement.ofSource ⟨.dollar, false⟩ "YOE > 5 OR LOCATION = 'Oslo' AND SALARY < 7" =
      .ok ⟨"SELECT resumes.* FROM resumes WHERE (resumes.years_of_experience > $1 OR " ++
          "resumes.location = $2) AND resumes.current_salary < $3",
        [.int 5, .str "Oslo", .int 7]⟩ := by
    decide +kernel
  obtain ⟨-, q, text, formula, -, -, hparse, htext, hformula, hmeaning⟩ := meaning_ofSource h
  exact ⟨_, q, text, formula, h, hparse, htext, hformula, hmeaning _ _, hmeaning _ _⟩

end ResumeFilter.Sql
