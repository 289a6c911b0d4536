import ResumeFilter.Proofs.Sql.Reader
import ResumeFilter.Sql.Select

/-!
# Conditions are read as they were built

The words of a condition are read as the formula of that condition, whichever junction binds tighter
(`formulaOf?_words`). A chain of one junction is written without parentheses as far as it leans to
the left, and every other compound operand is a group; so between the operands of a chain there is
never the other junction, and what is read of a chain from the left are its operands one by one.
-/

namespace ResumeFilter.Sql

/-! ## Words and formulas of conditions -/

variable {α β : Type}

/-- The words of a column. -/
def columnWords (column : Column) : List (Word α) :=
  [.name column.table.name, .dot, .name column.name]

/-- The words behind the first parameter of a list. -/
def moreWords : List α → List (Word α)
  | [] => [.closing]
  | param :: params => .comma :: .param param :: moreWords params

/-- Words, in parentheses where these are called for. -/
def grouped (parentheses : Bool) (words : List (Word α)) : List (Word α) :=
  if parentheses then .opening :: (words ++ [.closing]) else words

namespace Condition

/-- The words of a membership test. -/
def amongWords (column : Column) : List α → List (Word α)
  | [] => [.number 1, .operator .eq, .number 0]
  | first :: rest => columnWords column ++ .isIn :: .opening :: .param first :: moreWords rest

/-- The words of a condition; a parameter is given by `f`. -/
def words (f : Nat → α) : Condition → List (Word α)
  | .compare column op param => columnWords column ++ [.operator op, .param (f param)]
  | .isIn column params => amongWords column (params.map f)
  | .not inner => .not :: .opening :: (inner.words f ++ [.closing])
  | .combine op left right =>
    grouped (left.junction?.any (· ≠ op)) (left.words f) ++
      .junction op :: grouped right.junction?.isSome (right.words f)

/-- The words of a condition as an operand of a chain of another junction. -/
def operandWords (f : Nat → α) (condition : Condition) : List (Word α) :=
  grouped condition.junction?.isSome (condition.words f)

/-- The formula of a condition whose parameters have given values. -/
def formula (values : Nat → Literal) : Condition → Formula
  | .compare column op param => .compare column.fullName op (values param)
  | .isIn column params => .among column.fullName (params.map values)
  | .not inner => .not (inner.formula values)
  | .combine op left right => .combine op (left.formula values) (right.formula values)

end Condition

/-! ## Chains -/

/-- Whether words do not go on with a junction. -/
def Ends (op : LogicalOp) (words : List (Word Literal)) : Prop :=
  ∀ word ∈ words.head?, word ≠ .junction op

/-- A junction is no other junction. -/
theorem ends_other_junction (op : LogicalOp) (words : List (Word Literal)) :
    Ends op.other (.junction op :: words) := by
  intro word hword
  obtain rfl := Option.some.inj hword
  cases op <;> nofun

/-- What is not the one junction is the other. -/
theorem eq_other_of_ne {op op' : LogicalOp} (h : op ≠ op') : op' = op.other := by
  cases op <;> cases op'
  · exact absurd rfl h
  · rfl
  · rfl
  · exact absurd rfl h

/-- A chain ends where its junction does not follow. -/
theorem chain?_of_ends {op : LogicalOp} {operand : List (Word Literal) → Reading} {fuel : Nat}
    {left : Formula} {words : List (Word Literal)} (h : Ends op words) :
    chain? op operand fuel left words = some (left, words) := by
  cases fuel with
  | zero => rfl
  | succ fuel =>
    cases words with
    | nil => rfl
    | cons word words =>
      cases word with
      | junction op' =>
        have hne : op' ≠ op := fun heq => h _ rfl (heq ▸ rfl)
        rw [chain?, if_neg hne]
      | _ => rfl

/-- A chain goes on with one more operand. -/
theorem chain?_junction {op : LogicalOp} {operand : List (Word Literal) → Reading} {fuel : Nat}
    {left right : Formula} {words rest : List (Word Literal)}
    (h : operand words = some (right, rest)) :
    chain? op operand (fuel + 1) left (.junction op :: words) =
      chain? op operand fuel (.combine op left right) rest := by
  rw [chain?, if_pos rfl, h, Option.bind_some]

/-! ## Operands -/

/-- The values of a list are read to its end. -/
theorem moreValues?_moreWords (values : List Literal) (rest : List (Word Literal)) :
    moreValues? (moreWords values ++ rest) = some (values, rest) := by
  induction values with
  | nil => rfl
  | cons value values ih =>
    rw [moreWords, List.cons_append, List.cons_append, moreValues?, ih, Option.map_some]

/-- A comparison is read to its end. -/
theorem operand?_compare (tight : LogicalOp) (fuel : Nat) (column : Column) (op : ScalarOp)
    (value : Literal) (rest : List (Word Literal)) :
    operand? tight (fuel + 1) (columnWords column ++ [.operator op, .param value] ++ rest) =
      some (.compare column.fullName op value, rest) := by
  rfl

/-- A membership test is read to its end. -/
theorem operand?_among (tight : LogicalOp) (fuel : Nat) (column : Column) (values : List Literal)
    (rest : List (Word Literal)) :
    operand? tight (fuel + 1) (Condition.amongWords column values ++ rest) =
      some (.among column.fullName values, rest) := by
  cases values with
  | nil => rfl
  | cons first values =>
    have hmore := moreValues?_moreWords values rest
    simp only [Condition.amongWords, columnWords, List.cons_append, List.nil_append, operand?,
      atom?, hmore, Option.map_some]
    rfl

/-- A group is read to its end if what is in it is read to the closing parenthesis. -/
theorem operand?_group {tight : LogicalOp} {fuel : Nat} {words rest : List (Word Literal)}
    {inner : Formula} (h : formula? tight (operand? tight fuel) fuel (words ++ .closing :: rest) =
      some (inner, .closing :: rest)) :
    operand? tight (fuel + 1) (.opening :: (words ++ [.closing]) ++ rest) = some (inner, rest) ∧
      operand? tight (fuel + 1) (.not :: .opening :: (words ++ [.closing]) ++ rest) =
        some (.not inner, rest) := by
  have hwords : words ++ [.closing] ++ rest = words ++ .closing :: rest := by
    rw [List.append_assoc, List.singleton_append]
  constructor
  · rw [List.cons_append, hwords, operand?, h]
    rfl
  · rw [List.cons_append, List.cons_append, hwords, operand?, h]
    rfl

/-! ## Conditions -/

/-- The reader of the operands of a chain of a junction. -/
def level (tight : LogicalOp) (fuel : Nat) (op : LogicalOp) : List (Word Literal) → Reading :=
  if op = tight then operand? tight fuel else joined? tight (operand? tight fuel) fuel

/-- A formula is a chain of the looser junction. -/
theorem formula?_eq (tight : LogicalOp) (fuel : Nat) :
    formula? tight (operand? tight fuel) fuel =
      joined? tight.other (level tight fuel tight.other) fuel := by
  have hne : tight.other ≠ tight := by cases tight <;> nofun
  rw [formula?, level, if_neg hne]

section Reads

variable (tight : LogicalOp) (values : Nat → Literal) (c : Condition)

/-- Whether a condition is read to its end where an operand is expected. -/
def ReadsOperand : Prop :=
  ∀ fuel rest, (c.operandWords values).length ≤ fuel →
    operand? tight fuel (c.operandWords values ++ rest) = some (c.formula values, rest)

/-- Whether a condition that is a chain is read to its end where such a chain is expected, so that
the reader can go on with the chain. -/
def ReadsChain : Prop :=
  ∀ op, c.junction? = some op → ∀ fuel steps rest, (c.words values).length ≤ fuel →
    (c.words values).length ≤ steps → Ends op.other rest →
    ∃ steps', steps ≤ steps' + (c.words values).length ∧
      joined? op (level tight fuel op) steps (c.words values ++ rest) =
        chain? op (level tight fuel op) steps' (c.formula values) rest

/-- Whether a condition is read to its end where a formula is expected. -/
def ReadsFormula : Prop :=
  ∀ fuel rest, (c.words values).length ≤ fuel → (∀ op, Ends op rest) →
    formula? tight (operand? tight fuel) fuel (c.words values ++ rest) =
      some (c.formula values, rest)

variable {tight values c}

/-- An operand of a chain is read to its end if the chain goes on or ends behind it. -/
theorem ReadsOperand.level_eq (h : ReadsOperand tight values c) {fuel : Nat} {op : LogicalOp}
    {rest : List (Word Literal)} (hfuel : (c.operandWords values).length ≤ fuel)
    (hrest : Ends op.other rest) :
    level tight fuel op (c.operandWords values ++ rest) = some (c.formula values, rest) := by
  by_cases htight : op = tight
  · rw [level, if_pos htight]
    exact h fuel rest hfuel
  · rw [level, if_neg htight, joined?, h fuel rest hfuel, Option.bind_some]
    exact chain?_of_ends (eq_other_of_ne htight ▸ hrest)

/-- A chain of either junction is a formula. -/
theorem ReadsChain.readsFormula (h : ReadsChain tight values c) {op : LogicalOp}
    (hjunction : c.junction? = some op) : ReadsFormula tight values c := by
  intro fuel rest hfuel hrest
  obtain ⟨steps, -, hread⟩ := h op hjunction fuel fuel rest hfuel hfuel (hrest _)
  rw [chain?_of_ends (hrest _)] at hread
  rw [formula?_eq]
  -- A chain of the tighter junction is the only operand of a chain of the looser one.
  by_cases htight : op = tight
  · have hne : op.other ≠ op := by cases op <;> nofun
    subst htight
    rw [level, if_pos rfl] at hread
    rw [joined?, level, if_neg hne, hread, Option.bind_some]
    exact chain?_of_ends (hrest _)
  · obtain rfl : op = tight.other := eq_other_of_ne (Ne.symm htight)
    exact hread

/-- What is read as an operand and as a chain is read as a formula. -/
theorem ReadsOperand.readsFormula (h : ReadsOperand tight values c)
    (hchain : ReadsChain tight values c) : ReadsFormula tight values c := by
  cases hjunction : c.junction? with
  | some op => exact hchain.readsFormula hjunction
  | none =>
    intro fuel rest hfuel hrest
    have hwords : c.operandWords values = c.words values := by
      rw [Condition.operandWords, hjunction]
      rfl
    rw [formula?_eq, joined?, ← hwords, h.level_eq (hwords ▸ hfuel) (hrest _), Option.bind_some]
    exact chain?_of_ends (hrest _)

/-- A condition in parentheses is read to its end, and so is its negation. -/
theorem ReadsFormula.operand?_eq (h : ReadsFormula tight values c) {fuel : Nat}
    (hfuel : (c.words values).length ≤ fuel) (rest : List (Word Literal)) :
    operand? tight (fuel + 1) (.opening :: (c.words values ++ [.closing]) ++ rest) =
        some (c.formula values, rest) ∧
      operand? tight (fuel + 1) (.not :: .opening :: (c.words values ++ [.closing]) ++ rest) =
        some (.not (c.formula values), rest) := by
  refine operand?_group (h fuel (.closing :: rest) hfuel ?_)
  intro op word hword
  obtain rfl := Option.some.inj hword
  nofun

/-- The left side of a chain is its first operand or a chain of the same junction. -/
theorem grouped_left {op : LogicalOp} (h : c.junction? ≠ some op) :
    grouped (c.junction?.any (· ≠ op)) (c.words values) = c.operandWords values := by
  rw [Condition.operandWords]
  cases hjunction : c.junction? with
  | none => rfl
  | some op' =>
    have hne : op' ≠ op := fun heq => h (hjunction.trans (congrArg some heq))
    simp [hne]

end Reads

/-- A chain is read from the left, one operand after the other. -/
theorem readsChain_combine {tight op : LogicalOp} {values : Nat → Literal} {left right : Condition}
    (hleft : ReadsOperand tight values left) (hchain : ReadsChain tight values left)
    (hright : ReadsOperand tight values right) :
    ReadsChain tight values (.combine op left right) := by
  intro op' hop fuel steps rest hfuel hsteps hrest
  obtain rfl : op = op' := Option.some.inj hop
  have hends := ends_other_junction op (right.operandWords values ++ rest)
  have hwords : (Condition.combine op left right).words values =
      grouped (left.junction?.any (· ≠ op)) (left.words values) ++
        .junction op :: right.operandWords values := rfl
  have hlength := congrArg List.length hwords
  rw [List.length_append, List.length_cons] at hlength
  have hstep : level tight fuel op (right.operandWords values ++ rest) =
      some (right.formula values, rest) := hright.level_eq (by omega) hrest
  rw [hwords, List.append_assoc, List.cons_append, ← hwords, Condition.formula]
  -- A left side with the same junction is the chain so far; any other is its first operand.
  by_cases hjunction : left.junction? = some op
  · have hgrouped :
        grouped (left.junction?.any (· ≠ op)) (left.words values) = left.words values := by
      rw [hjunction]
      simp [grouped]
    rw [hgrouped] at hlength ⊢
    obtain ⟨steps', hsteps', hread⟩ :=
      hchain op hjunction fuel steps _ (by omega) (by omega) hends
    obtain ⟨steps', rfl⟩ : ∃ n, steps' = n + 1 := ⟨steps' - 1, by omega⟩
    exact ⟨steps', by omega, hread.trans (chain?_junction hstep)⟩
  · rw [grouped_left hjunction] at hlength ⊢
    obtain ⟨steps, rfl⟩ : ∃ n, steps = n + 1 := ⟨steps - 1, by omega⟩
    refine ⟨steps, by omega, ?_⟩
    rw [joined?, hleft.level_eq (by omega) hends, Option.bind_some]
    exact chain?_junction hstep

/-- Every condition is read to its end, as an operand and as a chain. -/
theorem reads (tight : LogicalOp) (values : Nat → Literal) (c : Condition) :
    ReadsOperand tight values c ∧ ReadsChain tight values c := by
  have hfuel : ∀ {words : List (Word Literal)} {word : Word Literal} {fuel : Nat},
      (word :: words).length ≤ fuel → ∃ n, fuel = n + 1 ∧ words.length ≤ n := by
    intro words word fuel h
    rw [List.length_cons] at h
    exact ⟨fuel - 1, by omega, by omega⟩
  -- Both at once: a compound condition is a group as an operand, and in the group it is a chain.
  induction c with
  | compare column op param =>
    refine ⟨fun fuel rest h => ?_, nofun⟩
    obtain ⟨fuel, rfl, -⟩ := hfuel h
    exact operand?_compare tight fuel column op (values param) rest
  | isIn column params =>
    refine ⟨fun fuel rest h => ?_, nofun⟩
    have hpos : 0 < (Condition.amongWords column (params.map values)).length := by
      cases params <;> exact Nat.succ_pos _
    have hle : (Condition.amongWords column (params.map values)).length ≤ fuel := h
    obtain ⟨fuel, rfl⟩ : ∃ n, fuel = n + 1 := ⟨fuel - 1, by omega⟩
    exact operand?_among tight fuel column (params.map values) rest
  | not inner ih =>
    refine ⟨fun fuel rest h => ?_, nofun⟩
    obtain ⟨fuel, rfl, hle⟩ := hfuel h
    rw [List.length_cons, List.length_append] at hle
    exact ((ih.1.readsFormula ih.2).operand?_eq (by omega) rest).2
  | combine op left right ihleft ihright =>
    have hchain : ReadsChain tight values (.combine op left right) :=
      readsChain_combine ihleft.1 ihleft.2 ihright.1
    refine ⟨fun fuel rest h => ?_, hchain⟩
    obtain ⟨fuel, rfl, hle⟩ := hfuel h
    rw [List.length_append] at hle
    exact ((hchain.readsFormula rfl).operand?_eq (by omega) rest).1

/-- The words of a condition are read as its formula, whichever junction binds tighter. -/
theorem formulaOf?_words (tight : LogicalOp) (values : Nat → Literal) (c : Condition) :
    formulaOf? tight (c.words values) = some (c.formula values) := by
  obtain ⟨hoperand, hchain⟩ := reads tight values c
  have hends : ∀ op, Ends op [] := fun op word hword => nomatch hword
  have hread := hoperand.readsFormula hchain _ [] (Nat.le_refl _) hends
  rw [List.append_nil] at hread
  rw [formulaOf?, hread]

end ResumeFilter.Sql
