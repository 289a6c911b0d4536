import ResumeFilter.Proofs.Sql.Reading

/-!
# Levels of parentheses

In the words of a condition parentheses are balanced, what is negated is a group, and between
parentheses all junctions are the same (`balanced_words`, `negatesGroups_words`, `unmixed_words`).
So there is no need to know which of the junctions binds tighter.

That junctions are the same is shown by going through the words with the junction that was met at
each level that is open. Words in which the parentheses are balanced come back to the level at
which they start, and what was met there is still known.
-/

namespace ResumeFilter.Sql

variable {α : Type}

/-- Words in which every parenthesis has its partner. -/
inductive Balanced : List (Word α) → Prop
  | nil : Balanced []
  | word {word : Word α} {words : List (Word α)} (hopening : word ≠ .opening)
    (hclosing : word ≠ .closing) (h : Balanced words) : Balanced (word :: words)
  | group {inner rest : List (Word α)} (hinner : Balanced inner) (hrest : Balanced rest) :
    Balanced (.opening :: (inner ++ .closing :: rest))

/-- Whether what stands behind every NOT is a group. -/
def NegatesGroups (words : List (Word α)) : Prop :=
  ∀ before after, words = before ++ .not :: after →
    ∃ inner rest, after = .opening :: (inner ++ .closing :: rest) ∧ Balanced inner

/-- Whether junctions with balanced parentheses between them are the same. -/
def Unmixed (words : List (Word α)) : Prop :=
  ∀ before op middle op' after,
    words = before ++ .junction op :: (middle ++ .junction op' :: after) → Balanced middle →
      op = op'

/-! ## Balanced parentheses -/

/-- Balanced words one after the other are balanced. -/
theorem Balanced.append {words words' : List (Word α)} (h : Balanced words)
    (h' : Balanced words') : Balanced (words ++ words') := by
  induction h with
  | nil => exact h'
  | word hopening hclosing _ ih => exact .word hopening hclosing ih
  | @group inner rest hinner _ _ ihrest =>
    rw [List.cons_append, List.append_assoc, List.cons_append]
    exact .group hinner ihrest

/-- Balanced words are balanced in parentheses, too. -/
theorem Balanced.grouped {words : List (Word α)} (h : Balanced words) (parentheses : Bool) :
    Balanced (grouped parentheses words) := by
  cases parentheses with
  | false => exact h
  | true => exact .group h .nil

/-- Words that are no parentheses are balanced. -/
theorem balanced_of_not_mem {words : List (Word α)} (hopening : .opening ∉ words)
    (hclosing : .closing ∉ words) : Balanced words := by
  induction words with
  | nil => exact .nil
  | cons word words ih =>
    rw [List.mem_cons, not_or] at hopening hclosing
    exact .word (Ne.symm hopening.1) (Ne.symm hclosing.1) (ih hopening.2 hclosing.2)

/-- The words of a list are balanced up to its end. -/
theorem exists_moreWords_eq (params : List α) :
    ∃ inner, moreWords params = inner ++ [.closing] ∧ Balanced inner ∧ Word.not ∉ inner := by
  induction params with
  | nil => exact ⟨[], rfl, .nil, List.not_mem_nil⟩
  | cons param params ih =>
    obtain ⟨inner, hinner, hbalanced, hnot⟩ := ih
    have hparam : Balanced [.comma, .param param] := balanced_of_not_mem (by simp) (by simp)
    exact ⟨.comma :: .param param :: inner, by rw [moreWords, hinner]; rfl,
      hparam.append hbalanced, by simpa using hnot⟩

/-- The words of a column are balanced. -/
theorem balanced_columnWords (column : Column) : Balanced (columnWords column : List (Word α)) :=
  balanced_of_not_mem (by simp [columnWords]) (by simp [columnWords])

/-- The words of a membership test are balanced. -/
theorem balanced_amongWords (column : Column) (params : List α) :
    Balanced (Condition.amongWords column params) := by
  cases params with
  | nil =>
    exact balanced_of_not_mem (by simp [Condition.amongWords]) (by simp [Condition.amongWords])
  | cons first rest =>
    obtain ⟨inner, hinner, hbalanced, -⟩ := exists_moreWords_eq rest
    have hfirst : Balanced [.param first] := balanced_of_not_mem (by simp) (by simp)
    have hlist : Balanced (.opening :: ([.param first] ++ inner ++ [.closing])) :=
      .group (hfirst.append hbalanced) .nil
    have hin : Balanced [(.isIn : Word α)] := balanced_of_not_mem (by simp) (by simp)
    rw [Condition.amongWords, hinner]
    exact (balanced_columnWords column).append (hin.append hlist)

/-- The words of a condition are balanced. -/
theorem balanced_words (f : Nat → α) (c : Condition) : Balanced (c.words f) := by
  induction c with
  | compare column op param =>
    have htest : Balanced [.operator op, .param (f param)] :=
      balanced_of_not_mem (by simp) (by simp)
    exact (balanced_columnWords column).append htest
  | isIn column params => exact balanced_amongWords column (params.map f)
  | not inner ih => exact .word nofun nofun (.group ih .nil)
  | combine op left right ihleft ihright =>
    exact (ihleft.grouped _).append (.word nofun nofun (ihright.grouped _))

/-! ## Negated groups -/

/-- Words without NOT negate nothing. -/
theorem negatesGroups_of_not_mem {words : List (Word α)} (h : Word.not ∉ words) :
    NegatesGroups words := by
  rintro before after rfl
  exact absurd (by simp) h

/-- Words one after the other negate groups if each of them do. -/
theorem NegatesGroups.append {words words' : List (Word α)} (h : NegatesGroups words)
    (h' : NegatesGroups words') : NegatesGroups (words ++ words') := by
  intro before after heq
  rcases List.append_eq_append_iff.mp heq with ⟨between, rfl, hrest⟩ | ⟨between, rfl, hrest⟩
  · exact h' between after hrest
  · cases between with
    | nil => exact h' [] after hrest.symm
    | cons word between =>
      obtain ⟨rfl, rfl⟩ := List.cons.inj hrest
      obtain ⟨inner, rest, rfl, hinner⟩ := h before between rfl
      exact ⟨inner, rest ++ words', by simp, hinner⟩

/-- Words in parentheses negate groups if they do without. -/
theorem NegatesGroups.grouped {words : List (Word α)} (h : NegatesGroups words)
    (parentheses : Bool) : NegatesGroups (grouped parentheses words) := by
  cases parentheses with
  | false => exact h
  | true =>
    have hopening : NegatesGroups [(.opening : Word α)] := negatesGroups_of_not_mem (by simp)
    have hclosing : NegatesGroups [(.closing : Word α)] := negatesGroups_of_not_mem (by simp)
    exact hopening.append (h.append hclosing)

/-- The negation of a group negates groups if the words of the group do. -/
theorem NegatesGroups.negated {words : List (Word α)} (h : NegatesGroups words)
    (hbalanced : Balanced words) : NegatesGroups (.not :: Sql.grouped true words) := by
  intro before after heq
  cases before with
  | nil => exact ⟨words, [], (List.cons.inj heq).2.symm, hbalanced⟩
  | cons word before => exact h.grouped true before after (List.cons.inj heq).2

/-- The words of a condition negate groups. -/
theorem negatesGroups_words (f : Nat → α) (c : Condition) : NegatesGroups (c.words f) := by
  induction c with
  | compare column op param =>
    exact negatesGroups_of_not_mem (by simp [Condition.words, columnWords])
  | isIn column params =>
    refine negatesGroups_of_not_mem ?_
    rw [Condition.words]
    cases params.map f with
    | nil => simp [Condition.amongWords]
    | cons first rest =>
      obtain ⟨inner, hinner, -, hnot⟩ := exists_moreWords_eq rest
      simp [Condition.amongWords, columnWords, hinner, hnot]
  | not inner ih => exact ih.negated (balanced_words f inner)
  | combine op left right ihleft ihright =>
    have hjunction : NegatesGroups [(.junction op : Word α)] :=
      negatesGroups_of_not_mem (by simp)
    exact (ihleft.grouped _).append (hjunction.append (ihright.grouped _))

/-! ## Junctions of a level -/

/-- What is known behind a word if `levels` is known in front of it: the junctions that were met at
the levels that are open, innermost first. Nothing is known where two of one level differ, nor where
no level is open. -/
def level? : List (Option LogicalOp) → Word α → Option (List (Option LogicalOp))
  | levels, .opening => some (none :: levels)
  | [], .closing => none
  | _ :: levels, .closing => some levels
  | [], .junction _ => none
  | met :: levels, .junction op =>
    if met.all (· = op) then some (some op :: levels) else none
  | levels, _ => some levels

/-- What is known behind words. -/
def levels? (levels : List (Option LogicalOp)) (words : List (Word α)) :
    Option (List (Option LogicalOp)) := words.foldlM level? levels

/-- What is known behind the first word leads to what is known behind all. -/
theorem levels?_cons (levels : List (Option LogicalOp)) (word : Word α) (words : List (Word α)) :
    levels? levels (word :: words) =
      (level? levels word).bind fun levels => levels? levels words := by
  rw [levels?, List.foldlM_cons]
  rfl

/-- What is known behind the first words leads to what is known behind all. -/
theorem levels?_append (levels : List (Option LogicalOp)) (words words' : List (Word α)) :
    levels? levels (words ++ words') =
      (levels? levels words).bind fun levels => levels? levels words' := by
  rw [levels?, List.foldlM_append]
  rfl

/-- At a junction a level is open, at which no other junction was met. -/
theorem of_level?_junction {levels levels' : List (Option LogicalOp)} {op : LogicalOp}
    (h : level? levels (.junction op : Word α) = some levels') :
    ∃ met outer, levels = met :: outer ∧ met.all (· = op) ∧ levels' = some op :: outer := by
  cases levels with
  | nil => cases h
  | cons met outer =>
    rw [level?, Option.ite_none_right_eq_some] at h
    exact ⟨met, outer, rfl, h.1, (Option.some.inj h.2).symm⟩

/-- A word that is no parenthesis leaves the other levels, and of the innermost one what is
known. -/
theorem of_level?_eq_some {word : Word α} (hopening : word ≠ .opening) (hclosing : word ≠ .closing)
    {met : Option LogicalOp} {outer levels : List (Option LogicalOp)}
    (h : level? (met :: outer) word = some levels) :
    ∃ met', levels = met' :: outer ∧ ∀ op, met = some op → met' = some op := by
  cases word with
  | opening => exact absurd rfl hopening
  | closing => exact absurd rfl hclosing
  | junction op =>
    obtain ⟨_, _, heq, hmet, rfl⟩ := of_level?_junction h
    obtain ⟨rfl, rfl⟩ := List.cons.inj heq
    refine ⟨some op, rfl, ?_⟩
    rintro op' rfl
    simpa [eq_comm] using hmet
  | _ => exact ⟨met, (Option.some.inj h).symm, fun op => id⟩

/-- Balanced words leave the other levels, and of the innermost one what is known. -/
theorem Balanced.of_levels?_eq_some {words : List (Word α)} (h : Balanced words)
    {met : Option LogicalOp} {outer levels : List (Option LogicalOp)}
    (hlevels : levels? (met :: outer) words = some levels) :
    ∃ met', levels = met' :: outer ∧ ∀ op, met = some op → met' = some op := by
  induction h generalizing met outer levels with
  | nil => exact ⟨met, (Option.some.inj hlevels).symm, fun op => id⟩
  | word hopening hclosing _ ih =>
    rw [levels?_cons, Option.bind_eq_some_iff] at hlevels
    obtain ⟨_, hword, hlevels⟩ := hlevels
    obtain ⟨met', rfl, hmet'⟩ := of_level?_eq_some hopening hclosing hword
    obtain ⟨met'', rfl, hmet''⟩ := ih hlevels
    exact ⟨met'', rfl, fun op hop => hmet'' op (hmet' op hop)⟩
  | group _ _ ihinner ihrest =>
    rw [levels?_cons, level?, Option.bind_some, levels?_append, Option.bind_eq_some_iff] at hlevels
    obtain ⟨_, hinner, hlevels⟩ := hlevels
    obtain ⟨_, rfl, -⟩ := ihinner hinner
    rw [levels?_cons, level?, Option.bind_some] at hlevels
    exact ihrest hlevels

/-- If something is known behind words, then their junctions are the same at each level. -/
theorem unmixed_of_levels? {levels levels' : List (Option LogicalOp)} {words : List (Word α)}
    (h : levels? levels words = some levels') : Unmixed words := by
  rintro before op middle op' after rfl hmiddle
  rw [levels?_append, Option.bind_eq_some_iff] at h
  obtain ⟨_, -, h⟩ := h
  rw [levels?_cons, Option.bind_eq_some_iff] at h
  obtain ⟨_, hop, h⟩ := h
  obtain ⟨_, outer, -, -, rfl⟩ := of_level?_junction hop
  rw [levels?_append, Option.bind_eq_some_iff] at h
  obtain ⟨_, hlevels, h⟩ := h
  obtain ⟨met, rfl, hmet⟩ := hmiddle.of_levels?_eq_some hlevels
  rw [levels?_cons, Option.bind_eq_some_iff] at h
  obtain ⟨_, hop', -⟩ := h
  obtain ⟨_, _, heq, hall, -⟩ := of_level?_junction hop'
  rw [hmet op rfl, List.cons.injEq] at heq
  simpa [← heq.1] using hall

/-- Whether words can be gone through at any level at which no other junction was met than theirs,
which is then known. -/
def KeepsLevels (words : List (Word α)) (op? : Option LogicalOp) : Prop :=
  ∀ (met : Option LogicalOp) (outer : List (Option LogicalOp)),
    (∀ op ∈ op?, met.all (· = op)) → levels? (met :: outer) words = some (op?.or met :: outer)

/-- Parentheses hide the junction of what is in them. -/
theorem KeepsLevels.grouped {words : List (Word α)} {op? : Option LogicalOp}
    (h : KeepsLevels words op?) : KeepsLevels (grouped true words) none := by
  intro met outer _
  have hinner := h none (met :: outer) fun _ _ => rfl
  rw [Sql.grouped, if_pos rfl, levels?_cons, level?, Option.bind_some, levels?_append, hinner,
    Option.bind_some]
  rfl

/-- The left side of a junction can be gone through where the junction may stand. -/
theorem KeepsLevels.left {words : List (Word α)} {op? : Option LogicalOp}
    (h : KeepsLevels words op?) {op : LogicalOp} {met : Option LogicalOp} (hmet : met.all (· = op))
    (outer : List (Option LogicalOp)) :
    ∃ met', levels? (met :: outer) (Sql.grouped (op?.any (· ≠ op)) words) = some (met' :: outer) ∧
      met'.all (· = op) := by
  cases op? with
  | none => exact ⟨met, h met outer nofun, hmet⟩
  | some op' =>
    by_cases hop : op' = op
    · subst hop
      have hgrouped : (some op').any (· ≠ op') = false := by simp
      rw [hgrouped]
      refine ⟨some op', h met outer ?_, by simp⟩
      rintro _ ⟨⟩
      exact hmet
    · have hgrouped : (some op').any (· ≠ op) = true := by simp [hop]
      rw [hgrouped]
      exact ⟨met, h.grouped met outer nofun, hmet⟩

/-- The right side of a junction can be gone through behind it. -/
theorem KeepsLevels.right {words : List (Word α)} {op? : Option LogicalOp}
    (h : KeepsLevels words op?) (op : LogicalOp) (outer : List (Option LogicalOp)) :
    levels? (some op :: outer) (Sql.grouped op?.isSome words) = some (some op :: outer) := by
  cases op? with
  | none => exact h (some op) outer nofun
  | some op' => exact h.grouped (some op) outer nofun

/-- The words of a list close the level at which they start. -/
theorem levels?_moreWords (params : List α) (met : Option LogicalOp)
    (outer : List (Option LogicalOp)) :
    levels? (met :: outer) (moreWords params) = some outer := by
  induction params with
  | nil => rfl
  | cons param params ih => exact ih

/-- The words of a condition can be gone through with its junction. -/
theorem keepsLevels_words (f : Nat → α) (c : Condition) : KeepsLevels (c.words f) c.junction? := by
  induction c with
  | compare column op param => exact fun met outer _ => rfl
  | isIn column params =>
    intro met outer _
    rw [Condition.words]
    cases params.map f with
    | nil => rfl
    | cons first rest => exact levels?_moreWords rest none (met :: outer)
  | not inner ih => exact ih.grouped
  | combine op left right ihleft ihright =>
    intro met outer hmet
    obtain ⟨met', hleft, hmet'⟩ := ihleft.left (hmet op rfl) outer
    rw [Condition.words, levels?_append, hleft, Option.bind_some, levels?_cons, level?,
      if_pos hmet', Option.bind_some, ihright.right op outer]
    rfl

/-- The junctions of a condition are the same at each level of parentheses. -/
theorem unmixed_words (f : Nat → α) (c : Condition) : Unmixed (c.words f) :=
  unmixed_of_levels? (keepsLevels_words f c none [] fun _ _ => rfl)

end ResumeFilter.Sql
