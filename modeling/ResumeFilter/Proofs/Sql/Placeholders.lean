import ResumeFilter.Proofs.Query.Literals
import ResumeFilter.Proofs.Sql.Meaning

/-!
# Placeholders, parameters and the source

The placeholders in the text of a condition are those of its parameters, one for each and in their
order (`placeholders_piecesThen`). So a statement has as many placeholders as it has parameters, and
these are what the scalar tokens of its source denote, from first to last
(`placeholders_ofSource`). A server that supplies values by the order of the question marks alone
supplies each where it belongs.
-/

namespace ResumeFilter.Sql

/-! ## The placeholders of a text -/

/-- The placeholders of a text from left to right: every question mark, and every dollar sign with
the digits behind it. -/
def placeholders : List Char → List (List Char)
  | [] => []
  | c :: cs =>
    if c = '?' then ['?'] :: placeholders cs
    else if c = '$' then ('$' :: cs.takeWhile Char.isDigit) :: placeholders cs
    else placeholders cs

/-- Whether a text has no placeholders. -/
def IsPlain (cs : List Char) : Prop := '?' ∉ cs ∧ '$' ∉ cs

instance (cs : List Char) : Decidable (IsPlain cs) :=
  inferInstanceAs (Decidable ('?' ∉ cs ∧ '$' ∉ cs))

/-- Texts without placeholders make up one without them. -/
theorem IsPlain.append {cs ds : List Char} (h : IsPlain cs) (h' : IsPlain ds) :
    IsPlain (cs ++ ds) := by
  simp only [IsPlain, List.mem_append, not_or]
  exact ⟨⟨h.1, h'.1⟩, h.2, h'.2⟩

/-- A text without placeholders leaves those behind it as they are. -/
theorem placeholders_append_of_isPlain {cs : List Char} (h : IsPlain cs) (rest : List Char) :
    placeholders (cs ++ rest) = placeholders rest := by
  induction cs with
  | nil => rfl
  | cons c cs ih =>
    simp only [IsPlain, List.mem_cons, not_or] at h
    obtain ⟨⟨hquestion, hplain⟩, hdollar, hplain'⟩ := h
    rw [List.cons_append, placeholders, if_neg (Ne.symm hquestion), if_neg (Ne.symm hdollar),
      ih ⟨hplain, hplain'⟩]

/-- Digits are no placeholders. -/
theorem isPlain_of_isDigit {cs : List Char} (h : ∀ c ∈ cs, c.isDigit) : IsPlain cs :=
  ⟨fun hmem => absurd (h _ hmem) (by decide), fun hmem => absurd (h _ hmem) (by decide)⟩

/-- There are as many question marks as there are placeholders that are one. -/
theorem count_placeholders (cs : List Char) :
    (placeholders cs).count ['?'] = cs.count '?' := by
  induction cs with
  | nil => rfl
  | cons c cs ih =>
    rw [placeholders]
    by_cases hquestion : c = '?'
    · rw [if_pos hquestion, hquestion, List.count_cons_self, List.count_cons_self, ih]
    · rw [if_neg hquestion, List.count_cons_of_ne hquestion]
      split_ifs
      · rw [List.count_cons_of_ne (by simp), ih]
      · exact ih

/-! ## Pieces -/

/-- Whether a piece is a word or name without placeholders. -/
def Piece.isPlain : Piece → Bool
  | .word text => IsPlain text.toList
  | .name text => IsPlain text.toList
  | .param _ => false

/-- A piece without placeholders is spelled without them. -/
theorem Piece.isPlain_text {piece : Piece} (h : piece.isPlain) (config : Config) :
    IsPlain (piece.text config).toList := by
  cases piece with
  | word text => exact of_decide_eq_true h
  | name text =>
    have htext : IsPlain text.toList := of_decide_eq_true h
    have hquote : IsPlain "\"".toList := by decide
    rw [Piece.text]
    split_ifs
    · rw [String.toList_append, String.toList_append]
      exact (hquote.append htext).append hquote
    · exact htext
  | param index => exact absurd h Bool.false_ne_true

/-- The columns of fields are without placeholders. -/
theorem isPlain_columnPieces (field : Field) :
    (columnPieces field.column).all Piece.isPlain := by
  cases field <;> decide

/-- No join has placeholders. -/
theorem isPlain_join (join : Join) : (join.steps.flatMap joinPieces).all Piece.isPlain := by
  cases join <;> decide

/-- The operators of comparisons are without placeholders. -/
theorem isPlain_scalarOpText (op : ScalarOp) :
    (Piece.word (" " ++ scalarOpText op ++ " ")).isPlain := by
  cases op <;> decide

/-- The junctions are without placeholders. -/
theorem isPlain_logicalOpText (op : LogicalOp) :
    (Piece.word (" " ++ logicalOpText op ++ " ")).isPlain := by
  cases op <;> decide

/-- The placeholder of a parameter. -/
def placeholder (config : Config) (index : Nat) : List Char :=
  match config.placeholder with
  | .question => ['?']
  | .dollar => '$' :: (toString (index + 1)).toList

/-- A parameter is spelled as its placeholder. -/
theorem toList_text_param (config : Config) (index : Nat) :
    ((Piece.param index).text config).toList = placeholder config index := by
  rw [Piece.text, placeholder]
  cases config.placeholder with
  | question =>
    have hmark : "?".toList = ['?'] := rfl
    exact hmark
  | dollar =>
    have hmark : "$".toList = ['$'] := rfl
    show ("$" ++ toString (index + 1)).toList = '$' :: (toString (index + 1)).toList
    rw [String.toList_append, hmark, List.singleton_append]

section Pieces

variable {config : Config} {rest : List Piece}

/-- A piece without placeholders leaves those behind it as they are. -/
theorem placeholders_spell_cons {piece : Piece} (h : piece.isPlain) :
    placeholders (spell config (piece :: rest)).toList =
      placeholders (spell config rest).toList := by
  rw [toList_spell_cons]
  exact placeholders_append_of_isPlain (Piece.isPlain_text h config) _

/-- Pieces without placeholders leave those behind them as they are. -/
theorem placeholders_spell_append {pieces : List Piece} (h : pieces.all Piece.isPlain) :
    placeholders (spell config (pieces ++ rest)).toList =
      placeholders (spell config rest).toList := by
  induction pieces with
  | nil => rfl
  | cons piece pieces ih =>
    rw [List.all_cons, Bool.and_eq_true] at h
    rw [List.cons_append, placeholders_spell_cons h.1, ih h.2]

/-- A parameter is spelled as its placeholder, if no digit comes behind it. -/
theorem placeholders_spell_param (index : Nat) (hends : EndsWord (spell config rest).toList) :
    placeholders (spell config (.param index :: rest)).toList =
      placeholder config index :: placeholders (spell config rest).toList := by
  rw [toList_spell_cons, toList_text_param, placeholder]
  cases config.placeholder with
  | question => rfl
  | dollar =>
    have hplain : IsPlain (Binary64.digits (index + 1)) :=
      isPlain_of_isDigit fun c => Numeral.isDigit_of_mem_digits
    simp only [toList_toString, List.cons_append]
    rw [placeholders, if_neg (by decide), if_pos rfl, (takeWhile_digits_append _ hends).1,
      placeholders_append_of_isPlain hplain]

/-- A column has no placeholders. -/
theorem placeholders_column {column : Column} (h : ∃ field : Field, field.column = column) :
    placeholders (spell config (columnPieces column ++ rest)).toList =
      placeholders (spell config rest).toList := by
  obtain ⟨field, rfl⟩ := h
  exact placeholders_spell_append (isPlain_columnPieces field)

/-! ## Conditions -/

/-- The placeholders of a list behind its first parameter. -/
theorem placeholders_moreParams (params : List Nat) :
    placeholders (spell config ((params.flatMap fun param => [.word ", ", .param param]) ++
        .word ")" :: rest)).toList =
      params.map (placeholder config) ++ placeholders (spell config rest).toList := by
  induction params with
  | nil => exact placeholders_spell_cons (by decide)
  | cons param params ih =>
    have hcomma : (Piece.word ", ").isPlain := by decide
    rw [List.flatMap_cons, List.append_assoc, List.cons_append, List.cons_append, List.nil_append,
      placeholders_spell_cons hcomma, placeholders_spell_param param (endsWord_more params rest),
      ih, List.map_cons, List.cons_append]

/-- The placeholder of a comparison. -/
theorem placeholders_compare {column : Column} (h : ∃ field : Field, field.column = column)
    (op : ScalarOp) (param : Nat) (hends : EndsWord (spell config rest).toList) :
    placeholders (spell config (comparePieces column op param ++ rest)).toList =
      placeholder config param :: placeholders (spell config rest).toList := by
  rw [comparePieces, List.append_assoc, placeholders_column h, List.cons_append, List.cons_append,
    List.nil_append, placeholders_spell_cons (isPlain_scalarOpText op),
    placeholders_spell_param param hends]

/-- The placeholders of a membership test; without parameters it has none. -/
theorem placeholders_isIn {column : Column} (h : ∃ field : Field, field.column = column)
    (params : List Nat) :
    placeholders (spell config (isInPieces column params ++ rest)).toList =
      params.map (placeholder config) ++ placeholders (spell config rest).toList := by
  cases params with
  | nil => exact placeholders_spell_cons (by decide)
  | cons first others =>
    have hin : (Piece.word " IN (").isPlain := by decide
    rw [isInPieces_cons_append, placeholders_column h, placeholders_spell_cons hin,
      placeholders_spell_param first (endsWord_more others rest), placeholders_moreParams,
      List.map_cons, List.cons_append]

end Pieces

/-- Whether the placeholders of something, in front of anything that ends a word, are those of
parameters. -/
def Shows (pieces : List Piece → List Piece) (params : List Nat) (config : Config) : Prop :=
  ∀ rest, EndsWord (spell config rest).toList →
    placeholders (spell config (pieces rest)).toList =
      params.map (placeholder config) ++ placeholders (spell config rest).toList

/-- Parentheses add no placeholders. -/
theorem Shows.grouped {pieces : List Piece → List Piece} {params : List Nat} {config : Config}
    (h : Shows pieces params config) (parentheses : Bool) :
    Shows
      (fun rest => if parentheses then .word "(" :: pieces (.word ")" :: rest) else pieces rest)
      params config := by
  intro rest hends
  cases parentheses with
  | false => exact h rest hends
  | true =>
    have hopening : (Piece.word "(").isPlain := by decide
    have hclosing : (Piece.word ")").isPlain := by decide
    have hends' : EndsWord (spell config (.word ")" :: rest)).toList :=
      endsWord_spell config rest (by decide)
    show placeholders (spell config (.word "(" :: pieces (.word ")" :: rest))).toList = _
    rw [placeholders_spell_cons hopening, h _ hends', placeholders_spell_cons hclosing]

/-- The placeholders of a condition over columns of the catalog are those of its parameters. -/
theorem placeholders_piecesThen {config : Config} {c : Condition} (h : c.InCatalog) :
    Shows c.piecesThen c.params config := by
  -- The text behind a part comes first: for the left side of a junction that is the right side.
  induction c with
  | compare column op param => exact fun rest hends => placeholders_compare h op param hends
  | isIn column params => exact fun rest _ => placeholders_isIn h params
  | not inner ih =>
    intro rest hends
    have hnot : (Piece.word "NOT (").isPlain := by decide
    have hopening : (Piece.word "(").isPlain := by decide
    have hgroup : placeholders (spell config (.word "(" ::
        inner.piecesThen (.word ")" :: rest))).toList = _ := (ih h).grouped true rest hends
    rw [placeholders_spell_cons hopening] at hgroup
    rw [Condition.piecesThen, placeholders_spell_cons hnot]
    exact hgroup
  | combine op left right ihleft ihright =>
    intro rest hends
    have hright := (ihright h.2).grouped right.junction?.isSome rest hends
    have hends' := endsWord_junction config op
      (if right.junction?.isSome then .word "(" :: right.piecesThen (.word ")" :: rest)
        else right.piecesThen rest)
    have hleft := (ihleft h.1).grouped (left.junction?.any (· ≠ op)) _ hends'
    rw [placeholders_spell_cons (isPlain_logicalOpText op), hright] at hleft
    rw [Condition.params, List.map_append, List.append_assoc]
    exact hleft

/-! ## Statements -/

/-- The front of a select is without placeholders. -/
theorem Select.isPlain_frontPieces (joins : List Join) :
    (frontPieces joins).all Piece.isPlain := by
  have hjoins : ((joins.flatMap Join.steps).flatMap joinPieces).all Piece.isPlain := by
    rw [List.flatMap_assoc, List.all_flatMap, List.all_eq_true]
    exact fun join _ => isPlain_join join
  rw [frontPieces, List.all_append, hjoins]
  decide

/-- The placeholders of a select are those of its condition. -/
theorem placeholders_select {config : Config} (joins : List Join) {condition : Condition}
    (h : condition.InCatalog) :
    placeholders (Select.text config ⟨joins.flatMap Join.steps, some condition⟩).toList =
      condition.params.map (placeholder config) := by
  have hwhere : (Piece.word " WHERE ").isPlain := by decide
  have hcondition : placeholders (spell config condition.pieces).toList =
      condition.params.map (placeholder config) ++ [] :=
    placeholders_piecesThen h [] endsWord_nil
  rw [List.append_nil] at hcondition
  have hfront :
      placeholders (Select.text config ⟨joins.flatMap Join.steps, some condition⟩).toList =
        placeholders (spell config (.word " WHERE " :: condition.pieces)).toList :=
    placeholders_spell_append (Select.isPlain_frontPieces joins)
  rw [hfront, placeholders_spell_cons hwhere]
  exact hcondition

/-- Numbered placeholders of the first parameters. -/
theorem map_placeholder_dollar {config : Config} (h : config.placeholder = .dollar) (n : Nat) :
    (List.range' 0 n).map (placeholder config) =
      (List.range n).map fun k => '$' :: (toString (k + 1)).toList := by
  rw [← List.range_eq_range']
  apply List.map_congr_left
  intro k _
  rw [placeholder, h]

/-- Placeholders that are all alike. -/
theorem map_placeholder_question {config : Config} (h : config.placeholder = .question) (n : Nat) :
    (List.range' 0 n).map (placeholder config) = List.replicate n ['?'] := by
  have hall : ∀ k ∈ List.range' 0 n, placeholder config k = ['?'] := by
    intro k _
    rw [placeholder, h]
  rw [List.map_congr_left hall, List.map_const', List.length_range']

/-- A statement has one parameter for each scalar token of its source: the literal that the token
denotes, in the order of the source. Its placeholders are as many; they are numbered from one on, or
they are question marks and the only ones. -/
theorem placeholders_ofSource {config : Config} {source : String} {statement : Statement}
    (h : Statement.ofSource config source = .ok statement) :
    ∃ tokens n, Token.scan source.toList = .ok tokens ∧ n = (Token.scalars tokens).length ∧
      statement.params.length = n ∧
        List.Forall₂ Token.Denotes (Token.scalars tokens) statement.params ∧
          (config.placeholder = .dollar → placeholders statement.sql.toList =
            (List.range n).map fun k => '$' :: (toString (k + 1)).toList) ∧
            (config.placeholder = .question → statement.sql.toList.count '?' = n) := by
  obtain ⟨q, lowered, builder, hparse, hlower, rfl⟩ := exists_parse_of_ofSource h
  obtain ⟨condition, hlowers, hparams, hconfig, hfilter⟩ := lower_empty hlower
  obtain ⟨tokens, hscan, -, hderives⟩ := Query.exists_derives_of_parse hparse
  have hdenotes := Query.literals_of_derives hderives
  have hlength := hdenotes.length_eq
  have hplaceholders : placeholders builder.render.toList =
      (List.range' 0 q.literals.length).map (placeholder config) := by
    rw [Builder.render, builder.select_eq, hconfig, hfilter,
      placeholders_select builder.joins hlowers.inCatalog, hlowers.params]
  refine ⟨tokens, q.literals.length, hscan, hlength.symm, ?_, ?_, ?_, ?_⟩
  · rw [hparams]
  · rw [hparams]
    exact hdenotes
  · intro hdollar
    rw [hplaceholders, map_placeholder_dollar hdollar]
  · intro hquestion
    rw [← count_placeholders, hplaceholders, map_placeholder_question hquestion,
      List.count_replicate_self]

/-- A set without values has no placeholder, and the parameter behind it takes the next number. -/
theorem placeholders_of_empty_set :
    ∃ statement tokens n,
      Statement.ofSource ⟨.dollar, true⟩
        "NOT (YOE IN {1, 2} OR LOCATION IN {}) AND LOCATION = 'a $9 ?'" = .ok statement ∧
        Token.scan
          "NOT (YOE IN {1, 2} OR LOCATION IN {}) AND LOCATION = 'a $9 ?'".toList =
            .ok tokens ∧
          n = (Token.scalars tokens).length ∧ statement.params.length = n ∧
            List.Forall₂ Token.Denotes (Token.scalars tokens) statement.params ∧
              placeholders statement.sql.toList =
                (List.range n).map fun k => '$' :: (toString (k + 1)).toList := by
  have h : Statement.ofSource ⟨.dollar, true⟩
      "NOT (YOE IN {1, 2} OR LOCATION IN {}) AND LOCATION = 'a $9 ?'" =
        .ok ⟨"SELECT \"resumes\".* FROM \"resumes\" WHERE NOT (" ++
          "\"resumes\".\"years_of_experience\" IN ($1, $2) OR 1 = 0) AND " ++
          "\"resumes\".\"location\" = $3", [.int 1, .int 2, .str "a $9 ?"]⟩ := by
    decide +kernel
  obtain ⟨tokens, n, hscan, hn, hlength, hdenotes, hdollar, -⟩ := placeholders_ofSource h
  exact ⟨_, tokens, n, h, hscan, hn, hlength, hdenotes, hdollar rfl⟩

end ResumeFilter.Sql
