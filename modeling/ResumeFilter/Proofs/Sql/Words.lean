import ResumeFilter.Proofs.Decimal.RoundTrip
import ResumeFilter.Proofs.Sql.Reading
import ResumeFilter.Proofs.Token.Pattern

/-!
# The words of a text of a condition

The text of a condition is split into the words of that condition, whatever the configuration
(`words?_text`). Of the names this asks that they are no keywords and can stand without quotes, as
those of the catalog can, and of the text that a name or number never runs into what comes behind
it.
-/

namespace ResumeFilter.Sql

/-! ## Texts and their words -/

/-- Whether a text consists of words. -/
inductive Splits : List Char → List (Word (Option Nat)) → Prop
  | nil : Splits [] []
  | blank {cs : List Char} {words : List (Word (Option Nat))} (h : Splits cs words) :
    Splits (' ' :: cs) words
  | word {text rest : List Char} {word : Word (Option Nat)} {words : List (Word (Option Nat))}
    (hne : text ≠ []) (hread : word? (text ++ rest) = some (word, rest)) (h : Splits rest words) :
    Splits (text ++ rest) (word :: words)

/-- No word starts with a blank. -/
theorem word?_blank (cs : List Char) : word? (' ' :: cs) = none := by
  have hdigit : ' '.isDigit = false := by decide
  have hname : isNameChar ' ' = false := by decide
  simp [word?, hdigit, hname]

/-- The words of a text are found. -/
theorem words?_of_splits {cs : List Char} {words : List (Word (Option Nat))} (h : Splits cs words) :
    words? cs = some words := by
  have hfrom : ∀ fuel, cs.length ≤ fuel → wordsFrom fuel cs = some words := by
    induction h with
    | nil => intro fuel _; rw [wordsFrom]
    | blank _ ih =>
      intro fuel hfuel
      rw [List.length_cons] at hfuel
      obtain ⟨fuel, rfl⟩ : ∃ n, fuel = n + 1 := ⟨fuel - 1, by omega⟩
      rw [wordsFrom, if_pos rfl, ih fuel (by omega)]
    | @word text rest word words hne hread _ ih =>
      intro fuel hfuel
      obtain ⟨c, text, rfl⟩ := List.exists_cons_of_ne_nil hne
      rw [List.length_append, List.length_cons] at hfuel
      obtain ⟨fuel, rfl⟩ : ∃ n, fuel = n + 1 := ⟨fuel - 1, by omega⟩
      -- A text that starts with a blank is not read as a word, so no blank is left out here.
      have hblank : c ≠ ' ' := by
        rintro rfl
        rw [List.cons_append, word?_blank] at hread
        exact absurd hread nofun
      rw [List.cons_append] at hread
      rw [List.cons_append, wordsFrom, if_neg hblank, hread, Option.bind_some]
      simp only [ih fuel (by omega), Option.map_some]
  exact hfrom cs.length (Nat.le_refl _)

/-- Whether neither a name nor a number goes on into a text. -/
def EndsWord (cs : List Char) : Prop := ∀ c ∈ cs.head?, isNameChar c = false

/-- Nothing ends every word. -/
theorem endsWord_nil : EndsWord [] := nofun

/-- A character that is not of a name ends every word. -/
theorem endsWord_cons {c : Char} (h : isNameChar c = false) (cs : List Char) :
    EndsWord (c :: cs) := by
  intro d hd
  obtain rfl := Option.some.inj hd
  exact h

/-- A text that ends words ends numbers. -/
theorem EndsWord.isDigit_eq {cs : List Char} (h : EndsWord cs) :
    ∀ c ∈ cs.head?, c.isDigit = false := by
  intro c hc
  have hname := h c hc
  simp only [isNameChar, Char.isAlphanum, Bool.or_eq_false_iff] at hname
  exact hname.1.2

/-! ## Names -/

/-- The words that are no names. -/
def keywords : List (List Char) := [['A', 'N', 'D'], ['O', 'R'], ['N', 'O', 'T'], ['I', 'N']]

/-- Whether a name can stand without quotes. -/
structure IsName (text : String) : Prop where
  nonempty : text.toList ≠ []
  first : text.toList.head?.all fun c => !c.isDigit
  all : text.toList.all isNameChar
  not_keyword : text.toList ∉ keywords

/-- The names of tables can stand without quotes. -/
theorem isName_table (table : Table) : IsName table.name := by
  cases table <;> exact ⟨by decide, by decide, by decide, by decide⟩

/-- The names of the columns of fields can stand without quotes. -/
theorem isName_column (field : Field) : IsName field.column.name := by
  cases field <;> exact ⟨by decide, by decide, by decide, by decide⟩

/-- A text of letters that is no keyword is a name. -/
theorem letterWord_eq {α : Type} {cs : List Char} (h : cs ∉ keywords) :
    (letterWord cs : Word α) = .name (String.ofList cs) := by
  simp only [keywords, List.mem_cons, List.not_mem_nil, or_false, not_or] at h
  simp [letterWord, h]

/-- The characters that start a word without being part of a name or number. -/
def marks : List Char := ['(', ')', ',', '.', '=', '<', '>', '?', '$', '"']

/-- Any other character starts a number, a name or nothing. -/
theorem word?_of_isNameChar {c : Char} (h : isNameChar c) (rest : List Char) :
    word? (c :: rest) =
      if c.isDigit then
        (Numeral.natural? ((c :: rest).takeWhile Char.isDigit)).map fun n =>
          (.number n, (c :: rest).dropWhile Char.isDigit)
      else some (letterWord (c :: rest.takeWhile isNameChar), rest.dropWhile isNameChar) := by
  have hall : marks.all fun c => !isNameChar c := by decide
  have hmarks : c ∉ marks := fun hmem => by simpa [h] using List.all_eq_true.mp hall c hmem
  simp only [marks, List.mem_cons, List.not_mem_nil, or_false, not_or] at hmarks
  simp [word?, hmarks, h]

/-- A digit can be part of a name. -/
theorem isNameChar_of_isDigit {c : Char} (h : c.isDigit) : isNameChar c := by
  simp [isNameChar, Char.isAlphanum, h]

/-- A number is written in its digits. -/
theorem toList_toString (n : Nat) : (toString n).toList = Binary64.digits n := by
  rw [Nat.toString_eq_repr, Nat.toList_repr]
  rfl

/-- The digits of a number end where a name or number would. -/
theorem takeWhile_digits_append (n : Nat) {cs : List Char} (h : EndsWord cs) :
    (Binary64.digits n ++ cs).takeWhile Char.isDigit = Binary64.digits n ∧
      (Binary64.digits n ++ cs).dropWhile Char.isDigit = cs :=
  Token.takeWhile_append_of_head? (fun _ => Numeral.isDigit_of_mem_digits) h.isDigit_eq

/-- A number is read as it is. -/
theorem splits_number (n : Nat) {cs : List Char} {words : List (Word (Option Nat))}
    (hends : EndsWord cs) (hcs : Splits cs words) :
    Splits (Binary64.digits n ++ cs) (.number n :: words) := by
  obtain ⟨htake, hdrop⟩ := takeWhile_digits_append n hends
  obtain ⟨c, rest, hcons⟩ := List.exists_cons_of_ne_nil (Numeral.digits_ne_nil n)
  have hdigit : c.isDigit := Numeral.isDigit_of_mem_digits (hcons ▸ List.mem_cons_self)
  refine .word (Numeral.digits_ne_nil n) ?_ hcs
  rw [hcons, List.cons_append] at htake hdrop ⊢
  rw [word?_of_isNameChar (isNameChar_of_isDigit hdigit), if_pos hdigit, htake, hdrop, ← hcons,
    Numeral.natural?_digits, Option.map_some]

/-- A name is read as it is, with or without quotes. -/
theorem splits_name (config : Config) {text : String} (h : IsName text) {cs : List Char}
    {words : List (Word (Option Nat))} (hends : EndsWord cs) (hcs : Splits cs words) :
    Splits (((Piece.name text).text config).toList ++ cs) (.name text :: words) := by
  have hname : ∀ c ∈ text.toList, isNameChar c := List.all_eq_true.mp h.all
  rw [Piece.text]
  split_ifs
  · have hquote : ∀ c ∈ text.toList, decide (c ≠ '"') = true := by
      intro c hc
      refine decide_eq_true ?_
      rintro rfl
      exact absurd (hname _ hc) (by decide)
    have hclose : ∀ c ∈ ('"' :: cs).head?, decide (c ≠ '"') = false := by
      intro c hc
      obtain rfl := Option.some.inj hc
      rfl
    obtain ⟨htake, hdrop⟩ := Token.takeWhile_append_of_head? hquote hclose
    have hread : word? ('"' :: (text.toList ++ '"' :: cs)) = some (.name text, cs) := by
      simp only [word?, htake, hdrop, String.ofList_toList]
    have hword := @Splits.word ('"' :: (text.toList ++ ['"'])) cs _ words nofun
      (by simpa using hread) hcs
    simpa using hword
  · obtain ⟨c, rest, htext⟩ := List.exists_cons_of_ne_nil h.nonempty
    have hfirst := h.first
    rw [htext, List.head?_cons, Option.all_some, Bool.not_eq_true', Bool.eq_false_iff] at hfirst
    rw [htext, List.forall_mem_cons] at hname
    refine .word h.nonempty ?_ hcs
    obtain ⟨htake, hdrop⟩ := Token.takeWhile_append_of_head? hname.2 hends
    rw [htext, List.cons_append, word?_of_isNameChar hname.1, if_neg hfirst, htake, hdrop, ← htext,
      letterWord_eq h.not_keyword, String.ofList_toList]

/-! ## Pieces -/

section Pieces

variable {config : Config} {rest : List Piece} {cs : List Char} {words : List (Word (Option Nat))}

/-- A piece is spelled in front of the others. -/
@[simp]
theorem toList_spell_cons (config : Config) (piece : Piece) (pieces : List Piece) :
    (spell config (piece :: pieces)).toList =
      (piece.text config).toList ++ (spell config pieces).toList := by
  rw [spell_cons, String.toList_append]

/-- Pieces whose text starts with no character of a name end every word in front of them. -/
theorem endsWord_spell (config : Config) {text : String} (rest : List Piece)
    (h : text.toList.head?.any fun c => !isNameChar c) :
    EndsWord (spell config (.word text :: rest)).toList := by
  rw [toList_spell_cons, Piece.text]
  cases htext : text.toList with
  | nil =>
    rw [htext] at h
    cases h
  | cons c cs =>
    rw [htext, List.head?_cons, Option.any_some, Bool.not_eq_true'] at h
    exact endsWord_cons h _

/-- A junction ends every word in front of it. -/
theorem endsWord_junction (config : Config) (op : LogicalOp) (rest : List Piece) :
    EndsWord (spell config (.word (" " ++ logicalOpText op ++ " ") :: rest)).toList :=
  endsWord_spell config rest (by cases op <;> decide)

/-- The number that a parameter is given in a text, if it is given one. -/
def placeholderNumber (config : Config) (index : Nat) : Option Nat :=
  match config.placeholder with
  | .question => none
  | .dollar => some (index + 1)

/-- A placeholder is read as it is. -/
theorem splits_param (config : Config) (index : Nat) (hends : EndsWord cs) (hcs : Splits cs words) :
    Splits (((Piece.param index).text config).toList ++ cs)
      (.param (placeholderNumber config index) :: words) := by
  rw [Piece.text, placeholderNumber]
  cases config.placeholder with
  | question =>
    have hmark : "?".toList = ['?'] := rfl
    rw [hmark]
    exact .word nofun rfl hcs
  | dollar =>
    have hdigits : ("$" ++ toString (index + 1)).toList = '$' :: Binary64.digits (index + 1) := by
      rw [String.toList_append, toList_toString]
      rfl
    obtain ⟨htake, hdrop⟩ := takeWhile_digits_append (index + 1) hends
    refine .word (by rw [hdigits]; nofun) ?_ hcs
    rw [hdigits, List.cons_append]
    simp only [word?, htake, hdrop, Numeral.natural?_digits, Option.map_some]

/-- A word is read with the blanks around it. -/
theorem Splits.spaced (hcs : Splits cs words) (text : List Char) (hne : text ≠ [])
    {word : Word (Option Nat)} (hread : word? (text ++ ' ' :: cs) = some (word, ' ' :: cs)) :
    Splits (' ' :: (text ++ ' ' :: cs)) (word :: words) :=
  .blank (.word hne hread (.blank hcs))

/-- An operator is read with the blanks around it. -/
theorem splits_operator (op : ScalarOp) (hcs : Splits cs words) :
    Splits ((" " ++ scalarOpText op ++ " ").toList ++ cs) (.operator op :: words) := by
  cases op with
  | eq => exact hcs.spaced ['='] nofun rfl
  | notEq => exact hcs.spaced ['<', '>'] nofun rfl
  | gt => exact hcs.spaced ['>'] nofun rfl
  | lt => exact hcs.spaced ['<'] nofun rfl
  | gtEq => exact hcs.spaced ['>', '='] nofun rfl
  | ltEq => exact hcs.spaced ['<', '='] nofun rfl

/-- A junction is read with the blanks around it. -/
theorem splits_junction (op : LogicalOp) (hcs : Splits cs words) :
    Splits ((" " ++ logicalOpText op ++ " ").toList ++ cs) (.junction op :: words) := by
  cases op with
  | and => exact hcs.spaced ['A', 'N', 'D'] nofun rfl
  | or => exact hcs.spaced ['O', 'R'] nofun rfl

/-- A closing parenthesis is read as it is. -/
theorem splits_closing (hcs : Splits cs words) : Splits (')' :: cs) (.closing :: words) :=
  @Splits.word [')'] cs _ words nofun rfl hcs

/-- An opening parenthesis is read as it is. -/
theorem splits_opening (hcs : Splits cs words) : Splits ('(' :: cs) (.opening :: words) :=
  @Splits.word ['('] cs _ words nofun rfl hcs

/-- A column is read as its table, a point and its name. -/
theorem splits_column {column : Column} (h : IsName column.name)
    (hends : EndsWord (spell config rest).toList)
    (hrest : Splits (spell config rest).toList words) :
    Splits (spell config (columnPieces column ++ rest)).toList (columnWords column ++ words) := by
  have hcolumn := splits_name config h hends hrest
  have hpoint := @Splits.word ['.'] _ _ _ nofun rfl hcolumn
  have htable := splits_name config (isName_table column.table) (endsWord_cons rfl _) hpoint
  simpa [columnPieces, columnWords, Piece.text] using htable

/-- A value of a list ends where the list goes on or ends. -/
theorem endsWord_more (params : List Nat) (rest : List Piece) :
    EndsWord (spell config ((params.flatMap fun param => [.word ", ", .param param]) ++
      .word ")" :: rest)).toList := by
  cases params with
  | nil => exact endsWord_spell config _ (by decide)
  | cons => exact endsWord_spell config _ (by decide)

/-- The values of a list are read to its end. -/
theorem splits_moreWords (params : List Nat) (hrest : Splits (spell config rest).toList words) :
    Splits (spell config ((params.flatMap fun param => [.word ", ", .param param]) ++
        .word ")" :: rest)).toList
      (moreWords (params.map (placeholderNumber config)) ++ words) := by
  induction params with
  | nil => simpa [moreWords, Piece.text] using splits_closing hrest
  | cons param params ih =>
    have hparam := splits_param config param (endsWord_more params rest) ih
    have hcomma := @Splits.word [','] _ _ _ (List.cons_ne_nil _ _) rfl (.blank hparam)
    simpa [moreWords, Piece.text] using hcomma

/-- A list with something between its members. -/
theorem intersperse_cons {γ : Type} (between first : γ) (others : List γ) :
    (first :: others).intersperse between =
      first :: others.flatMap fun other => [between, other] := by
  induction others generalizing first with
  | nil => rfl
  | cons other others ih =>
    have hcons : (first :: other :: others).intersperse between =
        first :: between :: (other :: others).intersperse between := rfl
    rw [hcons, ih other, List.flatMap_cons]
    rfl

/-- The pieces of a membership test with parameters, in front of others. -/
theorem isInPieces_cons_append (column : Column) (first : Nat) (others : List Nat)
    (rest : List Piece) :
    isInPieces column (first :: others) ++ rest =
      columnPieces column ++ .word " IN (" :: .param first ::
        ((others.flatMap fun param => [.word ", ", .param param]) ++ .word ")" :: rest) := by
  rw [isInPieces, List.isEmpty_cons, if_neg Bool.false_ne_true, List.map_cons, intersperse_cons,
    List.flatMap_map]
  simp

/-- A comparison is read as it is. -/
theorem splits_compare {column : Column} (h : IsName column.name)
    (op : ScalarOp) (param : Nat) (hends : EndsWord (spell config rest).toList)
    (hrest : Splits (spell config rest).toList words) :
    Splits (spell config (comparePieces column op param ++ rest)).toList
      ((Condition.compare column op param).words (placeholderNumber config) ++ words) := by
  have hop : Splits (spell config (.word (" " ++ scalarOpText op ++ " ") :: .param param ::
      rest)).toList (.operator op :: .param (placeholderNumber config param) :: words) := by
    rw [toList_spell_cons, toList_spell_cons]
    exact splits_operator op (splits_param config param hends hrest)
  have hcolumn := splits_column h (endsWord_spell config _ (by cases op <;> decide)) hop
  rw [comparePieces, Condition.words, List.append_assoc, List.append_assoc]
  exact hcolumn

/-- A membership test is read as it is. -/
theorem splits_isIn {column : Column} (h : IsName column.name)
    (params : List Nat) (hends : EndsWord (spell config rest).toList)
    (hrest : Splits (spell config rest).toList words) :
    Splits (spell config (isInPieces column params ++ rest)).toList
      ((Condition.isIn column params).words (placeholderNumber config) ++ words) := by
  cases params with
  | nil =>
    have hzero := splits_number 0 hends hrest
    have hsign : Splits (' ' :: '=' :: ' ' :: (Binary64.digits 0 ++ (spell config rest).toList))
        (.operator .eq :: .number 0 :: words) := splits_operator .eq hzero
    have hfalse := splits_number 1 (endsWord_cons rfl _) hsign
    have hpiece : ((Piece.word "1 = 0").text config).toList = ['1', ' ', '=', ' ', '0'] := by
      simp [Piece.text]
    rw [isInPieces, List.isEmpty_nil, if_pos rfl, List.singleton_append, toList_spell_cons, hpiece]
    exact hfalse
  | cons first others =>
    have hmore := splits_moreWords others hrest
    have hparams : Splits (spell config (.word " IN (" :: .param first ::
        ((others.flatMap fun param => [.word ", ", .param param]) ++ .word ")" :: rest))).toList
        (.isIn :: .opening :: .param (placeholderNumber config first) ::
          (moreWords (others.map (placeholderNumber config)) ++ words)) := by
      have hpiece : ((Piece.word " IN (").text config).toList = [' ', 'I', 'N', ' ', '('] := by
        simp [Piece.text]
      rw [toList_spell_cons, toList_spell_cons, hpiece]
      have hopening := splits_opening (splits_param config first (endsWord_more others rest) hmore)
      have hin := @Splits.word ['I', 'N'] _ .isIn _ nofun rfl (.blank hopening)
      exact .blank hin
    have hcolumn := splits_column h (endsWord_spell config _ (by decide)) hparams
    rw [isInPieces_cons_append]
    simpa [Condition.words, Condition.amongWords] using hcolumn

end Pieces

/-! ## Conditions -/

/-- Whether all columns of a condition are columns of the catalog's fields. -/
def Condition.InCatalog : Condition → Prop
  | .compare column _ _ => ∃ field : Field, field.column = column
  | .isIn column _ => ∃ field : Field, field.column = column
  | .not inner => inner.InCatalog
  | .combine _ left right => left.InCatalog ∧ right.InCatalog

/-- Whether the names of all columns of a condition can stand without quotes. -/
def Condition.Named : Condition → Prop
  | .compare column _ _ => IsName column.name
  | .isIn column _ => IsName column.name
  | .not inner => inner.Named
  | .combine _ left right => left.Named ∧ right.Named

/-- The columns of the catalog's fields have such names. -/
theorem Condition.InCatalog.named {c : Condition} (h : c.InCatalog) : c.Named := by
  induction c with
  | compare column op param =>
    obtain ⟨field, rfl⟩ := h
    exact isName_column field
  | isIn column params =>
    obtain ⟨field, rfl⟩ := h
    exact isName_column field
  | not inner ih => exact ih h
  | combine op left right ihleft ihright => exact ⟨ihleft h.1, ihright h.2⟩

section Conditions

variable {config : Config}

/-- Whether the pieces of something, in front of anything that ends a word, are split into words. -/
def SplitsInto (pieces : List Piece → List Piece) (words : List (Word (Option Nat)))
    (config : Config) : Prop :=
  ∀ rest after, EndsWord (spell config rest).toList → Splits (spell config rest).toList after →
    Splits (spell config (pieces rest)).toList (words ++ after)

/-- Parentheses around pieces, where these are called for. -/
theorem SplitsInto.grouped {pieces : List Piece → List Piece} {words : List (Word (Option Nat))}
    (h : SplitsInto pieces words config) (parentheses : Bool) :
    SplitsInto
      (fun rest => if parentheses then .word "(" :: pieces (.word ")" :: rest) else pieces rest)
      (grouped parentheses words) config := by
  intro rest after hends hrest
  cases parentheses with
  | false => exact h rest after hends hrest
  | true =>
    have hpiece : ((Piece.word ")").text config).toList = [')'] := by simp [Piece.text]
    have hclosing : Splits (spell config (.word ")" :: rest)).toList (.closing :: after) := by
      rw [toList_spell_cons, hpiece]
      exact splits_closing hrest
    have hends' : EndsWord (spell config (.word ")" :: rest)).toList :=
      endsWord_spell config rest (by decide)
    have hopening := splits_opening (h _ _ hends' hclosing)
    simpa [Piece.text, Sql.grouped] using hopening

/-- The text of a condition, in front of anything that ends a word, is split into its words. -/
theorem splits_piecesThen {c : Condition} (h : c.Named) :
    SplitsInto c.piecesThen (c.words (placeholderNumber config)) config := by
  -- The text behind a part comes first: for the left side of a junction that is the right side.
  induction c with
  | compare column op param =>
    exact fun rest after hends hrest => splits_compare h op param hends hrest
  | isIn column params => exact fun rest after hends hrest => splits_isIn h params hends hrest
  | not inner ih =>
    intro rest after hends hrest
    have hgroup := (ih h).grouped true rest after hends hrest
    have hnot := @Splits.word ['N', 'O', 'T'] _ .not _ nofun rfl (.blank hgroup)
    simpa [Condition.piecesThen, Condition.words, Piece.text, grouped] using hnot
  | combine op left right ihleft ihright =>
    intro rest after hends hrest
    have hright := (ihright h.2).grouped right.junction?.isSome rest after hends hrest
    have hop := splits_junction op hright
    have hleft := (ihleft h.1).grouped (left.junction?.any (· ≠ op)) _ _
      (endsWord_junction config op _) (by rw [toList_spell_cons]; exact hop)
    rw [Condition.words, List.append_assoc]
    exact hleft

/-- The text of a condition whose columns can be named without quotes is split into the words of the
condition. -/
theorem words?_text {c : Condition} (h : c.Named) :
    words? (c.text config).toList = some (c.words (placeholderNumber config)) := by
  have hsplits : Splits (c.text config).toList (c.words (placeholderNumber config) ++ []) :=
    splits_piecesThen h [] [] endsWord_nil .nil
  rw [List.append_nil] at hsplits
  exact words?_of_splits hsplits

end Conditions

end ResumeFilter.Sql
