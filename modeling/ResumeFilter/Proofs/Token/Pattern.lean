import Mathlib.Tactic.SplitIfs
import ResumeFilter.Proofs.Text.Place
import ResumeFilter.Token.Scan

/-!
# The patterns of tokens

Every kind of token has a pattern, which says what a text of that kind looks like and nothing about
how it is found. `lexeme?` looks at the first characters of a text and decides from them alone. Here
it is shown to find the longest beginning of the text that matches any pattern, and to fail exactly
if no beginning matches one (`lexeme?_eq_some_iff`, `lexeme?_eq_none_iff`). Patterns overlap only on
keywords, which also look like field names; there the keyword wins.
-/

namespace ResumeFilter.Token

/-! ## Patterns -/

/-- The words that are no field names. -/
def keywords : List (List Char) :=
  [['A', 'N', 'D'], ['O', 'R'], ['N', 'O', 'T'], ['I', 'N'], ['T', 'R', 'U', 'E'],
   ['F', 'A', 'L', 'S', 'E']]

/-- A capital letter, then capital letters and underscores. -/
def IsWord (cs : List Char) : Prop :=
  ∃ first rest, first.isUpper ∧ (∀ c ∈ rest, c.isUpper ∨ c = '_') ∧ cs = first :: rest

/-- Digits, at least one, then perhaps a point and digits, of which there may be none. -/
def IsNumber (cs : List Char) : Prop :=
  ∃ whole : List Char, whole ≠ [] ∧ (∀ c ∈ whole, c.isDigit) ∧
    (cs = whole ∨
      ∃ fraction : List Char, (∀ c ∈ fraction, c.isDigit) ∧ cs = whole ++ '.' :: fraction)

/-- Anything between two quotes of one sort but such a quote. -/
def IsString (cs : List Char) : Prop :=
  ∃ quote body, (quote = '\'' ∨ quote = '"') ∧ quote ∉ body ∧ cs = quote :: (body ++ [quote])

/-- Whether a text is one that a token of a kind can have. -/
def Kind.Matches : Kind → List Char → Prop
  | .and, cs => cs = ['A', 'N', 'D']
  | .or, cs => cs = ['O', 'R']
  | .not, cs => cs = ['N', 'O', 'T']
  | .eq, cs => cs = ['=']
  | .notEq, cs => cs = ['!', '=']
  | .gt, cs => cs = ['>']
  | .lt, cs => cs = ['<']
  | .gtEq, cs => cs = ['>', '=']
  | .ltEq, cs => cs = ['<', '=']
  | .isIn, cs => cs = ['I', 'N']
  | .numberLit, cs => IsNumber cs
  | .stringLit, cs => IsString cs
  | .boolLit, cs => cs = ['T', 'R', 'U', 'E'] ∨ cs = ['F', 'A', 'L', 'S', 'E']
  | .parenOpen, cs => cs = ['(']
  | .parenClose, cs => cs = [')']
  | .braceOpen, cs => cs = ['{']
  | .braceClose, cs => cs = ['}']
  | .comma, cs => cs = [',']
  | .identifier, cs => IsWord cs

/-- The texts of tokens that are neither words nor numbers nor strings. -/
def symbols : List (List Char) :=
  [['='], ['!', '='], ['>'], ['<'], ['>', '='], ['<', '='], ['('], [')'], ['{'], ['}'], [',']]

/-- What a token can look like, by its first character. -/
inductive Shape (first : Char) (rest : List Char) : Prop
  | word (hfirst : first.isUpper) (hrest : ∀ c ∈ rest, isWordChar c)
  | whole (hfirst : first.isDigit) (hrest : ∀ c ∈ rest, c.isDigit)
  | decimal (hfirst : first.isDigit) (whole fraction : List Char) (hwhole : ∀ c ∈ whole, c.isDigit)
    (hfraction : ∀ c ∈ fraction, c.isDigit) (hrest : rest = whole ++ '.' :: fraction)
  | string (hfirst : first = '\'' ∨ first = '"') (body : List Char) (hbody : first ∉ body)
    (hrest : rest = body ++ [first])
  | symbol (h : first :: rest ∈ symbols)

/-- Words are made of word characters. -/
theorem isWordChar_iff {c : Char} : isWordChar c ↔ c.isUpper ∨ c = '_' := by
  simp [isWordChar]

/-- Keywords look like field names. -/
theorem isWord_of_mem_keywords {word : List Char} (h : word ∈ keywords) : IsWord word := by
  have hword : ∀ first rest, Char.isUpper first → rest.all isWordChar → IsWord (first :: rest) :=
    fun first rest hfirst hrest =>
      ⟨first, rest, hfirst, fun c hc => isWordChar_iff.mp (List.all_eq_true.mp hrest c hc), rfl⟩
  simp only [keywords, List.mem_cons, List.not_mem_nil, or_false] at h
  rcases h with rfl | rfl | rfl | rfl | rfl | rfl <;> exact hword _ _ rfl rfl

/-- Whatever matches a pattern has one of the shapes. -/
theorem Kind.Matches.exists_shape {kind : Kind} {text : List Char} (h : kind.Matches text) :
    ∃ first rest, text = first :: rest ∧ Shape first rest := by
  have hword : IsWord text → ∃ first rest, text = first :: rest ∧ Shape first rest := by
    rintro ⟨first, rest, hfirst, hrest, htext⟩
    exact ⟨first, rest, htext, .word hfirst fun c hc => isWordChar_iff.mpr (hrest c hc)⟩
  have hsymbol : text ∈ symbols → ∃ first rest, text = first :: rest ∧ Shape first rest := by
    intro hmem
    cases text with
    | nil => simp [symbols] at hmem
    | cons first rest => exact ⟨first, rest, rfl, .symbol hmem⟩
  cases kind with
  | and | or | not | isIn => exact hword (isWord_of_mem_keywords (h ▸ by decide))
  | boolLit => rcases h with h | h <;> exact hword (isWord_of_mem_keywords (h ▸ by decide))
  | identifier => exact hword h
  | numberLit =>
    obtain ⟨whole, hne, hwhole, htext⟩ := h
    obtain ⟨first, rest, rfl⟩ := List.exists_cons_of_ne_nil hne
    rw [List.forall_mem_cons] at hwhole
    rcases htext with rfl | ⟨fraction, hfraction, rfl⟩
    · exact ⟨first, rest, rfl, .whole hwhole.1 hwhole.2⟩
    · exact ⟨first, _, rfl, .decimal hwhole.1 rest fraction hwhole.2 hfraction rfl⟩
  | stringLit =>
    obtain ⟨quote, body, hquote, hbody, rfl⟩ := h
    exact ⟨quote, _, rfl, .string hquote body hbody rfl⟩
  | eq | notEq | gt | lt | gtEq | ltEq | parenOpen | parenClose | braceOpen | braceClose | comma =>
    exact hsymbol (h ▸ by decide)

/-- No pattern matches the empty text. -/
theorem Kind.Matches.ne_nil {kind : Kind} {text : List Char} (h : kind.Matches text) :
    text ≠ [] := by
  obtain ⟨first, rest, rfl, -⟩ := h.exists_shape
  exact List.cons_ne_nil first rest

/-! ## What the first character decides -/

/-- The characters that start a token without being part of a word or number. -/
def marks : List Char := ['(', ')', '{', '}', ',', '=', '!', '>', '<', '\'', '"']

/-- A capital letter is no digit. -/
theorem isDigit_of_isUpper {c : Char} (h : c.isUpper) : c.isDigit = false := by
  have hletter : 'A'.val ≤ c.val := (of_decide_eq_true h).1
  refine Bool.eq_false_iff.mpr fun hdigit => ?_
  have hnumber : c.val ≤ '9'.val := of_decide_eq_true (Bool.and_eq_true_iff.mp hdigit).2
  exact absurd (UInt32.le_trans hletter hnumber) (by decide)

/-- Marks are neither letters nor digits nor blanks. -/
theorem eq_false_of_mem_marks :
    ∀ c ∈ marks, c.isUpper = false ∧ c.isDigit = false ∧ isBlank c = false := by
  have hall : marks.all fun c => !c.isUpper && !c.isDigit && !isBlank c := by decide
  intro c hc
  simpa [and_assoc] using List.all_eq_true.mp hall c hc

/-- Any other character starts a number, a word or nothing. -/
theorem lexeme?_of_not_mem_marks {c : Char} (h : c ∉ marks) (rest : List Char) :
    lexeme? (c :: rest) =
      if c.isDigit then some (numberLexeme (c :: rest))
      else if c.isUpper then
        some ⟨wordKind (c :: rest.takeWhile isWordChar), c :: rest.takeWhile isWordChar,
          rest.dropWhile isWordChar⟩
      else none := by
  simp only [marks, List.mem_cons, List.not_mem_nil, or_false, not_or] at h
  rw [lexeme?] <;> simp [h]

/-- A digit starts a number. -/
theorem lexeme?_of_isDigit {c : Char} (h : c.isDigit) (rest : List Char) :
    lexeme? (c :: rest) = some (numberLexeme (c :: rest)) := by
  have hmarks : c ∉ marks := fun hc => by simp [eq_false_of_mem_marks c hc] at h
  rw [lexeme?_of_not_mem_marks hmarks, if_pos h]

/-- A capital letter starts a word. -/
theorem lexeme?_of_isUpper {c : Char} (h : c.isUpper) (rest : List Char) :
    lexeme? (c :: rest) =
      some ⟨wordKind (c :: rest.takeWhile isWordChar), c :: rest.takeWhile isWordChar,
        rest.dropWhile isWordChar⟩ := by
  have hmarks : c ∉ marks := fun hc => by simp [eq_false_of_mem_marks c hc] at h
  rw [lexeme?_of_not_mem_marks hmarks, if_neg (by simp [isDigit_of_isUpper h]), if_pos h]

/-- A quote starts a string. -/
theorem lexeme?_of_quote {c : Char} (h : c = '\'' ∨ c = '"') (rest : List Char) :
    lexeme? (c :: rest) = stringLexeme? c rest := by
  rcases h with rfl | rfl <;> rfl

/-- A string ends at the next quote of its sort. -/
theorem stringLexeme?_append {quote : Char} {body : List Char} (h : quote ∉ body)
    (rest : List Char) :
    stringLexeme? quote (body ++ quote :: rest) =
      some ⟨.stringLit, quote :: (body ++ [quote]), rest⟩ := by
  have hbody : ∀ c ∈ body, decide (c ≠ quote) = true := by
    intro c hc
    exact decide_eq_true fun (heq : c = quote) => h (heq ▸ hc)
  unfold stringLexeme?
  rw [List.dropWhile_append_of_pos hbody, List.takeWhile_append_of_pos hbody]
  simp

/-- A comparison of one character that is not followed by `=` is read as it stands. -/
theorem lexeme?_gt {rest : List Char} (h : rest.head? ≠ some '=') :
    lexeme? ('>' :: rest) = some ⟨.gt, ['>'], rest⟩ := by
  rw [lexeme?]
  rintro after rfl
  exact h rfl

/-- A comparison of one character that is not followed by `=` is read as it stands. -/
theorem lexeme?_lt {rest : List Char} (h : rest.head? ≠ some '=') :
    lexeme? ('<' :: rest) = some ⟨.lt, ['<'], rest⟩ := by
  rw [lexeme?]
  rintro after rfl
  exact h rfl

/-! ## Longest beginnings -/

/-- A beginning of a list that has a property throughout is part of the longest one. -/
theorem prefix_takeWhile {α : Type} {p : α → Bool} {l₁ l₂ : List α} (h : l₁ <+: l₂)
    (hp : ∀ a ∈ l₁, p a) : l₁ <+: l₂.takeWhile p := by
  obtain ⟨rest, rfl⟩ := h
  rw [List.takeWhile_append_of_pos hp]
  exact List.prefix_append l₁ _

/-- A number goes on as long as there are digits. -/
theorem prefix_numberLexeme {first : Char} {tail rest : List Char} (hfirst : first.isDigit)
    (htail : ∀ c ∈ tail, c.isDigit) (h : first :: tail <+: rest) :
    first :: tail <+: (numberLexeme rest).text := by
  have hwhole : first :: tail <+: rest.takeWhile Char.isDigit :=
    prefix_takeWhile h (List.forall_mem_cons.mpr ⟨hfirst, htail⟩)
  unfold numberLexeme
  split
  · exact hwhole.trans (List.prefix_append _ _)
  · exact hwhole

/-- The text of a number with a point, digits before it and digits after it. -/
theorem numberLexeme_append {whole : List Char} (h : ∀ c ∈ whole, c.isDigit) (rest : List Char) :
    numberLexeme (whole ++ '.' :: rest) =
      ⟨.numberLit, whole ++ '.' :: rest.takeWhile Char.isDigit, rest.dropWhile Char.isDigit⟩ := by
  have hpoint : ¬Char.isDigit '.' := by decide
  unfold numberLexeme
  rw [List.takeWhile_append_of_pos h, List.dropWhile_append_of_pos h,
    List.takeWhile_cons_of_neg hpoint, List.dropWhile_cons_of_neg hpoint]
  simp

/-- If a beginning of a text matches a pattern, then the text starts with a token, and the beginning
is part of it. -/
theorem exists_lexeme?_of_matches {kind : Kind} {text cs : List Char} (h : kind.Matches text)
    (hstart : text <+: cs) : ∃ lexeme, lexeme? cs = some lexeme ∧ text <+: lexeme.text := by
  obtain ⟨first, tail, rfl, hshape⟩ := h.exists_shape
  obtain ⟨rest, rfl⟩ := hstart
  rw [List.cons_append]
  -- What the text starts with settles which branch of `lexeme?` is taken, so each shape is its own.
  cases hshape with
  | word hfirst htail =>
    refine ⟨_, lexeme?_of_isUpper hfirst _, ?_⟩
    rw [List.cons_prefix_cons]
    exact ⟨rfl, prefix_takeWhile (List.prefix_append tail rest) htail⟩
  | whole hfirst htail =>
    exact ⟨_, lexeme?_of_isDigit hfirst _,
      prefix_numberLexeme hfirst htail (List.prefix_append _ _)⟩
  | decimal hfirst whole fraction hwhole hfraction htail =>
    subst htail
    refine ⟨_, lexeme?_of_isDigit hfirst _, ?_⟩
    have hdigits : ∀ c ∈ first :: whole, c.isDigit := List.forall_mem_cons.mpr ⟨hfirst, hwhole⟩
    have hnumber := numberLexeme_append hdigits (fraction ++ rest)
    rw [List.cons_append] at hnumber
    rw [List.append_assoc, List.cons_append, hnumber, ← List.cons_append,
      List.prefix_append_right_inj, List.cons_prefix_cons]
    exact ⟨rfl, prefix_takeWhile (List.prefix_append fraction rest) hfraction⟩
  | string hfirst body hbody htail =>
    subst htail
    refine ⟨⟨.stringLit, first :: (body ++ [first]), rest⟩, ?_, List.prefix_refl _⟩
    rw [lexeme?_of_quote hfirst, List.append_assoc]
    exact stringLexeme?_append hbody rest
  | symbol hmem =>
    simp only [symbols, List.mem_cons, List.cons.injEq, List.not_mem_nil, or_false] at hmem
    rcases hmem with ⟨rfl, rfl⟩ | ⟨rfl, rfl⟩ | ⟨rfl, rfl⟩ | ⟨rfl, rfl⟩ | ⟨rfl, rfl⟩ | ⟨rfl, rfl⟩ |
      ⟨rfl, rfl⟩ | ⟨rfl, rfl⟩ | ⟨rfl, rfl⟩ | ⟨rfl, rfl⟩ | ⟨rfl, rfl⟩
    -- The comparisons `>` and `<` may go on with `=`; all other symbols are read as they stand.
    case inr.inr.inl =>
      by_cases heq : rest.head? = some '='
      · obtain ⟨after, rfl⟩ := List.head?_eq_some_iff.mp heq
        exact ⟨⟨.gtEq, ['>', '='], after⟩, rfl, ['='], rfl⟩
      · exact ⟨_, lexeme?_gt heq, List.prefix_refl _⟩
    case inr.inr.inr.inl =>
      by_cases heq : rest.head? = some '='
      · obtain ⟨after, rfl⟩ := List.head?_eq_some_iff.mp heq
        exact ⟨⟨.ltEq, ['<', '='], after⟩, rfl, ['='], rfl⟩
      · exact ⟨_, lexeme?_lt heq, List.prefix_refl _⟩
    all_goals exact ⟨_, rfl, List.prefix_refl _⟩

/-! ## What is found -/

/-- The kind of a word is one whose pattern the word matches. -/
theorem wordKind_matches {word : List Char} (h : IsWord word) : (wordKind word).Matches word := by
  unfold wordKind
  split_ifs with hand hor hnot hin hbool
  · exact hand
  · exact hor
  · exact hnot
  · exact hin
  · simpa [Kind.Matches] using hbool
  · exact h

/-- A keyword is no field name. -/
theorem wordKind_ne_identifier {word : List Char} (h : word ∈ keywords) :
    wordKind word ≠ .identifier := by
  simp only [keywords, List.mem_cons, List.not_mem_nil, or_false] at h
  rcases h with rfl | rfl | rfl | rfl | rfl | rfl <;> decide

/-- The parts of a number make up the text, and its text is a number. -/
theorem numberLexeme_spec {first : Char} (h : first.isDigit) (rest : List Char) :
    let lexeme := numberLexeme (first :: rest)
    first :: rest = lexeme.text ++ lexeme.rest ∧ lexeme.kind.Matches lexeme.text ∧
      lexeme.kind ≠ .identifier := by
  have hwhole : (first :: rest).takeWhile Char.isDigit ≠ [] := by
    rw [List.takeWhile_cons_of_pos h]
    exact List.cons_ne_nil _ _
  have hdigits : ∀ c ∈ (first :: rest).takeWhile Char.isDigit, c.isDigit :=
    List.all_eq_true.mp List.all_takeWhile
  have hsplit := List.takeWhile_append_dropWhile (p := Char.isDigit) (l := first :: rest)
  unfold numberLexeme
  split
  next after hdrop =>
    refine ⟨?_, ⟨_, hwhole, hdigits, .inr ⟨after.takeWhile Char.isDigit, ?_, rfl⟩⟩, nofun⟩
    · rw [hdrop] at hsplit
      rw [List.append_assoc, List.cons_append, List.takeWhile_append_dropWhile, hsplit]
    · exact List.all_eq_true.mp List.all_takeWhile
  next => exact ⟨hsplit.symm, ⟨_, hwhole, hdigits, .inl rfl⟩, nofun⟩

/-- The parts of a string make up the text, and its text is a string. -/
theorem stringLexeme?_spec {quote : Char} {rest : List Char} {lexeme : Lexeme}
    (hquote : quote = '\'' ∨ quote = '"') (h : stringLexeme? quote rest = some lexeme) :
    quote :: rest = lexeme.text ++ lexeme.rest ∧ lexeme.kind.Matches lexeme.text ∧
      lexeme.kind ≠ .identifier := by
  have hsplit := List.takeWhile_append_dropWhile (p := (· ≠ quote)) (l := rest)
  unfold stringLexeme? at h
  split at h
  next => exact absurd h (by simp)
  next close after hdrop =>
    obtain rfl : close = quote := by
      have hhead := List.head?_dropWhile_not (· ≠ quote) rest
      rw [hdrop] at hhead
      simpa using hhead
    obtain rfl := Option.some.inj h
    rw [hdrop] at hsplit
    refine ⟨?_, ⟨close, rest.takeWhile (· ≠ close), hquote, ?_, rfl⟩, nofun⟩
    · simpa using hsplit.symm
    · intro hmem
      simpa using List.all_eq_true.mp List.all_takeWhile _ hmem

/-- The parts of a word make up the text, its text is a word, and it is none of the keywords if it
is a field name. -/
theorem wordLexeme_spec {first : Char} (h : first.isUpper) (rest : List Char) :
    let word := first :: rest.takeWhile isWordChar
    first :: rest = word ++ rest.dropWhile isWordChar ∧ (wordKind word).Matches word ∧
      (word ∈ keywords → wordKind word ≠ .identifier) := by
  refine ⟨by simp, wordKind_matches ⟨first, _, h, ?_, rfl⟩, wordKind_ne_identifier⟩
  intro c hc
  exact isWordChar_iff.mp (List.all_eq_true.mp List.all_takeWhile c hc)

/-- What `lexeme?` finds starts the text and matches its pattern. -/
theorem lexeme?_spec {cs : List Char} {lexeme : Lexeme} (h : lexeme? cs = some lexeme) :
    cs = lexeme.text ++ lexeme.rest ∧ lexeme.kind.Matches lexeme.text ∧
      (lexeme.text ∈ keywords → lexeme.kind ≠ .identifier) := by
  have hkeyword : ∀ {p q : Prop}, (p ∧ q ∧ lexeme.kind ≠ .identifier) →
      p ∧ q ∧ (lexeme.text ∈ keywords → lexeme.kind ≠ .identifier) :=
    fun ⟨hp, hq, hne⟩ => ⟨hp, hq, fun _ => hne⟩
  unfold lexeme? at h
  split at h
  case h_1 => exact absurd h (by simp)
  case h_13 rest => exact hkeyword (stringLexeme?_spec (.inl rfl) h)
  case h_14 rest => exact hkeyword (stringLexeme?_spec (.inr rfl) h)
  case h_15 c rest _ _ _ _ _ _ _ _ _ _ _ _ _ =>
    split_ifs at h with hdigit hupper
    · obtain rfl := Option.some.inj h
      exact hkeyword (numberLexeme_spec hdigit rest)
    · obtain rfl := Option.some.inj h
      exact wordLexeme_spec hupper rest
  all_goals
    obtain rfl := Option.some.inj h
    exact ⟨rfl, rfl, fun _ => nofun⟩

/-! ## The longest beginning -/

/-- A token at the start of a text, and the rest of the text after it: no beginning of the text that
is longer matches any pattern, and no keyword is taken for a field name. -/
structure Lexeme.IsLongest (cs : List Char) (lexeme : Lexeme) : Prop where
  split : cs = lexeme.text ++ lexeme.rest
  matches_text : lexeme.kind.Matches lexeme.text
  longest : ∀ (kind : Kind) (text : List Char), kind.Matches text → text <+: cs →
    text.length ≤ lexeme.text.length
  not_identifier : lexeme.text ∈ keywords → lexeme.kind ≠ .identifier

/-- The lexeme that is found is the longest. -/
theorem isLongest_of_lexeme? {cs : List Char} {lexeme : Lexeme} (h : lexeme? cs = some lexeme) :
    lexeme.IsLongest cs := by
  obtain ⟨hsplit, hmatches, hkeyword⟩ := lexeme?_spec h
  refine ⟨hsplit, hmatches, ?_, hkeyword⟩
  intro kind text htext hstart
  obtain ⟨found, hfound, hle⟩ := exists_lexeme?_of_matches htext hstart
  obtain rfl : lexeme = found := Option.some.inj (h.symm.trans hfound)
  exact hle.length_le

/-- The rest of a text behind a token is shorter than the text. -/
theorem Lexeme.IsLongest.length_rest_lt {cs : List Char} {lexeme : Lexeme}
    (h : lexeme.IsLongest cs) : lexeme.rest.length < cs.length := by
  have hpos := List.length_pos_iff.mpr h.matches_text.ne_nil
  have hlength := congrArg List.length h.split
  rw [List.length_append] at hlength
  omega

/-! ## Tokens in front of a text that leaves them alone -/

/-- Whether a token in front of a text cannot go on into it: the text is empty or starts with a
character that continues neither a word nor a number nor a comparison. -/
def EndsToken (rest : List Char) : Prop :=
  ∀ c ∈ rest.head?, isWordChar c = false ∧ c.isDigit = false ∧ c ≠ '.' ∧ c ≠ '='

/-- Nothing ends every token. -/
theorem endsToken_nil : EndsToken [] := by
  simp [EndsToken]

/-- The longest beginning with a property is the part before a character without it. -/
theorem takeWhile_append_of_head? {α : Type} {p : α → Bool} {l₁ l₂ : List α} (h₁ : ∀ a ∈ l₁, p a)
    (h₂ : ∀ a ∈ l₂.head?, p a = false) :
    (l₁ ++ l₂).takeWhile p = l₁ ∧ (l₁ ++ l₂).dropWhile p = l₂ := by
  rw [List.takeWhile_append_of_pos h₁, List.dropWhile_append_of_pos h₁]
  cases l₂ with
  | nil => simp
  | cons a l₂ =>
    have ha := h₂ a rfl
    simp [ha]

/-- A word in front of a text that ends it is read as a whole. -/
theorem lexeme?_word_append {word rest : List Char} (h : IsWord word) (hrest : EndsToken rest) :
    lexeme? (word ++ rest) = some ⟨wordKind word, word, rest⟩ := by
  obtain ⟨first, tail, hfirst, htail, rfl⟩ := h
  have htail' : ∀ c ∈ tail, isWordChar c := fun c hc => isWordChar_iff.mpr (htail c hc)
  obtain ⟨htake, hdrop⟩ := takeWhile_append_of_head? htail' fun c hc => (hrest c hc).1
  rw [List.cons_append, lexeme?_of_isUpper hfirst, htake, hdrop]

/-- A number in front of a text that ends it is read as a whole. -/
theorem lexeme?_number_append {text rest : List Char} (h : IsNumber text)
    (hrest : EndsToken rest) : lexeme? (text ++ rest) = some ⟨.numberLit, text, rest⟩ := by
  obtain ⟨whole, hne, hwhole, htext⟩ := h
  have hdigit : ∀ c ∈ rest.head?, c.isDigit = false := fun c hc => (hrest c hc).2.1
  have hread : ∀ cs, lexeme? (whole ++ cs) = some (numberLexeme (whole ++ cs)) := by
    obtain ⟨first, tail, rfl⟩ := List.exists_cons_of_ne_nil hne
    exact fun cs => lexeme?_of_isDigit (hwhole first List.mem_cons_self) _
  rcases htext with rfl | ⟨fraction, hfraction, rfl⟩
  · obtain ⟨htake, hdrop⟩ := takeWhile_append_of_head? hwhole hdigit
    rw [hread, numberLexeme, htake, hdrop]
    split
    next after => exact absurd rfl (hrest '.' rfl).2.2.1
    next => rfl
  · obtain ⟨htake, hdrop⟩ := takeWhile_append_of_head? hfraction hdigit
    rw [List.append_assoc, hread, List.cons_append, numberLexeme_append hwhole, htake, hdrop]

/-- A word that is no keyword is a field name. -/
theorem wordKind_of_not_mem_keywords {word : List Char} (h : word ∉ keywords) :
    wordKind word = .identifier := by
  simp only [keywords, List.mem_cons, List.not_mem_nil, or_false, not_or] at h
  simp [wordKind, h]

/-- A token in front of a text that ends it is read as it is. -/
theorem Kind.Matches.lexeme?_append {kind : Kind} {text rest : List Char} (h : kind.Matches text)
    (hkeyword : text ∈ keywords → kind ≠ .identifier) (hrest : EndsToken rest) :
    lexeme? (text ++ rest) = some ⟨kind, text, rest⟩ := by
  have hword : text ∈ keywords → lexeme? (text ++ rest) = some ⟨wordKind text, text, rest⟩ :=
    fun hmem => lexeme?_word_append (isWord_of_mem_keywords hmem) hrest
  have heq : rest.head? ≠ some '=' := fun hhead => (hrest '=' hhead).2.2.2 rfl
  cases kind with
  | and | or | not | isIn =>
    obtain rfl := h
    exact hword (by decide)
  | boolLit => rcases h with rfl | rfl <;> exact hword (by decide)
  | identifier =>
    rw [lexeme?_word_append h hrest, wordKind_of_not_mem_keywords fun hmem => hkeyword hmem rfl]
  | numberLit => exact lexeme?_number_append h hrest
  | stringLit =>
    obtain ⟨quote, body, hquote, hbody, rfl⟩ := h
    rw [List.cons_append, lexeme?_of_quote hquote, List.append_assoc]
    exact stringLexeme?_append hbody rest
  | gt =>
    obtain rfl := h
    exact lexeme?_gt heq
  | lt =>
    obtain rfl := h
    exact lexeme?_lt heq
  | eq | notEq | gtEq | ltEq | parenOpen | parenClose | braceOpen | braceClose | comma =>
    obtain rfl := h
    rfl

/-! ## The scanner's choice -/

/-- A text is a token of one kind only. -/
theorem Kind.Matches.kind_eq {kind kind' : Kind} {text : List Char} (h : kind.Matches text)
    (h' : kind'.Matches text) (hkeyword : text ∈ keywords → kind ≠ .identifier)
    (hkeyword' : text ∈ keywords → kind' ≠ .identifier) : kind = kind' := by
  have hread := h.lexeme?_append hkeyword endsToken_nil
  rw [h'.lexeme?_append hkeyword' endsToken_nil] at hread
  simpa using hread.symm

/-- No token is found exactly if no beginning of the text matches a pattern. -/
theorem lexeme?_eq_none_iff {cs : List Char} :
    lexeme? cs = none ↔ ∀ (kind : Kind) (text : List Char), kind.Matches text → ¬text <+: cs := by
  constructor
  · intro h kind text htext hstart
    obtain ⟨lexeme, hlexeme, -⟩ := exists_lexeme?_of_matches htext hstart
    rw [h] at hlexeme
    exact absurd hlexeme (by simp)
  · intro h
    cases hlexeme : lexeme? cs with
    | none => rfl
    | some lexeme =>
      have hlongest := isLongest_of_lexeme? hlexeme
      exact absurd ⟨lexeme.rest, hlongest.split.symm⟩ (h _ _ hlongest.matches_text)

/-- The token that is found is the longest, and there is only one longest token. -/
theorem lexeme?_eq_some_iff {cs : List Char} {lexeme : Lexeme} :
    lexeme? cs = some lexeme ↔ lexeme.IsLongest cs := by
  refine ⟨isLongest_of_lexeme?, fun h => ?_⟩
  obtain ⟨found, hfound, -⟩ := exists_lexeme?_of_matches h.matches_text ⟨_, h.split.symm⟩
  have h' := isLongest_of_lexeme? hfound
  -- Beginnings of one text that are equally long are equal, and then so are the rests.
  have hlength : lexeme.text.length = found.text.length :=
    Nat.le_antisymm (h'.longest _ _ h.matches_text ⟨_, h.split.symm⟩)
      (h.longest _ _ h'.matches_text ⟨_, h'.split.symm⟩)
  obtain ⟨htext, hrest⟩ := List.append_inj (h.split.symm.trans h'.split) hlength
  have hkind : lexeme.kind = found.kind :=
    h.matches_text.kind_eq (htext ▸ h'.matches_text) h.not_identifier
      (htext ▸ h'.not_identifier)
  obtain ⟨kind, text, rest⟩ := lexeme
  obtain ⟨kind', text', rest'⟩ := found
  simp only at htext hrest hkind
  rw [hfound, htext, hrest, hkind]

/-! ## One character ahead -/

/-- A token that starts with a quote is a string. -/
theorem Kind.Matches.isString {kind : Kind} {first : Char} {rest : List Char}
    (h : kind.Matches (first :: rest)) (hfirst : first = '\'' ∨ first = '"') :
    ∃ body, rest = body ++ [first] := by
  have hnone : ∀ c ∈ ['\'', '"'], c.isUpper = false ∧ c.isDigit = false ∧
      ∀ tail, c :: tail ∉ symbols := by
    simp [symbols]
  obtain ⟨hupper, hdigit, hsymbol⟩ := hnone first (by simpa using hfirst)
  obtain ⟨first', rest', heq, hshape⟩ := h.exists_shape
  obtain ⟨rfl, rfl⟩ := List.cons.inj heq
  cases hshape with
  | word hword => exact absurd hword (by simp [hupper])
  | whole hwhole => exact absurd hwhole (by simp [hdigit])
  | decimal hwhole => exact absurd hwhole (by simp [hdigit])
  | string _ body _ hrest => exact ⟨body, hrest⟩
  | symbol hmem => exact absurd hmem (hsymbol rest)

/-- What a number with a point starts with is a number. -/
theorem isNumber_of_append {first : Char} {tail whole fraction rest : List Char} {c : Char}
    (hfirst : first.isDigit) (hwhole : ∀ d ∈ whole, d.isDigit)
    (hfraction : ∀ d ∈ fraction, d.isDigit)
    (h : tail ++ c :: rest = whole ++ '.' :: fraction) : IsNumber (first :: (tail ++ [c])) := by
  have hdigits : ∀ ds : List Char, (∀ d ∈ ds, d.isDigit) → ∀ d ∈ first :: ds, d.isDigit :=
    fun ds hds => List.forall_mem_cons.mpr ⟨hfirst, hds⟩
  rcases List.append_eq_append_iff.mp h with ⟨between, rfl, hc⟩ | ⟨between, rfl, hc⟩
  · rw [List.forall_mem_append] at hwhole
    cases between with
    | nil =>
      obtain ⟨rfl, -⟩ := List.cons.inj hc
      exact ⟨first :: tail, List.cons_ne_nil _ _, hdigits tail hwhole.1,
        .inr ⟨[], by simp, rfl⟩⟩
    | cons d between =>
      obtain ⟨rfl, -⟩ := List.cons.inj hc
      refine ⟨first :: (tail ++ [c]), List.cons_ne_nil _ _, hdigits _ ?_, .inl rfl⟩
      rw [List.forall_mem_append, List.forall_mem_singleton]
      exact ⟨hwhole.1, hwhole.2 c List.mem_cons_self⟩
  · refine ⟨first :: whole, List.cons_ne_nil _ _, hdigits whole hwhole, .inr ?_⟩
    cases between with
    | nil =>
      obtain ⟨rfl, -⟩ := List.cons.inj hc
      exact ⟨[], by simp, by simp⟩
    | cons d between =>
      rw [List.cons_append, List.cons.injEq] at hc
      obtain ⟨rfl, rfl⟩ := hc
      rw [List.forall_mem_append, List.forall_mem_cons] at hfraction
      refine ⟨between ++ [c], ?_, by simp⟩
      rw [List.forall_mem_append, List.forall_mem_singleton]
      exact ⟨hfraction.1, hfraction.2.1⟩

/-- A token that a longer one starts with goes on to a token with the very next character. -/
theorem Kind.Matches.exists_concat {kind kind' : Kind} {text rest : List Char} {c : Char}
    (h : kind.Matches text) (h' : kind'.Matches (text ++ c :: rest)) :
    ∃ longer : Kind, longer.Matches (text ++ [c]) := by
  obtain ⟨first, tail, rfl⟩ := List.exists_cons_of_ne_nil h.ne_nil
  obtain ⟨first', tail', heq, hshape⟩ := h'.exists_shape
  rw [List.cons_append, List.cons.injEq] at heq
  obtain ⟨rfl, htail⟩ := heq
  cases hshape with
  | word hfirst hrest =>
    rw [← htail, List.forall_mem_append, List.forall_mem_cons] at hrest
    refine ⟨.identifier, first, tail ++ [c], hfirst, ?_, rfl⟩
    rw [List.forall_mem_append, List.forall_mem_singleton]
    exact ⟨fun d hd => isWordChar_iff.mp (hrest.1 d hd), isWordChar_iff.mp hrest.2.1⟩
  | whole hfirst hrest =>
    rw [← htail, List.forall_mem_append, List.forall_mem_cons] at hrest
    refine ⟨.numberLit, first :: (tail ++ [c]), List.cons_ne_nil _ _, ?_, .inl rfl⟩
    rw [List.forall_mem_cons, List.forall_mem_append, List.forall_mem_singleton]
    exact ⟨hfirst, hrest.1, hrest.2.1⟩
  | decimal hfirst whole fraction hwhole hfraction hrest =>
    exact ⟨.numberLit, isNumber_of_append hfirst hwhole hfraction (htail.trans hrest)⟩
  | string hfirst body hbody hrest =>
    -- The quote that ends the shorter token would stand inside the longer one.
    obtain ⟨body', rfl⟩ := h.isString hfirst
    obtain ⟨init, last, hlast⟩ := List.eq_nil_or_concat (c :: rest) |>.resolve_left nofun
    rw [hrest, hlast, List.concat_eq_append, ← List.append_assoc] at htail
    obtain ⟨rfl, -⟩ := List.append_inj' htail rfl
    exact absurd (by simp) hbody
  | symbol hmem =>
    have hlength : ∀ symbol ∈ symbols, symbol.length ≤ 2 := by decide
    have hle := hlength _ hmem
    rw [← htail, List.length_cons, List.length_append, List.length_cons] at hle
    obtain rfl : rest = [] := List.eq_nil_of_length_eq_zero (by omega)
    exact ⟨kind', h'⟩

/-- A token is read as it is exactly if the next character does not go on with it. -/
theorem Kind.Matches.lexeme?_append_iff {kind : Kind} {text rest : List Char}
    (h : kind.Matches text) (hkeyword : text ∈ keywords → kind ≠ .identifier) :
    lexeme? (text ++ rest) = some ⟨kind, text, rest⟩ ↔
      ∀ c ∈ rest.head?, ∀ longer : Kind, ¬longer.Matches (text ++ [c]) := by
  rw [lexeme?_eq_some_iff]
  constructor
  · intro hlongest c hc longer hlonger
    obtain ⟨after, rfl⟩ := List.head?_eq_some_iff.mp hc
    have hle := hlongest.longest longer (text ++ [c]) hlonger ⟨after, by simp⟩
    rw [List.length_append, List.length_singleton] at hle
    simp only at hle
    omega
  · intro hnone
    refine ⟨rfl, h, fun longer text' hlonger hstart => ?_, hkeyword⟩
    refine Nat.le_of_not_lt fun hlt => ?_
    obtain ⟨between, rfl⟩ : text <+: text' :=
      List.prefix_of_prefix_length_le (List.prefix_append text rest) hstart (Nat.le_of_lt hlt)
    cases between with
    | nil => simp at hlt
    | cons c between =>
      obtain ⟨after, rfl⟩ := (List.prefix_append_right_inj text).mp hstart
      obtain ⟨longer', hlonger'⟩ := h.exists_concat hlonger
      exact hnone c rfl longer' hlonger'

/-- More text behind a text that a token ends in or that follows the token does not change the
token. -/
theorem lexeme?_append_of_endsToken {cs rest : List Char} {lexeme : Lexeme}
    (h : lexeme? cs = some lexeme) (hends : EndsToken rest) :
    lexeme? (cs ++ rest) = some ⟨lexeme.kind, lexeme.text, lexeme.rest ++ rest⟩ := by
  obtain ⟨kind, text, after⟩ := lexeme
  obtain ⟨hsplit, hmatches, -, hkeyword⟩ := lexeme?_eq_some_iff.mp h
  simp only at hsplit hmatches hkeyword ⊢
  subst hsplit
  rw [List.append_assoc]
  cases after with
  | nil => exact hmatches.lexeme?_append hkeyword hends
  | cons c after =>
    rw [hmatches.lexeme?_append_iff hkeyword] at h ⊢
    exact h

end ResumeFilter.Token
