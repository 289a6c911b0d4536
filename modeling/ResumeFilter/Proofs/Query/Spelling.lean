import ResumeFilter.Proofs.Query.Printable

/-!
# The tokens of a text of a query

The spellings of a query are the kinds and texts of the tokens that its text consists of. The text
of a query that can be written is scanned into just these tokens (`scan_text`): between two tokens
that could run into each other the text has a blank, and no blank separates the others.
-/

namespace ResumeFilter

open Token

/-! ## Spellings -/

/-- What a token is apart from its place. -/
def Token.spelling (token : Token) : Token.Kind × String := (token.kind, token.text)

/-- The kind of the token that a literal is written as. -/
def Literal.kind : Literal → Token.Kind
  | .int _ => .numberLit
  | .float _ => .numberLit
  | .str _ => .stringLit
  | .bool _ => .boolLit

/-- The spelling of the token that a literal is written as. -/
def Literal.spelling (literal : Literal) : Token.Kind × String := (literal.kind, literal.text)

/-- The spellings of the tokens that the values of a set are written as. -/
def Grammar.valueSpellings : List Value → List (Token.Kind × String)
  | [] => []
  | [value] => [value.literal.spelling]
  | value :: values => value.literal.spelling :: (.comma, ",") :: valueSpellings values

/-- The spellings of the tokens that an operand is written as. -/
def Operand.spellings : Operand → List (Token.Kind × String)
  | .scalar value => [value.literal.spelling]
  | .set values _ =>
    (.braceOpen, "\x7b") :: (Grammar.valueSpellings values ++ [(.braceClose, "\x7d")])

/-- Spellings of a query, in parentheses if it is a chain. -/
def Grammar.grouped (isLogical : Bool) (spellings : List (Token.Kind × String)) :
    List (Token.Kind × String) :=
  if isLogical then (.parenOpen, "(") :: (spellings ++ [(.parenClose, ")")]) else spellings

/-- The spellings of the tokens that a query is written as. -/
def Query.spellings : Query → List (Token.Kind × String)
  | .comparison c =>
    (.identifier, c.field.name) :: (c.op.kind, c.op.text) :: c.operand.spellings
  | .not inner => (.not, "NOT") :: Grammar.grouped inner.isLogical inner.spellings
  | .logical op left right =>
    left.spellings ++ (op.kind, op.text) :: Grammar.grouped right.isLogical right.spellings

/-! ## Texts with given spellings -/

/-- Whether a text is scanned into tokens of given spellings. -/
inductive Spells : List Char → List (Token.Kind × String) → Prop
  | nil : Spells [] []
  | blank {c : Char} {cs : List Char} {spellings : List (Token.Kind × String)} (hc : isBlank c)
    (h : Spells cs spellings) : Spells (c :: cs) spellings
  | token {kind : Token.Kind} {text : String} {cs : List Char}
    {spellings : List (Token.Kind × String)}
    (hread : lexeme? (text.toList ++ cs) = some ⟨kind, text.toList, cs⟩)
    (h : Spells cs spellings) : Spells (text.toList ++ cs) ((kind, text) :: spellings)

/-- The scanner finds the tokens of the spellings, wherever the text starts. -/
theorem Spells.exists_run {cs : List Char} {spellings : List (Token.Kind × String)}
    (h : Spells cs spellings) (offset : Nat) :
    ∃ tokens stop, Run offset cs tokens stop [] ∧ tokens.map Token.spelling = spellings := by
  induction h generalizing offset with
  | nil => exact ⟨[], offset, .done offset [], rfl⟩
  | blank hc _ ih =>
    obtain ⟨tokens, stop, hrun, htokens⟩ := ih (offset + _)
    exact ⟨tokens, stop, .blank hc hrun, htokens⟩
  | @token kind text cs spellings hread _ ih =>
    obtain ⟨tokens, stop, hrun, htokens⟩ := ih (offset + Text.byteLength text.toList)
    refine ⟨_, stop, .token hread hrun, ?_⟩
    rw [List.map_cons, htokens, Token.spelling, Lexeme.token, String.ofList_toList]

/-- A text with spellings is scanned into tokens that have these spellings. -/
theorem scan_of_spells {cs : List Char} {spellings : List (Token.Kind × String)}
    (h : Spells cs spellings) :
    ∃ tokens, scan cs = .ok tokens ∧ tokens.map Token.spelling = spellings := by
  obtain ⟨tokens, stop, hrun, htokens⟩ := h.exists_run 0
  exact ⟨tokens, scan_of_run hrun (by simp [Stuck]), htokens⟩

/-- A text that fits a kind, in front of something that ends it, spells a token of this kind. -/
theorem spells_token {kind : Token.Kind} {text : String} {cs : List Char}
    {spellings : List (Token.Kind × String)} (hmatches : kind.Matches text.toList)
    (hkeyword : text.toList ∈ keywords → kind ≠ .identifier) (hends : EndsToken cs)
    (h : Spells cs spellings) : Spells (text.toList ++ cs) ((kind, text) :: spellings) :=
  .token (hmatches.lexeme?_append hkeyword hends) h

/-- A blank in front of a text spells nothing. -/
theorem spells_blank {cs : List Char} {spellings : List (Token.Kind × String)}
    (h : Spells cs spellings) : Spells (' ' :: cs) spellings := .blank rfl h

/-- Blanks, commas and closing brackets end every token. -/
theorem endsToken_cons {c : Char} (h : c ∈ blanks ++ [',', ')', '}']) (cs : List Char) :
    EndsToken (c :: cs) := by
  have hall : (blanks ++ [',', ')', '}']).all fun d =>
      !isWordChar d && !d.isDigit && decide (d ≠ '.') && decide (d ≠ '=') := by decide
  intro d hd
  obtain rfl := Option.some.inj hd
  simpa [and_assoc] using List.all_eq_true.mp hall c h

/-- A blank ends every token. -/
theorem endsToken_blank (cs : List Char) : EndsToken (' ' :: cs) := endsToken_cons (by decide) cs

/-! ## The texts of operands -/

/-- The text of a literal is one of its kind. -/
theorem Literal.matches_text {literal : Literal} (h : literal.Printable) :
    literal.kind.Matches literal.text.toList := by
  cases literal with
  | int n => exact (ofNumber?_text_int h).1
  | float x => exact (ofNumber?_text_float h).1
  | str s =>
    rw [Literal.text]
    split_ifs with hsingle
    · refine ⟨'"', s.toList, .inr rfl, fun hdouble => h ⟨hsingle, hdouble⟩, ?_⟩
      simp
    · exact ⟨'\'', s.toList, .inl rfl, hsingle, by simp⟩
  | bool b =>
    cases b
    · exact .inr rfl
    · exact .inl rfl

/-- A literal is no field name. -/
theorem Literal.kind_ne (literal : Literal) : literal.kind ≠ .identifier := by
  cases literal <;> nofun

/-- The text of a literal spells it. -/
theorem Literal.spells_text {literal : Literal} (h : literal.Printable) {cs : List Char}
    {spellings : List (Token.Kind × String)} (hends : EndsToken cs) (hcs : Spells cs spellings) :
    Spells (literal.text.toList ++ cs) (literal.spelling :: spellings) :=
  spells_token (literal.matches_text h) (fun _ => literal.kind_ne) hends hcs

/-- A comma and a blank spell a comma. -/
theorem spells_separator {cs : List Char} {spellings : List (Token.Kind × String)}
    (h : Spells cs spellings) : Spells (',' :: ' ' :: cs) ((.comma, ",") :: spellings) :=
  @Spells.token .comma "," (' ' :: cs) spellings rfl (.blank rfl h)

/-- The text of the values of a set spells them. -/
theorem spells_values {values : List Value} (h : ∀ value ∈ values, value.literal.Printable)
    {cs : List Char} {spellings : List (Token.Kind × String)} (hends : EndsToken cs)
    (hcs : Spells cs spellings) :
    Spells ((", ".intercalate (values.map fun value => value.literal.text)).toList ++ cs)
      (Grammar.valueSpellings values ++ spellings) := by
  induction values using Grammar.valueSpellings.induct with
  | case1 => exact hcs
  | case2 value => exact value.literal.spells_text (h value List.mem_cons_self) hends hcs
  | case3 value values hne ih =>
    obtain ⟨next, values, rfl⟩ := List.exists_cons_of_ne_nil hne
    rw [List.forall_mem_cons] at h
    have hvalue := value.literal.spells_text h.1 (endsToken_cons (by decide) _)
      (spells_separator (ih h.2))
    rw [Grammar.valueSpellings.eq_3 _ _ hne, List.map_cons, List.map_cons,
      String.intercalate_cons_cons]
    simpa using hvalue

/-- The text of an operand spells it. -/
theorem Operand.spells_text {o : Operand} (h : o.Printable) {cs : List Char}
    {spellings : List (Token.Kind × String)} (hends : EndsToken cs) (hcs : Spells cs spellings) :
    Spells (o.text.toList ++ cs) (o.spellings ++ spellings) := by
  cases o with
  | scalar value => exact value.literal.spells_text h hends hcs
  | set values span =>
    have hclosing : Spells ('}' :: cs) ((.braceClose, "\x7d") :: spellings) :=
      @Spells.token .braceClose "\x7d" cs spellings rfl hcs
    have hvalues := spells_values h (endsToken_cons (by decide) cs) hclosing
    have hset := @Spells.token .braceOpen "\x7b" _ _ rfl hvalues
    simpa [Operand.text, Operand.spellings] using hset

/-! ## The texts of queries -/

/-- The spelling of a comparison fits its kind. -/
theorem CompareOp.matches_text (op : CompareOp) :
    op.kind.Matches op.text.toList ∧ op.kind ≠ .identifier := by
  rcases op with ⟨_ | _ | _ | _ | _ | _⟩ | _ <;> exact ⟨rfl, nofun⟩

/-- The spelling of a junction fits its kind. -/
theorem LogicalOp.matches_text (op : LogicalOp) :
    op.kind.Matches op.text.toList ∧ op.kind ≠ .identifier := by
  cases op <;> exact ⟨rfl, nofun⟩

/-- The text of a comparison spells it. -/
theorem Comparison.spells_text {c : Comparison} (h : c.Printable) {cs : List Char}
    {spellings : List (Token.Kind × String)} (hends : EndsToken cs) (hcs : Spells cs spellings) :
    Spells (c.text.toList ++ cs) ((Query.comparison c).spellings ++ spellings) := by
  obtain ⟨hname, hkeyword, hoperand⟩ := h
  obtain ⟨hmatches, hne⟩ := c.op.matches_text
  have hop := spells_token hmatches (fun _ => hne) (endsToken_blank _)
    (spells_blank (c.operand.spells_text hoperand hends hcs))
  have hfield := @spells_token .identifier c.field.name _ _ hname (fun h => absurd h hkeyword)
    (endsToken_blank _) (spells_blank hop)
  simpa [Comparison.text, Query.spellings] using hfield

/-- If a text spells a query in front of anything that ends it, then so does the text in
parentheses, where these are called for. -/
theorem spells_grouped {pieces : List String → List String} {inner : List (Token.Kind × String)}
    (h : ∀ rest spellings, EndsToken (String.join rest).toList →
      Spells (String.join rest).toList spellings →
      Spells (String.join (pieces rest)).toList (inner ++ spellings)) {rest : List String}
    {spellings : List (Token.Kind × String)} (hends : EndsToken (String.join rest).toList)
    (hrest : Spells (String.join rest).toList spellings) (isLogical : Bool) :
    Spells (String.join (if isLogical then "(" :: pieces (")" :: rest) else pieces rest)).toList
      (Grammar.grouped isLogical inner ++ spellings) := by
  cases isLogical with
  | false => exact h rest spellings hends hrest
  | true =>
    have hclosing := @Spells.token .parenClose ")" _ _ rfl hrest
    rw [← String.toList_append, ← String.join_cons] at hclosing
    have hinner := h (")" :: rest) ((.parenClose, ")") :: spellings)
      (by rw [String.join_cons, String.toList_append]; exact endsToken_cons (by decide) _) hclosing
    have hopening := @Spells.token .parenOpen "(" _ _ rfl hinner
    rw [← String.toList_append, ← String.join_cons] at hopening
    simpa [Grammar.grouped] using hopening

/-- The text of a query that can be written, in front of anything that ends it, spells the query. -/
theorem Query.spells_piecesThen {q : Query} (h : q.Printable) :
    ∀ rest spellings, EndsToken (String.join rest).toList →
      Spells (String.join rest).toList spellings →
      Spells (String.join (q.piecesThen rest)).toList (q.spellings ++ spellings) := by
  induction q with
  | comparison c =>
    intro rest spellings hends hrest
    rw [Query.piecesThen, String.join_cons, String.toList_append]
    exact c.spells_text h hends hrest
  | not inner ih =>
    intro rest spellings hends hrest
    have hgroup := spells_grouped (ih h) hends hrest inner.isLogical
    have hnot := @spells_token .not "NOT" _ _ rfl nofun (endsToken_blank _) (spells_blank hgroup)
    rw [Query.piecesThen, Query.spellings]
    split_ifs with hlogical
    · simpa [hlogical] using hnot
    · simpa [hlogical] using hnot
  | logical op left right ihleft ihright =>
    intro rest spellings hends hrest
    have hgroup := spells_grouped (ihright h.2) hends hrest right.isLogical
    obtain ⟨hmatches, hne⟩ := op.matches_text
    have hop := spells_blank
      (spells_token hmatches (fun _ => hne) (endsToken_blank _) (spells_blank hgroup))
    rw [Query.piecesThen, Query.spellings, List.append_assoc]
    refine ihleft h.1 _ _ ?_ ?_
    · rw [String.join_cons, String.toList_append]
      simpa using endsToken_blank _
    · rw [String.join_cons, String.toList_append]
      simpa using hop

/-- The text of a query that can be written is scanned into tokens that have the query's
spellings. -/
theorem Query.scan_text {q : Query} (h : q.Printable) :
    ∃ tokens, scan q.text.toList = .ok tokens ∧ tokens.map Token.spelling = q.spellings := by
  have hspells := q.spells_piecesThen h [] [] endsToken_nil .nil
  rw [List.append_nil] at hspells
  exact scan_of_spells hspells

end ResumeFilter
