import ResumeFilter.Text.Escaped
import ResumeFilter.Token

/-!
# Reading tokens from a text

At each place the scanner skips blanks and otherwise takes the longest text that is a token there.
Keywords are words of capital letters that have a meaning of their own: a longer word that starts
with one is a field name. The first place where no token starts ends the scan with an error.

Spans have room for places of 32 bits. A source with more bytes is refused before it is scanned
(`Token.scanBounded`). What reads a source takes it to be shorter, and starts with `Token.scan`.
-/

namespace ResumeFilter

/-! ## Errors -/

/-- Why a scan failed. -/
inductive LexError.Reason
  /-- No token starts with this character, or the one that does has no end. -/
  | invalidCharacter (c : Char)
  /-- The text has so many bytes that spans cannot name all its places. -/
  | tooLong (length : Nat)
  /-- A failure found elsewhere, in its own words. -/
  | other (message : String)
deriving DecidableEq

/-- The first place of a text at which no token starts, or the start of a text that is too long. -/
structure LexError where
  offset : Nat
  reason : LexError.Reason
deriving DecidableEq

namespace LexError

/-- The largest place that a span can name. -/
def maxOffset : Nat := 4294967295

/-- The wording of a reason. -/
def Reason.message : Reason → String
  | .invalidCharacter c => "invalid character sequence starting with " ++ Text.quotedChar c
  | .tooLong length =>
    "query of " ++ toString length ++ " bytes exceeds the limit of " ++ toString maxOffset ++
      " bytes"
  | .other message => message

/-- What is wrong, without the place. -/
def message (error : LexError) : String := error.reason.message

/-- What is wrong and where. -/
def display (error : LexError) : String :=
  error.message ++ " at offset " ++ toString error.offset

/-- The empty span at the failing place. -/
def span (error : LexError) : Span := .empty (min error.offset maxOffset)

end LexError

namespace Token

/-! ## One token -/

/-- Whether a character separates tokens and is otherwise ignored. -/
def isBlank (c : Char) : Bool := c = ' ' || c = '\t' || c = '\r' || c = '\n'

/-- Whether a word can go on with a character. -/
def isWordChar (c : Char) : Bool := c.isUpper || c = '_'

/-- The kind of a word: one of the keywords or a field name. -/
def wordKind (word : List Char) : Kind :=
  if word = ['A', 'N', 'D'] then .and
  else if word = ['O', 'R'] then .or
  else if word = ['N', 'O', 'T'] then .not
  else if word = ['I', 'N'] then .isIn
  else if word = ['T', 'R', 'U', 'E'] || word = ['F', 'A', 'L', 'S', 'E'] then .boolLit
  else .identifier

/-- A token at the start of a text, and what follows it. -/
structure Lexeme where
  kind : Kind
  text : List Char
  rest : List Char
deriving DecidableEq

/-- Digits, then perhaps a point and more digits. -/
def numberLexeme (cs : List Char) : Lexeme :=
  let whole := cs.takeWhile Char.isDigit
  match cs.dropWhile Char.isDigit with
  | '.' :: rest =>
    ⟨.numberLit, whole ++ '.' :: rest.takeWhile Char.isDigit, rest.dropWhile Char.isDigit⟩
  | rest => ⟨.numberLit, whole, rest⟩

/-- A string literal after its opening `quote`; it ends at the next one, if there is one. -/
def stringLexeme? (quote : Char) (cs : List Char) : Option Lexeme :=
  match cs.dropWhile (· ≠ quote) with
  | [] => none
  | close :: rest => some ⟨.stringLit, quote :: cs.takeWhile (· ≠ quote) ++ [close], rest⟩

/-- The longest token at the start of a text. -/
def lexeme? : List Char → Option Lexeme
  | [] => none
  | '(' :: rest => some ⟨.parenOpen, ['('], rest⟩
  | ')' :: rest => some ⟨.parenClose, [')'], rest⟩
  | '{' :: rest => some ⟨.braceOpen, ['{'], rest⟩
  | '}' :: rest => some ⟨.braceClose, ['}'], rest⟩
  | ',' :: rest => some ⟨.comma, [','], rest⟩
  | '=' :: rest => some ⟨.eq, ['='], rest⟩
  | '!' :: '=' :: rest => some ⟨.notEq, ['!', '='], rest⟩
  | '>' :: '=' :: rest => some ⟨.gtEq, ['>', '='], rest⟩
  | '>' :: rest => some ⟨.gt, ['>'], rest⟩
  | '<' :: '=' :: rest => some ⟨.ltEq, ['<', '='], rest⟩
  | '<' :: rest => some ⟨.lt, ['<'], rest⟩
  | '\'' :: rest => stringLexeme? '\'' rest
  | '"' :: rest => stringLexeme? '"' rest
  | c :: rest =>
    if c.isDigit then some (numberLexeme (c :: rest))
    else if c.isUpper then
      let word := c :: rest.takeWhile isWordChar
      some ⟨wordKind word, word, rest.dropWhile isWordChar⟩
    else none

/-! ## All tokens -/

/-- Scans what is left of a source from `offset` on, `found` being the tokens before it.

Every step takes at least one character, so as many steps as there are characters are enough. -/
def scanFrom : Nat → Nat → List Char → List Token → Except LexError (List Token)
  | 0, _, _, found => .ok found.reverse
  | _ + 1, _, [], found => .ok found.reverse
  | fuel + 1, offset, c :: cs, found =>
    if isBlank c then scanFrom fuel (offset + c.utf8Size) cs found
    else
      match lexeme? (c :: cs) with
      | none => .error ⟨offset, .invalidCharacter c⟩
      | some lexeme =>
        let stop := offset + Text.byteLength lexeme.text
        let token : Token := ⟨lexeme.kind, ⟨offset, stop⟩, String.ofList lexeme.text⟩
        scanFrom fuel stop lexeme.rest (token :: found)

/-- The tokens of a source, in order. -/
def scan (source : List Char) : Except LexError (List Token) :=
  scanFrom source.length 0 source []

/-- The tokens of a source, unless it is too long for the places in it to be named. -/
def scanBounded (source : List Char) : Except LexError (List Token) :=
  let length := Text.byteLength source
  if LexError.maxOffset < length then .error ⟨0, .tooLong length⟩ else scan source

end Token

end ResumeFilter
