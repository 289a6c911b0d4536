import ResumeFilter.Decimal.Numeral
import ResumeFilter.Proofs.Sql.Formula

/-!
# Reading conditions as SQL

A reader for the conditions of select statements, which knows nothing of how they are written. It
finds the condition behind `WHERE`, splits it into words, counts the placeholders, puts their values
in their place and reads the formula. Names may be quoted or not, `NOT` negates the group behind it,
chains are joined from the left, and one of the junctions binds tighter than the other.
-/

namespace ResumeFilter

/-- The other junction. -/
def LogicalOp.other : LogicalOp → LogicalOp
  | .and => .or
  | .or => .and

namespace Sql

/-! ## Words -/

/-- A word of a condition; what a parameter is given as is up to `α`. -/
inductive Word (α : Type)
  | name (text : String)
  | number (n : Nat)
  | operator (op : ScalarOp)
  | junction (op : LogicalOp)
  | not
  | isIn
  | opening
  | closing
  | comma
  | dot
  | param (a : α)
deriving DecidableEq

namespace Word

variable {α β : Type}

/-- A word with its parameter exchanged, if it is possible to exchange it. -/
def mapM (f : α → Option β) : Word α → Option (Word β)
  | name text => some (name text)
  | number n => some (number n)
  | operator op => some (operator op)
  | junction op => some (junction op)
  | not => some not
  | isIn => some isIn
  | opening => some opening
  | closing => some closing
  | comma => some comma
  | dot => some dot
  | param a => (f a).map param

/-- A word with its parameter exchanged. -/
def map (f : α → β) : Word α → Word β
  | name text => name text
  | number n => number n
  | operator op => operator op
  | junction op => junction op
  | not => not
  | isIn => isIn
  | opening => opening
  | closing => closing
  | comma => comma
  | dot => dot
  | param a => param (f a)

end Word

/-- Whether a name without quotes can go on with a character. -/
def isNameChar (c : Char) : Bool := c.isAlphanum || c = '_'

/-- The word of a text of letters: a keyword or a name. -/
def letterWord {α : Type} (text : List Char) : Word α :=
  if text = ['A', 'N', 'D'] then .junction .and
  else if text = ['O', 'R'] then .junction .or
  else if text = ['N', 'O', 'T'] then .not
  else if text = ['I', 'N'] then .isIn
  else .name (String.ofList text)

/-- The word at the start of a text that does not start with a blank, and what follows it. A
placeholder is given as its number, if it has one. -/
def word? : List Char → Option (Word (Option Nat) × List Char)
  | [] => none
  | '(' :: rest => some (.opening, rest)
  | ')' :: rest => some (.closing, rest)
  | ',' :: rest => some (.comma, rest)
  | '.' :: rest => some (.dot, rest)
  | '=' :: rest => some (.operator .eq, rest)
  | '<' :: '>' :: rest => some (.operator .notEq, rest)
  | '<' :: '=' :: rest => some (.operator .ltEq, rest)
  | '<' :: rest => some (.operator .lt, rest)
  | '>' :: '=' :: rest => some (.operator .gtEq, rest)
  | '>' :: rest => some (.operator .gt, rest)
  | '?' :: rest => some (.param none, rest)
  | '$' :: rest =>
    (Numeral.natural? (rest.takeWhile Char.isDigit)).map fun n =>
      (.param (some n), rest.dropWhile Char.isDigit)
  | '"' :: rest =>
    match rest.dropWhile (· ≠ '"') with
    | [] => none
    | _ :: after => some (.name (String.ofList (rest.takeWhile (· ≠ '"'))), after)
  | c :: rest =>
    if c.isDigit then
      (Numeral.natural? ((c :: rest).takeWhile Char.isDigit)).map fun n =>
        (.number n, (c :: rest).dropWhile Char.isDigit)
    else if isNameChar c then
      some (letterWord (c :: rest.takeWhile isNameChar), rest.dropWhile isNameChar)
    else none

/-- The words of a text, of which there are no more than `fuel` characters. -/
def wordsFrom : Nat → List Char → Option (List (Word (Option Nat)))
  | _, [] => some []
  | 0, _ :: _ => none
  | fuel + 1, c :: cs =>
    if c = ' ' then wordsFrom fuel cs
    else (word? (c :: cs)).bind fun (word, rest) => (wordsFrom fuel rest).map (word :: ·)

/-- The words of a text. -/
def words? (cs : List Char) : Option (List (Word (Option Nat))) := wordsFrom cs.length cs

/-! ## Parameters -/

/-- The words with all placeholders numbered: those without a number are counted from `next` on. -/
def numbered : Nat → List (Word (Option Nat)) → List (Word Nat)
  | _, [] => []
  | next, word :: words =>
    word.map (Option.getD · next) :: numbered (if word = .param none then next + 1 else next) words

/-- The value of the placeholder with a number, the first one being number one. -/
def valueOf? (params : List Literal) : Nat → Option Literal
  | 0 => none
  | index + 1 => params[index]?

/-- The words with the values of the parameters in place of the placeholders. -/
def bound? (params : List Literal) (words : List (Word (Option Nat))) :
    Option (List (Word Literal)) :=
  (numbered 1 words).mapM (Word.mapM (valueOf? params))

/-! ## Formulas -/

/-- A formula and the words behind it. -/
abbrev Reading := Option (Formula × List (Word Literal))

/-- The values of a list that has already got one, up to its end. -/
def moreValues? : List (Word Literal) → Option (List Literal × List (Word Literal))
  | .closing :: rest => some ([], rest)
  | .comma :: .param value :: rest =>
    (moreValues? rest).map fun (values, rest) => (value :: values, rest)
  | _ => none

/-- A condition without parts. -/
def atom? : List (Word Literal) → Reading
  | .number 1 :: .operator .eq :: .number 0 :: rest => some (.falsum, rest)
  | .name table :: .dot :: .name column :: .operator op :: .param value :: rest =>
    some (.compare ⟨table, column⟩ op value, rest)
  | .name table :: .dot :: .name column :: .isIn :: .opening :: .param first :: rest =>
    (moreValues? rest).map fun (values, rest) => (.isIn ⟨table, column⟩ first values, rest)
  | _ => none

/-- Goes on with a chain of one junction after its operands so far, which are `left`. -/
def chain? (op : LogicalOp) (operand : List (Word Literal) → Reading) :
    Nat → Formula → List (Word Literal) → Reading
  | fuel + 1, left, .junction op' :: rest =>
    if op' = op then
      (operand rest).bind fun (right, rest) => chain? op operand fuel (.combine op left right) rest
    else some (left, .junction op' :: rest)
  | _, left, words => some (left, words)

/-- Operands joined by one junction from the left. -/
def joined? (op : LogicalOp) (operand : List (Word Literal) → Reading) (fuel : Nat)
    (words : List (Word Literal)) : Reading :=
  (operand words).bind fun (first, rest) => chain? op operand fuel first rest

/-- A formula whose chains are joined by either junction, `tight` binding tighter. -/
def formula? (tight : LogicalOp) (operand : List (Word Literal) → Reading) (fuel : Nat) :
    List (Word Literal) → Reading :=
  joined? tight.other (joined? tight operand fuel) fuel

/-- The parenthesis that closes a group, after the formula in the group. -/
def closed? : Formula × List (Word Literal) → Reading
  | (inner, .closing :: rest) => some (inner, rest)
  | _ => none

/-- An operand of a chain: a group, the negation of a group or a condition without parts. -/
def operand? (tight : LogicalOp) : Nat → List (Word Literal) → Reading
  | 0, _ => none
  | fuel + 1, .opening :: rest => (formula? tight (operand? tight fuel) fuel rest).bind closed?
  | fuel + 1, .not :: .opening :: rest =>
    ((formula? tight (operand? tight fuel) fuel rest).bind closed?).map fun (inner, rest) =>
      (.not inner, rest)
  | _ + 1, words => atom? words

/-- The formula of words, all of them. -/
def formulaOf? (tight : LogicalOp) (words : List (Word Literal)) : Option Formula :=
  match formula? tight (operand? tight words.length) words.length words with
  | some (formula, []) => some formula
  | _ => none

/-- The formula that a condition stands for when its parameters have given values. -/
def readCondition? (tight : LogicalOp) (params : List Literal) (cs : List Char) : Option Formula :=
  ((words? cs).bind (bound? params)).bind (formulaOf? tight)

/-- The condition of a select statement: what is behind the first `WHERE`. -/
def afterWhere? : List Char → Option (List Char)
  | [] => none
  | ' ' :: 'W' :: 'H' :: 'E' :: 'R' :: 'E' :: ' ' :: condition => some condition
  | _ :: cs => afterWhere? cs

end Sql

end ResumeFilter
