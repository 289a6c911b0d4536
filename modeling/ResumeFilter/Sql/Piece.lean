/-!
# Pieces of SQL text

A statement is laid out in pieces, and a configuration says how to spell them. Fixed words are
spelled alike everywhere; names may be quoted, and parameters are either all alike or numbered.
-/

namespace ResumeFilter.Sql

/-- How a parameter is spelled. -/
inductive Placeholder
  /-- A question mark for every parameter. -/
  | question
  /-- A dollar sign and the parameter's number, the first one being number one. -/
  | dollar
deriving DecidableEq

/-- How the pieces of a statement are spelled. -/
structure Config where
  placeholder : Placeholder := .question
  quoteNames : Bool := true
deriving DecidableEq

/-- A piece of a statement. -/
inductive Piece
  /-- A keyword, operator or punctuation mark with the blanks around it. -/
  | word (text : String)
  /-- The name of a table or column. -/
  | name (text : String)
  /-- A parameter, counted from zero. -/
  | param (index : Nat)
deriving DecidableEq

/-- The spelling of a piece. -/
def Piece.text (config : Config) : Piece → String
  | .word text => text
  | .name text => if config.quoteNames then "\"" ++ text ++ "\"" else text
  | .param index =>
    match config.placeholder with
    | .question => "?"
    | .dollar => "$" ++ toString (index + 1)

/-- The spelling of a sequence of pieces. -/
def spell (config : Config) (pieces : List Piece) : String :=
  String.join (pieces.map (Piece.text config))

/-- A piece is spelled in front of the others. -/
theorem spell_cons (config : Config) (piece : Piece) (pieces : List Piece) :
    spell config (piece :: pieces) = piece.text config ++ spell config pieces := by
  rw [spell, List.map_cons, String.join_cons, spell]

/-- Pieces are spelled one after the other. -/
theorem spell_append (config : Config) (first second : List Piece) :
    spell config (first ++ second) = spell config first ++ spell config second := by
  rw [spell, List.map_append, String.join_append, spell, spell]

end ResumeFilter.Sql
