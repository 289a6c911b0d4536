/-!
# Canvases

A report is drawn on a canvas: rows of cells, each a character in a style, where what is drawn later
covers what was there. Cells that nothing was drawn into are blank, and rows end with their last
drawn cell.
-/

namespace ResumeFilter.Report

/-- How a character stands out. -/
inductive Style
  | plain
  /-- The title. -/
  | title
  /-- What is wrong. -/
  | error
  /-- What frames the source and what explains the error. -/
  | frame
deriving DecidableEq

/-- The codes that switch a terminal to a style. -/
def Style.codes : Style → String
  | .plain => ""
  | .title => "\x1b[1m"
  | .error => "\x1b[1m\x1b[91m"
  | .frame => "\x1b[1m\x1b[94m"

/-- The codes that end a style. -/
def Style.reset : Style → String
  | .plain => ""
  | _ => "\x1b[0m"

/-- A character in a style. -/
structure Cell where
  char : Char
  style : Style
deriving DecidableEq

/-- A row of a canvas. -/
abbrev Row := Array Cell

namespace Row

/-- Draws one character. -/
def put (column : Nat) (style : Style) (c : Char) (row : Row) : Row :=
  let blank : Cell := ⟨' ', .plain⟩
  let row := row ++ Array.replicate (column + 1 - row.size) blank
  row.setIfInBounds column ⟨c, style⟩

/-- Draws a text, one cell for each character. -/
def write (column : Nat) (style : Style) (text : List Char) (row : Row) : Row :=
  (text.foldl (fun (state : Nat × Row) c => (state.1 + 1, state.2.put state.1 style c))
    (column, row)).2

/-- Draws a text behind all that is there. -/
def append (style : Style) (text : List Char) (row : Row) : Row := row.write row.size style text

/-- The text of a row; in colour, cells of one style share their codes. -/
def text (colored : Bool) (row : Row) : String :=
  let (out, style) := row.foldl (fun (state : String × Style) cell =>
    let (out, style) := state
    if colored && cell.style ≠ style then
      ((out ++ style.reset ++ cell.style.codes).push cell.char, cell.style)
    else (out.push cell.char, style)) ("", .plain)
  out ++ style.reset

end Row

/-- The rows of a drawing, from the top. -/
abbrev Canvas := Array Row

namespace Canvas

/-- Changes a row; rows above it that are not there yet are empty. -/
def modifyRow (row : Nat) (change : Row → Row) (canvas : Canvas) : Canvas :=
  let canvas := canvas ++ Array.replicate (row + 1 - canvas.size) #[]
  canvas.modify row change

/-- Draws one character. -/
def put (row column : Nat) (style : Style) (c : Char) (canvas : Canvas) : Canvas :=
  canvas.modifyRow row (Row.put column style c)

/-- Draws a text; the empty one leaves no trace. -/
def write (row column : Nat) (style : Style) (text : List Char) (canvas : Canvas) : Canvas :=
  if text.isEmpty then canvas else canvas.modifyRow row (Row.write column style text)

/-- Draws a character into a column of `count` rows from `row` on. -/
def putDown (row count column : Nat) (style : Style) (c : Char) (canvas : Canvas) : Canvas :=
  (List.range' row count).foldl (fun canvas row => canvas.put row column style c) canvas

/-- Draws a character into the columns from `start` up to, but not including, `stop`. -/
def putAcross (row start stop : Nat) (style : Style) (c : Char) (canvas : Canvas) : Canvas :=
  canvas.write row start style (List.replicate (stop - start) c)

/-- The text of a canvas, its rows as lines. -/
def text (colored : Bool) (canvas : Canvas) : String :=
  "\n".intercalate (canvas.toList.map (Row.text colored))

end Canvas

end ResumeFilter.Report
