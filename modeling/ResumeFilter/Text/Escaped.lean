import ResumeFilter.Text.Printable

/-!
# Characters and strings shown between quotes

Where a message has to show a character that may be invisible, it shows it between quotes with the
invisible ones, the quote and the backslash written as escapes.
-/

namespace ResumeFilter.Text

/-- A character as it is written between two `quote`s. -/
def escape (quote c : Char) : String :=
  if c = '\x00' then "\\0"
  else if c = '\t' then "\\t"
  else if c = '\r' then "\\r"
  else if c = '\n' then "\\n"
  else if c = '\\' || c = quote then String.ofList ['\\', c]
  else if isExtender c || !isPrintable c then
    "\\u\x7b" ++ String.ofList (Nat.toDigits 16 c.toNat) ++ "\x7d"
  else String.ofList [c]

/-- A character between single quotes. -/
def quotedChar (c : Char) : String := "'" ++ escape '\'' c ++ "'"

/-- A string between double quotes. -/
def quotedString (s : String) : String :=
  s.foldl (fun out c => out ++ escape '"' c) "\"" ++ "\""

end ResumeFilter.Text
