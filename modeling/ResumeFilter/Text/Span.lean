/-!
# Spans of a text

Places in a source text are counted in bytes of its UTF-8 encoding. A span is a pair of such
places, and a slice is what stands between them.
-/

namespace ResumeFilter

/-- The stretch of a text from byte `start` up to, but not including, byte `stop`. -/
structure Span where
  start : Nat
  stop : Nat
deriving DecidableEq

namespace Span

/-- The span of no width at a place. -/
def empty (offset : Nat) : Span := ⟨offset, offset⟩

/-- The least span that holds two given ones. -/
def cover (a b : Span) : Span := ⟨min a.start b.start, max a.stop b.stop⟩

end Span

namespace Text

/-- Where sums of lengths start. With this instance in scope a sum is that of the core library, even
where algebra offers a zero of its own. -/
abbrev zeroLength : Zero Nat := Zero.ofOfNat0

attribute [local instance] zeroLength

/-- The number of bytes that characters take in UTF-8. -/
def byteLength (cs : List Char) : Nat := (cs.map Char.utf8Size).sum

/-- What is left of a text after its first `n` bytes; a character that is cut goes entirely. -/
def dropBytes : Nat → List Char → List Char
  | 0, cs => cs
  | _ + 1, [] => []
  | n + 1, c :: cs => dropBytes (n + 1 - c.utf8Size) cs

/-- The first `n` bytes of a text; a character that is cut stays entirely. -/
def takeBytes : Nat → List Char → List Char
  | 0, _ => []
  | _ + 1, [] => []
  | n + 1, c :: cs => c :: takeBytes (n + 1 - c.utf8Size) cs

/-- What stands in a text between the two ends of a span. -/
def slice (cs : List Char) (span : Span) : List Char :=
  takeBytes (span.stop - span.start) (dropBytes span.start cs)

end Text

end ResumeFilter
