import Packrat.Input.Lines
import Packrat.Scan.Cursor
import Packrat.Text.ByteOffset
import Packrat.Text.Quoted
import Packrat.Text.Width

/-
**Excerpts that point at a place in the input.**

A text is shown by the line around the place, cut on either side when it is too wide; raw bytes
are shown by the byte at the place and its neighbours.  A caret on the next line points at the
place.

Main definitions:

* `Packrat.Excerpt.trimSides` — the two sides of a line, each cut to its share of the width;
* `Packrat.Excerpt.ofText?` — the excerpt of a text, if no offset is out of place;
* `Packrat.excerpt` — the excerpt at a position.

Main results:

* `Packrat.Excerpt.trimSides_of_le` — a line that fits is shown whole.
-/

set_option autoImplicit false

namespace Packrat

namespace Excerpt

/-- The mark for what is left out. -/
def ellipsis : List Char := ['.', '.', '.']

/-- The two sides of a line. When they are too wide together, each is cut to half of the width
that two marks leave. -/
def trimSides (before after : List Char) (width : Nat) : List Char × List Char :=
  if before.length + after.length ≤ width then (before, after)
  else
    let half := (width - 2 * ellipsis.length) / 2
    (if before.length > half then ellipsis ++ before.drop (before.length - half) else before,
      if after.length > half then after.take half ++ ellipsis else after)

theorem trimSides_of_le {before after : List Char} {width : Nat}
    (h : before.length + after.length ≤ width) :
    trimSides before after width = (before, after) := by
  simp [trimSides, h]

/-- A line with a caret below it. -/
def withCaret (line : String) (columns : Nat) : String :=
  line ++ "\n" ++ String.ofList (List.replicate columns ' ') ++ "^"

/-- A line without the carriage returns at its end. -/
def stripReturns (line : List Char) : List Char :=
  (line.reverse.dropWhile (· == '\r')).reverse

/-- The excerpt of a text at a position. There is none if the line or the position in it is out of
range, or where the line is to be split is no boundary. -/
def ofText? [Text.Display] (s : String) (table : LineTable) (position : Position) (width : Nat) :
    Option String := do
  let (start, stop) ← table.lineBounds? (.text s) position.line
  let line := stripReturns ((Text.slice? start stop s.toList).getD [])
  guard (start ≤ position.index)
  -- The position may be in the newline or the carriage returns, or inside of a character.
  let offset := Text.floorBoundary line (min (position.index - start) (Scan.byteLength line))
  let (before, after) ← Text.splitAt? offset line
  let (before, after) := trimSides before after width
  pure (withCaret (String.ofList (before ++ after)) (Text.columns (String.ofList before)))

/-- The excerpt of bytes at an offset. -/
def ofBytes (bytes : ByteArray) (index : Nat) : String :=
  let start := min (index - 1) bytes.size
  let stop := min (index + 2) bytes.size
  let shown := Text.quoteBytes (Input.between bytes start stop)
  -- The quote at the end of the leading bytes stands where the byte at the offset begins.
  let lead := Text.quoteBytes (Input.between bytes start (min index stop))
  withCaret (String.ofList shown) (lead.length - 1)

end Excerpt

/-- The excerpt of an input at a position, if the position belongs to the line table. -/
def excerpt? [Text.Display] (input : Input) (table : LineTable) (position : Position)
    (width : Nat) : Option String :=
  match input with
  | .binary bytes => some (Excerpt.ofBytes bytes position.index)
  | .text s => Excerpt.ofText? s table position width

/-- The excerpt of an input at a position from its line table. -/
def excerpt [Text.Display] (input : Input) (table : LineTable) (position : Position)
    (width : Nat) : String :=
  (excerpt? input table position width).getD ""

end Packrat
