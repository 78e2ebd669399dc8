import Packrat.Text.WidthTable
import Packrat.Text.WordTable

/-
**Display width of a text.**

How many columns a text takes is decided where it is displayed, so this is left open.

On a terminal wide characters and emoji take two columns, combining and other ignorable characters
none, all others one.  A few sequences take less or more than their characters one by one: an
emoji presentation selector widens its base, a text presentation selector narrows it, and a
modifier or a joined pictograph adds nothing to the emoji before it.

Main definitions:

* `Packrat.Text.Display` — what displays texts;
* `Packrat.Text.charWidth` — the columns of a single character on a terminal;
* `Packrat.Text.displayWidth` — the columns of a text on a terminal.
-/

set_option autoImplicit false

namespace Packrat.Text

/-- What displays texts. -/
class Display where
  /-- How many columns a text takes. -/
  columns (s : String) : Nat

export Display (columns)

/-- The columns of a character on its own. -/
def charWidth (c : Char) : Nat :=
  let n := c.toNat
  if n < 0xA0 then 1
  else if n == 0x17D8 then 3
  else if inRanges zeroWidthRanges n then 0
  else if inRanges wideRanges n then 2
  else 1

/-- Whether the code point modifies the skin tone of the emoji before it. -/
def isSkinTone (code : Nat) : Bool := 0x1F3FB ≤ code && code ≤ 0x1F3FF

/-- The columns that the character `c` adds after the characters `before`, given last first.
Selectors are counted at their base, so they look one character back. -/
def widthAfter (before : List Char) (c : Char) : Int :=
  let n := c.toNat
  match before with
  | [] => charWidth c
  | base :: rest =>
    let b := base.toNat
    if n == 0xFE0F then
      if inRanges emojiRanges b then 2 - charWidth base else 0
    else if n == 0xFE0E then
      if inRanges emojiPresentationRanges b then 1 - charWidth base else 0
    else if isSkinTone n then
      if inRanges modifierBaseRanges b then 2 - charWidth base
      else charWidth c
    else if b == 0x200D && inRanges pictographRanges n then
      match rest.dropWhile fun d => d.toNat == 0xFE0F || isSkinTone d.toNat with
      | [] => charWidth c
      | d :: _ => if inRanges pictographRanges d.toNat then 0 else charWidth c
    else charWidth c

/-- The columns of a list of characters that follows `before`, given last first. -/
def widthAux (before : List Char) : List Char → Int
  | [] => 0
  | c :: cs => widthAfter before c + widthAux (c :: before) cs

/-- The columns that a text takes on a terminal. -/
def displayWidth (s : String) : Nat := (widthAux [] s.toList).toNat

/-- A terminal that joins no letters of a script into one. -/
instance : Display where
  columns := displayWidth

end Packrat.Text
