import Packrat.Text.Numeral
import Packrat.Text.PrintTable
import Packrat.Text.WordTable

/-
**Quoted forms of texts and bytes.**

A text is quoted with apostrophes, or with double quotes when it holds an apostrophe and no
double quote.  The quote, the backslash and control characters are escaped.  Bytes are quoted in
the same way after the letter `b`, with everything outside printable ASCII escaped.

Main definitions:

* `Packrat.Text.quoteMark` — the quote chosen for a text;
* `Packrat.Text.quoteText`, `Packrat.Text.quoteBytes` — the quoted forms;
* `Packrat.Text.debugText` — the form in double quotes used for diagnostics.

Main results:

* `Packrat.Text.quoteMark_eq_or` — the quote is one of the two.
-/

set_option autoImplicit false

namespace Packrat.Text

/-- The quote around a list of characters. -/
def quoteMark (cs : List Char) : Char :=
  if cs.contains '\'' && !cs.contains '"' then '"' else '\''

theorem quoteMark_eq_or (cs : List Char) : quoteMark cs = '"' ∨ quoteMark cs = '\'' := by
  unfold quoteMark
  split
  · exact Or.inl rfl
  · exact Or.inr rfl

/-- The escapes that both quoted forms share. -/
def sharedEscape? (quote c : Char) : Option (List Char) :=
  match c with
  | '\\' => some ['\\', '\\']
  | '\n' => some ['\\', 'n']
  | '\r' => some ['\\', 'r']
  | '\t' => some ['\\', 't']
  | c => if c == quote then some ['\\', c] else none

/-- An escape by two hexadecimal digits. -/
def hexEscape (code : Nat) : List Char := '\\' :: 'x' :: hexDigits 2 code

/-- A character as it is written between quotes. -/
def escapeChar (quote c : Char) : List Char :=
  (sharedEscape? quote c).getD
    (if c.toNat < 0x20 || c.toNat == 0x7F then hexEscape c.toNat else [c])

/-- The quoted form of a list of characters. -/
def quoteChars (cs : List Char) : List Char :=
  let quote := quoteMark cs
  quote :: cs.flatMap (escapeChar quote) ++ [quote]

/-- The quoted form of a text. -/
def quoteText (s : String) : String := String.ofList (quoteChars s.toList)

/-- Bytes as characters with the same numbers. -/
def latin (bytes : List UInt8) : List Char := bytes.map fun b => Char.ofNat b.toNat

/-- A byte as it is written between quotes. -/
def escapeByte (quote : Char) (b : UInt8) : List Char :=
  let c := Char.ofNat b.toNat
  (sharedEscape? quote c).getD
    (if 0x20 ≤ b && b ≤ 0x7E then [c] else hexEscape b.toNat)

/-- The quoted form of bytes. -/
def quoteBytes (bytes : List UInt8) : List Char :=
  let quote := quoteMark (latin bytes)
  'b' :: quote :: bytes.flatMap (escapeByte quote) ++ [quote]

/-- A character in a diagnostic: escaped where it is the quote in use or has no shape of its
own. -/
def debugChar (quote c : Char) : List Char :=
  match c with
  | '\x00' => ['\\', '0']
  | '\t' => ['\\', 't']
  | '\r' => ['\\', 'r']
  | '\n' => ['\\', 'n']
  | '\\' => ['\\', '\\']
  | c =>
    let n := c.toNat
    if c == quote then ['\\', c]
    else if n < 0x20 || n == 0x7F || (n ≥ 0x80 && inRanges escapedRanges n) then
      '\\' :: 'u' :: '\x7b' :: Nat.toDigits 16 n ++ ['\x7d']
    else [c]

/-- A text in double quotes, as diagnostics show it. -/
def debugText (s : String) : String :=
  String.ofList ('"' :: s.toList.flatMap (debugChar '"') ++ ['"'])

/-- A single character in apostrophes, as diagnostics show it. -/
def debugLetter (c : Char) : String :=
  String.ofList ('\'' :: debugChar '\'' c ++ ['\''])

end Packrat.Text
