import Packrat.Text.CaseTable
import Packrat.Text.WordTable

/-
**Lowercase, uppercase and case-insensitive comparison.**

Texts are mapped by the full mappings of the Unicode standard: one character may become several,
and a capital sigma that ends a word becomes the final small one.  Comparison that ignores case
goes through simple case folding, which keeps single characters single.

Main definitions:

* `Packrat.Text.lowercase`, `Packrat.Text.uppercase` — mapping of texts;
* `Packrat.Text.caseVariants` — the characters that differ from a given one in case only.

Main results:

* `Packrat.Text.uppercase_append` — uppercase looks at characters one by one.
-/

set_option autoImplicit false

namespace Packrat.Text

/-- The characters of a list of code points. -/
def ofCodes (codes : List Nat) : List Char := codes.map Char.ofNat

/-- The image of a code point under a table of runs and a table of exceptions. -/
def mapCase (specials : Array (Nat × List Nat)) (runs : Array CaseRun) (c : Char) : List Char :=
  match specials.find? (·.1 == c.toNat) with
  | some (_, image) => ofCodes image
  | none =>
    match runs.findSome? (·.image? c.toNat) with
    | some image => [Char.ofNat image]
    | none => [c]

/-- The lowercase form of a character outside of any context. -/
def lowerChar (c : Char) : List Char :=
  if c.toNat < 128 then [c.toLower] else mapCase lowerSpecials lowerRuns c

/-- The uppercase form of a character. -/
def upperChar (c : Char) : List Char :=
  if c.toNat < 128 then [c.toUpper] else mapCase upperSpecials upperRuns c

/-- Whether the first character that is not passed over has a case. -/
def startsCased (cs : List Char) : Bool :=
  match cs.dropWhile fun c => inRanges caseIgnorableRanges c.toNat with
  | [] => false
  | c :: _ => inRanges casedRanges c.toNat

/-- Lowercase of a list of characters; `before` holds the characters already mapped, last first.
A capital sigma is final where a cased character precedes it and none follows. -/
def lowerAux (before : List Char) : List Char → List Char
  | [] => []
  | 'Σ' :: cs =>
    (if startsCased before && !startsCased cs then 'ς' else 'σ') :: lowerAux ('Σ' :: before) cs
  | c :: cs => lowerChar c ++ lowerAux (c :: before) cs

/-- A text in lowercase. -/
def lowercase (s : String) : String := String.ofList (lowerAux [] s.toList)

/-- A text in uppercase. -/
def uppercase (s : String) : String := String.ofList (s.toList.flatMap upperChar)

theorem uppercase_append (s t : String) : uppercase (s ++ t) = uppercase s ++ uppercase t := by
  simp [uppercase]

/-- The simple case folding of a code point. -/
def foldCode (code : Nat) : Nat := (foldRuns.findSome? (·.image? code)).getD code

/-- The characters that fold to the same character as `c`, itself included. -/
def caseVariants (c : Char) : List Char :=
  let folded := foldCode c.toNat
  ofCodes (folded :: foldRuns.toList.filterMap (·.source? folded))

end Packrat.Text
