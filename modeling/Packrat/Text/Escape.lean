import Packrat.Text.Numeral

/-
**Backslash escapes in quoted literals.**

Reading of the body of a quoted literal.  An escape that names no character stands for itself,
so reading never fails.

Main definitions:

* `Packrat.Text.scalar?` — the character with a given code point, if there is one;
* `Packrat.Text.unescape` — the text that the body of a literal stands for.

Main results:

* `Packrat.Text.unescape_cons_of_ne` — a character other than the backslash stands for itself.
-/

set_option autoImplicit false

namespace Packrat.Text

/-- The character with the given code point; surrogates and numbers beyond the last plane have
none. -/
def scalar? (code : Nat) : Option Char :=
  if code < 0xD800 || (0xDFFF < code && code < 0x110000) then some (Char.ofNat code) else none

/-- What an escape with a single letter stands for. -/
def simpleEscape? : Char → Option Char
  | 'n' => some '\n'
  | 't' => some '\t'
  | 'r' => some '\r'
  | '0' => some '\x00'
  | '\\' => some '\\'
  | '"' => some '"'
  | '\'' => some '\''
  | _ => none

/-- What the digits between the braces of an escape stand for: a character, or else the escape
itself. A plus sign before the digits is allowed. -/
def bracedEscape (digits : List Char) : List Char :=
  let number? := readDigits? 16 (if digits.head? == some '+' then digits.drop 1 else digits)
  match number?.bind scalar? with
  | some c => [c]
  | none => '\\' :: 'u' :: '\x7b' :: digits ++ ['\x7d']

mutual

/-- The text that the body of a quoted literal stands for. -/
def unescape : List Char → List Char
  | [] => []
  | '\\' :: 'x' :: a :: b :: cs =>
    match readDigits? 16 [a, b] with
    | some n => Char.ofNat n :: unescape cs
    | none => '\\' :: 'x' :: unescape (a :: b :: cs)
  | '\\' :: 'u' :: '\x7b' :: cs => unescapeBraced [] cs
  | '\\' :: c :: cs =>
    match simpleEscape? c with
    | some d => d :: unescape cs
    | none => '\\' :: c :: unescape cs
  | c :: cs => c :: unescape cs

/-- The same inside the braces of an escape, whose digits so far are given last first. -/
def unescapeBraced (digits : List Char) : List Char → List Char
  | [] => bracedEscape digits.reverse
  | '\x7d' :: cs => bracedEscape digits.reverse ++ unescape cs
  | c :: cs => unescapeBraced (c :: digits) cs

end

theorem unescape_cons_of_ne {c : Char} (cs : List Char) (h : c ≠ '\\') :
    unescape (c :: cs) = c :: unescape cs := by
  rw [unescape]
  all_goals simp [h]

end Packrat.Text
