/-
**Numerals in any base up to thirty-six.**

Main definitions:

* `Packrat.Text.digitValue?` — what a digit or a letter of either case is worth;
* `Packrat.Text.readDigits?` — the number that a non-empty run of digits stands for;
* `Packrat.Text.readSigned?` — the same after an optional sign;
* `Packrat.Text.hexDigits` — a number in lowercase hexadecimal, padded to a width.

Main results:

* `Packrat.Text.hexDigits_length` — padding gives exactly the requested width.
-/

set_option autoImplicit false

namespace Packrat.Text

/-- What a digit is worth; letters of either case continue after nine. -/
def digitValue? (c : Char) : Option Nat :=
  if '0' ≤ c && c ≤ '9' then some (c.toNat - '0'.toNat)
  else if 'a' ≤ c && c ≤ 'z' then some (c.toNat - 'a'.toNat + 10)
  else if 'A' ≤ c && c ≤ 'Z' then some (c.toNat - 'A'.toNat + 10)
  else none

/-- The number that digits of a base stand for, after a part already read. -/
def readDigitsFrom? (base : Nat) (acc : Nat) : List Char → Option Nat
  | [] => some acc
  | c :: cs =>
    match digitValue? c with
    | some d => if d < base then readDigitsFrom? base (acc * base + d) cs else none
    | none => none

/-- The number that a run of digits of a base stands for; an empty run stands for none. -/
def readDigits? (base : Nat) (cs : List Char) : Option Nat :=
  if cs.isEmpty then none else readDigitsFrom? base 0 cs

/-- A run of digits after an optional sign. -/
def readSigned? (base : Nat) : List Char → Option Int
  | '+' :: cs => (readDigits? base cs).map Int.ofNat
  | '-' :: cs => (readDigits? base cs).map fun n => -Int.ofNat n
  | cs => (readDigits? base cs).map Int.ofNat

/-- A hexadecimal digit, in lowercase. -/
def hexDigit (n : Nat) : Char :=
  if n < 10 then Char.ofNat ('0'.toNat + n) else Char.ofNat ('a'.toNat + n - 10)

/-- The last `width` hexadecimal digits of a number. -/
def hexDigits : Nat → Nat → List Char
  | 0, _ => []
  | width + 1, n => hexDigits width (n / 16) ++ [hexDigit (n % 16)]

@[simp] theorem hexDigits_length (width n : Nat) : (hexDigits width n).length = width := by
  induction width generalizing n with
  | zero => rfl
  | succ width ih => simp [hexDigits, ih]

end Packrat.Text
