import Packrat.Decimal.Shortest

/-
**Reading and writing of floats.**

Whole numbers below `10 ^ 16` are written with one place after the point; every other finite
number has the fewest digits that read back and no exponent.

Main definitions:

* `Packrat.Decimal.showFloat` — the text of a float;
* `Packrat.Decimal.readFloat?` — a decimal numeral with optional sign, point and exponent, or a
  name of an infinity or of NaN;
* `Packrat.Decimal.floatToInt64` — the whole part of a float, clamped to 64 bits.

Main results:

* `Packrat.Decimal.spanDigits_append` — no character is lost where digits are split off.
-/

set_option autoImplicit false

namespace Packrat.Decimal

/-- The magnitude of a finite number as text. -/
def showMagnitude (b : Binary) : String :=
  let s := b.scaled
  let whole := s.value / s.denominator
  if s.value % s.denominator == 0 && whole < 10000000000000000 then toString whole ++ ".0"
  else
    let (digits, exponent) := shortest b
    positional digits exponent

/-- The text of a float. -/
def showFloat (x : Float) : String :=
  let sign := if x.toBits ≥ 0x8000000000000000 then "-" else ""
  match Binary.ofFloat? x with
  | some b => sign ++ showMagnitude b
  | none => if x.isNaN then "nan" else sign ++ "inf"

/-- The float nearest to `mantissa · 10 ^ exponent`. Exponents beyond the range of floats are
cut off first: with `n` digits the number is below `10 ^ (n + exponent)`. -/
def scientific (mantissa : Nat) (exponent : Int) : Float :=
  let size := (toString mantissa).length
  -- Beyond these exponents the answer is known without computing powers of ten.
  if mantissa == 0 then 0.0
  else if exponent > 400 then 1.0 / 0.0
  else if exponent < -400 - size then 0.0
  else if 0 ≤ exponent then Float.ofScientific mantissa false exponent.toNat
  else Float.ofScientific mantissa true (-exponent).toNat

/-- Splits off the leading decimal digits. -/
def spanDigits (cs : List Char) : List Char × List Char :=
  (cs.takeWhile (·.isDigit), cs.dropWhile (·.isDigit))

theorem spanDigits_append (cs : List Char) :
    (spanDigits cs).1 ++ (spanDigits cs).2 = cs :=
  List.takeWhile_append_dropWhile

/-- The number that decimal digits stand for. -/
def ofDigits (cs : List Char) : Nat := cs.foldl (fun n c => n * 10 + (c.toNat - '0'.toNat)) 0

/-- The exponent after a mantissa: nothing, or `e`, an optional sign and digits. -/
def readExponent? : List Char → Option Int
  | [] => some 0
  | c :: cs =>
    if c != 'e' && c != 'E' then none
    else
      let (negative, digits) :=
        match cs with
        | '-' :: ds => (true, ds)
        | '+' :: ds => (false, ds)
        | ds => (false, ds)
      if digits.isEmpty || !digits.all (·.isDigit) then none
      else some (if negative then -(ofDigits digits : Int) else ofDigits digits)

/-- A numeral without its sign. -/
def readMagnitude? (cs : List Char) : Option Float :=
  let lower := String.ofList (cs.map Char.toLower)
  if lower == "inf" || lower == "infinity" then some (1.0 / 0.0)
  else if lower == "nan" then some (0.0 / 0.0)
  else
    let (whole, rest) := spanDigits cs
    let (places, rest) :=
      match rest with
      | '.' :: ds => spanDigits ds
      | ds => ([], ds)
    if whole.isEmpty && places.isEmpty then none
    else (readExponent? rest).map fun e =>
      scientific (ofDigits (whole ++ places)) (e - places.length)

/-- The float that a numeral stands for. -/
def readFloat? (s : String) : Option Float :=
  match s.toList with
  | '-' :: cs => (readMagnitude? cs).map fun x => -x
  | '+' :: cs => readMagnitude? cs
  | cs => readMagnitude? cs

/-- The whole part of a float toward zero, clamped to the range of 64-bit integers. -/
def floatToInt64 (x : Float) : Int64 := x.toInt64

end Packrat.Decimal
