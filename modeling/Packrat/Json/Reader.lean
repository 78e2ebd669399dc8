import Packrat.Decimal.Float
import Packrat.Json.Basic
import Packrat.Scan.Cursor
import Packrat.Text.Escape

/-
**Reading JSON documents.**

The reader is strict: no comments, no trailing commas, no leading zeros, no control characters in
texts, and every escaped surrogate must have its partner.  Members of an object are kept in
order, repeated names included.

Main definitions:

* `Packrat.Json.readText`, `Packrat.Json.readNumber` — texts and numbers;
* `Packrat.Json.read?` — the document that a whole text stands for.
-/

set_option autoImplicit false

namespace Packrat.Json

open Packrat.Scan

/-- Passes over blanks. -/
def blanks : Reader Unit := do
  let c ← get
  let n := (c.rest.takeWhile fun d => d == ' ' || d == '\t' || d == '\n' || d == '\r').length
  discard (take n)

/-- A token, and the blanks behind it. -/
def token {α : Type} (r : Reader α) : Reader α := do
  let x ← r
  blanks
  pure x

/-- Exactly the given characters, and the blanks behind them. -/
def symbol (text : String) : Reader Unit := token (literal text.toList)

/-- The character that an escape with a single letter stands for. -/
def letterEscape? : Char → Option Char
  | '"' => some '"'
  | '\\' => some '\\'
  | '/' => some '/'
  | 'b' => some '\x08'
  | 'f' => some '\x0c'
  | 'n' => some '\n'
  | 'r' => some '\r'
  | 't' => some '\t'
  | _ => none

/-- The body of a text up to its closing quote, and how many characters it takes. -/
def textBody : List Char → Option (List Char × Nat)
  | [] => none
  | '"' :: _ => some ([], 0)
  | '\\' :: 'u' :: a :: b :: c :: d :: cs => do
    let high ← Text.readDigits? 16 [a, b, c, d]
    -- Only surrogates name no character; the first of a pair comes with the second.
    match Text.scalar? high with
    | some x => do
      let (xs, n) ← textBody cs
      pure (x :: xs, n + 6)
    | none =>
      match cs with
      | '\\' :: 'u' :: e :: f :: g :: h :: cs => do
        let low ← Text.readDigits? 16 [e, f, g, h]
        if high < 0xDC00 ∧ 0xDC00 ≤ low ∧ low ≤ 0xDFFF then
          let x := Char.ofNat (0x10000 + (high - 0xD800) * 1024 + (low - 0xDC00))
          let (xs, n) ← textBody cs
          pure (x :: xs, n + 12)
        else none
      | _ => none
  | '\\' :: c :: cs => do
    let x ← letterEscape? c
    let (xs, n) ← textBody cs
    pure (x :: xs, n + 2)
  | c :: cs =>
    if c.toNat < 0x20 || c == '\\' then none
    else do
      let (xs, n) ← textBody cs
      pure (c :: xs, n + 1)

/-- A text in quotes. -/
def readText : Reader String := token do
  literal ['"']
  let c ← get
  match textBody c.rest with
  | some (body, n) => do
    discard (take (n + 1))
    pure (String.ofList body)
  | none => failure

/-- How many digits come first. -/
def digits (cs : List Char) : Nat := (cs.takeWhile Char.isDigit).length

/-- The length of the fraction that comes first, or zero. -/
def fractionLength : List Char → Nat
  | '.' :: cs => if digits cs == 0 then 0 else 1 + digits cs
  | _ => 0

/-- The length of the exponent that comes first, or zero. -/
def exponentLength : List Char → Nat
  | [] => 0
  | c :: cs =>
    if c == 'e' || c == 'E' then
      let sign := if cs.head? == some '+' || cs.head? == some '-' then 1 else 0
      let n := digits (cs.drop sign)
      if n == 0 then 0 else 1 + sign + n
    else 0

/-- A number. One without fraction and exponent is an integer, except for minus zero. -/
def readNumber : Reader Json := token do
  let negative ← attempt (literal ['-'])
  let whole ← lexeme fun cs =>
    match digits cs, cs.head? with
    | 0, _ => none
    | _, some '0' => some 1
    | n, _ => some n
  let c ← get
  let places := fractionLength c.rest
  let more := exponentLength (c.rest.drop places)
  if places + more == 0 then
    let n : Int := Decimal.ofDigits whole
    if negative.isSome && n == 0 then pure (.float (-0.0))
    else pure (.int (if negative.isSome then -n else n))
  else do
    let tail ← take (places + more)
    match Decimal.readFloat? (String.ofList (whole ++ tail)) with
    | some x => pure (.float (if negative.isSome then -x else x))
    | none => failure

/-- A document nested at most so deep. -/
def readDocument : Nat → Reader Json
  | 0 => failure
  | depth + 1 =>
    (symbol "null" *> pure .null) <|> (symbol "true" *> pure (.bool true))
      <|> (symbol "false" *> pure (.bool false))
      <|> (do
        let s ← readText
        pure (.str s))
      <|> readNumber
      <|> (do
        symbol "["
        let items ← sepBy (readDocument depth) (symbol ",") <|> pure []
        symbol "]"
        pure (.array items))
      <|> (do
        symbol "\x7b"
        let member := do
          let name ← readText
          symbol ":"
          let value ← readDocument depth
          pure (name, value)
        let members ← sepBy member (symbol ",") <|> pure []
        symbol "\x7d"
        pure (.object members))

/-- The document that a whole text stands for. -/
def read? (text : String) : Option Json :=
  (readAll (blanks *> readDocument 128) text).map (·.1)

end Packrat.Json
