import Packrat.Host.Error
import Packrat.Value.Basic

/-
**Arithmetic of host expressions.**

Integers have 64 bits and no operation wraps: a result that does not fit is an error.  Division
with `//` and `%` goes to the floor.  Truth values count as integers, and a mixture of integers
and floats is computed in floats.  Texts, bytes and lists are joined with `+`, and texts and lists
repeated with `*`.

Main definitions:

* `Packrat.Host.fit?` — the 64-bit integer with a given value;
* `Packrat.Host.floorQuotient`, `Packrat.Host.floorRemainder` — division to the floor, from machine
  division, which rounds towards zero;
* `Packrat.Host.integerOp`, `Packrat.Host.floatOp` — the operators on numbers;
* `Packrat.Host.binaryOp`, `Packrat.Host.unaryOp` — the operators on values.

Main results:

* `Packrat.Host.toInt_of_fit?`, `Packrat.Host.fit?_eq_none_iff` — fitting keeps the value, and
  fails exactly outside of the range.
-/

set_option autoImplicit false

namespace Packrat.Host

/-- What evaluates to a value or fails, drawing identities for new objects. -/
abbrev Eval (α : Type) := StateT Nat (Except Error) α

/-- The 64-bit integer with the given value. -/
def fit? (n : Int) : Option Int64 :=
  if -0x8000000000000000 ≤ n ∧ n < 0x8000000000000000 then some (Int64.ofInt n) else none

theorem toInt_of_fit? {n : Int} {w : Int64} (h : fit? n = some w) : w.toInt = n := by
  simp only [fit?] at h
  split at h
  · next hn =>
    simp only [Option.some.injEq] at h
    rw [← h, Int64.toInt_ofInt_of_le (by omega) (by omega)]
  · simp at h

theorem fit?_eq_none_iff {n : Int} :
    fit? n = none ↔ n < -0x8000000000000000 ∨ 0x8000000000000000 ≤ n := by
  simp only [fit?]
  split <;> simp <;> omega

/-- The integer with the given value, or the error that it does not fit. -/
def exactly (n : Int) : Except Error Value :=
  match fit? n with
  | some w => .ok (.int w)
  | none => .error .overflow

/-- Power with a natural exponent. The exponent has 32 bits at most; beyond 63 only the powers of
zero and of units fit. -/
def integerPow (a : Int) (e : Nat) : Except Error Value :=
  if 0x100000000 ≤ e then .error .overflow
  else if a.natAbs ≤ 1 then exactly (if e == 0 then 1 else if e % 2 == 0 then a * a else a)
  else if 63 < e then .error .overflow
  else exactly (Int.pow a e)

/-! ### Division -/

/-- The quotient of two words, rounded towards zero. The least word has none by minus one. -/
def quotient? (a b : Int64) : Option Int64 :=
  if a == Int64.minValue && b == -1 then none else some (a / b)

/-- What the quotient leaves over, with the sign of the first word. Where there is no quotient the
program ends. -/
def leftOver (a b : Int64) : Except Error Int64 :=
  if a == Int64.minValue && b == -1 then .error (.trap .remainder) else .ok (a % b)

/-- The quotient, lowered to the floor: what is left over between words of different signs has been
rounded up. -/
def floorQuotient (a b : Int64) : Except Error Value :=
  match quotient? a b with
  | some q =>
    (leftOver a b).map fun r =>
      .int (if r != 0 && decide (a < 0) != decide (b < 0) then q - 1 else q)
  | none => .error .overflow

/-- The remainder of division to the floor, with the sign of the second word. -/
def floorRemainder (a b : Int64) : Except Error Value :=
  (leftOver a b).map fun r =>
    .int (if r != 0 && decide (r < 0) != decide (b < 0) then r + b else r)

/-! ### Operators -/

/-- An operator on integers. -/
def integerOp (op : BinaryOp) (a b : Int64) : Except Error Value :=
  let x := a.toInt
  let y := b.toInt
  match op with
  | .add => exactly (x + y)
  | .sub => exactly (x - y)
  | .mul => exactly (x * y)
  | .div => if y == 0 then .error .divisionByZero else .ok (.float (a.toFloat / b.toFloat))
  | .floorDiv => if y == 0 then .error .divisionByZero else floorQuotient a b
  | .mod => if y == 0 then .error .divisionByZero else floorRemainder a b
  | .pow => if 0 ≤ y then integerPow x y.toNat else .ok (.float (a.toFloat.pow b.toFloat))

/-- An operator on floats. -/
def floatOp (op : BinaryOp) (a b : Float) : Except Error Value :=
  match op with
  | .add => .ok (.float (a + b))
  | .sub => .ok (.float (a - b))
  | .mul => .ok (.float (a * b))
  | .div => if b == 0.0 then .error .floatDivisionByZero else .ok (.float (a / b))
  | .floorDiv => if b == 0.0 then .error .floatDivisionByZero else .ok (.float (a / b).floor)
  | .mod =>
    if b == 0.0 then .error .floatDivisionByZero
    else .ok (.float (a - b * (a / b).floor))
  | .pow => .ok (.float (a.pow b))

/-- The sign of an operator. -/
def BinaryOp.symbol : BinaryOp → String
  | .add => "+"
  | .sub => "-"
  | .mul => "*"
  | .div => "/"
  | .floorDiv => "//"
  | .mod => "%"
  | .pow => "**"

/-- A number as a float. -/
def toFloat? : Value → Option Float
  | .int n => some n.toFloat
  | .float x => some x
  | .bool b => some (if b then 1.0 else 0.0)
  | _ => none

/-- An operator on numbers of any kind. -/
def numberOp (op : BinaryOp) (left right : Value) : Except Error Value :=
  match left.asInt?, right.asInt? with
  | some a, some b => integerOp op a b
  | _, _ =>
    match toFloat? left, toFloat? right with
    | some a, some b => floatOp op a b
    | _, _ => .error (.binaryOperands op.symbol left.typeName right.typeName)

/-- A list repeated as often as a number says, a negative number counting as zero. `size` is how
many bytes it takes once; less than half of the addresses can be allocated at once. -/
def repeatList {α : Type} (size : Nat) (items : List α) (times : Int64) : Except Error (List α) :=
  let n := times.toInt.toNat
  if items.isEmpty then .ok []
  else if 0x8000000000000000 ≤ n * size then .error (.trap .capacity)
  else .ok (List.replicate n items).flatten

/-- How many bytes a value takes in a list. -/
def valueSize : Nat := 24

/-- A binary operator on values. -/
def binaryOp (op : BinaryOp) (left right : Value) : Eval Value :=
  match op, left, right with
  | .add, .str a, .str b => pure (.str (a ++ b))
  | .add, .bytes a, .bytes b => pure (.bytes (a ++ b))
  | .add, .list _ a, .list _ b => Value.newList (a ++ b)
  | .mul, .str s, .int n | .mul, .int n, .str s => do
    let cs ← repeatList s.utf8ByteSize s.toList n
    pure (.str (String.ofList cs))
  | .mul, .list _ items, .int n | .mul, .int n, .list _ items => do
    let items ← repeatList (valueSize * items.length) items n
    Value.newList items
  | op, left, right => numberOp op left right

/-- A unary operator on values. -/
def unaryOp (op : UnaryOp) (operand : Value) : Except Error Value :=
  match op, operand with
  | .not, v => .ok (.bool !v.truthy)
  | .neg, .int n => exactly (-n.toInt)
  | .neg, .float x => .ok (.float (-x))
  | .pos, .int n => .ok (.int n)
  | .pos, .float x => .ok (.float x)
  | _, v => .error (.unaryOperand v.typeName)

end Packrat.Host
