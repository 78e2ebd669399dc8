import Packrat.Host.Arithmetic
import Packrat.Value.Equality

/-
**Order of values.**

Integers, texts and bytes have their usual order; lists are compared item by item; numbers of
different kinds are compared as floats.  Everything else, NaN included, has no order.

Main definitions:

* `Packrat.Host.compareValues?` — the order of two values.
-/

set_option autoImplicit false

namespace Packrat.Host

/-- The order of two floats; NaN has none. -/
def compareFloats? (a b : Float) : Option Ordering :=
  if a < b then some .lt else if a == b then some .eq else if b < a then some .gt else none

/-- The order of bytes, where a beginning comes before the whole. -/
def compareBytes : List UInt8 → List UInt8 → Ordering
  | [], [] => .eq
  | [], _ :: _ => .lt
  | _ :: _, [] => .gt
  | a :: as, b :: bs => (compare a.toNat b.toNat).then (compareBytes as bs)

mutual

/-- The order of two values, if they have one. -/
def compareValues? : Value → Value → Option Ordering
  | .int a, .int b => some (compare a.toInt b.toInt)
  | .str a, .str b => some (compare a b)
  | .bytes a, .bytes b => some (compareBytes a b)
  | .list _ xs, .list _ ys => compareLists? xs ys
  | a, b =>
    match toFloat? a, toFloat? b with
    | some x, some y => compareFloats? x y
    | _, _ => none

/-- The order of two lists: that of the first items that differ, or else of the lengths. -/
def compareLists? : List Value → List Value → Option Ordering
  | [], [] => some .eq
  | [], _ :: _ => some .lt
  | _ :: _, [] => some .gt
  | x :: xs, y :: ys =>
    match compareValues? x y with
    | some .eq => compareLists? xs ys
    | other => other

end

end Packrat.Host
