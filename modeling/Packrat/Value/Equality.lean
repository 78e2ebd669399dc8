import Packrat.Value.Basic

/-
**Equality and identity of values.**

Values are equal when they have the same contents; an integer equals the float of the same
number.  Shared objects are identical when they carry the same identity, and other values when
they are equal.  An object equals itself whatever it holds, so a list with NaN in it equals
itself and no other list.

Main definitions:

* `Packrat.Value.eq` — equality;
* `Packrat.Value.same` — identity.

Main results:

* `Packrat.Value.same_list`, `Packrat.Value.same_node` — identity of lists and nodes is that of
  their numbers.
-/

set_option autoImplicit false

namespace Packrat.Value

mutual

/-- Equality of values. -/
def eq : Value → Value → Bool
  | .none, .none => true
  | .bool a, .bool b => a == b
  | .int a, .int b => a == b
  | .float a, .float b => a == b
  | .int a, .float b => a.toFloat == b
  | .float a, .int b => b.toFloat == a
  | .str a, .str b => a == b
  | .bytes a, .bytes b => a == b
  | .list i xs, .list j ys => i == j || eqAll xs ys
  | .node i c xs _, .node j d ys _ => i == j || (c == d && eqAll xs ys)
  | .func i _, .func j _ => i == j
  | .parser i f xs m, .parser j g ys n => i == j || (f == g && m == n && eqAll xs ys)
  | .failure a, .failure b => a == b
  | _, _ => false

/-- Equality item by item. -/
def eqAll : List Value → List Value → Bool
  | [], [] => true
  | x :: xs, y :: ys => eq x y && eqAll xs ys
  | _, _ => false

end

/-- Identity of values: of shared objects by their numbers, of others by their contents. -/
def same : Value → Value → Bool
  | .list i _, .list j _ => i == j
  | .node i _ _ _, .node j _ _ _ => i == j
  | .func i _, .func j _ => i == j
  | .parser i _ _ _, .parser j _ _ _ => i == j
  | a, b => eq a b

@[simp] theorem same_list (i j : Nat) (xs ys : List Value) :
    same (.list i xs) (.list j ys) = (i == j) := rfl

@[simp] theorem same_node (i j : Nat) (c d : NodeClass) (xs ys : List Value)
    (p q : Option Extent) : same (.node i c xs p) (.node j d ys q) = (i == j) := rfl

end Packrat.Value
