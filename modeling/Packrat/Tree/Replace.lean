import Packrat.Host.Error
import Packrat.Value.Basic

/-
**Replacing fields of nodes.**

Main definitions:

* `Packrat.NodeClass.replaceField` — the values of a node with one of them replaced;
* `Packrat.Value.replaceFields` — a node with some of its fields replaced.

Main results:

* `Packrat.NodeClass.replaceField_length` — a node keeps the number of its values.
-/

set_option autoImplicit false

namespace Packrat

/-- The values of a node with that of a field replaced. -/
def NodeClass.replaceField (cls : NodeClass) (values : List Value) (change : String × Value) :
    Except Host.Error (List Value) :=
  match cls.fields.findIdx? (· == change.1) with
  | some i => .ok (values.set i change.2)
  | none => .error (.noField cls.name change.1)

theorem NodeClass.replaceField_length {cls : NodeClass} {values out : List Value}
    {change : String × Value} (h : cls.replaceField values change = .ok out) :
    out.length = values.length := by
  simp only [replaceField] at h
  split at h
  · simp only [Except.ok.injEq] at h
    subst h
    simp
  · simp at h

/-- A new node with the class, the place and the values of another, some of them replaced in
order. -/
def Value.replaceFields (cls : NodeClass) (values : List Value) (extent? : Option Extent)
    (changes : List (String × Value)) : StateT Nat (Except Host.Error) Value := do
  let values ← liftM (changes.foldlM cls.replaceField values)
  let id ← fresh
  pure (.node id cls values extent?)

end Packrat
