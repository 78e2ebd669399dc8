/-
**JSON documents.**

Main definitions:

* `Packrat.Json` — documents;
* `Packrat.Json.setField` — an object with one more member; a later member replaces an earlier
  one of the same name.

Main results:

* `Packrat.Json.lookup_setField_self` — the member just set is found.
-/

set_option autoImplicit false

namespace Packrat

inductive Json where
  | null
  | bool (b : Bool)
  | int (n : Int)
  | float (x : Float)
  | str (s : String)
  | array (items : List Json)
  | object (members : List (String × Json))

namespace Json

/-- Members with one more; it replaces a member of the same name in its place. -/
def setField (name : String) (value : Json) : List (String × Json) → List (String × Json)
  | [] => [(name, value)]
  | (n, v) :: rest =>
    if n == name then (name, value) :: rest else (n, v) :: setField name value rest

theorem lookup_setField_self (name : String) (value : Json) (members : List (String × Json)) :
    (setField name value members).lookup name = some value := by
  induction members with
  | nil => simp [setField]
  | cons m rest ih =>
    obtain ⟨n, v⟩ := m
    simp only [setField]
    split
    · simp
    · next h =>
      rw [List.lookup_cons]
      have : (name == n) = false := by
        simp only [beq_iff_eq] at h
        exact beq_eq_false_iff_ne.2 (Ne.symm h)
      simp [this, ih]

end Json

end Packrat
