/-
**Sets of names as sorted lists.**

Main definitions:

* `Packrat.Text.insertName` — a name added to a sorted list that holds each name once;
* `Packrat.Text.sortNames` — names in order, each once.

Main results:

* `Packrat.Text.mem_insertName`, `Packrat.Text.mem_sortNames` — exactly the given names are held;
* `Packrat.Text.nodup_sortNames` — each of them once.
-/

set_option autoImplicit false

namespace Packrat.Text

/-- Inserts a name into a sorted list that holds each name once. -/
def insertName (n : String) : List String → List String
  | [] => [n]
  | m :: ms => if n < m then n :: m :: ms else if n = m then m :: ms else m :: insertName n ms

theorem mem_insertName {x n : String} {ms : List String} :
    x ∈ insertName n ms ↔ x = n ∨ x ∈ ms := by
  induction ms with
  | nil => simp [insertName]
  | cons m ms ih =>
    simp only [insertName]
    split
    · simp
    · split
      · next h => subst h; simp
      · simp only [List.mem_cons, ih]
        constructor
        · rintro (h | h | h) <;> simp [h]
        · rintro (h | h | h) <;> simp [h]

/-- Names in order, each once. -/
def sortNames (names : List String) : List String := names.foldr insertName []

theorem mem_sortNames {x : String} {names : List String} : x ∈ sortNames names ↔ x ∈ names := by
  induction names with
  | nil => simp [sortNames]
  | cons n ns ih =>
    show x ∈ insertName n (sortNames ns) ↔ _
    rw [mem_insertName, ih, List.mem_cons]

/-! ### Order -/

theorem strict_insertName {n : String} {ms : List String} (h : ms.Pairwise (· < ·)) :
    (insertName n ms).Pairwise (· < ·) := by
  induction ms with
  | nil => simp [insertName]
  | cons m ms ih =>
    obtain ⟨first, rest⟩ := List.pairwise_cons.1 h
    simp only [insertName]
    split
    · next before =>
      refine List.pairwise_cons.2 ⟨fun x hx => ?_, h⟩
      rcases List.mem_cons.1 hx with rfl | hx
      · exact before
      · exact String.lt_trans before (first x hx)
    · split
      · exact h
      · next notBefore other =>
        refine List.pairwise_cons.2 ⟨fun x hx => ?_, ih rest⟩
        rcases mem_insertName.1 hx with rfl | hx
        · exact Decidable.byContradiction fun notBehind =>
            other (String.le_antisymm notBehind notBefore)
        · exact first x hx

theorem nodup_sortNames (names : List String) : (sortNames names).Nodup := by
  have strict : (sortNames names).Pairwise (· < ·) := by
    induction names with
    | nil => exact .nil
    | cons n ns ih => exact strict_insertName ih
  refine strict.imp fun {a b} before same => ?_
  subst same
  exact String.lt_irrefl _ before

end Packrat.Text
