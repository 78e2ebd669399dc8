/-
**Finding, splitting and replacing pieces of a text.**

All searches go from left to right and pieces that were found do not overlap.

Main definitions:

* `Packrat.Text.cut?` — a list before and after the first occurrence of a piece;
* `Packrat.Text.occurs` — whether a piece occurs;
* `Packrat.Text.splitAtPieces` — the parts of a list between the occurrences of a piece;
* `Packrat.Text.replaceAll` — every occurrence of a piece replaced; the empty piece occurs before
  each element and at the end.

Main results:

* `Packrat.Text.eq_of_cut?` — what `cut?` finds is a decomposition of the list.
-/

set_option autoImplicit false

namespace Packrat.Text

variable {α : Type} [BEq α]

/-- A list before and after the first occurrence of `piece`. -/
def cut? (piece : List α) : List α → Option (List α × List α)
  | [] => if piece.isEmpty then some ([], []) else none
  | x :: xs =>
    if piece.isPrefixOf (x :: xs) then some ([], (x :: xs).drop piece.length)
    else (cut? piece xs).map fun found => (x :: found.1, found.2)

/-- Whether `piece` occurs in a list. -/
def occurs (piece xs : List α) : Bool := (cut? piece xs).isSome

/-- The parts of a list between the occurrences of a piece that is not empty. Each occurrence
shortens the list, so its length bounds their number. -/
def splitLoop (piece : List α) : Nat → List α → List (List α)
  | 0, xs => [xs]
  | fuel + 1, xs =>
    match cut? piece xs with
    | none => [xs]
    | some (before, after) => before :: splitLoop piece fuel after

/-- The parts of a list between the occurrences of a piece that is not empty. -/
def splitAtPieces (piece xs : List α) : List (List α) := splitLoop piece xs.length xs

/-- A list with every occurrence of `piece` replaced by `new`. -/
def replaceAll (piece new xs : List α) : List α :=
  if piece.isEmpty then new ++ xs.flatMap fun x => x :: new
  else (splitAtPieces piece xs).intersperse new |>.flatten

theorem eq_of_cut? [LawfulBEq α] {piece xs before after : List α}
    (h : cut? piece xs = some (before, after)) : xs = before ++ piece ++ after := by
  induction xs generalizing before after with
  | nil =>
    simp only [cut?] at h
    split at h
    · next he =>
      simp only [Option.some.injEq, Prod.mk.injEq] at h
      simp [← h.1, ← h.2, List.isEmpty_iff.1 he]
    · simp at h
  | cons x xs ih =>
    simp only [cut?] at h
    split at h
    · next hp =>
      simp only [Option.some.injEq, Prod.mk.injEq] at h
      obtain ⟨rest, hr⟩ := List.isPrefixOf_iff_prefix.1 hp
      rw [← h.1, ← h.2, List.nil_append, ← hr, List.drop_left]
    · obtain ⟨⟨b, a⟩, hf, he⟩ := Option.map_eq_some_iff.1 h
      simp only [Prod.mk.injEq] at he
      rw [ih hf, ← he.1, ← he.2]
      rfl

end Packrat.Text
