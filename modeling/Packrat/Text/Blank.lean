/-
**Blank characters.**

Trimming and splitting of texts at the characters with the Unicode property `White_Space`.

Main definitions:

* `Packrat.Text.isBlank` — the property;
* `Packrat.Text.trimBoth` — a list without the leading and trailing elements that satisfy a
  predicate;
* `Packrat.Text.trim`, `Packrat.Text.words` — a text without its outer blanks, and its longest
  pieces without blanks.

Main results:

* `Packrat.Text.isBlank_of_isWhitespace` — every blank of core's class is a blank here;
* `Packrat.Text.trimBoth_of_none` — a list without such elements is left alone.
-/

set_option autoImplicit false

namespace Packrat.Text

/-- The characters with the property `White_Space`. -/
def isBlank (c : Char) : Bool :=
  let n := c.toNat
  (9 ≤ n && n ≤ 13) || n == 0x20 || n == 0x85 || n == 0xA0 || n == 0x1680 ||
    (0x2000 ≤ n && n ≤ 0x200A) || n == 0x2028 || n == 0x2029 || n == 0x202F || n == 0x205F ||
    n == 0x3000

theorem isBlank_of_isWhitespace {c : Char} (h : c.isWhitespace = true) : isBlank c = true := by
  simp only [Char.isWhitespace, Bool.or_eq_true, decide_eq_true_eq] at h
  rcases h with ((rfl | rfl) | rfl) | rfl <;> decide

/-- A list without the elements satisfying `p` at its two ends. -/
def trimBoth {α : Type} (p : α → Bool) (xs : List α) : List α :=
  (((xs.dropWhile p).reverse).dropWhile p).reverse

theorem dropWhile_of_none {α : Type} {p : α → Bool} {xs : List α}
    (h : ∀ x ∈ xs, p x = false) : xs.dropWhile p = xs := by
  cases xs with
  | nil => rfl
  | cons x xs => simp [List.dropWhile, h x (by simp)]

theorem trimBoth_of_none {α : Type} {p : α → Bool} {xs : List α}
    (h : ∀ x ∈ xs, p x = false) : trimBoth p xs = xs := by
  simp only [trimBoth, dropWhile_of_none h]
  rw [dropWhile_of_none (by simpa using h), List.reverse_reverse]

/-- A text without its leading and trailing blanks. -/
def trim (s : String) : String := String.ofList (trimBoth isBlank s.toList)

/-- The pieces of a list between elements satisfying `p`, the empty ones left out. `word` is the
piece being read, in reverse. -/
def piecesAux {α : Type} (p : α → Bool) (word : List α) : List α → List (List α)
  | [] => if word.isEmpty then [] else [word.reverse]
  | x :: xs =>
    if p x then
      if word.isEmpty then piecesAux p [] xs else word.reverse :: piecesAux p [] xs
    else piecesAux p (x :: word) xs

/-- The longest pieces of a text that hold no blank. -/
def words (s : String) : List String := (piecesAux isBlank [] s.toList).map String.ofList

end Packrat.Text
