/-
**Byte offsets in a text.**

Main definitions:

* `Packrat.Text.takeBytes`, `Packrat.Text.dropBytes` — the characters wholly within the first so
  many bytes, and the others;
* `Packrat.Text.bytesBetween` — the characters between two offsets;
* `Packrat.Text.splitAt?`, `Packrat.Text.slice?` — the same for offsets that must not lie inside a
  character or beyond the end;
* `Packrat.Text.floorBoundary` — the offset at which the character around an offset begins.

Main results:

* `Packrat.Text.takeBytes_append_dropBytes` — splitting a text loses nothing;
* `Packrat.Text.floorBoundary_le` — an offset is moved to the left only.
-/

set_option autoImplicit false

namespace Packrat.Text

/-- The characters that lie wholly within the first so many bytes. -/
def takeBytes : Nat → List Char → List Char
  | _, [] => []
  | n, c :: cs => if c.utf8Size ≤ n then c :: takeBytes (n - c.utf8Size) cs else []

/-- The characters behind them. -/
def dropBytes : Nat → List Char → List Char
  | _, [] => []
  | n, c :: cs => if c.utf8Size ≤ n then dropBytes (n - c.utf8Size) cs else c :: cs

theorem takeBytes_append_dropBytes (n : Nat) (cs : List Char) :
    takeBytes n cs ++ dropBytes n cs = cs := by
  induction cs generalizing n with
  | nil => rfl
  | cons c cs ih =>
    simp only [takeBytes, dropBytes]
    split <;> simp [ih]

/-- The text between two offsets. -/
def bytesBetween (start stop : Nat) (s : String) : String :=
  String.ofList (takeBytes (stop - start) (dropBytes start s.toList))

/-- The characters before an offset and those behind it, unless it lies inside of a character or
beyond the end. -/
def splitAt? : Nat → List Char → Option (List Char × List Char)
  | 0, cs => some ([], cs)
  | _ + 1, [] => none
  | n + 1, c :: cs =>
    if c.utf8Size ≤ n + 1 then
      (splitAt? (n + 1 - c.utf8Size) cs).map fun (before, after) => (c :: before, after)
    else none

/-- The characters between two offsets, unless one of them lies inside of a character or beyond the
end, or they are out of order. -/
def slice? (start stop : Nat) (cs : List Char) : Option (List Char) :=
  if start ≤ stop then do
    let (_, rest) ← splitAt? start cs
    let (part, _) ← splitAt? (stop - start) rest
    pure part
  else none

/-- The last offset up to another that does not lie inside of a character. -/
def floorBoundary (cs : List Char) : Nat → Nat
  | 0 => 0
  | n + 1 => if (splitAt? (n + 1) cs).isSome then n + 1 else floorBoundary cs n

theorem floorBoundary_le (cs : List Char) (n : Nat) : floorBoundary cs n ≤ n := by
  induction n with
  | zero => exact Nat.le_refl 0
  | succ n ih =>
    rw [floorBoundary]
    split
    · exact Nat.le_refl _
    · exact Nat.le_succ_of_le ih

end Packrat.Text
