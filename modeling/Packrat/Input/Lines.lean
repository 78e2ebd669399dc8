import Packrat.Input.Basic

/-
**Lines and columns.**

Lines end at newline bytes.  Columns count characters of a text and bytes of raw input; an offset
inside a character counts the character.

Main definitions:

* `Packrat.LineTable` — the offsets at which lines start;
* `Packrat.LineTable.ofInput` — the table of an input;
* `Packrat.LineTable.position` — line and column of an offset;
* `Packrat.LineTable.lineStart` — where a line starts;
* `Packrat.LineTable.lineBounds?` — where a line starts and ends.

Main results:

* `Packrat.LineTable.position_index_le` — positions lie within the input.
-/

set_option autoImplicit false

namespace Packrat

/-- The offsets at which the lines of an input start, in order. -/
structure LineTable where
  starts : List Nat
deriving Repr

namespace LineTable

/-- The offsets behind the newlines of bytes that start at an offset. -/
def startsFrom (offset : Nat) : List UInt8 → List Nat
  | [] => []
  | b :: bs =>
    if b == 10 then (offset + 1) :: startsFrom (offset + 1) bs else startsFrom (offset + 1) bs

/-- The table of an input. -/
def ofInput (input : Input) : LineTable := ⟨0 :: startsFrom 0 input.bytes.data.toList⟩

/-- The line in which an offset lies, counted from one. -/
def lineOf (table : LineTable) (index : Nat) : Nat :=
  (table.starts.takeWhile (· ≤ index)).length

/-- The offset at which a line starts. -/
def lineStart (table : LineTable) (line : Nat) : Nat := table.starts.getD (line - 1) 0

/-- Where a line starts, and where its newline is or the input ends, if there is such a line. -/
def lineBounds? (table : LineTable) (input : Input) : Nat → Option (Nat × Nat)
  | 0 => none
  | line + 1 => do
    let start ← table.starts[line]?
    match table.starts[line + 1]? with
    | some next => pure (start, next - 1)
    | none => pure (start, input.size)

/-- How many characters begin in some bytes. -/
def countChars (bytes : List UInt8) : Nat :=
  bytes.countP fun b => !Text.Utf8.isContinuation b

/-- Line and column of an offset; offsets beyond the input stand for its end. -/
def position (table : LineTable) (input : Input) (index : Nat) : Position :=
  let index := min index input.size
  let line := table.lineOf index
  let start := table.lineStart line
  let column :=
    if input.isBinary then index - start
    else countChars (Input.between input.bytes start index)
  ⟨index, line, column + 1⟩

theorem position_index_le (table : LineTable) (input : Input) (index : Nat) :
    (table.position input index).index ≤ input.size := by
  simp only [position]
  omega

end LineTable

end Packrat
