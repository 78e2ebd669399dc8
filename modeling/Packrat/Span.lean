/-
**Spans of a description.**

Main definitions:

* `Packrat.Span` — a range of byte offsets in the text of a grammar description;
* `Packrat.Span.join` — the smallest span that covers two.

Main results:

* `Packrat.Span.join_self`, `Packrat.Span.join_comm` — joining is idempotent and commutative.
-/

set_option autoImplicit false

namespace Packrat

/-- A range of byte offsets, its end excluded. -/
structure Span where
  start : Nat
  stop : Nat
deriving DecidableEq, Repr, Inhabited

/-- The smallest span that covers both. -/
def Span.join (a b : Span) : Span := ⟨min a.start b.start, max a.stop b.stop⟩

@[simp] theorem Span.join_self (a : Span) : a.join a = a := by simp [Span.join]

theorem Span.join_comm (a b : Span) : a.join b = b.join a := by
  simp [Span.join, Nat.min_comm, Nat.max_comm]

/-- The span of constructs that the text does not contain. -/
def Span.nowhere : Span := ⟨0, 0⟩

end Packrat
