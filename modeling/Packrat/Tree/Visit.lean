import Packrat.Tree.Transform
import Std.Data.HashSet

/-
**Visiting the nodes of a tree.**

Nodes are visited before those below them and from left to right; a node that is shared is
visited where it occurs first.

Trees may be deep, so a visit keeps its own stack of the values that it has yet to look at, beside
the identities of the nodes that it has met.  It goes on from one node to the next.

Main definitions:

* `Packrat.Value.Visit` — a visit under way;
* `Packrat.Value.Visit.next?` — the next node;
* `Packrat.Value.visit` — the nodes of a value.

Main results:

* `Packrat.Value.Visit.weightAll_next?` — a visit has less left to look at behind every node.
-/

set_option autoImplicit false

namespace Packrat.Value

/-- A visit under way: the values to look at, the next one first, and the identities of the nodes
that have been visited. -/
structure Visit where
  pending : List Value
  seen : Std.HashSet Nat

theorem weightAll_append (xs ys : List Value) :
    weightAll (xs ++ ys) = weightAll xs + weightAll ys := by
  induction xs with
  | nil => simp [weightAll]
  | cons x xs ih => simp [weightAll, ih, Nat.add_assoc]

namespace Visit

/-- The first node among values that has not been visited, and the visit behind it. -/
def nextFrom? (seen : Std.HashSet Nat) : List Value → Option (Value × Visit)
  | [] => Option.none
  | .list _ items :: pending => nextFrom? seen (items ++ pending)
  | .node id cls values extent? :: pending =>
    if seen.contains id then nextFrom? seen pending
    else some (.node id cls values extent?, ⟨values ++ pending, seen.insert id⟩)
  | _ :: pending => nextFrom? seen pending
termination_by pending => weightAll pending
decreasing_by
  all_goals simp only [weightAll, weightAll_append, weight]
  all_goals first | omega | exact Nat.lt_add_of_pos_left (weight_pos _)

/-- The next node of a visit, and the visit behind it. -/
def next? (w : Visit) : Option (Value × Visit) := nextFrom? w.seen w.pending

theorem weightAll_nextFrom? {seen : Std.HashSet Nat} {pending : List Value} {x : Value}
    {rest : Visit} (h : nextFrom? seen pending = some (x, rest)) :
    weightAll rest.pending < weightAll pending := by
  fun_induction nextFrom? seen pending with
  | case1 => simp at h
  | case2 id items pending ih =>
      have := ih h
      rw [weightAll_append] at this
      rw [weightAll, weight]
      omega
  | case3 id cls values extent? pending met ih =>
      have := ih h
      rw [weightAll]
      omega
  | case4 id cls values extent? pending fresh =>
      obtain ⟨-, rfl⟩ : _ ∧ _ := by simpa using h
      rw [weightAll, weight, weightAll_append]
      omega
  | case5 v pending list node ih =>
      have := ih h
      rw [weightAll]
      omega

/-- Every node takes a visit closer to its end. -/
theorem weightAll_next? {w rest : Visit} {x : Value} (h : w.next? = some (x, rest)) :
    weightAll rest.pending < weightAll w.pending := weightAll_nextFrom? h

/-- The nodes that a visit has yet to come to. -/
def toList (w : Visit) : List Value :=
  match h : w.next? with
  | .none => []
  | some (x, rest) =>
    have := weightAll_next? h
    x :: rest.toList
termination_by weightAll w.pending

end Visit

/-- The visit of a value at its beginning. -/
def visiting (v : Value) : Visit := ⟨[v], ∅⟩

/-- The nodes of a value, each once. -/
def visit (v : Value) : List Value := v.visiting.toList

end Packrat.Value
