import Mathlib.Data.List.Basic
import Mathlib.Logic.Relation
import Packrat.Proofs.Trees.Rebuilding
import Packrat.Tree.Visit

/-
**A visit comes to every node once.**

A visit keeps a stack of what it has yet to look at and the identities of the nodes it has met.  A
shared node may stand on the stack several times, and is passed over when it comes up again.  That
loses nothing: when a node comes up again, everything below it has been visited, since no node is
below itself.

Main definitions:

* `Packrat.Value.Reaches` — values within a value;
* `Packrat.Value.preorder` — the nodes of a value, each before those below it;
* `Packrat.Value.Yields` — the nodes that a visit comes to one by one.

Main results:

* `Packrat.Value.mem_nodes_iff_reaches` — the nodes of a value are those that can be reached;
* `Packrat.Value.toList_pending` — a visit goes through the first value on its stack before it
  comes to the others;
* `Packrat.Value.visit_in_order` — **a visit comes to the nodes that can be reached and to nothing
  else, each once and in the order in which they first occur, and ends**.
-/

set_option autoImplicit false

namespace Packrat.Value

/-! ### What can be reached -/

/-- The values that stand in a list or in the fields of a node. -/
def parts : Value → List Value
  | .list _ items => items
  | .node _ _ values _ => values
  | _ => []

/-- A value can be reached from another through items of lists and fields of nodes. -/
def Reaches : Value → Value → Prop := Relation.ReflTransGen fun v w => w ∈ v.parts

theorem Reaches.refl (v : Value) : Reaches v v := Relation.ReflTransGen.refl

theorem Reaches.trans {u v w : Value} (h : Reaches u v) (h' : Reaches v w) : Reaches u w :=
  Relation.ReflTransGen.trans h h'

theorem Reaches.part {u v w : Value} (part : v ∈ u.parts) (h : Reaches v w) : Reaches u w :=
  Relation.ReflTransGen.head part h

theorem mem_nodesAll {vs : List Value} {x : Node} : x ∈ nodesAll vs ↔ ∃ v ∈ vs, x ∈ nodes v := by
  induction vs with
  | nil => simp [nodesAll]
  | cons v vs ih => simp [nodesAll, ih]

theorem mem_nodes_value (x : Node) : x ∈ nodes x.value := by
  simp [Node.value, nodes]

theorem mem_nodes_of_mem_parts {v w : Value} {x : Node} (part : w ∈ v.parts) (h : x ∈ nodes w) :
    x ∈ nodes v := by
  cases v with
  | list id items => exact mem_nodesAll.2 ⟨w, part, h⟩
  | node id cls values extent? => exact List.mem_append_left _ (mem_nodesAll.2 ⟨w, part, h⟩)
  | _ => simp [parts] at part

mutual

theorem reaches_of_mem_nodes : (v : Value) → {x : Node} → x ∈ nodes v → Reaches v x.value
  | .list _ items, _, h => by
      obtain ⟨w, hw, reaches⟩ := reaches_of_mem_nodesAll items h
      exact .part hw reaches
  | .node id cls values extent?, x, h => by
      rcases List.mem_append.1 h with h | h
      · obtain ⟨w, hw, reaches⟩ := reaches_of_mem_nodesAll values h
        exact .part hw reaches
      · obtain rfl := List.mem_singleton.1 h
        exact .refl _
  | .none, _, h | .bool _, _, h | .int _, _, h | .float _, _, h | .str _, _, h | .bytes _, _, h
  | .func _ _, _, h | .parser _ _ _ _, _, h | .failure _, _, h => by cases h

theorem reaches_of_mem_nodesAll :
    (vs : List Value) → {x : Node} → x ∈ nodesAll vs → ∃ v ∈ vs, Reaches v x.value
  | [], _, h => by cases h
  | v :: vs, _, h => by
      rcases List.mem_append.1 h with h | h
      · exact ⟨v, List.mem_cons_self, reaches_of_mem_nodes v h⟩
      · obtain ⟨w, hw, reaches⟩ := reaches_of_mem_nodesAll vs h
        exact ⟨w, List.mem_cons_of_mem _ hw, reaches⟩

end

/-- The nodes of a value are those that can be reached from it. -/
theorem mem_nodes_iff_reaches {v : Value} {x : Node} : x ∈ nodes v ↔ Reaches v x.value := by
  refine ⟨reaches_of_mem_nodes v, fun reaches => ?_⟩
  induction reaches using Relation.ReflTransGen.head_induction_on with
  | refl => exact mem_nodes_value x
  | head part _ ih => exact mem_nodes_of_mem_parts part ih

/-- What is below a node of a value is among the nodes of the value. -/
theorem nodesAll_subset {v : Value} {x : Node} (h : x ∈ nodes v) : nodesAll x.values ⊆ nodes v :=
  fun _ hy => mem_nodes_iff_reaches.2 ((reaches_of_mem_nodes v h).trans
    (reaches_of_mem_nodes x.value (List.mem_append_left _ hy)))

/-! ### Nodes before those below them -/

mutual

/-- The nodes of a value from left to right, each before those below it; a shared node stands
wherever it occurs. -/
def preorder : Value → List Node
  | .list _ items => preorderAll items
  | .node id cls values extent? => ⟨id, cls, values, extent?⟩ :: preorderAll values
  | _ => []

def preorderAll : List Value → List Node
  | [] => []
  | v :: vs => preorder v ++ preorderAll vs

end

mutual

theorem mem_preorder (x : Node) : (v : Value) → (x ∈ preorder v ↔ x ∈ nodes v)
  | .list _ items => mem_preorderAll x items
  | .node id cls values extent? => by
      rw [preorder, nodes, List.mem_cons, List.mem_append, List.mem_singleton, mem_preorderAll,
        or_comm]
  | .none | .bool _ | .int _ | .float _ | .str _ | .bytes _ | .func _ _ | .parser _ _ _ _
  | .failure _ => Iff.rfl

theorem mem_preorderAll (x : Node) : (vs : List Value) → (x ∈ preorderAll vs ↔ x ∈ nodesAll vs)
  | [] => Iff.rfl
  | v :: vs => by
      rw [preorderAll, nodesAll, List.mem_append, List.mem_append, mem_preorder, mem_preorderAll]

end

/-! ### A visit step by step -/

/-- A visit comes to some nodes one by one and is then at another place. -/
inductive Yields : Visit → List Value → Visit → Prop
  | nil (w : Visit) : Yields w [] w
  | cons {w rest last : Visit} {x : Value} {xs : List Value} (next : w.next? = some (x, rest))
      (more : Yields rest xs last) : Yields w (x :: xs) last

namespace Visit

/-- A visit comes to its nodes and then to an end. -/
theorem yields_toList (w : Visit) : ∃ last, Yields w w.toList last ∧ last.next? = .none := by
  fun_induction toList w with
  | case1 w ends => exact ⟨w, .nil w, ends⟩
  | case2 w x rest next _ ih =>
      obtain ⟨last, yields, ends⟩ := ih
      exact ⟨last, .cons next yields, ends⟩

theorem toList_of_next?_none {w : Visit} (h : w.next? = .none) : w.toList = [] := by
  rw [toList]
  split
  · rfl
  · next found => simp [h] at found

theorem toList_of_next?_some {w rest : Visit} {x : Value} (h : w.next? = some (x, rest)) :
    w.toList = x :: rest.toList := by
  rw [toList]
  split
  · next ends => simp [h] at ends
  · next found =>
      obtain ⟨rfl, rfl⟩ : _ ∧ _ := by simpa [h] using found
      rfl

/-- Visits that go on with the same node come to the same nodes. -/
theorem toList_congr {w w' : Visit} (h : w.next? = w'.next?) : w.toList = w'.toList := by
  cases next : w'.next? with
  | none => rw [toList_of_next?_none next, toList_of_next?_none (h.trans next)]
  | some found => rw [toList_of_next?_some next, toList_of_next?_some (h.trans next)]

variable {seen : Std.HashSet Nat} {pending : List Value}

theorem toList_nil : toList ⟨[], seen⟩ = [] := toList_of_next?_none (by rw [next?, nextFrom?])

theorem toList_list (id : Nat) (items : List Value) :
    toList ⟨.list id items :: pending, seen⟩ = toList ⟨items ++ pending, seen⟩ :=
  toList_congr (by rw [next?, nextFrom?, next?])

theorem toList_met {x : Node} (met : x.id ∈ seen) :
    toList ⟨x.value :: pending, seen⟩ = toList ⟨pending, seen⟩ :=
  toList_congr (by rw [next?, Node.value, nextFrom?, if_pos (by simpa using met), next?])

theorem toList_fresh {x : Node} (fresh : x.id ∉ seen) :
    toList ⟨x.value :: pending, seen⟩ =
      x.value :: toList ⟨x.values ++ pending, seen.insert x.id⟩ :=
  toList_of_next?_some (by rw [next?, Node.value, nextFrom?, if_neg (by simpa using fresh)])

theorem toList_scalar {v : Value} (list : ∀ id items, v ≠ .list id items)
    (node : ∀ id cls values extent?, v ≠ .node id cls values extent?) :
    toList ⟨v :: pending, seen⟩ = toList ⟨pending, seen⟩ := by
  refine toList_congr ?_
  rw [next?, nextFrom?, next?]
  · exact list
  · exact node

end Visit

/-! ### Whole values -/

/-- The first occurrences of the nodes that have not been visited. -/
def newIn (seen : Std.HashSet Nat) (xs : List Node) : List Node :=
  (firsts xs).filter (·.id ∉ seen)

/-- The nodes `xs` are visited. -/
def Marks (seen : Std.HashSet Nat) (xs : List Node) (seen' : Std.HashSet Nat) : Prop :=
  ∀ id, id ∈ seen' ↔ id ∈ seen ∨ id ∈ xs.map Node.id

/-- Whatever is below a visited one of the nodes has been visited. -/
def Below (seen : Std.HashSet Nat) (xs : List Node) : Prop :=
  ∀ x ∈ xs, x.id ∈ seen → ∀ y ∈ nodesAll x.values, y.id ∈ seen

variable {seen seen' : Std.HashSet Nat}

theorem Marks.append {xs ys : List Node} {seen'' : Std.HashSet Nat} (h : Marks seen xs seen')
    (h' : Marks seen' ys seen'') : Marks seen (xs ++ ys) seen'' := fun id => by
  rw [h', h, List.map_append, List.mem_append, or_assoc]

theorem newIn_append {xs : List Node} (marks : Marks seen xs seen') (ys : List Node) :
    newIn seen (xs ++ ys) = newIn seen xs ++ newIn seen' ys := by
  rw [newIn, firsts_append, List.filter_append, List.filter_filter]
  congr 1
  refine List.filter_congr fun x _ => ?_
  rw [← Bool.decide_and, decide_eq_decide, marks, not_or]

theorem Marks.insert (seen : Std.HashSet Nat) (x : Node) : Marks seen [x] (seen.insert x.id) :=
  fun id => by
    rw [Std.HashSet.mem_insert, or_comm, beq_iff_eq, eq_comm]
    simp

/-- A node that has not been visited comes before those below it. -/
theorem newIn_cons {x : Node} (fresh : x.id ∉ seen) (xs : List Node) :
    newIn seen (x :: xs) = x :: newIn (seen.insert x.id) xs := by
  have first : newIn seen [x] = [x] := by simp [newIn, firsts, fresh]
  rw [← List.singleton_append, newIn_append (.insert seen x), first, List.singleton_append]

theorem newIn_eq_nil {xs : List Node} (met : ∀ x ∈ xs, x.id ∈ seen) : newIn seen xs = [] :=
  List.filter_eq_nil_iff.2 fun x hx => by simpa using met x (mem_of_mem_firsts hx)

/-- Nodes that have been visited are marked already. -/
theorem Marks.met {xs : List Node} (met : ∀ x ∈ xs, x.id ∈ seen) : Marks seen xs seen :=
  fun id => by
    refine ⟨.inl, fun h => h.elim (·) fun h => ?_⟩
    obtain ⟨x, hx, rfl⟩ := List.mem_map.1 h
    exact met x hx

/-- While a visit goes through the fields of a node, it has visited what is below the visited ones
among the nodes there: the node itself is not one of them. -/
theorem Below.fields {all : List Node} (coherent : Coherent all) {x : Node}
    (among : nodes x.value ⊆ all) (below : Below seen (nodes x.value)) :
    Below (seen.insert x.id) (nodesAll x.values) := by
  intro y hy met z hz
  have inside : nodesAll x.values ⊆ nodes x.value := List.subset_append_left _ _
  rw [Std.HashSet.mem_insert] at met ⊢
  rcases met with same | met
  · have := coherent y (among (inside hy)) x (among (mem_nodes_value x)) (eq_of_beq same).symm
    exact absurd (this ▸ hy) (not_below x)
  · exact .inr (below y (inside hy) met z hz)

/-- Behind a value a visit has visited what is below the visited ones among the nodes to come. -/
theorem Below.behind {all : List Node} (coherent : Coherent all) {v : Value} {ys : List Node}
    (among : nodes v ⊆ all) (among' : ys ⊆ all) (below : Below seen ys)
    (marks : Marks seen (preorder v) seen') : Below seen' ys := by
  intro y hy met z hz
  rcases (marks y.id).1 met with met | visited
  · exact (marks z.id).2 (.inl (below y hy met z hz))
  · obtain ⟨x, hx, same⟩ := List.mem_map.1 visited
    have hx := (mem_preorder x v).1 hx
    obtain rfl := coherent x (among hx) y (among' hy) same
    have hz := (mem_preorder z v).2 (nodesAll_subset hx hz)
    exact (marks z.id).2 (.inr (List.mem_map_of_mem hz))

open Visit in
mutual

/-- A visit goes through the first value on its stack: it comes to the nodes of the value that it
has not met, and is then where it would be without the value, but for having visited them. -/
theorem toList_pending {all : List Node} (coherent : Coherent all) :
    (v : Value) → nodes v ⊆ all → ∀ {seen}, Below seen (nodes v) → ∃ seen',
      Marks seen (preorder v) seen' ∧ ∀ pending, toList ⟨v :: pending, seen⟩ =
        (newIn seen (preorder v)).map Node.value ++ toList ⟨pending, seen'⟩
  | .list id items, among, seen, below => by
      obtain ⟨seen', marks, comes⟩ := toList_pendingAll coherent items among below
      refine ⟨seen', marks, fun pending => ?_⟩
      rw [toList_list, comes, preorder]
  | .node id cls values extent?, among, seen, below => by
      let x : Node := ⟨id, cls, values, extent?⟩
      by_cases met : x.id ∈ seen
      · have all_met : ∀ y ∈ preorder x.value, y.id ∈ seen := by
          intro y hy
          rcases List.mem_cons.1 hy with rfl | hy
          · exact met
          · exact below x (mem_nodes_value x) met y ((mem_preorderAll y values).1 hy)
        have none : newIn seen (preorder (.node id cls values extent?)) = [] := newIn_eq_nil all_met
        refine ⟨seen, .met all_met, fun pending => ?_⟩
        rw [none]
        exact toList_met met
      · have inside : nodesAll values ⊆ all :=
          List.Subset.trans (List.subset_append_left _ _) among
        obtain ⟨seen', marks, comes⟩ := toList_pendingAll coherent values inside
          (below.fields (x := x) coherent among)
        refine ⟨seen', (Marks.insert seen x).append marks, fun pending => ?_⟩
        refine (toList_fresh met).trans ?_
        rw [comes, preorder, newIn_cons met]
        rfl
  | .none, _, seen, _ | .bool _, _, seen, _ | .int _, _, seen, _ | .float _, _, seen, _
  | .str _, _, seen, _ | .bytes _, _, seen, _ | .func _ _, _, seen, _
  | .parser _ _ _ _, _, seen, _ | .failure _, _, seen, _ =>
    ⟨seen, .met (by simp [preorder]), fun _ => toList_scalar (by simp) (by simp)⟩

theorem toList_pendingAll {all : List Node} (coherent : Coherent all) :
    (vs : List Value) → nodesAll vs ⊆ all → ∀ {seen}, Below seen (nodesAll vs) → ∃ seen',
      Marks seen (preorderAll vs) seen' ∧ ∀ pending, toList ⟨vs ++ pending, seen⟩ =
        (newIn seen (preorderAll vs)).map Node.value ++ toList ⟨pending, seen'⟩
  | [], _, seen, _ => ⟨seen, .met (by simp [preorderAll]), fun _ => rfl⟩
  | v :: vs, among, seen, below => by
      have first := List.Subset.trans (List.subset_append_left _ _) among
      have others := List.Subset.trans (List.subset_append_right _ _) among
      obtain ⟨seen', marks, comes⟩ := toList_pending coherent v first
        fun x hx => below x (List.mem_append_left _ hx)
      obtain ⟨seen'', marks', comes'⟩ := toList_pendingAll coherent vs others
        (Below.behind coherent first others (fun x hx => below x (List.mem_append_right _ hx)) marks)
      refine ⟨seen'', marks.append marks', fun pending => ?_⟩
      rw [List.cons_append, comes, comes', preorderAll, newIn_append marks, List.map_append,
        List.append_assoc]

end

/-! ### Visits -/

theorem Node.value_injective : Function.Injective Node.value := by
  rintro ⟨⟩ ⟨⟩ h
  simpa [Node.value] using h

/-- What a visit of a value comes to. -/
structure Visits (v : Value) (visited : List Value) : Prop where
  /-- The nodes from left to right, each before those below it and where it occurs first. -/
  ordered : visited = (firsts (preorder v)).map Node.value
  /-- No node is visited twice. -/
  once : visited.Pairwise fun x y => x.same y = false
  /-- All nodes that can be reached are visited. -/
  reached : ∀ x : Node, x.value ∈ visited ↔ Reaches v x.value
  /-- Nothing but nodes is visited. -/
  nodes : ∀ w ∈ visited, ∃ x : Node, w = x.value
  /-- The visit comes to an end. -/
  ends : ∃ last, Yields v.visiting visited last ∧ last.next? = .none

/-- **A visit comes to every node once**, in the order in which they first occur from left to right
and from the root to the leaves. -/
theorem visit_in_order {v : Value} (coherent : Coherent (nodes v)) : Visits v v.visit := by
  have below : Below ∅ (nodes v) := fun x _ met => by simp at met
  obtain ⟨seen, -, comes⟩ := toList_pending coherent v (List.Subset.refl _) below
  have ordered : v.visit = (firsts (preorder v)).map Node.value := by
    rw [visit, visiting, comes, Visit.toList_nil, List.append_nil]
    congr 1
    exact List.filter_eq_self.2 (by simp)
  refine ⟨ordered, ?_, fun x => ?_, fun w hw => ?_, v.visiting.yields_toList⟩
  · rw [ordered, List.pairwise_map]
    refine (List.pairwise_map.1 (nodup_firsts (preorder v))).imp fun other => ?_
    simpa [Node.value] using other
  · rw [ordered, List.mem_map_of_injective Node.value_injective, ← mem_nodes_iff_reaches,
      ← mem_preorder]
    refine ⟨mem_of_mem_firsts, fun hx => ?_⟩
    obtain ⟨y, hy, same⟩ := mem_firsts hx
    have among : ∀ {z}, z ∈ preorder v → z ∈ nodes v := fun hz => (mem_preorder _ v).1 hz
    obtain rfl := coherent y (among (mem_of_mem_firsts hy)) x (among hx) same
    exact hy
  · rw [ordered] at hw
    obtain ⟨x, -, rfl⟩ := List.mem_map.1 hw
    exact ⟨x, rfl⟩

/-- A node that stands in three places is visited once, behind the node above it. -/
theorem visit_in_order_shared : Coherent (nodes shared) ∧ Visits shared shared.visit ∧
    (firsts (preorder shared)).map Node.id = [1, 0] := by
  have coherent : Coherent (nodes shared) := by
    simp [Coherent, nodes, nodesAll, shared]
  refine ⟨coherent, visit_in_order coherent, ?_⟩
  simp [preorder, preorderAll, shared, firsts]

end Packrat.Value
