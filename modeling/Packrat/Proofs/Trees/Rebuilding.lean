import Mathlib.Logic.Basic
import Packrat.Tree.Transform

/-
**Rebuilding goes from the leaves to the root.**

The walk that rebuilds a tree keeps two stacks.  Seen from outside it does nothing but draw new
identities and call its function, once for every node: in the order in which a walk from left to
right is first done with the nodes, each behind those below it.  What becomes of a value is then
said without the stacks, from what was called.

Main definitions:

* `Packrat.Value.Node`, `Packrat.Value.nodes` — the nodes of a value, each behind those below it;
* `Packrat.Value.firsts` — nodes without those that have occurred before;
* `Packrat.Value.Coherent` — nodes of one identity are one node;
* `Packrat.Value.Event`, `Packrat.Value.Runs` — what rebuilding does to the state;
* `Packrat.Value.Becomes` — what has become of a value, from what was called.

Main results:

* `Packrat.Value.mem_firsts`, `Packrat.Value.nodup_firsts` — every identity occurs once;
* `Packrat.Value.rebuild_enter` — the walk through one value, whatever is left to do behind it;
* `Packrat.Value.transform_rebuilds` — **rebuilding calls the function once for every node from the
  leaves to the root, and never runs out of values**.
-/

set_option autoImplicit false

namespace Packrat.Value

/-! ### Nodes -/

/-- A node. -/
structure Node where
  id : Nat
  cls : NodeClass
  values : List Value
  extent? : Option Extent

/-- A node as a value. -/
def Node.value (x : Node) : Value := .node x.id x.cls x.values x.extent?

mutual

/-- The nodes of a value from left to right, each behind those below it; a shared node stands
wherever it occurs. -/
def nodes : Value → List Node
  | .list _ items => nodesAll items
  | .node id cls values extent? => nodesAll values ++ [⟨id, cls, values, extent?⟩]
  | _ => []

def nodesAll : List Value → List Node
  | [] => []
  | v :: vs => nodes v ++ nodesAll vs

end

/-- Nodes without those of an identity that has occurred before. -/
def firsts : List Node → List Node
  | [] => []
  | x :: xs => x :: (firsts xs).filter (·.id ≠ x.id)

/-- Nodes of one identity are one node. -/
def Coherent (nodes : List Node) : Prop := ∀ x ∈ nodes, ∀ y ∈ nodes, x.id = y.id → x = y

theorem mem_of_mem_firsts {x : Node} {xs : List Node} (h : x ∈ firsts xs) : x ∈ xs := by
  induction xs with
  | nil => simp [firsts] at h
  | cons y ys ih =>
      rw [firsts, List.mem_cons, List.mem_filter] at h
      rcases h with rfl | ⟨h, -⟩
      · exact List.mem_cons_self
      · exact List.mem_cons_of_mem _ (ih h)

/-- Every identity occurs. -/
theorem mem_firsts {x : Node} {xs : List Node} (h : x ∈ xs) : ∃ y ∈ firsts xs, y.id = x.id := by
  induction xs with
  | nil => simp at h
  | cons z zs ih =>
      by_cases same : z.id = x.id
      · exact ⟨z, List.mem_cons_self, same⟩
      · have inTail : x ∈ zs := by
          rcases List.mem_cons.1 h with rfl | h
          · exact absurd rfl same
          · exact h
        obtain ⟨y, hy, hid⟩ := ih inTail
        refine ⟨y, List.mem_cons_of_mem _ (List.mem_filter.2 ⟨hy, ?_⟩), hid⟩
        simpa [hid] using Ne.symm same

/-- No identity occurs twice. -/
theorem nodup_firsts (xs : List Node) : ((firsts xs).map Node.id).Nodup := by
  induction xs with
  | nil => simp [firsts]
  | cons x xs ih =>
      rw [firsts, List.map_cons, List.nodup_cons]
      refine ⟨by simp, ih.sublist (List.Sublist.map _ List.filter_sublist)⟩

theorem firsts_append (xs ys : List Node) :
    firsts (xs ++ ys) = firsts xs ++ (firsts ys).filter (·.id ∉ xs.map Node.id) := by
  induction xs with
  | nil => exact (List.filter_eq_self.2 (by simp)).symm
  | cons x xs ih =>
      rw [List.cons_append, firsts, ih, firsts, List.filter_append, List.filter_filter,
        List.cons_append]
      congr 2
      refine List.filter_congr fun y _ => ?_
      simp [eq_comm]

/-! ### What happens -/

/-- What rebuilding does: it draws a new identity, or calls the function for a node. -/
inductive Event where
  | drawn (id : Nat)
  | called (x : Node) (given answer : Value)

/-- The nodes that the function has been called for. -/
def calls (events : List Event) : List Node :=
  events.filterMap fun
    | .drawn _ => .none
    | .called x _ _ => some x

@[simp] theorem calls_append (past events : List Event) :
    calls (past ++ events) = calls past ++ calls events := List.filterMap_append

theorem mem_calls {x : Node} {events : List Event} :
    x ∈ calls events ↔ ∃ given answer, .called x given answer ∈ events := by
  simp only [calls, List.mem_filterMap]
  constructor
  · rintro ⟨e, he, found⟩
    cases e with
    | drawn id => simp at found
    | called y given answer =>
        obtain rfl := Option.some.inj found
        exact ⟨given, answer, he⟩
  · rintro ⟨given, answer, he⟩
    exact ⟨_, he, rfl⟩

variable {σ : Type} {callback : Value → StateT Nat (StateM σ) Value}

/-- Events lead from a state to another; a state is the next identity and the function's own. -/
inductive Runs (callback : Value → StateT Nat (StateM σ) Value) :
    List Event → Nat × σ → Nat × σ → Prop
  | done (s : Nat × σ) : Runs callback [] s s
  | drawn {events n s t} : Runs callback events (n + 1, s) t →
      Runs callback (.drawn n :: events) (n, s) t
  | called {x given answer events n s n' s' t} :
      ((callback given).run n).run s = ((answer, n'), s') → Runs callback events (n', s') t →
      Runs callback (.called x given answer :: events) (n, s) t

theorem Runs.append {first second : List Event} {s t u : Nat × σ}
    (h : Runs callback first s t) (h' : Runs callback second t u) :
    Runs callback (first ++ second) s u := by
  induction h with
  | done s => exact h'
  | drawn _ ih => exact .drawn (ih h')
  | called answered _ ih => exact .called answered (ih h')

/-- What is built from items that have become others: the same as before if none has changed, and
something of a new identity otherwise. A NaN is not identical to itself, so what holds one is always
built anew. -/
def Built (events : List Event) (build : Nat → List Value → Value) (id : Nat)
    (items images : List Value) (out : Value) : Prop :=
  if unchanged items images then out = build id items
  else ∃ new, .drawn new ∈ events ∧ out = build new images

mutual

/-- What has become of a value: of a list, what is built from what has become of its items, and of a
node, what the function has answered for it. -/
def Becomes (events : List Event) : Value → Value → Prop
  | .list id items, out =>
    ∃ images, BecomeAll events items images ∧ Built events .list id items images out
  | .node id cls values extent?, out => ∃ given, .called ⟨id, cls, values, extent?⟩ given out ∈ events
  | v, out => out = v

def BecomeAll (events : List Event) : List Value → List Value → Prop
  | [], images => images = []
  | v :: vs, images =>
    ∃ image rest, Becomes events v image ∧ BecomeAll events vs rest ∧ images = image :: rest

end

/-- The function was handed a node built from what has become of the values in its fields. -/
def Handed (events : List Event) (x : Node) (given : Value) : Prop :=
  ∃ images, BecomeAll events x.values images ∧
    Built events (fun id values => .node id x.cls values x.extent?) x.id x.values images given

/-! ### More events -/

theorem Built.mono {events more : List Event} {build : Nat → List Value → Value} {id : Nat}
    {items images : List Value} {out : Value} (sub : events ⊆ more)
    (h : Built events build id items images out) : Built more build id items images out := by
  unfold Built at h ⊢
  split
  · next same => rwa [if_pos same] at h
  · next changed =>
      rw [if_neg changed] at h
      obtain ⟨new, drawn, rfl⟩ := h
      exact ⟨new, sub drawn, rfl⟩

mutual

theorem Becomes.mono {events more : List Event} (sub : events ⊆ more) :
    (v : Value) → {out : Value} → Becomes events v out → Becomes more v out
  | .list _ items, _, h => by
      obtain ⟨images, all, built⟩ := h
      exact ⟨images, BecomeAll.mono sub items all, built.mono sub⟩
  | .node _ _ _ _, _, h => by
      obtain ⟨given, called⟩ := h
      exact ⟨given, sub called⟩
  | .none, _, h | .bool _, _, h | .int _, _, h | .float _, _, h | .str _, _, h | .bytes _, _, h
  | .func _ _, _, h | .parser _ _ _ _, _, h | .failure _, _, h => h

theorem BecomeAll.mono {events more : List Event} (sub : events ⊆ more) :
    (vs : List Value) → {images : List Value} → BecomeAll events vs images →
      BecomeAll more vs images
  | [], _, h => h
  | v :: vs, _, h => by
      obtain ⟨image, rest, first, others, rfl⟩ := h
      exact ⟨image, rest, Becomes.mono sub v first, BecomeAll.mono sub vs others, rfl⟩

end

theorem BecomeAll.length {events : List Event} {vs images : List Value}
    (h : BecomeAll events vs images) : images.length = vs.length := by
  induction vs generalizing images with
  | nil =>
      obtain rfl := h
      rfl
  | cons v vs ih =>
      obtain ⟨image, rest, -, others, rfl⟩ := h
      simp [ih others]

theorem Handed.mono {events more : List Event} {x : Node} {given : Value} (sub : events ⊆ more)
    (h : Handed events x given) : Handed more x given := by
  obtain ⟨images, all, built⟩ := h
  exact ⟨images, all.mono sub x.values, built.mono sub⟩

/-! ### The walk -/

theorem takeBack?_append (top taken done : List Value) :
    takeBack? top.length taken (top ++ done) = some (top.reverse ++ taken, done) := by
  induction top generalizing taken with
  | nil => rfl
  | cons v top ih => simpa [takeBack?] using ih (v :: taken)

/-- What has been put on a stack is taken from it in order. -/
theorem takeBack?_of_length {n : Nat} {images : List Value} (h : images.length = n)
    (done : List Value) : takeBack? n [] (images.reverse ++ done) = some (images, done) := by
  simpa [h] using takeBack?_append images.reverse [] done

/-- The answers that are kept are those that the function gave. -/
structure Kept (past : List Event) (answers : Std.HashMap Nat Value) : Prop where
  sound : ∀ {id a}, answers[id]? = some a → ∃ x given, .called x given a ∈ past ∧ x.id = id
  full : ∀ {x}, x ∈ calls past → ∃ a, answers[x.id]? = some a
  /-- Whatever is below a node was called before it. -/
  below : ∀ {x}, x ∈ calls past → ∀ y ∈ nodesAll x.values, y ∈ calls past

/-- What the walk through some values leaves behind: `past` is what happened before, `walked` the
nodes of the values. -/
structure Walked (callback : Value → StateT Nat (StateM σ) Value) (past : List Event)
    (walked : List Node) (s : Nat × σ) (events : List Event)
    (answers : Std.HashMap Nat Value) (t : Nat × σ) : Prop where
  runs : Runs callback events s t
  calls : calls events = (firsts walked).filter (·.id ∉ (calls past).map Node.id)
  handed : ∀ {x given answer}, .called x given answer ∈ events → Handed (past ++ events) x given
  kept : Kept (past ++ events) answers

variable {past events more : List Event} {walked walked' : List Node} {s t u : Nat × σ}
  {answers answers' : Std.HashMap Nat Value}

theorem Kept.empty : Kept [] ∅ where
  sound h := by simp at h
  full h := by simp [Value.calls] at h
  below h := by simp [Value.calls] at h

/-- New identities have nothing to do with the answers. -/
theorem Kept.drawn (h : Kept past answers) (none : Value.calls events = []) :
    Kept (past ++ events) answers where
  sound found := by
    obtain ⟨x, given, called, same⟩ := h.sound found
    exact ⟨x, given, List.mem_append_left _ called, same⟩
  full hx := h.full (by simpa [none] using hx)
  below hx y hy := by
    simp only [calls_append, none, List.append_nil] at hx ⊢
    exact h.below hx y hy

theorem Kept.called {x : Node} {given answer : Value} (h : Kept past answers)
    (below : ∀ y ∈ nodesAll x.values, y ∈ Value.calls past) :
    Kept (past ++ [.called x given answer]) (answers.insert x.id answer) where
  sound {id a} found := by
    rw [Std.HashMap.getElem?_insert] at found
    split at found
    · next same =>
        obtain rfl := Option.some.inj found
        exact ⟨x, given, by simp, by simpa using same⟩
    · obtain ⟨y, given', called, same⟩ := h.sound found
      exact ⟨y, given', List.mem_append_left _ called, same⟩
  full {y} hy := by
    rw [Std.HashMap.getElem?_insert]
    split
    · exact ⟨_, rfl⟩
    · next other =>
        rw [calls_append, List.mem_append] at hy
        rcases hy with hy | hy
        · exact h.full hy
        · obtain rfl : y = x := by simpa [Value.calls] using hy
          simp at other
  below {y} hy z hz := by
    rw [calls_append, List.mem_append] at hy ⊢
    refine .inl ?_
    rcases hy with hy | hy
    · exact h.below hy z hz
    · obtain rfl : y = x := by simpa [Value.calls] using hy
      exact below z hz

namespace Walked

/-- Behind a walk every node of the values has been called for. -/
theorem ids (h : Walked callback past walked s events answers t) (id : Nat) :
    id ∈ (Value.calls (past ++ events)).map Node.id ↔
      id ∈ (Value.calls past).map Node.id ∨ id ∈ walked.map Node.id := by
  rw [calls_append, h.calls, List.map_append, List.mem_append]
  refine or_congr_right' fun unseen => ?_
  simp only [List.mem_map, List.mem_filter, decide_eq_true_eq]
  constructor
  · rintro ⟨x, ⟨hx, -⟩, rfl⟩
    exact ⟨x, mem_of_mem_firsts hx, rfl⟩
  · rintro ⟨x, hx, rfl⟩
    obtain ⟨y, hy, same⟩ := mem_firsts hx
    exact ⟨y, ⟨hy, by simpa [same] using unseen⟩, same⟩

theorem append (h : Walked callback past walked s events answers t)
    (h' : Walked callback (past ++ events) walked' t more answers' u) :
    Walked callback past (walked ++ walked') s (events ++ more) answers' u where
  runs := h.runs.append h'.runs
  calls := by
    rw [calls_append, h.calls, h'.calls, firsts_append, List.filter_append, List.filter_filter]
    congr 1
    refine List.filter_congr fun x _ => ?_
    rw [← Bool.decide_and, decide_eq_decide, h.ids, not_or]
  handed called := by
    rw [← List.append_assoc]
    rcases List.mem_append.1 called with called | called
    · exact (h.handed called).mono (List.subset_append_left _ _)
    · exact h'.handed called
  kept := by
    rw [← List.append_assoc]
    exact h'.kept

/-- Events that call for nothing. -/
theorem drawn (kept : Kept past answers) (runs : Runs callback events s t)
    (none : Value.calls events = []) : Walked callback past [] s events answers t where
  runs := runs
  calls := by simp [none, firsts]
  handed {x} _ _ called := by
    have := mem_calls.2 ⟨_, _, called⟩
    simp [none] at this
  kept := kept.drawn none

/-- A call for a node that no call was made for before. -/
theorem called {x : Node} {given answer : Value} (kept : Kept past answers)
    (answered : ((callback given).run s.1).run s.2 = ((answer, t.1), t.2))
    (handed : Handed past x given) (unseen : x.id ∉ (Value.calls past).map Node.id)
    (below : ∀ y ∈ nodesAll x.values, y ∈ Value.calls past) :
    Walked callback past [x] s [.called x given answer] (answers.insert x.id answer) t where
  runs := .called answered (.done t)
  calls := by
    rw [firsts, firsts, List.filter_nil, List.filter_cons_of_pos (by simpa using unseen)]
    rfl
  handed mem := by
    obtain ⟨rfl, rfl, rfl⟩ : _ ∧ _ ∧ _ := by simpa using mem
    exact handed.mono (List.subset_append_left _ _)
  kept := kept.called below

variable {nodes : List Node}

/-- Nothing else has been called for. -/
theorem within (h : Walked callback past walked s events answers t) (before : Value.calls past ⊆ nodes)
    (among : walked ⊆ nodes) : Value.calls (past ++ events) ⊆ nodes := by
  intro x hx
  rw [calls_append, List.mem_append, h.calls, List.mem_filter] at hx
  rcases hx with hx | ⟨hx, -⟩
  · exact before hx
  · exact among (mem_of_mem_firsts hx)

theorem reached (h : Walked callback past walked s events answers t) (coherent : Coherent nodes)
    (before : Value.calls past ⊆ nodes) (among : walked ⊆ nodes) :
    walked ⊆ Value.calls (past ++ events) := by
  intro x hx
  obtain ⟨y, hy, same⟩ := List.mem_map.1 ((h.ids x.id).2 (.inr (List.mem_map_of_mem hx)))
  have := coherent y (h.within before among hy) x (among hx) same
  rwa [← this]

end Walked

variable {jobs : List Job} {done : List Value}

/-- The walk in a state. -/
def walk (callback : Value → StateT Nat (StateM σ) Value) (jobs : List Job) (done : List Value)
    (answers : Std.HashMap Nat Value) (t : Nat × σ) :
    ((Option Value × Std.HashMap Nat Value) × Nat) × σ :=
  (((rebuild callback jobs done).run answers).run t.1).run t.2

theorem walk_list (id : Nat) (items : List Value) (t : Nat × σ) :
    walk callback (.enter (.list id items) :: jobs) done answers t =
      walk callback (enterAll items (.buildList id items :: jobs)) done answers t := by
  rw [walk, rebuild, walk]

theorem walk_seen {id : Nat} {a : Value} (h : answers[id]? = some a) (cls : NodeClass)
    (values : List Value) (extent? : Option Extent) (t : Nat × σ) :
    walk callback (.enter (.node id cls values extent?) :: jobs) done answers t =
      walk callback jobs (a :: done) answers t := by
  rw [walk, rebuild]
  simp [h, walk]

theorem walk_node {id : Nat} (h : answers[id]? = .none) (cls : NodeClass)
    (values : List Value) (extent? : Option Extent) (t : Nat × σ) :
    walk callback (.enter (.node id cls values extent?) :: jobs) done answers t =
      walk callback (enterAll values (.buildNode id cls values extent? :: jobs)) done answers t := by
  rw [walk, rebuild]
  simp [h, walk]

/-- What is built from images, and the identity it may draw. -/
theorem rebuildFrom_runs (callback : Value → StateT Nat (StateM σ) Value)
    (answers : Std.HashMap Nat Value) (build : Nat → List Value → Value) (id : Nat)
    (items images : List Value) (past : List Event) (t : Nat × σ) :
    ∃ events t' out, (((rebuildFrom (m := StateM σ) build id items images).run answers).run
        t.1).run t.2 = (((out, answers), t'.1), t'.2) ∧
      Runs callback events t t' ∧ calls events = [] ∧
        Built (past ++ events) build id items images out := by
  by_cases same : unchanged items images
  · refine ⟨[], t, build id items, ?_, .done t, rfl, ?_⟩
    · simp [rebuildFrom, same]
      rfl
    · simp [Built, same]
  · refine ⟨[.drawn t.1], (t.1 + 1, t.2), build t.1 images, ?_, .drawn (.done _), rfl, ?_⟩
    · simp [rebuildFrom, same, fresh]
      rfl
    · simp [Built, same]

theorem walk_buildList {id : Nat} {items images : List Value} {list : Value} {t t' : Nat × σ}
    (h : images.length = items.length)
    (built : (((rebuildFrom (m := StateM σ) .list id items images).run answers).run t.1).run t.2 =
      (((list, answers), t'.1), t'.2)) :
    walk callback (.buildList id items :: jobs) (images.reverse ++ done) answers t =
      walk callback jobs (list :: done) answers t' := by
  rw [walk, rebuild]
  simp only [takeBack?_of_length h, StateT.run_bind]
  rw [built]
  rfl

theorem walk_buildNode {id : Nat} {cls : NodeClass} {values images : List Value}
    {extent? : Option Extent} {node answer : Value} {t t' u : Nat × σ}
    (h : images.length = values.length)
    (built : (((rebuildFrom (m := StateM σ) (fun id values => .node id cls values extent?) id values
      images).run answers).run t.1).run t.2 = (((node, answers), t'.1), t'.2))
    (answered : ((callback node).run t'.1).run t'.2 = ((answer, u.1), u.2)) :
    walk callback (.buildNode id cls values extent? :: jobs) (images.reverse ++ done) answers t =
      walk callback jobs (answer :: done) (answers.insert id answer) u := by
  rw [walk, rebuild]
  simp only [takeBack?_of_length h, StateT.run_bind]
  rw [built]
  have onward : ∀ r : (Value × Nat) × σ, r = ((answer, u.1), u.2) →
      walk callback jobs (r.1.1 :: done) (answers.insert id r.1.1) (r.1.2, r.2) =
        walk callback jobs (answer :: done) (answers.insert id answer) u := by
    rintro _ rfl
    rfl
  exact onward _ answered

/-! ### Whole values -/

mutual

theorem weight_nodes : (v : Value) → ∀ x ∈ nodes v, x.value.weight ≤ v.weight
  | .list _ items, x, hx => by
      have := weight_nodesAll items x hx
      rw [weight]
      omega
  | .node id cls values extent?, x, hx => by
      rcases List.mem_append.1 hx with hx | hx
      · have := weight_nodesAll values x hx
        rw [weight]
        omega
      · obtain rfl := List.mem_singleton.1 hx
        exact Nat.le_refl _
  | .none, _, hx | .bool _, _, hx | .int _, _, hx | .float _, _, hx | .str _, _, hx
  | .bytes _, _, hx | .func _ _, _, hx | .parser _ _ _ _, _, hx | .failure _, _, hx => by cases hx

theorem weight_nodesAll : (vs : List Value) → ∀ x ∈ nodesAll vs, x.value.weight ≤ weightAll vs
  | [], _, hx => by cases hx
  | v :: vs, x, hx => by
      rw [weightAll]
      rcases List.mem_append.1 hx with hx | hx
      · have := weight_nodes v x hx
        omega
      · have := weight_nodesAll vs x hx
        omega

end

/-- No node is below itself. -/
theorem not_below (x : Node) : x ∉ nodesAll x.values := fun below => by
  have := weight_nodesAll _ x below
  rw [Node.value, weight] at this
  omega

/-- What the walk through a value comes to, whatever is left to do behind it. -/
structure Through (callback : Value → StateT Nat (StateM σ) Value) (past : List Event)
    (answers : Std.HashMap Nat Value) (v : Value) (s : Nat × σ) (events : List Event)
    (out : Value) (answers' : Std.HashMap Nat Value) (t : Nat × σ) : Prop where
  walked : Walked callback past (nodes v) s events answers' t
  becomes : Becomes (past ++ events) v out
  onward : ∀ jobs done, walk callback (.enter v :: jobs) done answers s =
    walk callback jobs (out :: done) answers' t

/-- What the walk through values comes to. -/
structure ThroughAll (callback : Value → StateT Nat (StateM σ) Value) (past : List Event)
    (answers : Std.HashMap Nat Value) (vs : List Value) (s : Nat × σ) (events : List Event)
    (images : List Value) (answers' : Std.HashMap Nat Value) (t : Nat × σ) : Prop where
  walked : Walked callback past (nodesAll vs) s events answers' t
  becomes : BecomeAll (past ++ events) vs images
  onward : ∀ jobs done, walk callback (enterAll vs jobs) done answers s =
    walk callback jobs (images.reverse ++ done) answers' t

/-- A value that is neither a list nor a node stays as it is. -/
theorem Through.scalar {v : Value} (list : ∀ id items, v ≠ .list id items)
    (node : ∀ id cls values extent?, v ≠ .node id cls values extent?) (kept : Kept past answers)
    (s : Nat × σ) : Through callback past answers v s [] v answers s where
  walked := by
    rw [nodes]
    · exact .drawn kept (.done s) rfl
    · exact list
    · exact node
  becomes := by rw [Becomes] <;> assumption
  onward jobs done := by
    rw [walk, rebuild, walk]
    · exact list
    · exact node

theorem Through.seen {x : Node} {a : Value} (kept : Kept past answers)
    (found : answers[x.id]? = some a) {nodes : List Node} (coherent : Coherent nodes)
    (before : Value.calls past ⊆ nodes) (among : x ∈ nodes) (s : Nat × σ) :
    Through callback past answers x.value s [] a answers s where
  walked := by
    obtain ⟨y, given, called, same⟩ := kept.sound found
    have hy := mem_calls.2 ⟨_, _, called⟩
    obtain rfl := coherent y (before hy) x among same
    refine ⟨.done s, ?_, by simp, by rwa [List.append_nil]⟩
    refine (List.filter_eq_nil_iff.2 fun z hz => ?_).symm
    -- The node itself and what is below it have all been called for.
    have : z ∈ Value.calls past := by
      rcases List.mem_append.1 (mem_of_mem_firsts hz) with hz | hz
      · exact kept.below hy z hz
      · obtain rfl := List.mem_singleton.1 hz
        exact hy
    simpa using ⟨z, this, rfl⟩
  becomes := by
    obtain ⟨y, given, called, same⟩ := kept.sound found
    obtain rfl := coherent y (before (mem_calls.2 ⟨_, _, called⟩)) x among same
    exact ⟨given, by simpa using called⟩
  onward jobs done := walk_seen found _ _ _ s

mutual

/-- The walk through a value calls for its nodes and puts what has become of it on the stack. -/
theorem rebuild_enter {all : List Node} (coherent : Coherent all) :
    (v : Value) → nodes v ⊆ all → ∀ {past answers}, Kept past answers → calls past ⊆ all →
      ∀ s, ∃ events out answers' t, Through callback past answers v s events out answers' t
  | .list id items, among, past, answers, kept, before, s => by
      obtain ⟨events, images, answers', t, items⟩ :=
        rebuild_enterAll coherent items among kept before s
      obtain ⟨more, u, list, built, runs, none, made⟩ :=
        rebuildFrom_runs callback answers' .list id _ images (past ++ events) t
      refine ⟨events ++ more, list, answers', u, ?_, ?_, fun jobs done => ?_⟩
      · simpa [nodes] using items.walked.append (.drawn items.walked.kept runs none)
      · rw [← List.append_assoc]
        exact ⟨images, items.becomes.mono (List.subset_append_left _ _), made⟩
      · rw [walk_list, items.onward, walk_buildList items.becomes.length built]
  | .node id cls values extent?, among, past, answers, kept, before, s => by
      let x : Node := ⟨id, cls, values, extent?⟩
      have mem : x ∈ all := among (List.mem_append_right _ List.mem_cons_self)
      have belowAmong : nodesAll values ⊆ all :=
        List.Subset.trans (List.subset_append_left _ _) among
      cases found : answers[id]? with
      | some a => exact ⟨_, _, _, _, .seen (x := x) kept found coherent before mem s⟩
      | none =>
          obtain ⟨events, images, answers', t, fields⟩ :=
            rebuild_enterAll coherent values belowAmong kept before s
          obtain ⟨more, u, node, built, runs, none, made⟩ :=
            rebuildFrom_runs callback answers' (fun id values => .node id cls values extent?) id _
              images (past ++ events) t
          obtain ⟨answer, w, answered⟩ : ∃ answer w,
            ((callback node).run u.1).run u.2 = ((answer, w.1), w.2) := ⟨_, (_, _), rfl⟩
          have drawn := Walked.drawn fields.walked.kept runs none
          have handed : Handed (past ++ events ++ more) x node :=
            ⟨images, fields.becomes.mono (List.subset_append_left _ _), made⟩
          -- The node was not among the answers before, and is not below itself.
          have unseen : x.id ∉ (calls (past ++ events ++ more)).map Node.id := by
            rw [drawn.ids, fields.walked.ids]
            simp only [List.map_nil, List.not_mem_nil, or_false]
            rintro (mem' | mem')
            · obtain ⟨y, hy, same⟩ := List.mem_map.1 mem'
              obtain ⟨a, ha⟩ := kept.full hy
              simp [same, x, found] at ha
            · obtain ⟨y, hy, same⟩ := List.mem_map.1 mem'
              obtain rfl := coherent y (belowAmong hy) x mem same
              exact not_below x hy
          have below : ∀ y ∈ nodesAll x.values, y ∈ calls (past ++ events ++ more) := by
            intro y hy
            rw [calls_append, none, List.append_nil]
            exact fields.walked.reached coherent before belowAmong hy
          have last := Walked.called drawn.kept answered handed unseen below
          rw [List.append_assoc] at last
          have whole := (fields.walked.append drawn).append last
          rw [List.append_nil] at whole
          refine ⟨_, answer, _, w, whole, ⟨node, by simp [x]⟩, fun jobs done => ?_⟩
          rw [walk_node found, fields.onward, walk_buildNode fields.becomes.length built answered]
  | .none, _, _, _, kept, _, s | .bool _, _, _, _, kept, _, s | .int _, _, _, _, kept, _, s
  | .float _, _, _, _, kept, _, s | .str _, _, _, _, kept, _, s | .bytes _, _, _, _, kept, _, s
  | .func _ _, _, _, _, kept, _, s | .parser _ _ _ _, _, _, _, kept, _, s
  | .failure _, _, _, _, kept, _, s => ⟨_, _, _, _, .scalar (by simp) (by simp) kept s⟩

theorem rebuild_enterAll {all : List Node} (coherent : Coherent all) :
    (vs : List Value) → nodesAll vs ⊆ all → ∀ {past answers}, Kept past answers →
      calls past ⊆ all → ∀ s, ∃ events images answers' t,
        ThroughAll callback past answers vs s events images answers' t
  | [], _, past, answers, kept, _, s =>
    ⟨[], [], answers, s, .drawn kept (.done s) rfl, rfl, fun _ _ => rfl⟩
  | v :: vs, among, past, answers, kept, before, s => by
      obtain ⟨events, out, answers₁, t, first⟩ := rebuild_enter coherent v
        (List.Subset.trans (List.subset_append_left _ _) among) kept before s
      obtain ⟨more, images, answers₂, u, others⟩ := rebuild_enterAll coherent vs
        (List.Subset.trans (List.subset_append_right _ _) among) first.walked.kept
        (first.walked.within before (List.Subset.trans (List.subset_append_left _ _) among)) t
      refine ⟨events ++ more, out :: images, answers₂, u, first.walked.append others.walked, ?_, ?_⟩
      · have := others.becomes
        rw [List.append_assoc] at this
        exact ⟨out, images, first.becomes.mono (by simp) v, this, rfl⟩
      · intro jobs done
        have step := first.onward (enterAll vs jobs) done
        rw [others.onward] at step
        simpa [enterAll] using step

end

/-- What rebuilding comes to: `events` lead from one state to another, the function is called once
for every node, in the order in which they first occur behind those below them, and every time is
handed the node built from what has become of its fields. -/
structure Rebuilds (callback : Value → StateT Nat (StateM σ) Value) (v : Value) (s : Nat × σ)
    (events : List Event) (out : Value) (t : Nat × σ) : Prop where
  runs : Runs callback events s t
  calls : calls events = firsts (nodes v)
  handed : ∀ {x given answer}, .called x given answer ∈ events → Handed events x given
  becomes : Becomes events v out

/-- **Rebuilding is a recursion from the leaves to the root**: whatever the function does, the walk
never runs out of values, and does nothing but call the function, once for every node, and draw
identities for what has changed. -/
theorem transform_rebuilds (callback : Value → StateT Nat (StateM σ) Value) {v : Value}
    (coherent : Coherent (nodes v)) (s : Nat × σ) :
    ∃ events out t, Rebuilds callback v s events out t ∧
      ((transform? callback v).run s.1).run s.2 = ((some out, t.1), t.2) ∧
      ((transform callback v).run s.1).run s.2 = ((out, t.1), t.2) := by
  obtain ⟨events, out, answers, t, through⟩ :=
    @rebuild_enter _ callback _ coherent v (List.Subset.refl _) _ _ Kept.empty (by simp [calls]) s
  have whole : ((transform? callback v).run s.1).run s.2 = ((some out, t.1), t.2) := by
    have ends : walk callback [] [out] answers t = (((some out, answers), t.1), t.2) := by
      rw [walk, rebuild]
      rfl
    rw [← through.onward] at ends
    exact congrArg (fun r => ((r.1.1.1, r.1.2), r.2)) ends
  refine ⟨events, out, t, ⟨through.walked.runs, ?_, fun called => ?_, ?_⟩, whole, ?_⟩
  · rw [through.walked.calls]
    exact List.filter_eq_self.2 (by simp [calls])
  · simpa using through.walked.handed called
  · simpa using through.becomes
  · exact congrArg (fun r => ((r.1.1.getD .none, r.1.2), r.2)) whole

/-- A function that replaces every node by the number of its call. -/
def numbered : Value → StateT Nat (StateM Nat) Value :=
  fun _ identity count => ((.int (Int64.ofNat (count + 1)), identity), count + 1)

/-- A node that stands in both operands of another and behind it. -/
def shared : Value :=
  let leaf : Value := .node 0 .prefixOp [.str "-", .none] .none
  .list 2 [.node 1 .infixOp [leaf, .str "+", leaf] .none, leaf]

/-- A node that stands in three places is handed over once, and before the node above it. -/
theorem transform_rebuilds_shared : Coherent (nodes shared) ∧
    ∃ events out t, Rebuilds numbered shared (3, 0) events out t ∧
      (calls events).map Node.id = [0, 1] ∧
        ((transform? numbered shared).run 3).run 0 = ((some out, t.1), t.2) := by
  have coherent : Coherent (nodes shared) := by
    simp [Coherent, nodes, nodesAll, shared]
  obtain ⟨events, out, t, rebuilds, found, -⟩ := transform_rebuilds numbered coherent (3, 0)
  refine ⟨coherent, events, out, t, rebuilds, ?_, found⟩
  rw [rebuilds.calls]
  simp [nodes, nodesAll, shared, firsts]

end Packrat.Value
