import Packrat.Proofs.Evaluation.Objects
import Packrat.Proofs.Trees.Identity
import Packrat.Tree.Places

/-
**Nodes are put in their places.**

When a parse has succeeded, the lines and columns of all nodes are filled in at once.  What comes out
has the same shape: a node with a place has become one with the same class whose place is complete,
and its fields hold what has become of theirs.  Identities are new where something has changed, so
nothing that was there before is mistaken for what has come out of it.

Main definitions:

* `Packrat.Value.Placed` — what becomes of a value;
* `Packrat.Value.effectless` — functions that only draw identities.

Main results:

* `Packrat.Value.walk_effectless` — the walk that rebuilds has no effects if its function has none;
* `Packrat.Value.Placed.reaches` — what can be reached has become of what could be reached;
* `Packrat.Value.resolvePlaces_placed` — **all nodes of a value are put in their places**.
-/

set_option autoImplicit false

namespace Packrat

/-- A stretch whose ends have been put in their places. -/
def Extent.complete (place : Nat → Position) (extent : Extent) : Extent :=
  ⟨place extent.start.index, place extent.stop.index⟩

namespace Value

mutual

/-- What becomes of a value when all nodes in it are put in their places. -/
inductive Placed (place : Nat → Position) : Value → Value → Prop
  | scalar {v : Value} (list : ∀ id items, v ≠ .list id items)
      (node : ∀ id cls values extent?, v ≠ .node id cls values extent?) : Placed place v v
  | list (id id' : Nat) {items images : List Value} (all : PlacedAll place items images) :
      Placed place (.list id items) (.list id' images)
  | node (id id' : Nat) (cls : NodeClass) (extent? : Option Extent) {values images : List Value}
      (all : PlacedAll place values images) :
      Placed place (.node id cls values extent?)
        (.node id' cls images (extent?.map (Extent.complete place)))

inductive PlacedAll (place : Nat → Position) : List Value → List Value → Prop
  | nil : PlacedAll place [] []
  | cons {v image : Value} {vs images : List Value} (head : Placed place v image)
      (tail : PlacedAll place vs images) : PlacedAll place (v :: vs) (image :: images)

end

/-! ### What can be reached -/

section

variable {place : Nat → Position}

theorem PlacedAll.of_mem {vs images : List Value} (h : PlacedAll place vs images) {w : Value}
    (mem : w ∈ images) : ∃ v ∈ vs, Placed place v w := by
  induction vs generalizing images with
  | nil =>
      cases h
      cases mem
  | cons v vs ih =>
      cases h with
      | cons head tail =>
          rcases List.mem_cons.1 mem with rfl | mem
          · exact ⟨v, List.mem_cons_self, head⟩
          · obtain ⟨u, of, placed⟩ := ih tail mem
            exact ⟨u, List.mem_cons_of_mem _ of, placed⟩

theorem Placed.part {v image w : Value} (h : Placed place v image) (part : w ∈ image.parts) :
    ∃ u ∈ v.parts, Placed place u w := by
  cases h with
  | scalar list node =>
      cases v with
      | list => exact absurd rfl (list _ _)
      | node => exact absurd rfl (node _ _ _ _)
      | _ => cases part
  | list _ _ all => exact all.of_mem part
  | node _ _ _ _ all => exact all.of_mem part

/-- What can be reached has become of what could be reached. -/
theorem Placed.reaches {v image w : Value} (h : Placed place v image) (reaches : image.Reaches w) :
    ∃ u, v.Reaches u ∧ Placed place u w := by
  induction reaches with
  | refl => exact ⟨v, .refl v, h⟩
  | tail _ part ih =>
      obtain ⟨u, reaches, placed⟩ := ih
      obtain ⟨x, part, placed⟩ := placed.part part
      exact ⟨x, reaches.trans (.part part (.refl x)), placed⟩

/-- A node becomes a node of the same class. -/
theorem Placed.node_becomes {raw : Nat} {cls : NodeClass} {values : List Value} {extent? : Option Extent}
    {v : Value} (h : Placed place (.node raw cls values extent?) v) :
    ∃ id images, v = .node id cls images (extent?.map (Extent.complete place)) ∧
      PlacedAll place values images := by
  generalize before : Value.node raw cls values extent? = w at h
  cases h with
  | scalar _ node => exact absurd before.symm (node _ _ _ _)
  | list => cases before
  | node _ id _ _ all =>
      obtain ⟨rfl, rfl, rfl, rfl⟩ := Value.node.inj before
      exact ⟨id, _, rfl, all⟩

/-- What has become a node with a place was one, of the same class. -/
theorem Placed.of_node {v : Value} {id : Nat} {cls : NodeClass} {images : List Value} {extent : Extent}
    (h : Placed place v (.node id cls images (some extent))) :
    ∃ raw values before, v = .node raw cls values (some before) ∧ extent = before.complete place ∧
      PlacedAll place values images := by
  generalize image : Value.node id cls images (some extent) = w at h
  cases h with
  | scalar _ node => exact absurd image.symm (node _ _ _ _)
  | list => cases image
  | node raw _ _ extent? all =>
      obtain ⟨rfl, rfl, rfl, same⟩ := Value.node.inj image
      obtain ⟨before, rfl, rfl⟩ := Option.map_eq_some_iff.1 same.symm
      exact ⟨raw, _, before, rfl, rfl, all⟩

end

/-! ### Objects -/

section

variable {ok : Value → Prop} {h : Heap} {keep : Value → Prop} {v w : Value}

theorem Holds.parts (holds : v.Holds ok) : AllHold ok v.parts := by
  cases holds with
  | list _ all => exact all
  | node _ all => exact all
  | _ => exact .nil

theorem Holds.reaches (holds : v.Holds ok) (reaches : v.Reaches w) : w.Holds ok := by
  induction reaches with
  | refl => exact holds
  | tail _ part ih => exact ih.parts.of_mem part

/-- Nodes of one identity on a heap are one node. -/
theorem Holds.coherent (on : v.Holds (h.Knows keep)) : Coherent (nodes v) := by
  have there {x : Node} (mem : x ∈ nodes v) : h.node x.id = x.value := by
    have holds := on.reaches (reaches_of_mem_nodes v mem)
    cases holds with
    | node known => exact known.2.1
  intro x hx y hy same
  have values : x.value = y.value := by rw [← there hx, ← there hy, same]
  obtain ⟨ids, classes, fields, extents⟩ := Value.node.inj values
  cases x
  cases y
  simp_all

end

/-! ### Effects -/

/-- A function whose only effect is that it draws identities. -/
def effectless (f : Value → StateM Nat Value) : Value → StateT Nat (StateM Unit) Value :=
  fun v n u => (f v n, u)

theorem rebuildFrom_pure (build : Nat → List Value → Value) (id : Nat) (items images : List Value)
    (answers : Std.HashMap Nat Value) (n : Nat) :
    ((rebuildFrom (m := Id) build id items images).run answers).run n =
      if unchanged items images then ((build id items, answers), n)
      else ((build n images, answers), n + 1) := by
  by_cases same : unchanged items images <;> simp [rebuildFrom, same, fresh] <;> rfl

/-- The walk has no effects of its own. -/
theorem walk_effectless (f : Value → StateM Nat Value) (jobs : List Job) (done : List Value)
    (answers : Std.HashMap Nat Value) (n : Nat) :
    walk (effectless f) jobs done answers (n, ()) =
      (((rebuild (m := Id) f jobs done).run answers).run n, ()) := by
  match jobs with
  | [] =>
      rw [walk, rebuild, rebuild]
      rfl
  | .enter v :: jobs =>
      cases v with
      | list id items =>
          rw [walk_list, rebuild]
          exact walk_effectless f _ _ _ _
      | node id cls values extent? =>
          cases found : answers[id]? with
          | some a =>
              rw [walk_seen found, walk_effectless f, rebuild]
              simp [found]
          | none =>
              rw [walk_node found, walk_effectless f, rebuild]
              simp [found]
      | _ =>
          rw [walk, rebuild, rebuild]
          · exact walk_effectless f _ _ _ _
          all_goals simp
  | .buildList id items :: jobs =>
      rw [walk, rebuild, rebuild]
      cases takeBack? items.length [] done with
      | none => rfl
      | some back =>
          have left := rebuildFrom_run Value.list id items back.1 answers (n, ())
          have right := rebuildFrom_pure Value.list id items back.1 answers n
          simp only [StateT.run_bind]
          rw [left, right]
          split
          · exact walk_effectless f jobs _ answers n
          · exact walk_effectless f jobs _ answers (n + 1)
  | .buildNode id cls values extent? :: jobs =>
      rw [walk, rebuild, rebuild]
      cases takeBack? values.length [] done with
      | none => rfl
      | some back =>
          have left := rebuildFrom_run (Value.node · cls · extent?) id values back.1 answers (n, ())
          have right := rebuildFrom_pure (Value.node · cls · extent?) id values back.1 answers n
          simp only [StateT.run_bind]
          rw [left, right]
          split
          · exact walk_effectless f jobs _ _ _
          · exact walk_effectless f jobs _ _ _
termination_by workLeft jobs
decreasing_by
  all_goals simp only [workLeft_cons, workLeft_enterAll, Job.weight, weight]
  all_goals omega

/-- Rebuilding a value of a heap, by what the function was called for. -/
theorem transform_effectless (f : Value → StateM Nat Value) {v : Value} (coherent : Coherent (nodes v))
    (n : Nat) : ∃ events out n', Runs (effectless f) events (n, ()) (n', ()) ∧
      (∀ {x given answer}, .called x given answer ∈ events → Handed events x given) ∧
      Becomes events v out ∧ (transform (m := Id) f v).run n = (out, n') := by
  obtain ⟨events, out, answers, ⟨n', u⟩, through⟩ := @rebuild_enter _ (effectless f) _ coherent v
    (List.Subset.refl _) _ _ Kept.empty (by simp [calls]) (n, ())
  refine ⟨events, out, n', through.walked.runs, fun called => ?_, ?_, ?_⟩
  · simpa using through.walked.handed called
  · simpa using through.becomes
  · have ends : walk (effectless f) [] [out] answers (n', u) = (((some out, answers), n'), u) := by
      rw [walk, rebuild]
      rfl
    rw [← through.onward, walk_effectless] at ends
    exact congrArg (fun r => (r.1.1.1.getD .none, r.1.2)) ends

/-! ### Places -/

section

variable {table : LineTable} {input : Input} {h : Heap} {keep : Value → Prop} {events : List Event}

/-- What has happened after a moment: all identities drawn are new. -/
structure Recent (f : Value → StateM Nat Value) (n : Nat) (events : List Event) : Prop where
  drawn : ∀ id, .drawn id ∈ events → n ≤ id
  called : ∀ x given answer, .called x given answer ∈ events →
    ∃ m ≥ n, ∃ m', (f given).run m = (answer, m')

theorem Recent.of_runs {f : Value → StateM Nat Value} (grows : ∀ v n, n ≤ ((f v).run n).2)
    {s t : Nat × Unit} (runs : Runs (effectless f) events s t) : Recent f s.1 events := by
  induction runs with
  | done => exact ⟨by simp, by simp⟩
  | @drawn events n u t _ ih =>
      refine ⟨fun id mem => ?_, fun x given answer mem => ?_⟩
      · rcases List.mem_cons.1 mem with same | mem
        · exact Nat.le_of_eq (Event.drawn.inj same).symm
        · exact Nat.le_of_succ_le (ih.drawn id mem)
      · rcases List.mem_cons.1 mem with same | mem
        · cases same
        · obtain ⟨m, le, answered⟩ := ih.called x given answer mem
          exact ⟨m, Nat.le_of_succ_le le, answered⟩
  | @called x given answer events n u n' u' t answered _ ih =>
      have same : (f given).run n = (answer, n') := congrArg (·.1) answered
      have le : n ≤ n' := by
        have := grows given n
        rwa [same] at this
      refine ⟨fun id mem => ?_, fun y given' answer' mem => ?_⟩
      · rcases List.mem_cons.1 mem with other | mem
        · cases other
        · exact Nat.le_trans le (ih.drawn id mem)
      · rcases List.mem_cons.1 mem with first | mem
        · obtain ⟨rfl, rfl, rfl⟩ := Event.called.inj first
          exact ⟨n, Nat.le_refl _, n', same⟩
        · obtain ⟨m, le', answered⟩ := ih.called y given' answer' mem
          exact ⟨m, Nat.le_trans le le', answered⟩

theorem le_resolvePlace (table : LineTable) (input : Input) (v : Value) (n : Nat) :
    n ≤ ((resolvePlace table input v).run n).2 := by
  unfold resolvePlace
  split
  · split
    · exact Nat.le_succ n
    · exact Nat.le_refl n
  · exact Nat.le_refl n

mutual

/-- What becomes of a value has been put in its place, and is what it was if its identity is. -/
theorem placed_of_becomes (recent : Recent (resolvePlace table input) h.next events)
    (handed : ∀ {x given answer}, .called x given answer ∈ events → Handed events x given)
    (incomplete : ∀ id cls values extent, keep (.node id cls values (some extent)) → extent.start.line = 0) :
    (v : Value) → v.Holds (h.Knows keep) → ∀ {out : Value}, Becomes events v out →
      Placed (table.position input) v out ∧ (v.same out = true → out = v)
  | .list id items, on, out, becomes => by
      obtain ⟨images, all, built⟩ := becomes
      cases on with
      | list known on =>
          obtain ⟨placed, kept⟩ := placedAll_of_becomes recent handed incomplete items on all
          unfold Built at built
          split at built
          · next same =>
              obtain rfl := kept same
              subst built
              exact ⟨.list id id placed, fun _ => rfl⟩
          · next changed =>
              obtain ⟨new, drawn, rfl⟩ := built
              refine ⟨.list id new placed, fun same => ?_⟩
              -- An empty list has not changed, and all others are older than what is new.
              have held : items ≠ [] := by
                rintro rfl
                obtain rfl := all
                exact changed rfl
              obtain rfl : id = new := by simpa using same
              exact absurd (known held) (Nat.not_lt.2 (recent.drawn _ drawn))
  | .node id cls values extent?, on, out, becomes => by
      obtain ⟨given, called⟩ := becomes
      obtain ⟨images, all, built⟩ := handed called
      obtain ⟨m, later, m', answered⟩ := recent.called _ _ _ called
      cases on with
      | node known on =>
          obtain ⟨old, -, kept⟩ := known
          obtain ⟨placed, same⟩ := placedAll_of_becomes recent handed incomplete values on all
          have gives : ∃ i, given = .node i cls images extent? ∧ (i = id → images = values) := by
            unfold Built at built
            split at built
            · next unchanged =>
                obtain rfl := same unchanged
                exact ⟨id, built, fun _ => rfl⟩
            · obtain ⟨new, drawn, rfl⟩ := built
              exact ⟨new, rfl, fun same => absurd (same ▸ recent.drawn _ drawn) (Nat.not_le.2 old)⟩
          obtain ⟨i, rfl, stays⟩ := gives
          cases extent? with
          | none =>
              obtain ⟨rfl, -⟩ := Prod.mk.inj answered
              refine ⟨.node id i cls .none placed, fun same => ?_⟩
              obtain rfl : id = i := by simpa using same
              rw [stays rfl]
          | some extent =>
              have line := incomplete _ _ _ _ (kept (Option.some_ne_none _))
              have done : (resolvePlace table input (.node i cls images (some extent))).run m =
                  (.node m cls images (some (extent.complete (table.position input))), m + 1) := by
                simp [resolvePlace, line]
                rfl
              obtain ⟨rfl, -⟩ := Prod.mk.inj (done.symm.trans answered)
              refine ⟨.node id m cls (some extent) placed, fun same => ?_⟩
              obtain rfl : id = m := by simpa using same
              exact absurd old (Nat.not_lt.2 later)
  | .none, _, _, rfl | .bool _, _, _, rfl | .int _, _, _, rfl | .float _, _, _, rfl
  | .str _, _, _, rfl | .bytes _, _, _, rfl | .func _ _, _, _, rfl | .parser _ _ _ _, _, _, rfl
  | .failure _, _, _, rfl => ⟨.scalar (by simp) (by simp), fun _ => rfl⟩

theorem placedAll_of_becomes (recent : Recent (resolvePlace table input) h.next events)
    (handed : ∀ {x given answer}, .called x given answer ∈ events → Handed events x given)
    (incomplete : ∀ id cls values extent, keep (.node id cls values (some extent)) → extent.start.line = 0) :
    (vs : List Value) → AllHold (h.Knows keep) vs → ∀ {images : List Value},
      BecomeAll events vs images →
      PlacedAll (table.position input) vs images ∧ (unchanged vs images = true → images = vs)
  | [], _, _, rfl => ⟨.nil, fun _ => rfl⟩
  | v :: vs, on, images, becomes => by
      obtain ⟨image, rest, first, others, rfl⟩ := becomes
      cases on with
      | cons head tail =>
          obtain ⟨placed, kept⟩ := placed_of_becomes recent handed incomplete v head first
          obtain ⟨placedAll, keptAll⟩ := placedAll_of_becomes recent handed incomplete vs tail others
          refine ⟨.cons placed placedAll, fun same => ?_⟩
          obtain ⟨same, sameAll⟩ := Bool.and_eq_true_iff.1 same
          rw [kept same, keptAll sameAll]

end

/-- **All nodes of a value are put in their places**, if the value is on a heap and no place in it is
complete yet. -/
theorem resolvePlaces_placed (table : LineTable) (input : Input) {v : Value} (on : v.Holds (h.Knows keep))
    (incomplete : ∀ id cls values extent, keep (.node id cls values (some extent)) → extent.start.line = 0) :
    ∃ out n, (resolvePlaces table input v).run h.next = (out, n) ∧
      Placed (table.position input) v out := by
  obtain ⟨events, out, n, runs, handed, becomes, done⟩ :=
    transform_effectless (resolvePlace table input) on.coherent h.next
  have recent := Recent.of_runs (le_resolvePlace table input) runs
  exact ⟨out, n, done, (placed_of_becomes recent handed incomplete v on becomes).1⟩

end

end Value

end Packrat
