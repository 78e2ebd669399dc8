import Packrat.Proofs.Trees.Visiting

/-
**Rebuilding a tree that does not change.**

A function that answers every node with the node itself gives back the same tree: no list and no
node is built anew.  Whether something has changed is decided by identity, and a NaN is not even
identical to itself, so a list or a node that holds one is copied nevertheless, and with it
whatever it stands in.

Main definitions:

* `Packrat.Value.NaNFree` — values in which no list and no node holds a NaN.

Main results:

* `Packrat.Value.same_self` — every value but NaN is identical to itself;
* `Packrat.Value.walk_identity` — the walk through one value, whatever is left to do behind it;
* `Packrat.Value.transform_identity_iff` — **a tree is given back as it is exactly if no list and no
  node in it holds a NaN**.
-/

set_option autoImplicit false

namespace Packrat.Value

/-! ### NaN -/

/-- Whether a value is the float that is no number. -/
def isNaN : Value → Bool
  | .float x => x.isNaN
  | _ => false

open Float.Model in
/-- A float equals itself unless it is no number. -/
theorem float_beq_self (x : Float) : (x == x) = !x.isNaN := by
  show x.toModel.unpack.beq x.toModel.unpack = !x.toModel.unpack.isNaN
  cases x.toModel.unpack with
  | infinity sign => cases sign <;> rfl
  | notANumber => rfl
  | zero sign => rfl
  | finite sign mantissa exponent positive =>
      have alike : (compare exponent exponent).then (compare mantissa mantissa) = .eq := by
        simp [compare, compareOfLessAndEq]
      cases sign with
      | positive =>
          show (some ((compare exponent exponent).then (compare mantissa mantissa)) == some .eq) = true
          rw [alike]
          rfl
      | negative =>
          show (some ((compare exponent exponent).then (compare mantissa mantissa)).swap ==
            some .eq) = true
          rw [alike]
          rfl

/-- Every value but NaN is identical to itself. -/
theorem same_self (v : Value) : v.same v = !v.isNaN := by
  cases v with
  | float x => exact float_beq_self x
  | _ => simp [same, eq, isNaN]

theorem unchanged_self (vs : List Value) : unchanged vs vs = true ↔ ∀ v ∈ vs, v.isNaN = false := by
  induction vs with
  | nil => simp
  | cons v vs ih => simp [unchanged, same_self, ih]

/-- No list and no node within a value holds a NaN. -/
def NaNFree (v : Value) : Prop := ∀ w, Reaches v w → ∀ x ∈ w.parts, x.isNaN = false

theorem naNFree_iff {v : Value} :
    v.NaNFree ↔ (∀ x ∈ v.parts, x.isNaN = false) ∧ ∀ x ∈ v.parts, x.NaNFree := by
  constructor
  · intro free
    exact ⟨free v (.refl v), fun x part w reaches => free w (reaches.part part)⟩
  · rintro ⟨here, below⟩ w reaches
    rcases Relation.ReflTransGen.cases_head reaches with rfl | ⟨x, part, reaches⟩
    · exact here
    · exact below x part w reaches

@[simp] theorem naNFree_list (id : Nat) (items : List Value) :
    (list id items).NaNFree ↔ (∀ x ∈ items, x.isNaN = false) ∧ ∀ x ∈ items, x.NaNFree := naNFree_iff

@[simp] theorem naNFree_node (id : Nat) (cls : NodeClass) (values : List Value)
    (extent? : Option Extent) : (node id cls values extent?).NaNFree ↔
      (∀ x ∈ values, x.isNaN = false) ∧ ∀ x ∈ values, x.NaNFree := naNFree_iff

/-- What holds nothing holds no NaN. -/
theorem naNFree_of_parts {v : Value} (h : v.parts = []) : v.NaNFree := naNFree_iff.2 (by simp [h])

/-! ### The walk -/

variable {σ : Type} {all : List Node} {answers : Std.HashMap Nat Value}

/-- The answers so far are the nodes themselves, and no NaN is in them. -/
def Intact (all : List Node) (answers : Std.HashMap Nat Value) : Prop :=
  ∀ {id a}, answers[id]? = some a → ∀ x ∈ all, x.id = id → a = x.value ∧ x.value.NaNFree

theorem Intact.insert (coherent : Coherent all) (intact : Intact all answers) {x : Node}
    (among : x ∈ all) (free : x.value.NaNFree) : Intact all (answers.insert x.id x.value) := by
  intro id a found y hy same
  rw [Std.HashMap.getElem?_insert] at found
  split at found
  · next here =>
      obtain rfl := coherent x among y hy ((eq_of_beq here).trans same.symm)
      exact ⟨(Option.some.inj found).symm, free⟩
  · exact intact found y hy same

/-- What the walk through values leaves behind when every node is answered by itself: `n` and `n'`
are the identities to be drawn next before it and behind it. As long as the answers are intact,
nothing is drawn exactly if no NaN is held, and then nothing changes. -/
structure Stays (all : List Node) (answers answers' : Std.HashMap Nat Value) (n n' : Nat)
    (free same : Prop) : Prop where
  grows : n ≤ n'
  steady : Intact all answers → (free ∨ n' = n) → n' = n ∧ same ∧ free ∧ Intact all answers'

/-- What is built draws an identity exactly if something has changed. -/
theorem rebuildFrom_run (build : Nat → List Value → Value) (id : Nat) (items images : List Value)
    (answers : Std.HashMap Nat Value) (t : Nat × σ) :
    (((rebuildFrom (m := StateM σ) build id items images).run answers).run t.1).run t.2 =
      if unchanged items images then (((build id items, answers), t.1), t.2)
      else (((build t.1 images, answers), t.1 + 1), t.2) := by
  by_cases same : unchanged items images <;> simp [rebuildFrom, same, fresh] <;> rfl

/-- What is built from items stays if they stay and none of them is a NaN. -/
theorem Stays.build {answers' : Std.HashMap Nat Value} {items images : List Value} {n : Nat}
    {t : Nat × σ} (h : Stays all answers answers' t.1 n (∀ x ∈ items, x.NaNFree) (images = items))
    (build : Nat → List Value → Value) (id : Nat) :
    ∃ out n', (((rebuildFrom (m := StateM σ) build id items images).run answers').run
        (n, t.2).1).run (n, t.2).2 = (((out, answers'), (n', t.2).1), (n', t.2).2) ∧
      Stays all answers answers' t.1 n'
        ((∀ x ∈ items, x.isNaN = false) ∧ ∀ x ∈ items, x.NaNFree) (out = build id items) := by
  have run := rebuildFrom_run build id items images answers' (n, t.2)
  by_cases same : unchanged items images
  · rw [if_pos same] at run
    refine ⟨_, _, run, h.grows, fun intact once => ?_⟩
    obtain ⟨none, rfl, free, intact'⟩ := h.steady intact (once.imp_left And.right)
    exact ⟨none, rfl, ⟨(unchanged_self _).1 same, free⟩, intact'⟩
  · rw [if_neg same] at run
    refine ⟨_, _, run, Nat.le_succ_of_le h.grows, fun intact once => ?_⟩
    rcases once with ⟨numbers, free⟩ | drawn
    · -- The items have stayed, so only a NaN among them can be the change.
      obtain ⟨-, rfl, -, -⟩ := h.steady intact (.inl free)
      exact absurd ((unchanged_self _).2 numbers) same
    · have := h.grows
      simp only at drawn
      omega

mutual

/-- The walk through a value whose nodes are answered by themselves. -/
theorem walk_identity (coherent : Coherent all) : (v : Value) → nodes v ⊆ all →
    ∀ (answers : Std.HashMap Nat Value) (t : Nat × σ), ∃ out answers' n,
      Stays all answers answers' t.1 n v.NaNFree (out = v) ∧
        ∀ jobs done, walk pure (.enter v :: jobs) done answers t =
          walk pure jobs (out :: done) answers' (n, t.2)
  | .list id items, among, answers, t => by
      obtain ⟨images, answers', n, length, stays, onward⟩ :=
        walk_identityAll coherent items among answers t
      obtain ⟨out, n', built, stays'⟩ := stays.build .list id
      refine ⟨out, answers', n', ?_, fun jobs done => ?_⟩
      · rwa [naNFree_list]
      · rw [walk_list, onward, walk_buildList length built]
  | .node id cls values extent?, among, answers, t => by
      let x : Node := ⟨id, cls, values, extent?⟩
      have mem : x ∈ all := among (mem_nodes_value x)
      cases found : answers[id]? with
      | some a =>
          refine ⟨a, answers, t.1, ⟨Nat.le_refl _, fun intact _ => ?_⟩,
            fun jobs done => walk_seen found _ _ _ t⟩
          obtain ⟨rfl, free⟩ := intact found x mem rfl
          exact ⟨rfl, rfl, free, intact⟩
      | none =>
          obtain ⟨images, answers', n, length, stays, onward⟩ := walk_identityAll coherent values
            (List.Subset.trans (List.subset_append_left _ _) among) answers t
          obtain ⟨out, n', built, stays'⟩ := stays.build (fun id values => .node id cls values extent?) id
          refine ⟨out, answers'.insert id out, n', ⟨stays'.grows, fun intact once => ?_⟩,
            fun jobs done => ?_⟩
          · rw [naNFree_node] at once ⊢
            obtain ⟨none, rfl, free, intact'⟩ := stays'.steady intact once
            exact ⟨none, rfl, free, intact'.insert coherent mem ((naNFree_node ..).2 free)⟩
          · rw [walk_node found, onward,
              walk_buildNode length built rfl]
  | .none, _, answers, t | .bool _, _, answers, t | .int _, _, answers, t
  | .float _, _, answers, t | .str _, _, answers, t | .bytes _, _, answers, t
  | .func _ _, _, answers, t | .parser _ _ _ _, _, answers, t | .failure _, _, answers, t => by
      refine ⟨_, answers, t.1, ⟨Nat.le_refl _, fun intact _ => ⟨rfl, rfl, ?_, intact⟩⟩,
        fun jobs done => ?_⟩
      · exact naNFree_of_parts rfl
      · rw [walk, rebuild, walk] <;> simp

theorem walk_identityAll (coherent : Coherent all) : (vs : List Value) → nodesAll vs ⊆ all →
    ∀ (answers : Std.HashMap Nat Value) (t : Nat × σ), ∃ images answers' n,
      images.length = vs.length ∧
      Stays all answers answers' t.1 n (∀ x ∈ vs, x.NaNFree) (images = vs) ∧
        ∀ jobs done, walk pure (enterAll vs jobs) done answers t =
          walk pure jobs (images.reverse ++ done) answers' (n, t.2)
  | [], _, answers, t =>
    ⟨[], answers, t.1, rfl, ⟨Nat.le_refl _, fun intact _ => ⟨rfl, rfl, by simp, intact⟩⟩,
      fun _ _ => rfl⟩
  | v :: vs, among, answers, t => by
      obtain ⟨out, answers₁, n₁, first, onward₁⟩ := walk_identity coherent v
        (List.Subset.trans (List.subset_append_left _ _) among) answers t
      obtain ⟨images, answers₂, n₂, length, others, onward₂⟩ := walk_identityAll coherent vs
        (List.Subset.trans (List.subset_append_right _ _) among) answers₁ (n₁, t.2)
      refine ⟨out :: images, answers₂, n₂, by simp [length],
        ⟨Nat.le_trans first.grows others.grows, fun intact once => ?_⟩, fun jobs done => ?_⟩
      · have grows₁ := first.grows
        have grows₂ := others.grows
        simp only at grows₂
        obtain ⟨none₁, rfl, free₁, intact₁⟩ := first.steady intact
          (once.imp (fun free => free v List.mem_cons_self) fun drawn => by omega)
        obtain ⟨none₂, rfl, free₂, intact₂⟩ := others.steady intact₁
          (once.imp (fun free x hx => free x (List.mem_cons_of_mem _ hx)) fun drawn => by
            simp only; omega)
        refine ⟨none₂.trans none₁, rfl, ?_, intact₂⟩
        simpa using ⟨free₁, free₂⟩
      · have step := onward₁ (enterAll vs jobs) done
        rw [onward₂] at step
        simpa [enterAll] using step

end

/-! ### Whole values -/

/-- **A tree whose nodes are answered by themselves is given back as it is**, and nothing is built
anew in it, exactly if no list and no node in it holds a NaN. -/
theorem transform_identity_iff {v : Value} (coherent : Coherent (nodes v)) (n : Nat) (s : σ) :
    ((transform (m := StateM σ) pure v).run n).run s = ((v, n), s) ↔ v.NaNFree := by
  obtain ⟨out, answers, n', stays, onward⟩ :=
    walk_identity coherent v (List.Subset.refl _) ∅ (n, s)
  have ends : walk pure [.enter v] [] ∅ (n, s) = (((some out, answers), n'), s) := by
    rw [onward, walk, rebuild]
    rfl
  have whole : ((transform? (m := StateM σ) pure v).run n).run s = ((some out, n'), s) :=
    congrArg (fun r : ((Option Value × Std.HashMap Nat Value) × Nat) × σ =>
      ((r.1.1.1, r.1.2), r.2)) ends
  have run : ((transform (m := StateM σ) pure v).run n).run s = ((out, n'), s) :=
    congrArg (fun r : (Option Value × Nat) × σ => ((r.1.1.getD .none, r.1.2), r.2)) whole
  have intact : Intact (nodes v) ∅ := fun found => by simp at found
  rw [run]
  constructor
  · intro same
    have drawn : n' = n := congrArg (fun r : (Value × Nat) × σ => r.1.2) same
    exact (stays.steady intact (.inr drawn)).2.2.1
  · intro free
    obtain ⟨rfl, rfl, -, -⟩ := stays.steady intact (.inl free)
    rfl

/-- A shared node stays where it is, and so does what holds it. -/
theorem transform_identity_iff_shared : Coherent (nodes shared) ∧
    (((transform (m := StateM Unit) pure shared).run 3).run () = ((shared, 3), ()) ↔
      shared.NaNFree) ∧ shared.NaNFree := by
  have coherent : Coherent (nodes shared) := by
    simp [Coherent, nodes, nodesAll, shared]
  refine ⟨coherent, transform_identity_iff coherent 3 (), ?_⟩
  have scalar : (str "-").NaNFree ∧ (str "+").NaNFree ∧ none.NaNFree :=
    ⟨naNFree_of_parts rfl, naNFree_of_parts rfl, naNFree_of_parts rfl⟩
  simp [shared, isNaN, scalar]

end Packrat.Value
