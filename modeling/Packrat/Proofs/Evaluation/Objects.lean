import Packrat.Proofs.Evaluation.Parametricity
import Packrat.Proofs.Evaluation.Steps

/-
**What host code hands on.**

Lists, nodes and parsers are objects, and an identity stands for one node only.  A heap says which
node each identity stands for, and which identity is the next.  Host code hands on the objects that
it is given and makes lists, functions and nodes without places; so whatever is known of nodes with
places and of parsers stays true, and no object becomes another.

Main definitions:

* `Packrat.Heap` — the nodes that have been made, and the next identity;
* `Packrat.Value.Holds` — values all of whose objects have a property, in whatever functions
  remember as well;
* `Packrat.Host.HandsOn` — host code that makes its objects on a heap;
* `Packrat.Host.Natives.HandOn` — functions from outside that make nothing else.

Main results:

* `Packrat.Host.handsOn_evalWith` — terms, by induction on them;
* `Packrat.Host.handsOn_apply` — calls, by induction on how deep they are nested;
* `Packrat.Host.handsOn_evalIn`, `Packrat.Host.handsOn_callIn` — **host code hands on what it is
  given, and makes new objects**.
-/

set_option autoImplicit false

namespace Packrat

/-- The nodes that have been made, by their identities, and the next identity. -/
structure Heap where
  node : Nat → Value
  next : Nat

namespace Heap

/-- A later heap: every identity that was in use stands for what it stood for. -/
structure Grows (h h' : Heap) : Prop where
  next_le : h.next ≤ h'.next
  same : ∀ id < h.next, h'.node id = h.node id

theorem Grows.refl (h : Heap) : h.Grows h := ⟨Nat.le_refl _, fun _ _ => rfl⟩

theorem Grows.trans {h h₁ h₂ : Heap} (first : h.Grows h₁) (second : h₁.Grows h₂) : h.Grows h₂ :=
  ⟨Nat.le_trans first.next_le second.next_le, fun id old =>
    (second.same id (Nat.lt_of_lt_of_le old first.next_le)).trans (first.same id old)⟩

/-- An object that is on a heap. `keep` is asked of nodes with places and of parsers. Empty lists may
be those of a program, which are older than anything. -/
def Knows (h : Heap) (keep : Value → Prop) : Value → Prop
  | .list id items => items ≠ [] → id < h.next
  | .node id cls values extent? =>
    id < h.next ∧ h.node id = .node id cls values extent? ∧
      (extent? ≠ none → keep (.node id cls values extent?))
  | .parser id f captures name => keep (.parser id f captures name)
  | _ => True

variable {h h' : Heap} {keep keep' : Value → Prop} {v : Value}

theorem Knows.mono (known : h.Knows keep v) (le : h.Grows h') (imp : ∀ v, keep v → keep' v) :
    h'.Knows keep' v := by
  cases v with
  | list => exact fun items => Nat.lt_of_lt_of_le (known items) le.next_le
  | node =>
      obtain ⟨old, same, kept⟩ := known
      exact ⟨Nat.lt_of_lt_of_le old le.next_le, (le.same _ old).trans same, fun placed => imp _ (kept placed)⟩
  | parser => exact imp _ known
  | _ => trivial

/-- The heap with an identity drawn for something that is no node. -/
def draw (h : Heap) : Heap := { h with next := h.next + 1 }

/-- The heap with a new node. -/
def insert (h : Heap) (v : Value) : Heap where
  node id := if id = h.next then v else h.node id
  next := h.next + 1

theorem grows_draw (h : Heap) : h.Grows h.draw := ⟨Nat.le_succ _, fun _ _ => rfl⟩

theorem grows_insert (h : Heap) (v : Value) : h.Grows (h.insert v) :=
  ⟨Nat.le_succ _, fun _ old => if_neg (Nat.ne_of_lt old)⟩

end Heap

/-! ### Values -/

mutual

/-- The lists, nodes and parsers in a value have a property. -/
inductive Value.Holds (ok : Value → Prop) : Value → Prop
  | none : Value.Holds ok .none
  | bool (b : Bool) : Value.Holds ok (.bool b)
  | int (n : Int64) : Value.Holds ok (.int n)
  | float (x : Float) : Value.Holds ok (.float x)
  | str (s : String) : Value.Holds ok (.str s)
  | bytes (bs : List UInt8) : Value.Holds ok (.bytes bs)
  | list {id : Nat} {items : List Value} (known : ok (.list id items))
      (all : Value.AllHold ok items) : Value.Holds ok (.list id items)
  | node {id : Nat} {cls : NodeClass} {values : List Value} {extent? : Option Extent}
      (known : ok (.node id cls values extent?)) (all : Value.AllHold ok values) :
      Value.Holds ok (.node id cls values extent?)
  | func (id : Nat) {f : Callable Value} (all : Callable.Holds ok f) : Value.Holds ok (.func id f)
  | parser {id function : Nat} {captures : List Value} {name : String}
      (known : ok (.parser id function captures name)) (all : Value.AllHold ok captures) :
      Value.Holds ok (.parser id function captures name)
  | failure (entry : Nat) : Value.Holds ok (.failure entry)

/-- The same of all values of a list. -/
inductive Value.AllHold (ok : Value → Prop) : List Value → Prop
  | nil : Value.AllHold ok []
  | cons {x : Value} {xs : List Value} (head : Value.Holds ok x) (tail : Value.AllHold ok xs) :
      Value.AllHold ok (x :: xs)

/-- The same of what a function remembers of the place where it was written. -/
inductive Callable.Holds (ok : Value → Prop) : Callable Value → Prop
  | lambda (params : List String) (body : Host.Term) {env : Env} (scope : Env.Holds ok env) :
      Callable.Holds ok (.lambda params body env)
  | builtin (b : Builtin) : Callable.Holds ok (.builtin b)
  | constructor (cls : NodeClass) : Callable.Holds ok (.constructor cls)
  | method (receiver : String) (m : TextMethod) : Callable.Holds ok (.method receiver m)
  | decoder (text : String) : Callable.Holds ok (.decoder text)
  | native (name : String) : Callable.Holds ok (.native name)

/-- The same of what names stand for. -/
inductive Env.Holds (ok : Value → Prop) : Env → Prop
  | nil : Env.Holds ok []
  | cons (name : String) {x : Value} {env : Env} (head : Value.Holds ok x)
      (tail : Env.Holds ok env) : Env.Holds ok ((name, x) :: env)

end

section

variable {ok ok' : Value → Prop}

mutual

theorem Value.Holds.mono {v : Value} (h : v.Holds ok) (imp : ∀ v, ok v → ok' v) : v.Holds ok' :=
  match v, h with
  | _, .none => .none
  | _, .bool b => .bool b
  | _, .int n => .int n
  | _, .float x => .float x
  | _, .str s => .str s
  | _, .bytes bs => .bytes bs
  | .list _ _, .list known all => .list (imp _ known) (all.mono imp)
  | .node _ _ _ _, .node known all => .node (imp _ known) (all.mono imp)
  | .func _ _, .func id all => .func id (all.mono imp)
  | .parser _ _ _ _, .parser known all => .parser (imp _ known) (all.mono imp)
  | _, .failure entry => .failure entry

theorem Value.AllHold.mono {vs : List Value} (h : Value.AllHold ok vs) (imp : ∀ v, ok v → ok' v) :
    Value.AllHold ok' vs :=
  match vs, h with
  | [], .nil => .nil
  | _ :: _, .cons head tail => .cons (head.mono imp) (tail.mono imp)

theorem Callable.Holds.mono {f : Callable Value} (h : Callable.Holds ok f)
    (imp : ∀ v, ok v → ok' v) : Callable.Holds ok' f :=
  match f, h with
  | .lambda _ _ _, .lambda params body scope => .lambda params body (scope.mono imp)
  | _, .builtin b => .builtin b
  | _, .constructor cls => .constructor cls
  | _, .method receiver m => .method receiver m
  | _, .decoder text => .decoder text
  | _, .native name => .native name

theorem Env.Holds.mono {env : Env} (h : Env.Holds ok env) (imp : ∀ v, ok v → ok' v) :
    Env.Holds ok' env :=
  match env, h with
  | [], .nil => .nil
  | _ :: _, .cons name head tail => .cons name (head.mono imp) (tail.mono imp)

end

namespace Value.AllHold

variable {vs ws : List Value}

theorem iff_forall : AllHold ok vs ↔ ∀ v ∈ vs, v.Holds ok := by
  constructor
  · intro h
    induction vs with
    | nil => simp
    | cons v vs ih =>
        cases h with
        | cons head tail => simpa using ⟨head, ih tail⟩
  · intro h
    induction vs with
    | nil => exact .nil
    | cons v vs ih => exact .cons (h v (by simp)) (ih fun w mem => h w (by simp [mem]))

theorem of_mem (h : AllHold ok vs) {v : Value} (mem : v ∈ vs) : v.Holds ok := iff_forall.1 h v mem

theorem subset (h : AllHold ok vs) (sub : ws ⊆ vs) : AllHold ok ws :=
  iff_forall.2 fun _ mem => h.of_mem (sub mem)

theorem append (h : AllHold ok vs) (h' : AllHold ok ws) : AllHold ok (vs ++ ws) :=
  iff_forall.2 fun _ mem => (List.mem_append.1 mem).elim h.of_mem h'.of_mem

theorem map {α : Type} (f : α → Value) (holds : ∀ a, (f a).Holds ok) (as : List α) :
    AllHold ok (as.map f) :=
  iff_forall.2 fun _ mem => by
    obtain ⟨a, -, rfl⟩ := List.mem_map.1 mem
    exact holds a

theorem getD (h : AllHold ok vs) (i : Nat) {v : Value} (hv : v.Holds ok) :
    (vs[i]?.getD v).Holds ok := by
  cases item : vs[i]? with
  | none => exact hv
  | some w => exact h.of_mem (List.mem_of_getElem? item)

end Value.AllHold

namespace Env.Holds

variable {env : Env}

theorem lookup (h : Env.Holds ok env) {name : String} {v : Value} (found : env.lookup name = some v) :
    v.Holds ok := by
  induction env with
  | nil => cases found
  | cons binding env ih =>
      cases h with
      | cons n head tail =>
          rw [List.lookup_cons] at found
          split at found
          · obtain rfl := Option.some.inj found
            exact head
          · exact ih tail found

theorem bindAll (h : Env.Holds ok env) (names : List String) {vs : List Value}
    (values : Value.AllHold ok vs) : Env.Holds ok (Host.bindAll names vs env) := by
  induction names generalizing vs env with
  | nil => cases values <;> exact h
  | cons n names ih =>
      cases values with
      | nil => exact h
      | cons head tail => exact ih (.cons n head h) tail

end Env.Holds

end

section

variable {h h' : Heap} {keep : Value → Prop}

/-- What is on a heap is on every later one. -/
theorem Value.Holds.later {v : Value} (on : v.Holds (h.Knows keep)) (le : h.Grows h') :
    v.Holds (h'.Knows keep) :=
  on.mono fun _ known => known.mono le fun _ => id

theorem Value.AllHold.later {vs : List Value} (on : Value.AllHold (h.Knows keep) vs)
    (le : h.Grows h') : Value.AllHold (h'.Knows keep) vs :=
  on.mono fun _ known => known.mono le fun _ => id

theorem Callable.Holds.later {f : Callable Value} (on : Callable.Holds (h.Knows keep) f)
    (le : h.Grows h') : Callable.Holds (h'.Knows keep) f :=
  on.mono fun _ known => known.mono le fun _ => id

theorem Env.Holds.later {env : Env} (on : Env.Holds (h.Knows keep) env) (le : h.Grows h') :
    Env.Holds (h'.Knows keep) env :=
  on.mono fun _ known => known.mono le fun _ => id

end

/-! ### Plain values -/

/-- A value in which there are no objects. -/
abbrev Value.Bare (v : Value) : Prop := ∀ ok, v.Holds ok

/-- The likeness of values without objects with themselves. -/
def Likeness.bare : Likeness where
  ids _ _ := False
  counters _ _ := False
  functions _ _ := False
  marks := True
  closures := False
  fresh h := h.elim

theorem Value.bare_of_alike {v : Value} (h : Likeness.bare.Alike v v) : v.Bare := fun ok => by
  cases h with
  | list ids | node ids | func ids | parser ids => exact ids.elim
  | _ => constructor

namespace Host

/-! ### Computations -/

variable {α β : Type} {h h' : Heap} {keep : Value → Prop}

/-- Host code that begins with the next identity of a heap and makes its objects on it. -/
def HandsOn (h : Heap) (R : Heap → α → Prop) (e : Eval α) : Prop :=
  ∀ a n, e h.next = .ok (a, n) → ∃ h', h.Grows h' ∧ h'.next = n ∧ R h' a

/-- The objects of a value are on a heap. -/
abbrev On (keep : Value → Prop) (h : Heap) (v : Value) : Prop := v.Holds (h.Knows keep)

abbrev AllOn (keep : Value → Prop) (h : Heap) (vs : List Value) : Prop :=
  Value.AllHold (h.Knows keep) vs

namespace HandsOn

variable {R : Heap → α → Prop} {S : Heap → β → Prop}

theorem pure {a : α} (holds : R h a) : HandsOn h R (Pure.pure a) := by
  rintro _ _ ⟨⟩
  exact ⟨h, .refl h, rfl, holds⟩

theorem throw (e : Error) : HandsOn h R (throw e) := fun _ _ ends => by cases ends

theorem bind {x : Eval α} {f : α → Eval β} (first : HandsOn h R x)
    (next : ∀ h', h.Grows h' → ∀ a, R h' a → HandsOn h' S (f a)) : HandsOn h S (x >>= f) := by
  intro b n ends
  change (x h.next >>= fun p => f p.1 p.2) = _ at ends
  cases hx : x h.next with
  | error e => rw [hx] at ends; cases ends
  | ok p =>
      rw [hx] at ends
      obtain ⟨h₁, le, same, holds⟩ := first p.1 p.2 hx
      obtain ⟨h₂, le', same', holds'⟩ := next h₁ le p.1 holds b n (same ▸ ends)
      exact ⟨h₂, le.trans le', same', holds'⟩

/-- What draws no identities. -/
theorem lift {x : Except Error α} (holds : ∀ a, x = .ok a → R h a) : HandsOn h R (liftM x) := by
  intro a n ends
  cases x with
  | error e => cases ends
  | ok b =>
      cases ends
      exact ⟨h, .refl h, rfl, holds _ rfl⟩

theorem fresh : HandsOn h (fun h' id => id < h'.next) (Packrat.fresh : Eval Nat) := by
  rintro _ _ ⟨⟩
  exact ⟨h.draw, h.grows_draw, rfl, Nat.lt_succ_self _⟩

theorem newList {items : List Value} (all : AllOn keep h items) :
    HandsOn h (On keep) (Value.newList items) :=
  bind fresh fun _ le _ lt => pure (.list (fun _ => lt) (all.later le))

theorem newFunc {f : Callable Value} (all : Callable.Holds (h.Knows keep) f) :
    HandsOn h (On keep) (Value.newFunc f) :=
  bind fresh fun _ le _ _ => pure (.func _ (all.later le))

/-- The next identity stands for a new node. -/
theorem freshNode (cls : NodeClass) {values : List Value} (extent? : Option Extent)
    (kept : extent? ≠ none → ∀ id, keep (.node id cls values extent?)) (all : AllOn keep h values) :
    HandsOn h (fun h' id => On keep h' (.node id cls values extent?)) (Packrat.fresh : Eval Nat) := by
  rintro _ _ ⟨⟩
  have le := h.grows_insert (.node h.next cls values extent?)
  exact ⟨_, le, rfl, .node ⟨Nat.lt_succ_self _, if_pos rfl, fun placed => kept placed _⟩
    (all.later le)⟩

theorem newNode (cls : NodeClass) {values : List Value} (all : AllOn keep h values) :
    HandsOn h (On keep) (Value.newNode cls values) :=
  bind (freshNode cls none (fun placed => absurd rfl placed) all) fun _ _ _ node => pure node

end HandsOn

/-! ### Numbers and texts -/

section

variable {a b v : Value} {xs : List Value} {ok : Value → Prop}

theorem bare_numberOp {op : BinaryOp} (h : numberOp op a b = .ok v) : v.Bare := by
  simp only [numberOp] at h
  repeat' split at h
  all_goals first
    | exact Value.bare_of_alike (Likeness.alike_integerOp h)
    | exact Value.bare_of_alike (Likeness.alike_floatOp h)
    | cases h

theorem bare_unaryOp {op : UnaryOp} (h : unaryOp op a = .ok v) : v.Bare := by
  simp only [unaryOp] at h
  split at h
  case h_2 => exact Value.bare_of_alike (Likeness.alike_exactly h)
  all_goals
    cases h
    try exact fun _ => by constructor

theorem mem_of_repeatList {size : Nat} {times : Int64} {out : List Value}
    (h : repeatList size xs times = .ok out) : out ⊆ xs := by
  simp only [repeatList] at h
  split at h
  · obtain rfl := Except.ok.inj h
    simp
  · split at h
    · cases h
    · obtain rfl := Except.ok.inj h
      intro v mem
      obtain ⟨ys, of, mem⟩ := List.mem_flatten.1 mem
      exact List.eq_of_mem_replicate of ▸ mem

theorem handsOn_binaryOp (op : BinaryOp) (ha : On keep h a) (hb : On keep h b) :
    HandsOn h (On keep) (binaryOp op a b) := by
  have repeated {xs : List Value} (all : AllOn keep h xs) (n : Int64) :
      HandsOn h (On keep) (do let items ← repeatList (valueSize * xs.length) xs n; Value.newList items) :=
    .bind (R := AllOn keep) (.lift fun _ done => all.subset (mem_of_repeatList done))
      fun _ _ _ all => .newList all
  have text (s : String) (n : Int64) : HandsOn h (On keep)
      (do let cs ← repeatList s.utf8ByteSize s.toList n; Pure.pure (.str (String.ofList cs))) :=
    .bind (R := fun _ _ => True) (.lift fun _ _ => trivial) fun _ _ _ _ => .pure (.str _)
  unfold binaryOp
  split
  · exact .pure (.str _)
  · exact .pure (.bytes _)
  · cases ha with
    | list _ xs => cases hb with
      | list _ ys => exact .newList (xs.append ys)
  · exact text _ _
  · exact text _ _
  · cases ha with
    | list _ xs => exact repeated xs _
  · cases hb with
    | list _ ys => exact repeated ys _
  · exact .lift fun _ done => bare_numberOp done _

/-! ### Sequences -/

theorem holds_iterate {callee : String} (ha : a.Holds ok) (h : iterate callee a = .ok xs) :
    Value.AllHold ok xs := by
  cases ha with
  | list _ all =>
      obtain rfl := Except.ok.inj h
      exact all
  | node _ all =>
      obtain rfl := Except.ok.inj h
      exact all
  | str s =>
      obtain rfl := Except.ok.inj h
      exact .map _ (fun _ => .str _) _
  | bytes bs =>
      obtain rfl := Except.ok.inj h
      exact .map _ (fun _ => .int _) _
  | _ => cases h

theorem handsOn_sliceValue {lower upper : Option Value} (ha : On keep h a) :
    HandsOn h (On keep) (sliceValue a lower upper) := by
  cases ha with
  | list _ all =>
      refine .bind (R := AllOn keep) (.lift fun items done => ?_) fun _ _ _ all => .newList all
      obtain ⟨_, -, done⟩ := Except.bind_eq_ok.1 done
      obtain ⟨_, -, done⟩ := Except.bind_eq_ok.1 done
      exact all.subset (subset_of_slice done)
  | str s => exact .bind (R := fun _ _ => True) (.lift fun _ _ => trivial) fun _ _ _ _ => .pure (.str _)
  | bytes bs =>
      exact .bind (R := fun _ _ => True) (.lift fun _ _ => trivial) fun _ _ _ _ => .pure (.bytes _)
  | _ => exact .throw _

theorem holds_itemAt (all : Value.AllHold ok xs) (h : itemAt xs a = .ok v) : v.Holds ok := by
  obtain ⟨i, -, h⟩ := Except.bind_eq_ok.1 h
  split at h
  · next item =>
      obtain rfl := Except.pure_eq_ok.1 h
      exact all.of_mem (List.mem_of_getElem? item)
  · cases h

theorem handsOn_memberOf (ha : On keep h a) (name : String) :
    HandsOn h (On keep) (memberOf a name) := by
  cases ha with
  | str s =>
      simp only [memberOf]
      split
      · exact .newFunc (.method _ _)
      · exact .throw _
  | bytes bs =>
      simp only [memberOf]
      split
      · exact .newFunc (.decoder _)
      · exact .throw _
  | @node _ cls values extent? _ all =>
      have place (h : Heap) (p : Position) : HandsOn h (On keep) (positionNode p) :=
        .newNode _ (.cons (.int _) (.cons (.int _) (.cons (.int _) .nil)))
      simp only [memberOf, Value.field?]
      split
      · exact .newList (.map _ (fun _ => .str _) _)
      split
      · cases extent? with
        | none => exact .pure .none
        | some extent =>
            exact .bind (place _ _) fun _ _ _ start => .bind (place _ _) fun _ le _ stop =>
              .newNode _ (.cons (start.later le) (.cons stop .nil))
      · split
        · next found =>
            obtain ⟨before, behind, same, -⟩ := List.lookup_eq_some_iff.1 found
            exact .pure (all.of_mem (List.of_mem_zip (same ▸ List.mem_append_right _ List.mem_cons_self)).2)
        · exact .throw _
  | _ => exact .throw _

theorem handsOn_subscript (ha : On keep h a) : HandsOn h (On keep) (subscript a b) := by
  cases ha with
  | list _ all => exact .lift fun _ done => holds_itemAt all done
  | str s => exact .bind (R := fun _ _ => True) (.lift fun _ _ => trivial) fun _ _ _ _ => .pure (.str _)
  | bytes bs =>
      exact .bind (R := fun _ _ => True) (.lift fun _ _ => trivial) fun _ _ _ _ => .pure (.int _)
  | node known all =>
      unfold subscript
      split
      · next same => cases same
      · next same => cases same
      · next same => cases same
      · next same =>
          cases same
          split
          · exact handsOn_memberOf (.node known all) _
          · exact .lift fun _ done => holds_itemAt all done
      · next other => exact absurd rfl (other _ _ _ _)
  | _ => exact .throw _

/-! ### Builtins -/

theorem bare_readInt {text : String} {base : Nat} (h : readInt text base = .ok v) : v.Bare :=
  Value.bare_of_alike (Likeness.alike_readInt h)

theorem bare_toInteger (h : toInteger xs = .ok v) : v.Bare := by
  obtain ⟨_, -, h⟩ := Except.bind_eq_ok.1 h
  simp only [bind, Except.bind] at h
  repeat' split at h
  all_goals first
    | exact bare_readInt h
    | (cases h; exact fun _ => .int _)
    | cases h

theorem bare_toFloat (h : toFloat xs = .ok v) : v.Bare := by
  obtain ⟨_, -, h⟩ := Except.bind_eq_ok.1 h
  repeat' split at h
  all_goals first
    | (cases h; exact fun _ => .float _)
    | cases h

theorem bare_lengthOf (h : lengthOf xs = .ok v) : v.Bare := by
  obtain ⟨_, -, h⟩ := Except.bind_eq_ok.1 h
  split at h
  all_goals first
    | (cases h; exact fun _ => .int _)
    | cases h

/-- Which numbers fit does not matter to a magnitude. -/
theorem bare_magnitudeOf {fits : Int → Option Int64} (h : (match a with
      | .int n =>
        match fits n.toInt.natAbs with
        | some m => pure (.int m)
        | none => throw (.overflowIn "abs")
      | .float x => pure (.float x.abs)
      | .bool b => pure (.int (if b then 1 else 0))
      | v => throw (.wrongType "abs" "a number" v.typeName) : Except Error Value) = .ok v) :
    v.Bare := by
  repeat' split at h
  all_goals first
    | (cases h; exact fun _ => .int _)
    | (cases h; exact fun _ => .float _)
    | cases h

theorem bare_magnitude (h : magnitude xs = .ok v) : v.Bare := by
  rw [magnitude] at h
  revert h
  generalize fit? = fits
  intro h
  obtain ⟨_, -, h⟩ := Except.bind_eq_ok.1 h
  exact bare_magnitudeOf h

theorem holds_extremumFrom {callee : String} {wanted : Ordering} (ha : a.Holds ok)
    (all : Value.AllHold ok xs) (h : extremumFrom callee wanted a xs = .ok v) : v.Holds ok := by
  induction xs generalizing a with
  | nil =>
      obtain rfl := Except.ok.inj h
      exact ha
  | cons x xs ih =>
      cases all with
      | cons head tail =>
          simp only [extremumFrom] at h
          split at h
          · refine ih ?_ tail h
            split
            · exact head
            · exact ha
          · cases h

theorem holds_extremum {callee : String} {wanted : Ordering} (all : Value.AllHold ok xs)
    (h : extremum callee wanted xs = .ok v) : v.Holds ok := by
  have items (vs : List Value) (all : Value.AllHold ok vs)
      (h : extremumOf callee wanted vs = .ok v) : v.Holds ok := by
    cases all with
    | nil => cases h
    | cons head tail => exact holds_extremumFrom head tail h
  cases all with
  | nil => cases h
  | cons head tail =>
      cases tail with
      | nil =>
          obtain ⟨vs, found, h⟩ := Except.bind_eq_ok.1 h
          exact items vs (holds_iterate head found) h
      | cons second rest => exact items _ (.cons head (.cons second rest)) h

theorem holds_sumFrom (ha : a.Holds ok) (h : sumFrom a xs = .ok v) : v.Holds ok := by
  induction xs generalizing a with
  | nil =>
      obtain rfl := Except.ok.inj h
      exact ha
  | cons x xs ih =>
      simp only [sumFrom] at h
      split at h
      · split at h
        · exact ih (.int _) h
        · cases h
      · split at h
        · exact ih (.float _) h
        · cases h

theorem holds_sum (all : Value.AllHold ok xs) (h : sum xs = .ok v) : v.Holds ok := by
  obtain ⟨_, -, h⟩ := Except.bind_eq_ok.1 h
  obtain ⟨_, -, h⟩ := Except.bind_eq_ok.1 h
  exact holds_sumFrom (all.getD 1 (.int 0)) h

theorem handsOn_toList (callee : String) (all : AllOn keep h xs) :
    HandsOn h (On keep) (toList callee xs) := by
  refine .bind (R := fun _ _ => True) (.lift fun _ _ => trivial) fun h' le _ _ => ?_
  cases all with
  | nil => exact .newList .nil
  | cons head _ =>
      exact .bind (R := AllOn keep) (.lift fun _ done => holds_iterate (head.later le) done)
        fun _ _ _ items => .newList items

theorem handsOn_callBuiltin (builtin : Builtin) (all : AllOn keep h xs) :
    HandsOn h (On keep) (callBuiltin builtin xs) := by
  cases builtin with
  | int => exact .lift fun _ done => bare_toInteger done _
  | float => exact .lift fun _ done => bare_toFloat done _
  | str | repr =>
      exact .bind (R := fun _ _ => True) (.lift fun _ _ => trivial) fun _ _ _ _ => .pure (.str _)
  | bool =>
      exact .bind (R := fun _ _ => True) (.lift fun _ _ => trivial) fun _ _ _ _ => .pure (.bool _)
  | len => exact .lift fun _ done => bare_lengthOf done _
  | list | tuple => exact handsOn_toList "list" all
  | abs => exact .lift fun _ done => bare_magnitude done _
  | min => exact .lift fun _ done => holds_extremum all done
  | max => exact .lift fun _ done => holds_extremum all done
  | sum => exact .lift fun _ done => holds_sum all done

/-! ### Methods of texts -/

theorem bare_strip {receiver : String} (h : strip receiver xs = .ok v) : v.Bare := by
  simp only [strip] at h
  split at h
  · cases h
    exact fun _ => .str _
  · obtain ⟨_, -, h⟩ := Except.bind_eq_ok.1 h
    cases h
    exact fun _ => .str _

theorem handsOn_callMethod (m : TextMethod) (receiver : String) (xs : List Value) :
    HandsOn h (On keep) (callMethod m receiver xs) := by
  have skip {x : Except Error Unit} {f : Unit → Eval Value}
      (next : ∀ h', HandsOn h' (On keep) (f ())) : HandsOn h (On keep) (liftM x >>= f) :=
    .bind (R := fun _ _ => True) (.lift fun _ _ => trivial) fun h' _ _ _ => next h'
  have after {α : Type} {h : Heap} {x : Except Error α} {f : α → Eval Value}
      (next : ∀ h' a, HandsOn h' (On keep) (f a)) : HandsOn h (On keep) (liftM x >>= f) :=
    .bind (R := fun _ _ => True) (.lift fun _ _ => trivial) fun h' _ a _ => next h' a
  cases m with
  | join => exact skip fun _ => after fun _ _ => after fun _ _ => .pure (.str _)
  | lower | upper => exact skip fun _ => .pure (.str _)
  | strip => exact skip fun _ => .lift fun _ done => bare_strip done _
  | split => exact skip fun _ => after fun _ _ => .newList (.map _ (fun _ => .str _) _)
  | startsWith | endsWith => exact skip fun _ => after fun _ _ => .pure (.bool _)
  | replace => exact skip fun _ => after fun _ _ => after fun _ _ => .pure (.str _)

end

/-! ### Terms and calls -/

/-- Calls that make their objects on heaps. -/
def Call.HandsOn (keep : Value → Prop) (call : Call) : Prop :=
  ∀ h f args, Callable.Holds (h.Knows keep) f → AllOn keep h args →
    Host.HandsOn h (On keep) (call f args)

/-- Functions from outside that hand on what they are given and make lists, functions and nodes
without places: they return no nodes with places and no parsers besides those in their arguments, and
no identity stands for two nodes. -/
def Natives.HandOn (natives : Natives) : Prop :=
  ∀ name run, natives.lookup name = some run → ∀ keep h args, AllOn keep h args →
    HandsOn h (On keep) (run args)

theorem handsOn_callWith {call : Call} (calls : call.HandsOn keep) {f : Value} {args : List Value}
    (hf : On keep h f) (all : AllOn keep h args) : HandsOn h (On keep) (callWith call f args) := by
  cases hf with
  | func _ scope => exact calls h _ args scope all
  | _ => exact .throw _

section

variable {compare : Compare} {call : Call} {env : Env}

mutual

theorem handsOn_evalWith (calls : call.HandsOn keep) :
    (t : Term) → {h : Heap} → Env.Holds (h.Knows keep) env →
      HandsOn h (On keep) (t.evalWith compare call env)
  | .literal s, h, _ => by
      rw [Term.evalWith]
      refine .pure ?_
      cases s <;> constructor
  | .name n, h, scope => by
      rw [Term.evalWith]
      split
      · next found => exact .pure (scope.lookup found)
      · exact .throw _
  | .list items, h, scope => by
      rw [Term.evalWith]
      exact .bind (handsOn_evalAll calls items scope) fun _ _ _ values => .newList values
  | .call func args, h, scope => by
      rw [Term.evalWith]
      exact .bind (handsOn_evalWith calls func scope) fun _ le _ f =>
        .bind (handsOn_evalAll calls args (scope.later le)) fun _ le _ values =>
          handsOn_callWith calls (f.later le) values
  | .member object field, h, scope => by
      rw [Term.evalWith]
      exact .bind (handsOn_evalWith calls object scope) fun _ _ _ v => handsOn_memberOf v field
  | .index object index, h, scope => by
      rw [Term.evalWith]
      exact .bind (handsOn_evalWith calls object scope) fun _ le _ v =>
        .bind (handsOn_evalWith calls index (scope.later le)) fun _ le _ _ =>
          handsOn_subscript (v.later le)
  | .slice object lower upper, h, scope => by
      rw [Term.evalWith]
      exact .bind (handsOn_evalWith calls object scope) fun _ le _ v =>
        .bind (handsOn_evalOption calls lower (scope.later le)) fun _ le' _ _ =>
          .bind (handsOn_evalOption calls upper (scope.later (le.trans le'))) fun _ le'' _ _ =>
            handsOn_sliceValue (v.later (le'.trans le''))
  | .unary op operand, h, scope => by
      rw [Term.evalWith]
      exact .bind (handsOn_evalWith calls operand scope) fun _ _ _ _ =>
        .lift fun _ done => bare_unaryOp done _
  | .binary op left right, h, scope => by
      rw [Term.evalWith]
      exact .bind (handsOn_evalWith calls left scope) fun _ le _ a =>
        .bind (handsOn_evalWith calls right (scope.later le)) fun _ le _ b =>
          handsOn_binaryOp op (a.later le) b
  | .compare first rest, h, scope => by
      rw [Term.evalWith]
      exact .bind (handsOn_evalWith calls first scope) fun _ le _ _ =>
        handsOn_evalComparisons calls _ rest (scope.later le)
  | .and left right, h, scope => by
      rw [Term.evalWith]
      refine .bind (handsOn_evalWith calls left scope) fun _ le _ v => ?_
      split
      · exact handsOn_evalWith calls right (scope.later le)
      · exact .pure v
  | .or left right, h, scope => by
      rw [Term.evalWith]
      refine .bind (handsOn_evalWith calls left scope) fun _ le _ v => ?_
      split
      · exact .pure v
      · exact handsOn_evalWith calls right (scope.later le)
  | .conditional test consequent alternative, h, scope => by
      rw [Term.evalWith]
      refine .bind (handsOn_evalWith calls test scope) fun _ le _ _ => ?_
      split
      · exact handsOn_evalWith calls consequent (scope.later le)
      · exact handsOn_evalWith calls alternative (scope.later le)
  | .lambda params body, h, scope => by
      rw [Term.evalWith]
      exact .newFunc (.lambda params body scope)

theorem handsOn_evalAll (calls : call.HandsOn keep) :
    (ts : List Term) → {h : Heap} → Env.Holds (h.Knows keep) env →
      HandsOn h (AllOn keep) (evalAll compare call env ts)
  | [], h, _ => by
      rw [evalAll]
      exact .pure .nil
  | t :: ts, h, scope => by
      rw [evalAll]
      exact .bind (handsOn_evalWith calls t scope) fun _ le _ v =>
        .bind (handsOn_evalAll calls ts (scope.later le)) fun _ le _ vs =>
          .pure (.cons (v.later le) vs)

theorem handsOn_evalOption (calls : call.HandsOn keep) :
    (t? : Option Term) → {h : Heap} → Env.Holds (h.Knows keep) env →
      HandsOn h (fun _ _ => True) (evalOption compare call env t?)
  | none, h, _ => by
      rw [evalOption]
      exact .pure trivial
  | some t, h, scope => by
      rw [evalOption]
      exact .bind (handsOn_evalWith calls t scope) fun _ _ _ _ => .pure trivial

theorem handsOn_evalComparisons (calls : call.HandsOn keep) (left : Value) :
    (rest : List (Comparison × Term)) → {h : Heap} → Env.Holds (h.Knows keep) env →
      HandsOn h (On keep) (evalComparisons compare call env left rest)
  | [], h, _ => by
      rw [evalComparisons]
      exact .pure (.bool true)
  | (op, t) :: rest, h, scope => by
      rw [evalComparisons]
      refine .bind (handsOn_evalWith calls t scope) fun _ le right _ =>
        .bind (R := fun _ _ => True) (.lift fun _ _ => trivial) fun _ le' _ _ => ?_
      split
      · exact handsOn_evalComparisons calls right rest (scope.later (le.trans le'))
      · exact .pure (.bool false)

end

end

variable {lib : Library} (natives : lib.natives.HandOn)

include natives

/-- Calls, by induction on how deep they may be nested. -/
theorem handsOn_apply (keep : Value → Prop) (depth : Nat) : (apply lib depth).HandsOn keep := by
  induction depth with
  | zero => exact fun _ _ _ _ _ => .throw _
  | succ depth ih =>
      intro h f args hf all
      cases hf with
      | lambda params body scope =>
          simp only [apply]
          split
          · exact handsOn_evalWith ih body (scope.bindAll params all)
          · exact .throw _
      | builtin b => exact handsOn_callBuiltin b all
      | constructor cls =>
          simp only [apply]
          split
          · exact .newNode cls all
          · exact .throw _
      | method receiver m => exact handsOn_callMethod m receiver args
      | decoder text => exact .pure (.str text)
      | native name =>
          simp only [apply]
          split
          · next found => exact natives name _ found keep h args all
          · exact .throw _

/-- The value of a term is made of what names stand for and of new objects. -/
theorem handsOn_evalIn {env : Env} (scope : Env.Holds (h.Knows keep) env) (t : Term) :
    HandsOn h (On keep) (t.evalIn lib env) :=
  handsOn_evalWith (handsOn_apply natives keep callDepth) t scope

/-- What a call comes to is made of the function and its arguments and of new objects. -/
theorem handsOn_callIn {f : Value} {args : List Value} (hf : On keep h f)
    (all : AllOn keep h args) : HandsOn h (On keep) (callIn lib f args) :=
  handsOn_callWith (handsOn_apply natives keep callDepth) hf all

end Host

end Packrat
