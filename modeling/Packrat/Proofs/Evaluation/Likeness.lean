import Mathlib.Data.List.Forall2
import Packrat.Host.Eval

/-
**Values that are alike.**

Two values are alike if they have the same contents, identities and functions of programs aside:
which identities go together, and which functions do, is a parameter.  So is whether marks of
failures are like themselves; if they are like nothing, a value that is like itself holds none of
them.  Functions that were written are alike if the places where they were written are, or else if
the names that they read stand for values that are alike.  Host code does not tell values apart that
are alike, unless it compares them.

Main definitions:

* `Packrat.Likeness` — which identities and which functions of programs go together;
* `Packrat.Likeness.Alike`, `Packrat.Likeness.AlikeEnv` — values and environments that are alike;
* `Packrat.Likeness.AlikeFor` — environments that code with certain names does not tell apart;
* `Packrat.Likeness.Agree`, `Packrat.Likeness.AgreeOn` — computations that come to the same.

Main results:

* `Packrat.Likeness.Alike.repr_eq`, `Packrat.Likeness.Alike.compareValues?_eq` — what is alike looks
  the same and has the same order;
* `Packrat.Likeness.callBuiltin`, `Packrat.Likeness.callMethod`, … — the operations of host code.
-/

set_option autoImplicit false

namespace Packrat

open Host

/-! ### Names that terms read -/

section

variable {x : String}

mutual

/-- The names read where some are bound are those that are read and not bound. -/
theorem Host.Term.mem_readNames : {t : Term} → {bound : List String} →
    (x ∈ t.readNames bound ↔ x ∈ t.readNames [] ∧ x ∉ bound)
  | .literal _, _ => by simp [Term.readNames]
  | .name n, bound => by
      simp only [Term.readNames, List.contains_nil]
      by_cases h : n ∈ bound <;> grind
  | .list items, _ => by
      simp only [Term.readNames]
      exact mem_readNamesList
  | .call func args, bound => by
      have hf : x ∈ func.readNames bound ↔ _ := func.mem_readNames
      have ha : x ∈ readNamesList bound args ↔ _ := mem_readNamesList
      simp only [Term.readNames, List.mem_append]
      tauto
  | .member object _, _ | .unary _ object, _ => by
      simp only [Term.readNames]
      exact object.mem_readNames
  | .index left right, bound | .binary _ left right, bound | .and left right, bound
  | .or left right, bound => by
      have hl : x ∈ left.readNames bound ↔ _ := left.mem_readNames
      have hr : x ∈ right.readNames bound ↔ _ := right.mem_readNames
      simp only [Term.readNames, List.mem_append]
      tauto
  | .slice object lower upper, bound => by
      have ho : x ∈ object.readNames bound ↔ _ := object.mem_readNames
      have hl : x ∈ readNamesOption bound lower ↔ _ := mem_readNamesOption
      have hu : x ∈ readNamesOption bound upper ↔ _ := mem_readNamesOption
      simp only [Term.readNames, List.mem_append]
      tauto
  | .compare first rest, bound => by
      have hf : x ∈ first.readNames bound ↔ _ := first.mem_readNames
      have hr : x ∈ readNamesRest bound rest ↔ _ := mem_readNamesRest
      simp only [Term.readNames, List.mem_append]
      tauto
  | .conditional test consequent alternative, bound => by
      have ht : x ∈ test.readNames bound ↔ _ := test.mem_readNames
      have hc : x ∈ consequent.readNames bound ↔ _ := consequent.mem_readNames
      have ha : x ∈ alternative.readNames bound ↔ _ := alternative.mem_readNames
      simp only [Term.readNames, List.mem_append]
      tauto
  | .lambda params body, bound => by
      have inner : x ∈ body.readNames (params ++ bound) ↔ _ := body.mem_readNames
      have outer : x ∈ body.readNames (params ++ []) ↔ _ := body.mem_readNames
      simp only [List.mem_append, List.not_mem_nil, or_false] at inner outer
      simp only [Term.readNames]
      tauto

theorem Host.mem_readNamesList : {ts : List Term} → {bound : List String} →
    (x ∈ readNamesList bound ts ↔ x ∈ readNamesList [] ts ∧ x ∉ bound)
  | [], _ => by simp [readNamesList]
  | t :: ts, bound => by
      have ht : x ∈ t.readNames bound ↔ _ := t.mem_readNames
      have hts : x ∈ readNamesList bound ts ↔ _ := mem_readNamesList
      simp only [readNamesList, List.mem_append]
      tauto

theorem Host.mem_readNamesOption : {t? : Option Term} → {bound : List String} →
    (x ∈ readNamesOption bound t? ↔ x ∈ readNamesOption [] t? ∧ x ∉ bound)
  | none, _ => by simp [readNamesOption]
  | some t, _ => by
      simp only [readNamesOption]
      exact t.mem_readNames

theorem Host.mem_readNamesRest : {rest : List (Comparison × Term)} → {bound : List String} →
    (x ∈ readNamesRest bound rest ↔ x ∈ readNamesRest [] rest ∧ x ∉ bound)
  | [], _ => by simp [readNamesRest]
  | (_, t) :: rest, bound => by
      have ht : x ∈ t.readNames bound ↔ _ := t.mem_readNames
      have hr : x ∈ readNamesRest bound rest ↔ _ := mem_readNamesRest
      simp only [readNamesRest, List.mem_append]
      tauto

end

end

/-- Which identities go together, and which functions of programs. Two computations that may draw
identities draw such that go together, and may go on with the next ones. -/
structure Likeness where
  ids : Nat → Nat → Prop
  /-- The next identities of two computations. -/
  counters : Nat → Nat → Prop
  functions : Nat → Nat → Prop
  /-- Whether marks of failures are like themselves. -/
  marks : Prop
  /-- Whether functions are alike already if the names that they read stand for what is alike. -/
  closures : Prop
  fresh : ∀ {i j}, counters i j → ids i j ∧ counters (i + 1) (j + 1)

namespace Likeness

/-- Where identities go together with themselves only, so do the next ones. -/
theorem fresh_of_eq {i j : Nat} (h : i = j) : i = j ∧ i + 1 = j + 1 := ⟨h, congrArg Nat.succ h⟩

mutual

/-- Values with the same contents. -/
inductive Alike (L : Likeness) : Value → Value → Prop
  | none : Alike L .none .none
  | bool (b : Bool) : Alike L (.bool b) (.bool b)
  | int (n : Int64) : Alike L (.int n) (.int n)
  | float (x : Float) : Alike L (.float x) (.float x)
  | str (s : String) : Alike L (.str s) (.str s)
  | bytes (bs : List UInt8) : Alike L (.bytes bs) (.bytes bs)
  | list {i j : Nat} {xs ys : List Value} (ids : L.ids i j) (items : AlikeAll L xs ys) :
      Alike L (.list i xs) (.list j ys)
  | node {i j : Nat} {xs ys : List Value} (ids : L.ids i j) (cls : NodeClass)
      (values : AlikeAll L xs ys) (extent? : Option Extent) :
      Alike L (.node i cls xs extent?) (.node j cls ys extent?)
  | func {i j : Nat} {f g : Callable Value} (ids : L.ids i j) (callable : AlikeFunc L f g) :
      Alike L (.func i f) (.func j g)
  | parser {i j k l : Nat} {xs ys : List Value} (ids : L.ids i j) (functions : L.functions k l)
      (captures : AlikeAll L xs ys) (name : String) :
      Alike L (.parser i k xs name) (.parser j l ys name)
  | failure (entry : Nat) (marks : L.marks) : Alike L (.failure entry) (.failure entry)

/-- Lists of values that are alike one by one. -/
inductive AlikeAll (L : Likeness) : List Value → List Value → Prop
  | nil : AlikeAll L [] []
  | cons {x y : Value} {xs ys : List Value} (head : Alike L x y) (tail : AlikeAll L xs ys) :
      AlikeAll L (x :: xs) (y :: ys)

/-- Optional values that are alike. -/
inductive AlikeOption (L : Likeness) : Option Value → Option Value → Prop
  | none : AlikeOption L none none
  | some {x y : Value} (h : Alike L x y) : AlikeOption L (some x) (some y)

/-- Functions that do the same where their environments are alike. -/
inductive AlikeFunc (L : Likeness) : Callable Value → Callable Value → Prop
  | lambda (params : List String) (body : Term) {env env' : Env} (scope : AlikeEnv L env env') :
      AlikeFunc L (.lambda params body env) (.lambda params body env')
  | closure (params : List String) (body : Term) {env env' : Env} (closures : L.closures)
      (scope : ∀ x ∈ body.readNames params, AlikeOption L (env.lookup x) (env'.lookup x)) :
      AlikeFunc L (.lambda params body env) (.lambda params body env')
  | builtin (b : Builtin) : AlikeFunc L (.builtin b) (.builtin b)
  | constructor (cls : NodeClass) : AlikeFunc L (.constructor cls) (.constructor cls)
  | method (receiver : String) (m : TextMethod) : AlikeFunc L (.method receiver m) (.method receiver m)
  | decoder (text : String) : AlikeFunc L (.decoder text) (.decoder text)
  | native (name : String) : AlikeFunc L (.native name) (.native name)

/-- Environments of the same names, with values that are alike. -/
inductive AlikeEnv (L : Likeness) : Env → Env → Prop
  | nil : AlikeEnv L [] []
  | cons (name : String) {x y : Value} {env env' : Env} (head : Alike L x y)
      (tail : AlikeEnv L env env') : AlikeEnv L ((name, x) :: env) ((name, y) :: env')

end

variable {L : Likeness}

/-! ### Lists and environments -/

theorem alikeAll_iff {xs ys : List Value} : AlikeAll L xs ys ↔ List.Forall₂ (Alike L) xs ys := by
  constructor
  · intro h
    induction xs generalizing ys with
    | nil =>
        cases h
        exact .nil
    | cons x xs ih =>
        cases h with
        | cons head tail => exact .cons head (ih tail)
  · intro h
    induction h with
    | nil => exact .nil
    | cons head _ ih => exact .cons head ih

alias ⟨AlikeAll.forall₂, AlikeAll.of_forall₂⟩ := alikeAll_iff

namespace AlikeAll

variable {xs ys xs' ys' : List Value}

theorem length_eq (h : AlikeAll L xs ys) : xs.length = ys.length := h.forall₂.length_eq

theorem append (h : AlikeAll L xs ys) (h' : AlikeAll L xs' ys') :
    AlikeAll L (xs ++ xs') (ys ++ ys') := .of_forall₂ (List.rel_append h.forall₂ h'.forall₂)

theorem flatten_replicate (h : AlikeAll L xs ys) (n : Nat) :
    AlikeAll L (List.replicate n xs).flatten (List.replicate n ys).flatten := by
  induction n with
  | zero => exact .nil
  | succ n ih =>
      simp only [List.replicate_succ, List.flatten_cons]
      exact h.append ih

theorem getElem? (h : AlikeAll L xs ys) (i : Nat) : AlikeOption L xs[i]? ys[i]? := by
  induction i generalizing xs ys with
  | zero =>
      cases h with
      | nil => exact .none
      | cons head _ => exact .some head
  | succ i ih =>
      cases h with
      | nil => exact .none
      | cons _ tail =>
          simp only [List.getElem?_cons_succ]
          exact ih tail

theorem headD (h : AlikeAll L xs ys) : Alike L (xs.headD .none) (ys.headD .none) := by
  cases h with
  | nil => exact .none
  | cons head _ => exact head

theorem isEmpty_eq (h : AlikeAll L xs ys) : xs.isEmpty = ys.isEmpty := by cases h <;> rfl

/-- The value of a field. -/
theorem lookup_zip (h : AlikeAll L xs ys) (name : String) (fields : List String) :
    AlikeOption L ((fields.zip xs).lookup name) ((fields.zip ys).lookup name) := by
  induction fields generalizing xs ys with
  | nil => exact .none
  | cons f fields ih =>
      cases h with
      | nil => exact .none
      | cons head tail =>
          simp only [List.zip_cons_cons, List.lookup_cons]
          split
          · exact .some head
          · exact ih tail

/-- Values that hold nothing that is told apart. -/
theorem map_refl {α : Type} (f : α → Value) (same : ∀ a, Alike L (f a) (f a)) (as : List α) :
    AlikeAll L (as.map f) (as.map f) := by
  induction as with
  | nil => exact .nil
  | cons a as ih => exact .cons (same a) ih

end AlikeAll

namespace AlikeEnv

variable {env env' : Env}

theorem lookup (h : AlikeEnv L env env') (name : String) :
    AlikeOption L (env.lookup name) (env'.lookup name) := by
  induction env generalizing env' with
  | nil =>
      cases h
      exact .none
  | cons binding env ih =>
      cases h with
      | cons n head tail =>
          simp only [List.lookup_cons]
          split
          · exact .some head
          · exact ih tail

theorem bindAll (h : AlikeEnv L env env') (names : List String) {xs ys : List Value}
    (values : AlikeAll L xs ys) :
    AlikeEnv L (Host.bindAll names xs env) (Host.bindAll names ys env') := by
  induction names generalizing xs ys env env' with
  | nil =>
      cases values <;> exact h
  | cons n names ih =>
      cases values with
      | nil => exact h
      | cons head tail => exact ih (.cons n head h) tail

end AlikeEnv

/-- Environments that code which reads some names does not tell apart. -/
def AlikeFor (L : Likeness) (names : List String) (env env' : Env) : Prop :=
  AlikeEnv L env env' ∨ L.closures ∧ ∀ x ∈ names, AlikeOption L (env.lookup x) (env'.lookup x)

namespace AlikeFor

variable {names names' : List String} {env env' : Env}

theorem mono (h : AlikeFor L names env env') (sub : names' ⊆ names) : AlikeFor L names' env env' :=
  h.imp id fun ⟨closures, scope⟩ => ⟨closures, fun x hx => scope x (sub hx)⟩

theorem left (h : AlikeFor L (names ++ names') env env') : AlikeFor L names env env' :=
  h.mono (List.subset_append_left _ _)

theorem right (h : AlikeFor L (names ++ names') env env') : AlikeFor L names' env env' :=
  h.mono (List.subset_append_right _ _)

theorem lookup (h : AlikeFor L names env env') {name : String} (hn : name ∈ names) :
    AlikeOption L (env.lookup name) (env'.lookup name) :=
  h.elim (·.lookup name) fun scope => scope.2 name hn

/-- Functions of the same text are alike where the names that they read are. -/
theorem func {params : List String} {body : Term} (h : AlikeFor L (body.readNames params) env env') :
    AlikeFunc L (.lambda params body env) (.lambda params body env') :=
  h.elim (.lambda params body) fun scope => .closure params body scope.1 scope.2

/-- What a name stands for once parameters have been bound, if it is one of them or has been alike
before. -/
theorem lookup_bindAll {params : List String} {xs ys : List Value} {name : String}
    (values : AlikeAll L xs ys) (length : xs.length = params.length)
    (h : name ∉ params → AlikeOption L (env.lookup name) (env'.lookup name)) :
    AlikeOption L ((Host.bindAll params xs env).lookup name)
      ((Host.bindAll params ys env').lookup name) := by
  induction params generalizing xs ys env env' with
  | nil =>
      cases values with
      | nil => exact h List.not_mem_nil
      | cons _ _ => cases length
  | cons p params ih =>
      cases values with
      | nil => cases length
      | cons head tail =>
          refine ih tail (Nat.succ.inj length) fun other => ?_
          simp only [List.lookup_cons]
          split
          · exact .some head
          · next ne => exact h (by simp_all)

/-- A body in the environments of functions that are alike, with its parameters bound. -/
theorem bindAll {params : List String} {body : Term}
    (h : AlikeFor L (body.readNames params) env env') {xs ys : List Value}
    (values : AlikeAll L xs ys) (length : xs.length = params.length) :
    AlikeFor L (body.readNames []) (Host.bindAll params xs env) (Host.bindAll params ys env') :=
  h.imp (·.bindAll params values) fun ⟨closures, scope⟩ =>
    ⟨closures, fun x hx => lookup_bindAll values length fun free =>
      scope x (Term.mem_readNames.2 ⟨hx, free⟩)⟩

end AlikeFor

/-! ### What can be seen of values that are alike -/

namespace Alike

variable {v w : Value}

theorem typeName_eq (h : Alike L v w) : v.typeName = w.typeName := by cases h <;> rfl

theorem truthy_eq (h : Alike L v w) : v.truthy = w.truthy := by
  cases h with
  | list _ items => simp only [Value.truthy, items.isEmpty_eq]
  | _ => rfl

theorem asInt?_eq (h : Alike L v w) : v.asInt? = w.asInt? := by cases h <;> rfl

theorem toFloat?_eq (h : Alike L v w) : toFloat? v = toFloat? w := by cases h <;> rfl

end Alike

theorem AlikeFunc.name_eq {f g : Callable Value} (h : AlikeFunc L f g) : f.name = g.name := by
  cases h <;> rfl

mutual

theorem Alike.repr_eq {v w : Value} (h : Alike L v w) : v.repr = w.repr :=
  match v, w, h with
  | _, _, .none | _, _, .bool _ | _, _, .int _ | _, _, .float _ | _, _, .str _ | _, _, .bytes _ => rfl
  | .list _ _, .list _ _, .list _ items => by rw [Value.repr, Value.repr, items.repr_eq]
  | .node _ _ _ _, .node _ _ _ _, .node _ cls values _ => by
      rw [Value.repr, Value.repr, values.reprFields_eq]
  | .func _ _, .func _ _, .func _ callable => by rw [Value.repr, Value.repr, callable.name_eq]
  | .parser _ _ _ _, .parser _ _ _ _, .parser _ _ _ _ => by rw [Value.repr, Value.repr]
  | _, _, .failure _ _ => rfl

theorem AlikeAll.repr_eq {xs ys : List Value} (h : AlikeAll L xs ys) :
    Value.reprAll xs = Value.reprAll ys :=
  match xs, ys, h with
  | [], [], .nil => rfl
  | _ :: _, _ :: _, .cons head tail => by
      rw [Value.reprAll, Value.reprAll, head.repr_eq, tail.repr_eq]

theorem AlikeAll.reprFields_eq {xs ys : List Value} {fields : List String}
    (h : AlikeAll L xs ys) : Value.reprFields fields xs = Value.reprFields fields ys :=
  match xs, ys, fields, h with
  | [], [], [], .nil | [], [], _ :: _, .nil => rfl
  | _ :: _, _ :: _, [], .cons _ _ => rfl
  | _ :: _, _ :: _, _ :: _, .cons head tail => by
      rw [Value.reprFields, Value.reprFields, head.repr_eq, tail.reprFields_eq]

end

theorem Alike.display_eq {v w : Value} (h : Alike L v w) : v.display = w.display := by
  have same := h.repr_eq
  cases h <;> first | rfl | exact same

mutual

theorem Alike.compareValues?_eq {a b a' b' : Value} (ha : Alike L a a') (hb : Alike L b b') :
    compareValues? a b = compareValues? a' b' :=
  match a, a', ha with
  | _, _, .list _ xs => by
      cases hb with
      | list _ ys => rw [compareValues?, compareValues?, xs.compareLists?_eq ys]
      | _ => simp only [compareValues?, toFloat?]
  | _, _, .none | _, _, .bool _ | _, _, .int _ | _, _, .float _ | _, _, .str _ | _, _, .bytes _
  | _, _, .node _ _ _ _ | _, _, .func _ _ | _, _, .parser _ _ _ _ | _, _, .failure _ _ => by
      cases hb <;> simp only [compareValues?, toFloat?]

theorem AlikeAll.compareLists?_eq {xs ys xs' ys' : List Value} (hx : AlikeAll L xs xs')
    (hy : AlikeAll L ys ys') : compareLists? xs ys = compareLists? xs' ys' :=
  match xs, xs', hx with
  | _, _, .nil => by cases hy <;> simp only [compareLists?]
  | _, _, .cons x xs => by
      cases hy with
      | nil => simp only [compareLists?]
      | cons y ys => rw [compareLists?, compareLists?, x.compareValues?_eq y, xs.compareLists?_eq ys]

end

/-! ### Computations that come to the same -/

/-- Computations of which both fail with the same error, or both come to what goes together. -/
inductive Agree {ε α β : Type} (R : α → β → Prop) : Except ε α → Except ε β → Prop
  | ok {a : α} {b : β} (h : R a b) : Agree R (.ok a) (.ok b)
  | error (e : ε) : Agree R (.error e) (.error e)

namespace Agree

variable {ε α β γ δ : Type} {R : α → β → Prop} {S : γ → δ → Prop}

theorem bind {x : Except ε α} {y : Except ε β} {f : α → Except ε γ} {g : β → Except ε δ}
    (h : Agree R x y) (next : ∀ a b, R a b → Agree S (f a) (g b)) :
    Agree S (x >>= f) (y >>= g) := by
  cases h with
  | ok h => exact next _ _ h
  | error e => exact .error e

theorem of_eq {x : Except ε α} {y : Except ε α} (h : x = y) : Agree (· = ·) x y := by
  subst h
  cases x with
  | ok a => exact .ok rfl
  | error e => exact .error e

end Agree

/-- Host code that comes to the same, drawing identities that go together. -/
def AgreeOn (L : Likeness) {α β : Type} (R : α → β → Prop) (e : Eval α) (e' : Eval β) : Prop :=
  ∀ n m, L.counters n m → Agree (fun p q => R p.1 q.1 ∧ L.counters p.2 q.2) (e n) (e' m)

namespace AgreeOn

variable {α β γ δ : Type} {R : α → β → Prop} {S : γ → δ → Prop}

theorem pure {a : α} {b : β} (h : R a b) : AgreeOn L R (Pure.pure a) (Pure.pure b) :=
  fun _ _ ids => .ok ⟨h, ids⟩

theorem throw (e : Host.Error) : AgreeOn L R (throw e) (throw e) := fun _ _ _ => .error e

theorem bind {x : Eval α} {y : Eval β} {f : α → Eval γ} {g : β → Eval δ} (h : AgreeOn L R x y)
    (next : ∀ a b, R a b → AgreeOn L S (f a) (g b)) : AgreeOn L S (x >>= f) (y >>= g) :=
  fun n m ids => (h n m ids).bind fun _ _ both => next _ _ both.1 _ _ both.2

theorem lift {x : Except Host.Error α} {y : Except Host.Error β} (h : Agree R x y) :
    AgreeOn L R (liftM x) (liftM y) := fun n m ids => by
  cases h with
  | ok h => exact .ok ⟨h, ids⟩
  | error e => exact .error e

theorem fresh : AgreeOn L L.ids Packrat.fresh Packrat.fresh :=
  fun _ _ next => .ok (L.fresh next)

theorem newList {xs ys : List Value} (h : AlikeAll L xs ys) :
    AgreeOn L (Alike L) (Value.newList xs) (Value.newList ys) :=
  .bind .fresh fun _ _ ids => .pure (.list ids h)

theorem newNode (cls : NodeClass) {xs ys : List Value} (h : AlikeAll L xs ys) :
    AgreeOn L (Alike L) (Value.newNode cls xs) (Value.newNode cls ys) :=
  .bind .fresh fun _ _ ids => .pure (.node ids cls h none)

theorem newFunc {f g : Callable Value} (h : AlikeFunc L f g) :
    AgreeOn L (Alike L) (Value.newFunc f) (Value.newFunc g) :=
  .bind .fresh fun _ _ ids => .pure (.func ids h)

end AgreeOn

end Likeness

end Packrat
