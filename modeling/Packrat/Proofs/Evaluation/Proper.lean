import Packrat.Proofs.Evaluation.Parametricity

/-
**Values proper.**

The marks that failed parses leave are kept as values, but they are none that host code or a caller
should see; and parsers are values that stand for functions of a program.  A value is proper if it
holds no marks and no parsers but those that are permitted, not even in what a function remembers of
the place where it was written.  Host code makes proper values out of proper values.

Main definitions:

* `Packrat.Permit` — what values may hold;
* `Packrat.Value.Proper`, `Packrat.Env.Proper` — values and environments that hold nothing else;
* `Packrat.Host.Natives.Proper` — functions from outside that make proper values out of such.

Main results:

* `Packrat.Host.Library.proper_evalIn`, `Packrat.Host.Library.proper_callIn` — **host code makes
  proper values out of proper values**.
-/

set_option autoImplicit false

namespace Packrat

/-- What values may hold: parsers that stand for certain functions, and marks of failures. -/
structure Permit where
  parsers : Nat → Prop
  marks : Prop

mutual

/-- The parsers in a value are functions that they may be, and marks of failures occur in it only if
they may. -/
inductive Value.Proper (may : Permit) : Value → Prop
  | none : Value.Proper may .none
  | bool (b : Bool) : Value.Proper may (.bool b)
  | int (n : Int64) : Value.Proper may (.int n)
  | float (x : Float) : Value.Proper may (.float x)
  | str (s : String) : Value.Proper may (.str s)
  | bytes (bs : List UInt8) : Value.Proper may (.bytes bs)
  | list (id : Nat) {items : List Value} (h : Value.AllProper may items) :
      Value.Proper may (.list id items)
  | node (id : Nat) (cls : NodeClass) {values : List Value} (extent? : Option Extent)
      (h : Value.AllProper may values) : Value.Proper may (.node id cls values extent?)
  | func (id : Nat) {f : Callable Value} (h : Callable.Proper may f) : Value.Proper may (.func id f)
  | parser (id : Nat) {function : Nat} {captures : List Value} (name : String) (ok : may.parsers function)
      (h : Value.AllProper may captures) : Value.Proper may (.parser id function captures name)
  | failure (entry : Nat) (marked : may.marks) : Value.Proper may (.failure entry)

/-- Lists of proper values. -/
inductive Value.AllProper (may : Permit) : List Value → Prop
  | nil : Value.AllProper may []
  | cons {x : Value} {xs : List Value} (head : Value.Proper may x)
      (tail : Value.AllProper may xs) : Value.AllProper may (x :: xs)

/-- Functions that were written where names stand for proper values. -/
inductive Callable.Proper (may : Permit) : Callable Value → Prop
  | lambda (params : List String) (body : Host.Term) {env : Env} (scope : Env.Proper may env) :
      Callable.Proper may (.lambda params body env)
  | builtin (b : Builtin) : Callable.Proper may (.builtin b)
  | constructor (cls : NodeClass) : Callable.Proper may (.constructor cls)
  | method (receiver : String) (m : TextMethod) : Callable.Proper may (.method receiver m)
  | decoder (text : String) : Callable.Proper may (.decoder text)
  | native (name : String) : Callable.Proper may (.native name)

/-- Environments of proper values. -/
inductive Env.Proper (may : Permit) : Env → Prop
  | nil : Env.Proper may []
  | cons (name : String) {x : Value} {env : Env} (head : Value.Proper may x)
      (tail : Env.Proper may env) : Env.Proper may ((name, x) :: env)

end

/-- The likeness of values with themselves, if they hold nothing but what they may. -/
def Likeness.within (may : Permit) : Likeness where
  ids i j := i = j
  counters i j := i = j
  functions k l := k = l ∧ may.parsers k
  marks := may.marks
  closures := False
  fresh := fresh_of_eq

section

variable {may : Permit}

open Likeness

mutual

theorem Value.Proper.alike {v : Value} (h : v.Proper may) : Alike (within may) v v :=
  match v, h with
  | _, .none => .none
  | _, .bool b => .bool b
  | _, .int n => .int n
  | _, .float x => .float x
  | _, .str s => .str s
  | _, .bytes bs => .bytes bs
  | .list _ _, .list _ items => .list rfl items.alike
  | .node _ _ _ _, .node _ cls extent? values => .node rfl cls values.alike extent?
  | .func _ _, .func _ f => .func rfl f.alike
  | .parser _ _ _ _, .parser _ name ok captures =>
      Alike.parser (L := within may) rfl ⟨rfl, ok⟩ captures.alike name
  | _, .failure entry marked => Alike.failure (L := within may) entry marked

theorem Value.AllProper.alike {vs : List Value} (h : Value.AllProper may vs) :
    AlikeAll (within may) vs vs :=
  match vs, h with
  | [], .nil => .nil
  | _ :: _, .cons head tail => .cons head.alike tail.alike

theorem Callable.Proper.alike {f : Callable Value} (h : Callable.Proper may f) :
    AlikeFunc (within may) f f :=
  match f, h with
  | .lambda _ _ _, .lambda params body scope => .lambda params body scope.alike
  | _, .builtin b => .builtin b
  | _, .constructor cls => .constructor cls
  | _, .method receiver m => .method receiver m
  | _, .decoder text => .decoder text
  | _, .native name => .native name

theorem Env.Proper.alike {env : Env} (h : Env.Proper may env) : AlikeEnv (within may) env env :=
  match env, h with
  | [], .nil => .nil
  | _ :: _, .cons name head tail => .cons name head.alike tail.alike

end

mutual

theorem Likeness.Alike.proper {v w : Value} (h : Alike (within may) v w) : v = w ∧ v.Proper may :=
  match v, w, h with
  | _, _, .none => ⟨rfl, .none⟩
  | _, _, .bool b => ⟨rfl, .bool b⟩
  | _, _, .int n => ⟨rfl, .int n⟩
  | _, _, .float x => ⟨rfl, .float x⟩
  | _, _, .str s => ⟨rfl, .str s⟩
  | _, _, .bytes bs => ⟨rfl, .bytes bs⟩
  | .list _ _, .list _ _, .list ids items => by
      obtain ⟨rfl, proper⟩ := items.proper
      exact ⟨congrArg (Value.list · _) ids, .list _ proper⟩
  | .node _ _ _ _, .node _ _ _ _, .node ids cls values extent? => by
      obtain ⟨rfl, proper⟩ := values.proper
      exact ⟨congrArg (Value.node · _ _ _) ids, .node _ cls extent? proper⟩
  | .func _ _, .func _ _, .func ids f => by
      obtain ⟨rfl, proper⟩ := f.proper
      exact ⟨congrArg (Value.func · _) ids, .func _ proper⟩
  | .parser _ _ _ _, .parser _ _ _ _, .parser ids functions captures name => by
      obtain ⟨rfl, proper⟩ := captures.proper
      obtain ⟨rfl, ok⟩ := functions
      exact ⟨congrArg (Value.parser · _ _ _) ids, .parser _ name ok proper⟩
  | _, _, .failure entry marks => ⟨rfl, .failure entry marks⟩

theorem Likeness.AlikeAll.proper {vs ws : List Value} (h : AlikeAll (within may) vs ws) :
    vs = ws ∧ Value.AllProper may vs :=
  match vs, ws, h with
  | [], [], .nil => ⟨rfl, .nil⟩
  | _ :: _, _ :: _, .cons head tail => by
      obtain ⟨rfl, first⟩ := head.proper
      obtain ⟨rfl, rest⟩ := tail.proper
      exact ⟨rfl, .cons first rest⟩

theorem Likeness.AlikeFunc.proper {f g : Callable Value} (h : AlikeFunc (within may) f g) :
    f = g ∧ Callable.Proper may f :=
  match f, g, h with
  | .lambda _ _ _, .lambda _ _ _, .lambda params body scope => by
      obtain ⟨rfl, proper⟩ := scope.proper
      exact ⟨rfl, .lambda params body proper⟩
  | _, _, .closure _ _ closures _ => closures.elim
  | _, _, .builtin b => ⟨rfl, .builtin b⟩
  | _, _, .constructor cls => ⟨rfl, .constructor cls⟩
  | _, _, .method receiver m => ⟨rfl, .method receiver m⟩
  | _, _, .decoder text => ⟨rfl, .decoder text⟩
  | _, _, .native name => ⟨rfl, .native name⟩

theorem Likeness.AlikeEnv.proper {env env' : Env} (h : AlikeEnv (within may) env env') :
    env = env' ∧ Env.Proper may env :=
  match env, env', h with
  | [], [], .nil => ⟨rfl, .nil⟩
  | _ :: _, _ :: _, .cons name head tail => by
      obtain ⟨rfl, first⟩ := head.proper
      obtain ⟨rfl, rest⟩ := tail.proper
      exact ⟨rfl, .cons name first rest⟩

end

/-! ### Lists and environments -/

theorem Value.allProper_iff {vs : List Value} :
    Value.AllProper may vs ↔ ∀ v ∈ vs, v.Proper may := by
  constructor
  · intro h
    induction vs with
    | nil => simp
    | cons v vs ih =>
        cases h with
        | cons head tail => simpa using ⟨head, ih tail⟩
  · intro h
    induction vs with
    | nil => exact .nil
    | cons v vs ih => exact .cons (h v (by simp)) (ih fun w hw => h w (by simp [hw]))

theorem Value.AllProper.append {vs ws : List Value} (h : Value.AllProper may vs)
    (h' : Value.AllProper may ws) : Value.AllProper may (vs ++ ws) := by
  rw [Value.allProper_iff] at *
  intro v hv
  rcases List.mem_append.1 hv with hv | hv
  · exact h v hv
  · exact h' v hv

theorem Value.AllProper.dropLast {vs : List Value} (h : Value.AllProper may vs) :
    Value.AllProper may vs.dropLast := by
  rw [Value.allProper_iff] at *
  exact fun v hv => h v (List.dropLast_subset _ hv)

theorem Env.Proper.bindAll {env : Env} (h : Env.Proper may env) (names : List String)
    {vs : List Value} (values : Value.AllProper may vs) :
    Env.Proper may (Host.bindAll names vs env) :=
  (AlikeEnv.bindAll h.alike names values.alike).proper.2

/-! ### Host code -/

namespace Host

/-- Functions from outside that make proper values out of proper values. -/
def Natives.Proper (may : Permit) (natives : Natives) : Prop :=
  ∀ name run, natives.lookup name = some run → ∀ args, Value.AllProper may args →
    ∀ n v n', run args n = .ok (v, n') → v.Proper may

/-- Where values are only like themselves, comparisons need not be asked about. -/
theorem Natives.Proper.respects {lib : Library} (h : lib.natives.Proper may) :
    (within may).Respects lib where
  compare op a b a' b' ha hb := by
    obtain ⟨rfl, -⟩ := ha.proper
    obtain ⟨rfl, -⟩ := hb.proper
    rfl
  natives name run known xs ys args := by
    obtain ⟨rfl, proper⟩ := args.proper
    rintro n _ rfl
    cases hr : run xs n with
    | ok out => exact .ok ⟨(h name run known xs proper n _ _ hr).alike, rfl⟩
    | error e => exact .error e

/-- What comes to the same as itself comes to proper values. -/
theorem proper_of_agreeOn {e : Eval Value} (h : AgreeOn (within may) (Alike (within may)) e e)
    {n n' : Nat} {v : Value} (hv : e n = .ok (v, n')) : v.Proper may := by
  have both := h n n rfl
  rw [hv] at both
  cases both with
  | ok h => exact h.1.proper.2

variable {lib : Library} (natives : lib.natives.Proper may)

include natives

/-- The value of a term is proper where names stand for proper values. -/
theorem Library.proper_evalIn {env : Env} (h : Env.Proper may env) (t : Term) {n n' : Nat}
    {v : Value} (hv : t.evalIn lib env n = .ok (v, n')) : v.Proper may :=
  proper_of_agreeOn (natives.respects.evalIn (.inl h.alike)) hv

/-- Calls of proper values with proper values have proper values. -/
theorem Library.proper_callIn {f : Value} {args : List Value} (h : f.Proper may)
    (ha : Value.AllProper may args) {n n' : Nat} {v : Value}
    (hv : callIn lib f args n = .ok (v, n')) : v.Proper may :=
  proper_of_agreeOn (natives.respects.callIn h.alike ha.alike) hv

end Host

end

end Packrat
