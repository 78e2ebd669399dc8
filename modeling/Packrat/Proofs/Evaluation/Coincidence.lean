import Packrat.Proofs.Evaluation.Faithful

/-
**What a term evaluates to depends on the names that it reads.**

In two environments that agree on the free names of a term, its evaluation fails with the same error
or comes to values that cannot be told apart from outside: functions among them may have been written
in different environments, as long as these agree on the names that their bodies read.  This takes
that functions from outside do not look into the environments of functions either.

Main definitions:

* `Packrat.Likeness.outward` — the likeness of values that look the same from outside;
* `Packrat.Host.Natives.Outward` — functions from outside that do not look into functions.

Main results:

* `Packrat.Likeness.Alike.refl` — values look like themselves;
* `Packrat.Host.Term.evalIn_agree` — **environments that agree on the free names of a term**.
-/

set_option autoImplicit false

namespace Packrat

open Host

/-- The likeness of values that look the same from outside: only the environments of functions may
differ, in what their bodies do not read. -/
def Likeness.outward : Likeness where
  ids i j := i = j
  counters i j := i = j
  functions k l := k = l
  marks := True
  closures := True
  fresh := fresh_of_eq

namespace Likeness

/-! ### Values look like themselves -/

mutual

theorem Alike.refl : (v : Value) → Alike outward v v
  | .none => .none
  | .bool b => .bool b
  | .int n => .int n
  | .float x => .float x
  | .str s => .str s
  | .bytes bs => .bytes bs
  | .list _ items => .list rfl (AlikeAll.refl items)
  | .node _ cls values extent? => .node rfl cls (AlikeAll.refl values) extent?
  | .func _ f => .func rfl (AlikeFunc.refl f)
  | .parser _ _ captures name => Alike.parser (L := outward) rfl rfl (AlikeAll.refl captures) name
  | .failure entry => .failure entry trivial

theorem AlikeAll.refl : (vs : List Value) → AlikeAll outward vs vs
  | [] => .nil
  | v :: vs => .cons (Alike.refl v) (AlikeAll.refl vs)

theorem AlikeFunc.refl : (f : Callable Value) → AlikeFunc outward f f
  | .lambda params body env => .lambda params body (AlikeEnv.refl env)
  | .builtin b => .builtin b
  | .constructor cls => .constructor cls
  | .method receiver m => .method receiver m
  | .decoder text => .decoder text
  | .native name => .native name

theorem AlikeEnv.refl : (env : Env) → AlikeEnv outward env env
  | [] => .nil
  | (name, v) :: env => .cons name (Alike.refl v) (AlikeEnv.refl env)

end

theorem AlikeOption.refl : (v? : Option Value) → AlikeOption outward v? v?
  | .none => .none
  | .some v => .some (Alike.refl v)

theorem outward_faithful : Faithful outward where
  ids h h' := by rw [show _ = _ from h, show _ = _ from h']
  functions h h' := by rw [show _ = _ from h, show _ = _ from h']

end Likeness

namespace Host

open Likeness

/-- Functions from outside that do not look into the environments of functions. -/
def Natives.Outward (natives : Natives) : Prop :=
  ∀ name run, natives.lookup name = some run → ∀ xs ys, AlikeAll outward xs ys →
    AgreeOn outward (Alike outward) (run xs) (run ys)

theorem Natives.Outward.respects {natives : Natives} (h : natives.Outward) :
    outward.Respects ⟨natives, compareOp⟩ where
  compare op _ _ _ _ ha hb := outward_faithful.compareOp_eq op ha hb
  natives := h

/-- Environments that agree on the free names of a term: its evaluation fails with the same error in
both, or comes to values that look the same from outside. -/
theorem Term.evalIn_agree {natives : Natives} (outside : natives.Outward) {t : Term}
    {env env' : Env}
    (h : ∀ x ∈ t.freeNames, AlikeOption outward (env.lookup x) (env'.lookup x)) :
    AgreeOn outward (Alike outward) (t.evalIn ⟨natives, compareOp⟩ env)
      (t.evalIn ⟨natives, compareOp⟩ env') :=
  outside.respects.evalIn (.inr ⟨trivial, fun x hx => h x (Term.mem_freeNames.2 hx)⟩)

end Host

end Packrat
