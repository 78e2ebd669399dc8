import Packrat.Host.Methods

/-
**Evaluation of host expressions.**

Evaluation follows the term; what a call of a function does is a parameter, so that a term is
evaluated by recursion on its structure.  What a comparison comes to is a parameter as well: it is
where host code sees which objects are shared.  A function written in the host language evaluates its
body in turn; the nesting of such calls is bounded.

Main definitions:

* `Packrat.Host.Library` — functions registered from outside, and what comparisons come to;
* `Packrat.Host.Term.evalWith` — evaluation, given what comparisons and calls do;
* `Packrat.Host.apply` — calls, nested at most so deep;
* `Packrat.Host.Term.evalIn`, `Packrat.Host.callIn` — evaluation and calls with the usual bound.

Main results:

* `Packrat.Host.Term.evalWith_name` — a name stands for its most recent binding.
-/

set_option autoImplicit false

namespace Packrat.Host

/-- Functions registered from outside, the most recent first. -/
abbrev Natives := List (String × (List Value → Eval Value))

/-- What a comparison of two values comes to. -/
abbrev Compare := Comparison → Value → Value → Except Error Bool

/-- What host code builds on. -/
structure Library where
  natives : Natives
  compare : Compare

/-- What a call of a function with some arguments evaluates to. -/
abbrev Call := Callable Value → List Value → Eval Value

/-- A call of a value, which must be a function. -/
def callWith (call : Call) (func : Value) (args : List Value) : Eval Value :=
  match func with
  | .func _ f => call f args
  | v => throw (.notCallable v.typeName)

/-- Whether a comparison holds. -/
def compareOp (op : Comparison) (left right : Value) : Except Error Bool :=
  let ordered (wanted : Ordering → Bool) : Except Error Bool :=
    match compareValues? left right with
    | some o => .ok (wanted o)
    | none => .error (.comparison left.typeName right.typeName)
  match op with
  | .eq => .ok (left.eq right)
  | .ne => .ok !(left.eq right)
  | .lt => ordered Ordering.isLT
  | .le => ordered Ordering.isLE
  | .gt => ordered Ordering.isGT
  | .ge => ordered Ordering.isGE
  | .isIn => contains right left
  | .notIn => do
    let b ← contains right left
    pure !b
  | .same => .ok (left.same right)
  | .notSame => .ok !(left.same right)

mutual

/-- The value of a term in an environment. -/
def Term.evalWith (compare : Compare) (call : Call) (env : Env) : Term → Eval Value
  | .literal s => pure s.value
  | .name n =>
    match env.lookup n with
    | some v => pure v
    | none => throw (.unbound n)
  | .list items => do
    let values ← evalAll compare call env items
    Value.newList values
  | .call func args => do
    let f ← func.evalWith compare call env
    let values ← evalAll compare call env args
    callWith call f values
  | .member object field => do
    let v ← object.evalWith compare call env
    memberOf v field
  | .index object index => do
    let v ← object.evalWith compare call env
    let i ← index.evalWith compare call env
    subscript v i
  | .slice object lower upper => do
    let v ← object.evalWith compare call env
    let lo ← evalOption compare call env lower
    let hi ← evalOption compare call env upper
    sliceValue v lo hi
  | .unary op operand => do
    let v ← operand.evalWith compare call env
    unaryOp op v
  | .binary op left right => do
    let a ← left.evalWith compare call env
    let b ← right.evalWith compare call env
    binaryOp op a b
  | .compare first rest => do
    let v ← first.evalWith compare call env
    evalComparisons compare call env v rest
  | .and left right => do
    let v ← left.evalWith compare call env
    if v.truthy then right.evalWith compare call env else pure v
  | .or left right => do
    let v ← left.evalWith compare call env
    if v.truthy then pure v else right.evalWith compare call env
  | .conditional test consequent alternative => do
    let v ← test.evalWith compare call env
    if v.truthy then consequent.evalWith compare call env else alternative.evalWith compare call env
  | .lambda params body => Value.newFunc (.lambda params body env)

/-- The values of terms, from left to right. -/
def evalAll (compare : Compare) (call : Call) (env : Env) : List Term → Eval (List Value)
  | [] => pure []
  | t :: ts => do
    let v ← t.evalWith compare call env
    let vs ← evalAll compare call env ts
    pure (v :: vs)

def evalOption (compare : Compare) (call : Call) (env : Env) : Option Term → Eval (Option Value)
  | .none => pure .none
  | some t => do
    let v ← t.evalWith compare call env
    pure (some v)

/-- Whether each comparison of a chain holds; the first that does not ends it. -/
def evalComparisons (compare : Compare) (call : Call) (env : Env) (left : Value) :
    List (Comparison × Term) → Eval Value
  | [] => pure (.bool true)
  | (op, t) :: rest => do
    let right ← t.evalWith compare call env
    let holds ← compare op left right
    if holds then evalComparisons compare call env right rest else pure (.bool false)

end

theorem Term.evalWith_name (compare : Compare) (call : Call) (env : Env) (n : String) (v : Value)
    (h : env.lookup n = some v) : (Term.name n).evalWith compare call env = pure v := by
  rw [Term.evalWith, h]

/-- Names bound to values, before an environment; a later binding wins. -/
def bindAll : List String → List Value → Env → Env
  | n :: ns, v :: vs, env => bindAll ns vs ((n, v) :: env)
  | _, _, env => env

/-- What a call does when calls of functions are nested at most so deep. -/
def apply (lib : Library) : Nat → Call
  | 0, _, _ => throw (.trap .depth)
  | depth + 1, f, args =>
    match f with
    | .lambda params body env =>
      if args.length == params.length then
        body.evalWith lib.compare (apply lib depth) (bindAll params args env)
      else throw (.arity f.name params.length args.length)
    | .builtin b => callBuiltin b args
    | .constructor cls =>
      if args.length == cls.fields.length then Value.newNode cls args
      else throw (.arity cls.name cls.fields.length args.length)
    | .method receiver m => callMethod m receiver args
    | .decoder text => pure (.str text)
    | .native name =>
      match lib.natives.lookup name with
      | some run => run args
      | none => throw (.unbound name)

/-- How deep calls of functions may be nested. -/
def callDepth : Nat := 10000

/-- The value of a term in an environment. -/
def Term.evalIn (lib : Library) (env : Env) (t : Term) : Eval Value :=
  t.evalWith lib.compare (apply lib callDepth) env

/-- A call of a value, which must be a function. -/
def callIn (lib : Library) (func : Value) (args : List Value) : Eval Value :=
  callWith (apply lib callDepth) func args

/-- The value of a term whose comparisons are the usual ones. -/
def Term.eval (natives : Natives) (env : Env) (t : Term) : Eval Value :=
  t.evalIn ⟨natives, compareOp⟩ env

/-- A call of a value where comparisons are the usual ones. -/
def callValue (natives : Natives) (func : Value) (args : List Value) : Eval Value :=
  callIn ⟨natives, compareOp⟩ func args

/-- The environment of the builtins, with new identities. -/
def builtinEnv {m : Type → Type} [Monad m] : StateT Nat m Env :=
  Builtin.all.foldlM (fun env b => do
    let f ← Value.newFunc (.builtin b)
    pure ((b.name, f) :: env)) []

end Packrat.Host
