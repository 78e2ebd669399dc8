import Packrat.Proofs.Evaluation.Parametricity

/-
**Values with the same contents.**

Values have the same contents if they differ at most in their identities, wherever these occur.  A
library that looks at contents only, when it compares values and in its functions, is one that does
not tell such values apart.  Values have the same shape if they differ at most in their identities and
in the numbers of functions, so values that come from two programs can have the same shape.

Main definitions:

* `Packrat.Likeness.Reflexive` — likenesses of values with themselves, among others;
* `Packrat.Likeness.Euclidean` — likenesses of values that are like the same value;
* `Packrat.Likeness.Finer` — likenesses by which less is alike;
* `Packrat.Likeness.contents`, `Packrat.Likeness.shape` — **the likenesses of values with the same
  contents and of values of the same shape**.

Main results:

* `Packrat.Likeness.Reflexive.alike` — values are like themselves;
* `Packrat.Likeness.Euclidean.join` — values that are like a third one;
* `Packrat.Likeness.Finer.alike` — what is alike by a finer likeness is alike.
-/

set_option autoImplicit false

namespace Packrat

open Host

namespace Likeness

variable {L : Likeness}

/-! ### Values are like themselves -/

/-- Identities and functions go with themselves, and marks of failures are like themselves. -/
structure Reflexive (L : Likeness) : Prop where
  ids : ∀ i, L.ids i i
  functions : ∀ k, L.functions k k
  marks : L.marks

mutual

theorem Reflexive.alike (h : L.Reflexive) : (v : Value) → Alike L v v
  | .none => .none
  | .bool b => .bool b
  | .int n => .int n
  | .float x => .float x
  | .str s => .str s
  | .bytes bs => .bytes bs
  | .list id items => .list (h.ids id) (h.alikeAll items)
  | .node id cls values extent? => .node (h.ids id) cls (h.alikeAll values) extent?
  | .func id f => .func (h.ids id) (h.alikeFunc f)
  | .parser id k captures name => .parser (h.ids id) (h.functions k) (h.alikeAll captures) name
  | .failure entry => .failure entry h.marks

theorem Reflexive.alikeAll (h : L.Reflexive) : (vs : List Value) → AlikeAll L vs vs
  | [] => .nil
  | v :: vs => .cons (h.alike v) (h.alikeAll vs)

theorem Reflexive.alikeFunc (h : L.Reflexive) : (f : Callable Value) → AlikeFunc L f f
  | .lambda params body env => .lambda params body (h.alikeEnv env)
  | .builtin b => .builtin b
  | .constructor cls => .constructor cls
  | .method receiver m => .method receiver m
  | .decoder text => .decoder text
  | .native name => .native name

theorem Reflexive.alikeEnv (h : L.Reflexive) : (env : Env) → AlikeEnv L env env
  | [] => .nil
  | (name, v) :: env => .cons name (h.alike v) (h.alikeEnv env)

end

/-! ### Values that are like a third one -/

/-- Identities and functions that go with the same one go together, and functions that were written are
alike only where their environments are. -/
structure Euclidean (L : Likeness) : Prop where
  ids : ∀ {i j k}, L.ids i j → L.ids i k → L.ids j k
  functions : ∀ {k l m}, L.functions k l → L.functions k m → L.functions l m
  closures : ¬L.closures

mutual

/-- Values that are like a third one are alike. -/
theorem Euclidean.join (e : L.Euclidean) {a b c : Value} (h : Alike L a b) (h' : Alike L a c) :
    Alike L b c :=
  match a, b, c, h, h' with
  | _, _, _, .none, .none => .none
  | _, _, _, .bool b, .bool _ => .bool b
  | _, _, _, .int n, .int _ => .int n
  | _, _, _, .float x, .float _ => .float x
  | _, _, _, .str s, .str _ => .str s
  | _, _, _, .bytes bs, .bytes _ => .bytes bs
  | _, _, _, .list ids xs, .list ids' ys => .list (e.ids ids ids') (e.join_all xs ys)
  | _, _, _, .node ids cls xs extent?, .node ids' _ ys _ =>
    .node (e.ids ids ids') cls (e.join_all xs ys) extent?
  | _, _, _, .func ids f, .func ids' g => .func (e.ids ids ids') (e.join_func f g)
  | _, _, _, .parser ids k xs name, .parser ids' l ys _ =>
    .parser (e.ids ids ids') (e.functions k l) (e.join_all xs ys) name
  | _, _, _, .failure entry marks, .failure _ _ => .failure entry marks

theorem Euclidean.join_all (e : L.Euclidean) {xs ys zs : List Value} (h : AlikeAll L xs ys)
    (h' : AlikeAll L xs zs) : AlikeAll L ys zs :=
  match xs, ys, zs, h, h' with
  | _, _, _, .nil, .nil => .nil
  | _, _, _, .cons head tail, .cons head' tail' => .cons (e.join head head') (e.join_all tail tail')

theorem Euclidean.join_func (e : L.Euclidean) {f g k : Callable Value} (h : AlikeFunc L f g)
    (h' : AlikeFunc L f k) : AlikeFunc L g k :=
  match f, g, k, h, h' with
  | _, _, _, .lambda params body scope, .lambda _ _ scope' =>
    .lambda params body (e.join_env scope scope')
  | _, _, _, .closure _ _ closures _, _ | _, _, _, _, .closure _ _ closures _ =>
    absurd closures e.closures
  | _, _, _, .builtin b, .builtin _ => .builtin b
  | _, _, _, .constructor cls, .constructor _ => .constructor cls
  | _, _, _, .method receiver m, .method _ _ => .method receiver m
  | _, _, _, .decoder text, .decoder _ => .decoder text
  | _, _, _, .native name, .native _ => .native name

theorem Euclidean.join_env (e : L.Euclidean) {env env' env'' : Env} (h : AlikeEnv L env env')
    (h' : AlikeEnv L env env'') : AlikeEnv L env' env'' :=
  match env, env', env'', h, h' with
  | _, _, _, .nil, .nil => .nil
  | _, _, _, .cons name head tail, .cons _ head' tail' =>
    .cons name (e.join head head') (e.join_env tail tail')

end

theorem Euclidean.trans (e : L.Euclidean) (r : L.Reflexive) {a b c : Value} (h : Alike L a b)
    (h' : Alike L b c) : Alike L a c := e.join (e.join h (r.alike a)) h'

/-! ### Finer likenesses -/

/-- All that goes together by one likeness goes together by the other. -/
structure Finer (L L' : Likeness) : Prop where
  ids : ∀ {i j}, L.ids i j → L'.ids i j
  functions : ∀ {k l}, L.functions k l → L'.functions k l
  marks : L.marks → L'.marks
  closures : L.closures → L'.closures

section

variable {L' : Likeness}

mutual

/-- What is alike by a finer likeness is alike. -/
theorem Finer.alike (f : L.Finer L') {a b : Value} : Alike L a b → Alike L' a b
  | .none => .none
  | .bool b => .bool b
  | .int n => .int n
  | .float x => .float x
  | .str s => .str s
  | .bytes bs => .bytes bs
  | .list ids items => .list (f.ids ids) (f.alikeAll items)
  | .node ids cls values extent? => .node (f.ids ids) cls (f.alikeAll values) extent?
  | .func ids callable => .func (f.ids ids) (f.alikeFunc callable)
  | .parser ids functions captures name =>
    .parser (f.ids ids) (f.functions functions) (f.alikeAll captures) name
  | .failure entry marks => .failure entry (f.marks marks)

theorem Finer.alikeAll (f : L.Finer L') {xs ys : List Value} : AlikeAll L xs ys → AlikeAll L' xs ys
  | .nil => .nil
  | .cons head tail => .cons (f.alike head) (f.alikeAll tail)

theorem Finer.alikeOption (f : L.Finer L') {x? y? : Option Value} :
    AlikeOption L x? y? → AlikeOption L' x? y?
  | .none => .none
  | .some h => .some (f.alike h)

theorem Finer.alikeFunc (f : L.Finer L') {g k : Callable Value} : AlikeFunc L g k → AlikeFunc L' g k
  | .lambda params body scope => .lambda params body (f.alikeEnv scope)
  | .closure params body closures scope =>
    .closure params body (f.closures closures) fun x mem => f.alikeOption (scope x mem)
  | .builtin b => .builtin b
  | .constructor cls => .constructor cls
  | .method receiver m => .method receiver m
  | .decoder text => .decoder text
  | .native name => .native name

theorem Finer.alikeEnv (f : L.Finer L') {env env' : Env} : AlikeEnv L env env' → AlikeEnv L' env env'
  | .nil => .nil
  | .cons name head tail => .cons name (f.alike head) (f.alikeEnv tail)

end

end

/-! ### The same contents -/

/-- The likeness of values with the same contents: nothing is asked of identities. -/
def contents : Likeness where
  ids _ _ := True
  counters _ _ := True
  functions k l := k = l
  marks := True
  closures := False
  fresh _ := ⟨trivial, trivial⟩

namespace contents

theorem reflexive : contents.Reflexive := ⟨fun _ => trivial, fun _ => rfl, trivial⟩

theorem euclidean : contents.Euclidean := ⟨fun _ _ => trivial, fun h h' => h.symm.trans h', id⟩

theorem trans {a b c : Value} (h : Alike contents a b) (h' : Alike contents b c) :
    Alike contents a c := euclidean.trans reflexive h h'

end contents

/-! ### The same shape -/

/-- The likeness of values of the same shape: nothing is asked of identities, nor of the numbers of
functions. -/
def shape : Likeness where
  ids _ _ := True
  counters _ _ := True
  functions _ _ := True
  marks := True
  closures := False
  fresh _ := ⟨trivial, trivial⟩

namespace shape

theorem reflexive : shape.Reflexive := ⟨fun _ => trivial, fun _ => trivial, trivial⟩

theorem euclidean : shape.Euclidean := ⟨fun _ _ => trivial, fun _ _ => trivial, id⟩

/-- Functions that were written are told apart by their environments. -/
theorem finer {L : Likeness} (closures : ¬L.closures) : L.Finer shape :=
  ⟨fun _ => trivial, fun _ => trivial, fun _ => trivial, closures⟩

end shape

end Likeness

end Packrat
