import Packrat.Program.Compile
import Packrat.Proofs.Meaning.Reading

/-
**The meaning of expressions.**

An expression is read where its names stand for values; the reading follows the expression, and
what a call of a function comes to is a parameter.  So the meaning of a grammar is an interpreter
that knows nothing of instructions, registers, slots or labels.

Host code may tell parser values apart, and an empty list that a program makes once from one that
it makes anew.  What it sees of them are numbers, and the numbers are chosen when a program is
written.  A layout holds the numbers chosen for an expression: those of the functions that its
parts have become, and that of the empty list it shares.  The meaning only hands them on.

Main definitions:

* `Packrat.Layout`, `Packrat.Closure`, `Packrat.Naming` — the numbers of a program, and what they
  stand for;
* `Packrat.Scene` — where an expression is read;
* `Packrat.Scene.levelOf` — the meaning of a level of operators;
* `Packrat.Expr.meaning`, `Packrat.Expr.reads` — the meaning of an expression, and of one that may
  have become a function;
* `Packrat.World.run` — the meaning of a function.

Main results:

* `Packrat.Layout.read_plain` — where nothing is remembered, a part that has become a function of
  its own is read like any other.
-/

set_option autoImplicit false

namespace Packrat

/-- The numbers chosen for an expression and its parts: the function that it has become, if it has
become one, and the identity of the empty list it shares. -/
inductive Layout where
  | mk (function? : Option Nat) (shared : Nat) (parts : List Layout)

namespace Layout

/-- A layout without numbers. -/
def blank : Layout := .mk none 0 []

instance : Inhabited Layout := ⟨blank⟩

def function? : Layout → Option Nat
  | .mk f _ _ => f

/-- The function that an expression has become. -/
def function (l : Layout) : Nat := l.function?.getD 0

/-- The identity of the empty list that an expression shares. -/
def shared : Layout → Nat
  | .mk _ id _ => id

def parts : Layout → List Layout
  | .mk _ _ parts => parts

/-- The layout of a part. -/
def part (l : Layout) (i : Nat) : Layout := l.parts.getD i blank

end Layout

/-- What a function of a program stands for: an expression of a rule, and the names it is closed
over or takes as parameters. -/
structure Closure where
  name : String
  params : List String
  rule : String
  layout : Layout
  body : Expr

/-- The numbers of a program, and what they stand for. -/
structure Naming where
  /-- The functions of rules. -/
  rules : List (String × Nat)
  /-- Classes, which are known by their names. -/
  classes : List NodeClass
  closure? : Nat → Option Closure

/-- The class that is known by the name of a class. -/
def Naming.cls (naming : Naming) (c : NodeClass) : NodeClass :=
  (naming.classes.find? (·.name == c.name)).getD c

/-- What stays the same while a grammar is read. -/
structure World where
  naming : Naming
  library : Host.Library
  globals : Env
  bytes : ByteArray
  isBinary : Bool
  /-- Whether functions remember what they came to. -/
  memoize : Bool
  /-- Whether any number of items is enough where the least number is none, if that is settled. -/
  leastNone? : Option Bool

/-- Where an expression is read: in a rule, knowing what calls come to, and giving up after so
many rounds. -/
structure Scene extends World where
  rule : String
  call : Nat → List Value → Nat → Reading (Verdict Value)
  rounds : Nat

namespace Scene

/-- The values of names. -/
def captured (env : Env) (names : List String) : Reading (List Value) :=
  Reading.found (names.mapM fun n => env.lookup n)

/-- The value of a snippet, which sees its locals and the globals. -/
def snippet (scene : Scene) (env : Env) (s : Snippet) : Reading Value := do
  let values ← captured env s.locals
  Reading.host (s.term.evalIn scene.library (Host.bindAll s.locals values scene.globals))

/-- The value of a bound. A constant is a word of 64 bits with a sign. -/
def boundOf (scene : Scene) (env : Env) : Option Bound → Reading (Option Value)
  | none => pure none
  | some (.const n) => pure (some (.int (Int64.ofNat n)))
  | some (.host s) => do
    let v ← scene.snippet env s
    pure (some v)

/-- Whether there are as many items as a bound says. A bound of none is never reached. -/
def reaches (items : Nat) : Value → Reading Bool
  | .none => pure false
  | v =>
    match v.asInt? with
    | some n => pure (decide (n.toInt ≤ items))
    | none => throw (.host (.boundType v.typeName))

/-- Whether there are as many items as there may be. A bound of none leaves this side open. -/
def full (items : Nat) : Option Value → Reading Bool
  | none => pure false
  | some v => reaches items v

/-- Whether there are as many items as there must be. -/
def enough (scene : Scene) (items : Nat) : Option Value → Reading Bool
  | none => pure true
  | some .none => Reading.found scene.leastNone?
  | some v => reaches items v

/-- A least number of none refuses any number of items, if it does anything. -/
theorem enough_some {scene : Scene} (h : scene.leastNone? ≠ some true) (items : Nat) (v : Value) :
    scene.enough items (some v) = reaches items v ∨
      scene.enough items (some v) = Reading.stuck := by
  cases v with
  | none =>
      change Reading.found scene.leastNone? = _ ∨ _
      match hn : scene.leastNone?, h with
      | none, _ => exact .inr (by rw [enough, hn]; rfl)
      | some false, _ => exact .inl rfl
      | some true, h => exact absurd rfl h
  | _ => exact .inl rfl

/-- The function of a rule. -/
def ruleNumber (scene : Scene) (function : String) : Reading Nat :=
  Reading.found (scene.naming.rules.lookup function)

/-- The call of a rule without arguments. -/
def callRule (scene : Scene) (function : String) (pos : Nat) : Reading (Verdict Value) := do
  let f ← scene.ruleNumber function
  scene.call f [] pos

/-- A match of the input up to a place, or the failure to match. -/
def matched (scene : Scene) (entry : FailureEntry) (pos : Nat) : Option Nat → Verdict Value
  | some stop => .success (Input.excise scene.isBinary scene.bytes pos stop) stop
  | none => .failure entry pos

/-- A match together with the ignored content behind it. -/
def skipping (scene : Scene) (skip : Bool) : Verdict Value → Reading (Verdict Value)
  | .success v pos =>
    if skip then do
      let ignored ← scene.callRule (ruleFunction ignoredRule) pos
      pure (.success v ignored.pos)
    else pure (.success v pos)
  | .failure entry pos => pure (.failure entry pos)

/-- A match of a pattern. -/
def pattern [Regex.Engine] (scene : Scene) (entry : FailureEntry) (pattern : String)
    (ignoreCase binary : Bool) (pos : Nat) : Reading (Verdict Value) :=
  match Regex.compile pattern ignoreCase binary with
  | .ok regex => pure (scene.matched entry pos (regex.matchEnd? scene.bytes pos))
  | .error _ => Reading.stuck

/-! ### Repetitions -/

/-- Another item of a repetition, unless there are as many as there may be. Together with the items
goes the failure to report if they are too few. -/
def anotherItem (most : Option Value) (item : Nat → Reading (Verdict Value)) :
    List Value × (FailureEntry × Nat) × Nat →
      Reading ((List Value × (FailureEntry × Nat) × Nat) ⊕ (List Value × (FailureEntry × Nat) × Nat))
  | (items, far, pos) => do
    if ← full items.length most then
      pure (.inr (items, far, pos))
    else
      match ← item pos with
      | .failure entry place => pure (.inr (items, (entry, place), pos))
      | .success v stop =>
        -- An item that reads nothing is the last one.
        if stop = pos then pure (.inr (items ++ [v], far, stop))
        else pure (.inl (items ++ [v], far, stop))

/-- Another separator and another item. `items` are the values so far. -/
def anotherPair (flags : SepFlags) (item separator : Nat → Reading (Verdict Value)) :
    List Value × Nat → Reading ((List Value × Nat) ⊕ (List Value × Nat))
  | (items, pos) => do
    match ← separator pos with
    | .failure _ _ => pure (.inr (items, pos))
    | .success s between =>
      let kept := if flags.discardSeparators then items else items ++ [s]
      -- A trailer is not given back.
      let back := if flags.allowTrailer then between else pos
      match ← item between with
      | .failure _ _ => pure (.inr (if flags.allowTrailer then kept else items, back))
      | .success v stop =>
        if stop = back then pure (.inr (kept ++ [v], stop)) else pure (.inl (kept ++ [v], stop))

/-! ### Operators -/

/-- Operators around an operand, the first outermost. -/
def prefixes (operand : Value) : List Value → Host.Eval Value
  | [] => pure operand
  | op :: ops => do
    let right ← prefixes operand ops
    Value.newNode .prefixOp [op, right]

/-- Operands with operators between them, folded to the right. -/
def spine (last : Value) : List (Value × Value) → Host.Eval Value
  | [] => pure last
  | (left, op) :: rest => do
    let right ← spine last rest
    Value.newNode .infixOp [left, op, right]

/-- Another operator before an operand. -/
def anotherPrefix (operator : Nat → Reading (Verdict Value)) :
    List Value × Nat → Reading ((List Value × Nat) ⊕ (List Value × Nat))
  | (ops, pos) => do
    match ← operator pos with
    | .failure _ _ => pure (.inr (ops, pos))
    | .success op stop =>
      if stop = pos then pure (.inr (ops ++ [op], stop)) else pure (.inl (ops ++ [op], stop))

/-- Another operator behind an operand. -/
def anotherPostfix (operator : Nat → Reading (Verdict Value)) :
    Value × Nat → Reading ((Value × Nat) ⊕ (Value × Nat))
  | (acc, pos) => do
    match ← operator pos with
    | .failure _ _ => pure (.inr (acc, pos))
    | .success op stop => do
      let acc ← Reading.host (Value.newNode .postfixOp [acc, op])
      if stop = pos then pure (.inr (acc, stop)) else pure (.inl (acc, stop))

/-- An operator and an operand behind it; neither is read where one of them fails. -/
def operatorPair (operator operand : Nat → Reading (Verdict Value)) (pos : Nat) :
    Reading (Option (Value × Value × Nat)) := do
  match ← operator pos with
  | .failure _ _ => pure none
  | .success op between =>
    match ← operand between with
    | .failure _ _ => pure none
    | .success right stop => pure (some (op, right, stop))

/-- Another operator and operand of a chain that groups to the left. -/
def anotherInfix (once : Bool) (operator operand : Nat → Reading (Verdict Value)) :
    Value × Nat → Reading ((Value × Nat) ⊕ (Value × Nat))
  | (acc, pos) => do
    match ← operatorPair operator operand pos with
    | none => pure (.inr (acc, pos))
    | some (op, right, stop) => do
      let acc ← Reading.host (Value.newNode .infixOp [acc, op, right])
      if once || stop = pos then pure (.inr (acc, stop)) else pure (.inl (acc, stop))

/-- Another operator and operand of a chain that groups to the right: the operands with the
operators behind them, and the last operand. -/
def anotherLink (operator operand : Nat → Reading (Verdict Value)) :
    (List (Value × Value) × Value) × Nat →
      Reading (((List (Value × Value) × Value) × Nat) ⊕ ((List (Value × Value) × Value) × Nat))
  | ((links, last), pos) => do
    match ← operatorPair operator operand pos with
    | none => pure (.inr ((links, last), pos))
    | some (op, right, stop) =>
      let chain := (links ++ [(last, op)], right)
      if stop = pos then pure (.inr (chain, stop)) else pure (.inl (chain, stop))

/-- The meaning of a level of operators over an operand. -/
def levelOf (scene : Scene) (fixity : Fixity) (operator operand : Nat → Reading (Verdict Value))
    (pos : Nat) : Reading (Verdict Value) :=
  match fixity with
  | .prefixOp => do
    -- The list of operators is an object of its own, drawn before the first of them.
    let _ ← Reading.host fresh
    let (ops, pos) ← Reading.repeatFrom (anotherPrefix operator) scene.rounds ([], pos)
    Reading.andThen (operand pos) fun v stop => do
      let v ← Reading.host (prefixes v ops)
      pure (.success v stop)
  | .postfixOp =>
    Reading.andThen (operand pos) fun v pos => do
      let (acc, stop) ← Reading.repeatFrom (anotherPostfix operator) scene.rounds (v, pos)
      pure (.success acc stop)
  | .leftAssoc => left false
  | .nonAssoc => left true
  | .rightAssoc => do
    let _ ← Reading.host fresh
    Reading.andThen (operand pos) fun v pos => do
      let ((links, last), stop) ←
        Reading.repeatFrom (anotherLink operator operand) scene.rounds (([], v), pos)
      let v ← Reading.host (spine last links)
      pure (.success v stop)
where
  left (once : Bool) : Reading (Verdict Value) :=
    Reading.andThen (operand pos) fun v pos => do
      let (acc, stop) ←
        Reading.repeatFrom (anotherInfix once operator operand) scene.rounds (v, pos)
      pure (.success acc stop)

/-- The farthest failure of alternatives, the last of several at one place. A bare failure only
takes over at a later place. -/
def farther (isFail : Bool) (entry : FailureEntry) (place : Nat) :
    Option (FailureEntry × Nat) → Option (FailureEntry × Nat)
  | none => some (entry, place)
  | some far =>
    if (if isFail then far.2 < place else far.2 ≤ place) then some (entry, place) else some far

/-- The value of an argument: a local as it is, host code evaluated, and anything else as a parser
closed over its locals. -/
def argument (scene : Scene) (env : Env) (l : Layout) : Expr → Reading Value
  | .ref _ name .local => Reading.found (env.lookup name)
  | .ref _ _ (.rule function) => do
    let f ← scene.ruleNumber function
    let id ← Reading.host fresh
    pure (.parser id f [] function)
  | .host _ s => scene.snippet env s
  | e => do
    let captures ← captured env e.freeLocals
    let id ← Reading.host fresh
    pure (.parser id l.function captures s!"_parse_function_{e.id}")

end Scene

/-- The reading of a part; if it has become a function without parameters, its verdict is
remembered. -/
def Layout.read (l : Layout) (scene : Scene) (params : List String) (pos : Nat)
    (r : Reading (Verdict Value)) : Reading (Verdict Value) :=
  match l.function? with
  | some f => Reading.remembered (params.isEmpty && scene.memoize) f pos r
  | none => r

theorem Layout.read_plain {l : Layout} {scene : Scene} (h : scene.memoize = false)
    (params : List String) (pos : Nat) (r : Reading (Verdict Value)) :
    l.read scene params pos r = r := by
  simp only [Layout.read, h, Bool.and_false, Reading.remembered_false]
  split <;> rfl

variable [Regex.Engine]

open Scene in
mutual

/-- The meaning of an expression where names stand for values, at a place of the input. -/
def Expr.meaning (scene : Scene) : Expr → Env → Layout → Nat → Reading (Verdict Value)
  | .str tag value flags, _, _, pos => do
    let entry : FailureEntry := ⟨scene.rule, Expr.text (.str tag value flags),
      .literal (String.ofList (Expr.literalChars value flags.binary))⟩
    let verdict ←
      if flags.ignoreCase then
        scene.pattern entry (literalPattern value flags.binary) true flags.binary pos
      else
        let stop? := if bytesAt scene.bytes pos value then some (pos + value.length) else none
        pure (scene.matched entry pos stop?)
    scene.skipping flags.skip verdict
  | .regex tag pattern flags, _, _, pos => do
    let entry : FailureEntry := ⟨scene.rule, Expr.text (.regex tag pattern flags), .regex pattern⟩
    let verdict ← scene.pattern entry pattern flags.ignoreCase flags.binary pos
    scene.skipping flags.skip verdict
  | .ref _ name .local, env, _, pos => do
    match ← Reading.found (env.lookup name) with
    | .parser _ f captures _ => scene.call f captures pos
    | v => pure (.success v pos)
  | .ref _ _ (.rule function), _, _, pos => scene.callRule function pos
  | .ref _ _ .unresolved, _, _, _ => Reading.stuck
  | .call _ _ args (.rule function), env, l, pos => do
    let f ← scene.ruleNumber function
    let values ← meaningArgs scene args env l.parts
    scene.call f values pos
  | .call _ _ _ _, _, _, _ => Reading.stuck
  | .seq _ items none, env, l, pos =>
    Reading.andThen (meaningItems scene items [] env l.parts pos) fun values stop => do
      let v ← Reading.host (Value.newList values)
      pure (.success v stop)
  | .seq _ items (some c), env, l, pos =>
    Reading.andThen (meaningItems scene items c.fields env l.parts pos) fun values stop => do
      let id ← Reading.host fresh
      let extent : Extent := ⟨.unresolved pos, .unresolved stop⟩
      pure (.success (.node id (scene.naming.cls c) values (some extent)) stop)
  | .choice _ [only], env, l, pos =>
    (l.part 0).read scene only.freeLocals pos (only.meaning scene env (l.part 0) pos)
  | .choice _ alternatives, env, l, pos =>
    meaningAlternatives scene alternatives env l.parts pos none
  | .list tag item least most, env, l, pos => do
    let id ← Reading.host fresh
    let low ← scene.boundOf env least
    let high ← scene.boundOf env most
    let far : FailureEntry := ⟨scene.rule, Expr.text (.list tag item least most), .unexpected⟩
    let part := fun p => (l.part 0).read scene item.freeLocals p (item.meaning scene env (l.part 0) p)
    let (items, far, stop) ←
      Reading.repeatFrom (anotherItem high part) scene.rounds ([], (far, pos), pos)
    if ← scene.enough items.length low then pure (.success (.list id items) stop)
    else pure (.failure far.1 far.2)
  | .sep _ item separator flags, env, l, pos => do
    let id ← Reading.host fresh
    let first := (l.part 0).read scene item.freeLocals pos (item.meaning scene env (l.part 0) pos)
    let between := fun p =>
      (l.part 1).read scene separator.freeLocals p (separator.meaning scene env (l.part 1) p)
    let later := fun p => (l.part 2).read scene item.freeLocals p (item.meaning scene env (l.part 2) p)
    match ← first with
    | .failure entry place =>
      if flags.allowEmpty then pure (.success (.list l.shared []) pos)
      else pure (.failure entry place)
    | .success v stop => do
      let (items, stop) ←
        Reading.repeatFrom (anotherPair flags later between) scene.rounds ([v], stop)
      pure (.success (.list id items) stop)
  | .opt _ inner, env, l, pos => do
    match ← (l.part 0).read scene inner.freeLocals pos (inner.meaning scene env (l.part 0) pos) with
    | .success v stop => pure (.success v stop)
    | .failure _ _ => pure (.success .none pos)
  | .apply _ left right applyLeft, env, l, pos =>
    Reading.andThen
      ((l.part 0).read scene left.freeLocals pos (left.meaning scene env (l.part 0) pos))
      fun a between =>
    Reading.andThen
      ((l.part 1).read scene right.freeLocals between
        (right.meaning scene env (l.part 1) between))
      fun b stop => do
    let v ← Reading.host
      (if applyLeft then Host.callIn scene.library a [b] else Host.callIn scene.library b [a])
    pure (.success v stop)
  | .discard _ left right discardLeft, env, l, pos =>
    Reading.andThen
      ((l.part 0).read scene left.freeLocals pos (left.meaning scene env (l.part 0) pos))
      fun a between =>
    Reading.andThen
      ((l.part 1).read scene right.freeLocals between
        (right.meaning scene env (l.part 1) between))
      fun b stop =>
    pure (.success (if discardLeft then b else a) stop)
  | .expect _ inner, env, l, pos => do
    match ← (l.part 0).read scene inner.freeLocals pos (inner.meaning scene env (l.part 0) pos) with
    | .success v _ => pure (.success v pos)
    | .failure entry _ => pure (.failure entry pos)
  | .expectNot tag inner, env, l, pos => do
    match ← (l.part 0).read scene inner.freeLocals pos (inner.meaning scene env (l.part 0) pos) with
    | .success _ _ =>
      let entry : FailureEntry :=
        ⟨scene.rule, Expr.text (.expectNot tag inner), .notExpected inner.text⟩
      pure (.failure entry pos)
    | .failure _ _ => pure (.success .none pos)
  | .fail tag message?, _, _, pos =>
    let entry : FailureEntry :=
      ⟨scene.rule, Expr.text (.fail tag message?), .custom (message?.getD "Failed")⟩
    pure (.failure entry pos)
  | .bound _ name value body, env, l, pos =>
    Reading.andThen
      ((l.part 0).read scene value.freeLocals pos (value.meaning scene env (l.part 0) pos))
      fun v stop =>
    (l.part 1).read scene body.freeLocals stop
      (body.meaning scene ((name, v) :: env) (l.part 1) stop)
  | .satisfying tag inner predicate, env, l, pos =>
    Reading.andThen
      ((l.part 0).read scene inner.freeLocals pos (inner.meaning scene env (l.part 0) pos))
      fun x between =>
    Reading.andThen
      ((l.part 1).read scene predicate.freeLocals between
        (predicate.meaning scene env (l.part 1) between))
      fun f stop => do
    let verdict ← Reading.host (Host.callIn scene.library f [x])
    let entry : FailureEntry :=
      ⟨scene.rule, Expr.text (.satisfying tag inner predicate),
        .predicate predicate.predicateText⟩
    pure (if verdict.truthy then .success x stop else .failure entry stop)
  | .skip _ items, env, l, pos => do
    let stop ← Reading.repeatFrom (meaningSkipped scene items env l.parts) scene.rounds pos
    pure (.success .none stop)
  | .host _ s, env, _, pos => do
    let v ← scene.snippet env s
    pure (.success v pos)
  | .operators tag atom levels, env, l, pos =>
    let params := (Expr.operators tag atom levels).freeLocals
    let inner := (l.part 0).part 0
    meaningLevels scene levels params env l.parts.tail
      (fun p => (l.part 0).read scene params p
        (inner.read scene atom.freeLocals p (atom.meaning scene env inner p)))
      pos

/-- The meaning of items one after the other, as the list of their values. Fields get names. -/
def meaningItems (scene : Scene) :
    List Expr → List String → Env → List Layout → Nat → Reading (Verdict (List Value))
  | [], _, _, _, pos => pure (.success [] pos)
  | e :: es, fields, env, ls, pos =>
    let l := ls.headD .blank
    Reading.andThen (l.read scene e.freeLocals pos (e.meaning scene env l pos)) fun v between =>
    let env := (fields.take 1).map (·, v) ++ env
    Reading.andThen (meaningItems scene es (fields.drop 1) env ls.tail between) fun vs stop =>
    pure (.success (v :: vs) stop)

/-- The meaning of alternatives at one place; `far?` is the farthest failure so far. Behind one that
always succeeds there are no others. -/
def meaningAlternatives (scene : Scene) :
    List Expr → Env → List Layout → Nat → Option (FailureEntry × Nat) → Reading (Verdict Value)
  | [], _, _, _, far? => do
    let (entry, place) ← Reading.found far?
    pure (.failure entry place)
  | e :: es, env, ls, pos, far? => do
    let l := ls.headD .blank
    match ← l.read scene e.freeLocals pos (e.meaning scene env l pos) with
    | .success v stop => pure (.success v stop)
    | .failure entry place =>
      if e.alwaysSucceeds then pure (.failure entry place)
      else meaningAlternatives scene es env ls.tail pos (Scene.farther e.isFail entry place far?)

/-- A round of skipping: the place behind the first part that reads anything, or the place where
none does. -/
def meaningSkipped (scene : Scene) :
    List Expr → Env → List Layout → Nat → Reading (Nat ⊕ Nat)
  | [], _, _, pos => pure (.inr pos)
  | e :: es, env, ls, pos => do
    let l := ls.headD .blank
    match ← l.read scene e.freeLocals pos (e.meaning scene env l pos) with
    | .success _ stop =>
      if stop = pos then meaningSkipped scene es env ls.tail pos else pure (.inl stop)
    | .failure _ _ => meaningSkipped scene es env ls.tail pos

/-- The values of arguments: locals and host code as they are, and anything else as a parser closed
over its locals. -/
def meaningArgs (scene : Scene) :
    List (Option String × Expr) → Env → List Layout → Reading (List Value)
  | [], _, _ => pure []
  | (_, e) :: rest, env, ls => do
    let v ← scene.argument env (ls.headD .blank) e
    let vs ← meaningArgs scene rest env ls.tail
    pure (v :: vs)

/-- The meaning of levels, each over the one below it. -/
def meaningLevels (scene : Scene) :
    List (Fixity × Expr) → List String → Env → List Layout →
      (Nat → Reading (Verdict Value)) → Nat → Reading (Verdict Value)
  | [], _, _, _, operand, pos => operand pos
  | (fixity, operator) :: rest, params, env, ls, operand, pos =>
    let l := ls.headD .blank
    let inner := l.part 0
    meaningLevels scene rest params env ls.tail
      (fun p => l.read scene params p
        (scene.levelOf fixity
          (fun q => inner.read scene operator.freeLocals q (operator.meaning scene env inner q))
          operand p))
      pos

end

/-- What calls come to: a function of a program, called with arguments at a place. -/
def World.run (w : World) : Nat → Nat → List Value → Nat → Reading (Verdict Value)
  | 0, _, _, _ => Reading.exhausted
  | rounds + 1, f, args, pos => do
    let c ← Reading.found (w.naming.closure? f)
    if args.length == c.params.length then
      let call := fun g xs p => Reading.remembered (List.isEmpty xs && w.memoize) g p (w.run rounds g xs p)
      let scene : Scene := { w with rule := c.rule, call, rounds }
      c.layout.read scene c.body.freeLocals pos
        (c.body.meaning scene (Host.bindAll c.params args []) c.layout pos)
    else throw (.host (.arity c.name c.params.length args.length))

/-! ### Parts -/

/-- The reading of an expression under its layout. -/
abbrev Expr.reads (e : Expr) (scene : Scene) (env : Env) (l : Layout) (pos : Nat) :
    Reading (Verdict Value) :=
  l.read scene e.freeLocals pos (e.meaning scene env l pos)

omit [Regex.Engine] in
theorem Scene.skipping_false (scene : Scene) (v : Verdict Value) :
    scene.skipping false v = pure v := by
  cases v <;> rfl

/-- A literal in its own case, with nothing skipped behind it, reads its own bytes. -/
theorem Expr.reads_literal {scene : Scene} (plain : scene.memoize = false) (tag : Tag)
    (value : List UInt8) (binary : Bool) (env : Env) (l : Layout) (pos : Nat) :
    (Expr.str tag value ⟨false, binary, false⟩).reads scene env l pos =
      pure (scene.matched ⟨scene.rule, Expr.text (.str tag value ⟨false, binary, false⟩),
          .literal (String.ofList (Expr.literalChars value binary))⟩ pos
        (if bytesAt scene.bytes pos value then some (pos + value.length) else none)) := by
  simp only [reads, Layout.read_plain plain, Expr.meaning, Bool.false_eq_true, if_false, pure_bind,
    Scene.skipping_false]

end Packrat
