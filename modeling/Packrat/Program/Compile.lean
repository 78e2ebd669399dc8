import Packrat.Expr.Facts
import Packrat.Expr.Text
import Packrat.Program.Operators

/-
**Compilation of grammars.**

The code of an expression leaves its value in the result on success, with the position behind
what was read; on failure it leaves the mark of a failure, with the position where that happened,
so that a choice around it can keep the farthest one.  An expression that needs more nested
blocks than its function has left gets a function of its own, whose parameters are the locals it
reads.

Main definitions:

* `Packrat.Expr.emit` — the code of an expression;
* `Packrat.Emit.within` — the code of an expression inside of another;
* `Packrat.Grammar.compile` — the program of an analyzed grammar.

Main results:

* `Packrat.Emit.within_fits` — an expression within the budget is written in place.
-/

set_option autoImplicit false

namespace Packrat

/-- Characters that mean something in a pattern. -/
def isPatternChar (c : Char) : Bool := "\\.+*?()|[]\x7b\x7d^$#&-~".toList.contains c

/-- A character as a pattern that matches it. -/
def escapeChar (c : Char) : List Char := if isPatternChar c then ['\\', c] else [c]

/-- A byte as a pattern that matches it. -/
def escapeByte (b : UInt8) : List Char :=
  if b < 128 then escapeChar (Char.ofNat b.toNat)
  else '\\' :: 'x' :: (Text.hexDigits 2 b.toNat).map Char.toUpper

/-- The pattern that matches exactly a literal. -/
def literalPattern (value : List UInt8) (binary : Bool) : String :=
  String.ofList
    (if binary then value.flatMap escapeByte
      else (Text.Utf8.decode value).flatMap escapeChar)

/-- The text of a predicate in the message of its failure. -/
def Expr.predicateText : Expr → String
  | .host _ snippet => Text.trim snippet.source
  | e => e.text

namespace Emit

/-- The slots of the locals that an expression reads. -/
def captures (e : Expr) : Emit (List Nat) := lookupAll e.freeLocals

/-- The code of an expression as a new function. -/
def ownFunction (e : Expr) (code : Emit Unit) : Emit Nat :=
  Build.defineNew s!"_parse_function_{e.id}" e.freeLocals code

/-- The code of an expression as a call of a new function. -/
def outline (e : Expr) (code : Emit Unit) : Emit Unit := do
  let args ← captures e
  let f ← ownFunction e code
  emit (.call (.function f) args)

/-- The code of an expression inside of a function: in place if the blocks it opens are left. -/
def within (e : Expr) (code : Emit Unit) : Emit Unit := do
  let d ← get
  if d.blocksLeft < e.numBlocks then outline e code else code

theorem within_fits {e : Expr} {code : Emit Unit} {d : Draft} (h : e.numBlocks ≤ d.blocksLeft) :
    (within e code).run d = code.run d := by
  have : ¬ d.blocksLeft < e.numBlocks := by omega
  simp [within, this]

/-- Passes over ignored content behind a match. -/
def skipIgnored : Emit Unit := do
  let f ← Build.ruleFunction (ruleFunction ignoredRule)
  ifThen .status do
    let matched ← storeResult
    emit (.call (.function f) [])
    succeedWith (.slot matched)

/-- Evaluates host code with the locals it captures. -/
def snippet (s : Snippet) : Emit Unit := do
  let slots ← lookupAll s.locals
  let host ← Build.host s
  emit (.eval host slots)

/-- A bound of a repetition. Host code is evaluated once, before the first item. -/
def limit? : Option Bound → Emit (Option Limit)
  | none => pure none
  | some (.const n) => pure (some (.const n))
  | some (.host s) => do
    snippet s
    let v ← storeResult
    pure (some (.slot v))

/-- The function that a call of a rule means. -/
def boundFunction (name : String) : Binding → Build Nat
  | .rule function => Build.ruleFunction function
  | .unresolved | .local => fault (.unresolved name)

/-- What a reference calls. -/
def callee (name : String) : Binding → Emit Callee
  | .local => do
    let v ← lookup name
    pure (.slot v)
  | .rule function => do
    let f ← Build.ruleFunction function
    pure (.function f)
  | .unresolved => fault (.unresolved name)

/-- Makes a parser value. -/
def parser (f : Nat) (captures : List Nat) : Emit Nat := do
  emit (.makeParser f captures)
  storeResult

/-- The slot of an argument: a local as it is, host code evaluated, and anything else as a parser
value. `code` is the code of the argument. -/
def argument (e : Expr) (code : Emit Unit) : Emit Nat :=
  match e with
  | .ref _ name .local => lookup name
  | .ref _ _ (.rule function) => do
    let f ← Build.ruleFunction function
    parser f []
  | .host _ s => do
    snippet s
    storeResult
  | e => do
    let slots ← captures e
    let f ← ownFunction e code
    parser f slots

/-- Items as often as they succeed, below a bound; `staging` holds their values, and `err` and
`errPos` the failure that ended them. -/
def repetition (item : Emit Unit) (staging err errPos : Nat) (most? : Option Limit) :
    Emit Unit :=
  loop fun _ exit => do
    match most? with
    | some most => emit (.branch (.lenGe staging most) exit)
    | none => pure ()
    let back ← checkpoint
    item
    ifThen .notStatus do
      emit (.store err .result)
      emit (.store errPos .position)
      emit (.restore back)
      emit (.jump exit)
    emit (.push staging .result)
    -- An item that reads nothing would succeed forever.
    emit (.branch (.posEq back) exit)

/-- A repetition, given its text. Too few items are a failure at the place of the last one. -/
def listOf (text : String) (item : Emit Unit) (least most : Option Bound) : Emit Unit := do
  let staging ← slot
  emit (.newList staging)
  -- Until an item has failed, too few of them are the failure of the repetition itself.
  let unexpected ← Build.failure text .unexpected
  let err ← slot
  emit (.store err (.const (.failure unexpected)))
  let errPos ← checkpoint
  let least? ← limit? least
  let most? ← limit? most
  repetition item staging err errPos most?
  match least? with
  | some least =>
    ifElse (.lenLt staging least)
      (do
        emit (.restore errPos)
        emit (.load (.slot err))
        emit (.setStatus false))
      (succeedWith (.slot staging))
  | none => succeedWith (.slot staging)

/-- Separators and items as often as both succeed. With a trailer, a separator without an item
behind it is kept. -/
def separated (item separator : Emit Unit) (flags : SepFlags) (staging : Nat) : Emit Unit :=
  loop fun _ exit => do
    let back ← checkpoint
    separator
    retreatOnFailure back exit
    if flags.discardSeparators then pure () else emit (.push staging .result)
    -- A trailer is not given back: the list goes on behind it or ends there.
    if flags.allowTrailer then emit (.store back .position) else pure ()
    item
    ifThen .notStatus do
      if !flags.discardSeparators && !flags.allowTrailer then emit (.pop staging) else pure ()
      emit (.restore back)
      emit (.jump exit)
    emit (.push staging .result)
    emit (.branch (.posEq back) exit)

/-- A list of items with separators between them. -/
def sepOf (item separator : Emit Unit) (flags : SepFlags) : Emit Unit := do
  let staging ← slot
  emit (.newList staging)
  block fun out => do
    let start ← checkpoint
    item
    ifThen .notStatus do
      if flags.allowEmpty then do
        emit (.restore start)
        let empty ← Build.emptyList
        succeedWith (.const empty)
      else pure ()
      emit (.jump out)
    emit (.push staging .result)
    separated item separator flags staging
    succeedWith (.slot staging)

/-- Two parts of which both must succeed; the slots of their results. -/
def both (left right : Emit Unit) (exit : Nat) : Emit (Nat × Nat) := do
  left
  leaveOnFailure exit
  let a ← storeResult
  right
  leaveOnFailure exit
  let b ← storeResult
  pure (a, b)

/-- Both of two parts, keeping the result of one. -/
def keepOne (left right : Emit Unit) (discardLeft : Bool) : Emit Unit :=
  block fun exit => do
    left
    leaveOnFailure exit
    if discardLeft then right
    else do
      let kept ← storeResult
      right
      leaveOnFailure exit
      emit (.load (.slot kept))

/-- A part whose failure is none. -/
def optional (inner : Emit Unit) : Emit Unit := do
  let back ← checkpoint
  block fun _ => inner
  ifThen .notStatus do
    emit (.restore back)
    succeedWith (.const .none)

/-- A part that reads nothing. -/
def peek (inner : Emit Unit) : Emit Unit := do
  let back ← checkpoint
  block fun _ => inner
  emit (.restore back)

/-- A part that must fail. -/
def never (text innerText : String) (inner : Emit Unit) : Emit Unit := do
  peek inner
  let entry ← Build.failure text (.notExpected innerText)
  ifElse .status (emit (.fail entry)) (succeedWith (.const .none))

/-- An alternative that failed: the farthest failure is kept, the last of several at one place. A
bare failure only takes over at a later place. -/
def keepFarthest (isFail : Bool) (farPos farErr : Nat) : Emit Unit :=
  ifThen (if isFail then .posGt farPos else .posGe farPos) do
    emit (.store farPos .position)
    emit (.store farErr .result)

/-- A part of a skipping expression: it is tried again from the first part on if it read
anything, and left behind otherwise. -/
def skipPart (top : Nat) (part : Emit Unit) : Emit Unit := do
  let back ← checkpoint
  part
  ifElse .status (emit (.branch (.posNe back) top)) (emit (.restore back))

end Emit

variable [Regex.Engine]

open Emit in
mutual

/-- The code of an expression. -/
def Expr.emit : Expr → Emit Unit
  | .str tag value flags => do
    let chars := String.ofList (Expr.literalChars value flags.binary)
    let entry ← Build.failure (Expr.text (.str tag value flags)) (.literal chars)
    if flags.ignoreCase then do
      let regex ← Build.regex (literalPattern value flags.binary) true flags.binary
      Emit.emit (.matchRegex regex entry)
    else do
      let literal ← Build.literal value
      Emit.emit (.matchLiteral literal entry)
    if flags.skip then skipIgnored else pure ()
  | .regex tag pattern flags => do
    let regex ← Build.regex pattern flags.ignoreCase flags.binary
    let entry ← Build.failure (Expr.text (.regex tag pattern flags)) (.regex pattern)
    Emit.emit (.matchRegex regex entry)
    if flags.skip then skipIgnored else pure ()
  | .ref _ name binding => do
    let callee ← callee name binding
    Emit.emit (.call callee [])
  | .call _ name args binding => do
    let f ← boundFunction name binding
    let slots ← emitArgs args
    Emit.emit (.call (.function f) slots)
  | .seq _ items none =>
    block fun exit => do
      let slots ← inScope (emitItems exit [] items)
      Emit.emit (.makeList slots)
      Emit.emit (.setStatus true)
  | .seq _ items (some c) => do
    let cls ← Build.cls c
    block fun exit => do
      let start ← checkpoint
      let slots ← inScope (emitItems exit c.fields items)
      Emit.emit (.makeNode cls slots start)
      Emit.emit (.setStatus true)
  | .choice _ [only] => within only only.emit
  | .choice _ alternatives => do
    let back ← checkpoint
    -- Every place is farther than this one, so the first failure is always kept.
    let farPos ← slot
    Emit.emit (.store farPos (.const (.int (-1))))
    let farErr ← slot
    Emit.emit (.store farErr (.const .none))
    block fun exit => emitAlternatives back farPos farErr exit true alternatives
  | .list tag item least most =>
    listOf (Expr.text (.list tag item least most)) (within item item.emit) least most
  | .sep _ item separator flags =>
    sepOf (within item item.emit) (within separator separator.emit) flags
  | .opt _ inner => Emit.optional (within inner inner.emit)
  | .apply _ left right applyLeft =>
    block fun exit => do
      let (a, b) ← both (within left left.emit) (within right right.emit) exit
      Emit.emit (if applyLeft then .apply a b else .apply b a)
  | .discard _ left right discardLeft =>
    keepOne (within left left.emit) (within right right.emit) discardLeft
  | .expect _ inner => peek (within inner inner.emit)
  | .expectNot tag inner =>
    never (Expr.text (.expectNot tag inner)) inner.text (within inner inner.emit)
  | .fail tag message? => do
    let entry ← Build.failure (Expr.text (.fail tag message?)) (.custom (message?.getD "Failed"))
    Emit.emit (.fail entry)
  | .bound _ name value body =>
    block fun exit => do
      within value value.emit
      leaveOnFailure exit
      let v ← storeResult
      inScope do
        bindName name v
        within body body.emit
  | .satisfying tag inner predicate => do
    let entry ← Build.failure (Expr.text (.satisfying tag inner predicate))
      (.predicate predicate.predicateText)
    block fun exit => do
      let (arg, func) ← both (within inner inner.emit) (within predicate predicate.emit) exit
      Emit.emit (.test func arg entry)
  | .skip _ items => do
    loop fun top exit => do
      emitSkipped top items
      Emit.emit (.jump exit)
    succeedWith (.const .none)
  | .host _ s => snippet s
  | .operators tag atom levels => do
    let e := Expr.operators tag atom levels
    let params := e.freeLocals
    let args ← lookupAll params
    let f ← Build.defineNew s!"_operator_atom_{tag.id}" params (within atom atom.emit)
    let f ← emitLevels tag.id params f 0 levels
    Emit.emit (.call (.function f) args)

/-- Items one after the other; the slots of their results. Fields are brought into scope. -/
def emitItems (exit : Nat) (fields : List String) : List Expr → Emit (List Nat)
  | [] => pure []
  | e :: es => do
    within e e.emit
    leaveOnFailure exit
    let v ← storeResult
    match fields.head? with
    | some name => bindName name v
    | none => pure ()
    let vs ← emitItems exit (fields.drop 1) es
    pure (v :: vs)

/-- Alternatives in order. Behind one that always succeeds there are no others. -/
def emitAlternatives (back farPos farErr exit : Nat) (isFirst : Bool) : List Expr → Emit Unit
  | [] => do
    Emit.emit (.restore farPos)
    Emit.emit (.load (.slot farErr))
    Emit.emit (.setStatus false)
  | e :: es => do
    if isFirst then pure () else Emit.emit (.restore back)
    within e e.emit
    if e.alwaysSucceeds then Emit.emit (.jump exit)
    else do
      Emit.emit (.branch .status exit)
      keepFarthest e.isFail farPos farErr
      emitAlternatives back farPos farErr exit false es

/-- The parts of a skipping expression. -/
def emitSkipped (top : Nat) : List Expr → Emit Unit
  | [] => pure ()
  | e :: es => do
    skipPart top (within e e.emit)
    emitSkipped top es

/-- The slots of arguments. -/
def emitArgs : List (Option String × Expr) → Emit (List Nat)
  | [] => pure []
  | (_, e) :: rest => do
    let v ← argument e e.emit
    let vs ← emitArgs rest
    pure (v :: vs)

/-- The functions of levels, each over the one below it; the topmost of them. -/
def emitLevels (id : Nat) (params : List String) (below index : Nat) :
    List (Fixity × Expr) → Build Nat
  | [] => pure below
  | (fixity, operator) :: rest => do
    let f ← Build.defineNew s!"_operator_level_{id}_{index}" params
      (level fixity (within operator operator.emit) below params.length)
    emitLevels id params f (index + 1) rest

end

/-! ### Programs -/

/-- Reserves the function of a definition, and the class if it is one. -/
def Definition.reserve (d : Definition) : Build RuleEntry := do
  let f ← Build.reserve
  modify fun p => { p with ruleFunctions := (ruleFunction d.name, f) :: p.ruleFunctions }
  match d.fields with
  | some fields => discard (Build.cls ⟨d.name, fields⟩)
  | none => pure ()
  pure ⟨d.name, f, d.params, d.source, d.isClass, d.ignored, d.synthetic⟩

/-- Writes the function of a definition. -/
def Definition.emit (d : Definition) (function : Nat) : Build Unit := do
  modify fun p => { p with rule := d.name }
  Build.define function (ruleFunction d.name) d.paramList (Emit.within d.body d.body.emit)

/-- Functions that have all been written. -/
def written : Nat → List (Option Function) → Except Failure (List Function)
  | _, [] => .ok []
  | n, none :: _ => fault (.missingFunction n)
  | n, some f :: rest => do
    let fs ← written (n + 1) rest
    pure (f :: fs)

/-- A program before its first function: the failure of rules that begin with themselves. -/
def Pools.initial (maxBlocks identity : Nat) : Pools :=
  ⟨maxBlocks, #[], #[], #[], #[], #[], #[⟨"", "", .leftRecursion⟩], [], "", identity⟩

/-- The rules of a grammar, once all of their functions have been written. -/
def Grammar.emit (g : Grammar) : Build (List RuleEntry) := do
  -- All functions have numbers before the first is written, so rules may call each other.
  let rules ← g.definitions.mapM Definition.reserve
  (g.definitions.zip rules).forM fun (d, rule) => d.emit rule.function
  pure rules

/-- The program of an analyzed grammar. The state is the next identity of a shared value. -/
def Grammar.compile (maxBlocks : Nat) (g : Grammar) : StateT Nat (Except Failure) Program := do
  let identity ← get
  let (rules, pools) ← g.emit.run (.initial maxBlocks identity)
  let functions ← written 0 pools.functions.toList
  set pools.identity
  pure ⟨functions.toArray, pools.literals, pools.regexes, pools.hosts, pools.classes,
    pools.failures, rules, g.sections⟩

end Packrat
