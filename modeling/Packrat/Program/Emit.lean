import Packrat.Options
import Packrat.Program.Basic

/-
**Writing programs.**

Instructions are added to the draft of the function at hand, constants to the pools that all
functions share.  Every test and loop opens a block while its body is written; a function has a
budget of nested blocks.

Main definitions:

* `Packrat.Draft`, `Packrat.Pools`, `Packrat.Emit` — the function being written, the program being
  written, and what adds to both;
* `Packrat.Emit.ifThen`, `Packrat.Emit.ifElse`, `Packrat.Emit.loop`, `Packrat.Emit.block` —
  control flow;
* `Packrat.Emit.define` — a whole function.

Main results:

* `Packrat.Draft.function_labels` — a finished function has all of its labels.
-/

set_option autoImplicit false

namespace Packrat

/-- A function being written. -/
structure Draft where
  name : String
  params : List String
  slots : Nat
  code : Array Instr
  /-- Where each label has been placed. -/
  labels : Array (Option Nat)
  /-- The slots of the names in scope, the innermost first. -/
  scope : List (String × Nat)
  blocksLeft : Nat

/-- A program being written. -/
structure Pools where
  maxBlocks : Nat
  /-- The functions; one that has been reserved may not be written yet. -/
  functions : Array (Option Function)
  literals : Array (List UInt8)
  regexes : Array RegexEntry
  hosts : Array Snippet
  classes : Array NodeClass
  failures : Array FailureEntry
  /-- The functions of the rules, by their names. -/
  ruleFunctions : List (String × Nat)
  /-- The rule whose body is being written. -/
  rule : String
  /-- The next identity of a shared value. -/
  identity : Nat

/-- What adds to the program. -/
abbrev Build := StateT Pools (Except Failure)

/-- What adds to the function at hand and to the program. -/
abbrev Emit := StateT Draft Build

/-! ### Pools -/

namespace Build

/-- The number of an entry that may be in its pool already. -/
def pooled {α : Type} (pool : Pools → Array α) (extend : Pools → Array α → Pools)
    (isEntry : α → Bool) (entry : α) : Build Nat := do
  let p ← get
  match (pool p).findIdx? isEntry with
  | some n => pure n
  | none => do
    set (extend p ((pool p).push entry))
    pure (pool p).size

/-- The number of a literal. -/
def literal (bytes : List UInt8) : Build Nat :=
  pooled (·.literals) (fun p literals => { p with literals }) (· == bytes) bytes

/-- The number of a class, by its name. -/
def cls (c : NodeClass) : Build Nat :=
  pooled (·.classes) (fun p classes => { p with classes }) (·.name == c.name) c

/-- A compiled pattern, or the failure to compile it. -/
def compileRegex [Regex.Engine] (pattern : String) (ignoreCase binary : Bool) :
    Except Failure Regex :=
  match Regex.compile pattern ignoreCase binary with
  | .ok regex => .ok regex
  | .error .malformed => .error (.grammar (.regex pattern) none)
  | .error .tooLarge => .error (.grammar (.regexSize pattern) none)

/-- The number of a pattern. -/
def regex [Regex.Engine] (pattern : String) (ignoreCase binary : Bool) : Build Nat := do
  let p ← get
  let known := p.regexes.findIdx? fun e =>
    e.pattern == pattern && e.ignoreCase == ignoreCase && e.binary == binary
  match known with
  | some n => pure n
  | none => do
    let regex ← compileRegex pattern ignoreCase binary
    set { p with regexes := p.regexes.push ⟨pattern, ignoreCase, binary, regex⟩ }
    pure p.regexes.size

/-- The number of a new snippet. -/
def host (s : Snippet) : Build Nat := do
  let p ← get
  set { p with hosts := p.hosts.push s }
  pure p.hosts.size

/-- The number of a new failure of the rule at hand. -/
def failure (expr : String) (expectation : Expectation) : Build Nat := do
  let p ← get
  set { p with failures := p.failures.push ⟨p.rule, expr, expectation⟩ }
  pure p.failures.size

/-- An empty list that is the same one whenever it is loaded. -/
def emptyList : Build Value := do
  let p ← get
  set { p with identity := p.identity + 1 }
  pure (.list p.identity [])

/-- The number of a function whose body is still to be written. -/
def reserve : Build Nat := do
  let p ← get
  set { p with functions := p.functions.push none }
  pure p.functions.size

/-- The number of a rule's function. -/
def ruleFunction (name : String) : Build Nat := do
  let p ← get
  match p.ruleFunctions.lookup name with
  | some f => pure f
  | none => fault (.unknownRule name)

end Build

/-! ### Functions -/

/-- A function before its first instruction. The function itself takes a block. -/
def Draft.begin (name : String) (params : List String) (maxBlocks : Nat) : Draft where
  name := name
  params := params
  slots := params.length
  code := #[]
  labels := #[]
  scope := params.zipIdx.reverse
  blocksLeft := maxBlocks - 1

/-- The places of labels; each must have one. -/
def placed (function : String) : Nat → List (Option Nat) → Except Failure (List Nat)
  | _, [] => .ok []
  | label, none :: _ => fault (.unplacedLabel label function)
  | label, some place :: rest => do
    let places ← placed function (label + 1) rest
    pure (place :: places)

/-- A finished function. -/
def Draft.function (d : Draft) : Except Failure Function := do
  let labels ← placed d.name 0 d.labels.toList
  pure ⟨d.name, d.params, d.slots, d.code.push .ret, labels.toArray⟩

theorem placed_length {function : String} {label : Nat} {places : List (Option Nat)}
    {out : List Nat} (h : placed function label places = .ok out) :
    out.length = places.length := by
  induction places generalizing label out with
  | nil => simp [placed] at h; simp [h]
  | cons p places ih =>
    cases p with
    | none => simp [placed, fault] at h
    | some place =>
      simp only [placed, bind, Except.bind] at h
      split at h
      · simp at h
      · next rest hr =>
        simp only [pure, Except.pure, Except.ok.injEq] at h
        subst h
        simp [ih hr]

theorem Draft.function_labels {d : Draft} {f : Function} (h : d.function = .ok f) :
    f.labels.size = d.labels.size := by
  simp only [Draft.function, bind, Except.bind] at h
  split at h
  · simp at h
  · next labels hl =>
    simp only [pure, Except.pure, Except.ok.injEq] at h
    subst h
    simpa using placed_length hl

/-- Writes the body of a reserved function. -/
def Build.define (f : Nat) (name : String) (params : List String) (body : Emit Unit) :
    Build Unit := do
  let p ← get
  let (_, draft) ← body.run (Draft.begin name params p.maxBlocks)
  let function ← draft.function
  modify fun p => { p with functions := p.functions.setIfInBounds f (some function) }

/-- Reserves a function and writes its body. -/
def Build.defineNew (name : String) (params : List String) (body : Emit Unit) : Build Nat := do
  let f ← Build.reserve
  Build.define f name params body
  pure f

namespace Emit

/-- Adds an instruction. -/
def emit (i : Instr) : Emit Unit := modify fun d => { d with code := d.code.push i }

/-- A new slot. -/
def slot : Emit Nat := do
  let d ← get
  set { d with slots := d.slots + 1 }
  pure d.slots

/-- A new label. -/
def label : Emit Nat := do
  let d ← get
  set { d with labels := d.labels.push none }
  pure d.labels.size

/-- Places a label before the next instruction. -/
def mark (label : Nat) : Emit Unit :=
  modify fun d => { d with labels := d.labels.setIfInBounds label (some d.code.size) }

/-- The slot that a name stands for. -/
def lookup (name : String) : Emit Nat := do
  let d ← get
  match d.scope.lookup name with
  | some v => pure v
  | none => fault (.unboundLocal name d.name)

/-- The slots that names stand for. -/
def lookupAll : List String → Emit (List Nat)
  | [] => pure []
  | name :: names => do
    let v ← lookup name
    let vs ← lookupAll names
    pure (v :: vs)

/-- Brings a name into scope. -/
def bindName (name : String) (v : Nat) : Emit Unit :=
  modify fun d => { d with scope := (name, v) :: d.scope }

/-- A part whose names go out of scope behind it. -/
def inScope {α : Type} (body : Emit α) : Emit α := do
  let before ← get
  let x ← body
  modify fun d => { d with scope := before.scope }
  pure x

/-! ### Control flow -/

/-- A part inside of a block. -/
def nested {α : Type} (body : Emit α) : Emit α := do
  modify fun d => { d with blocksLeft := d.blocksLeft - 1 }
  let x ← body
  modify fun d => { d with blocksLeft := d.blocksLeft + 1 }
  pure x

/-- A part that runs only under a condition. -/
def ifThen (condition : Condition) (body : Emit Unit) : Emit Unit := do
  let end_ ← label
  emit (.branch condition.negate end_)
  nested body
  mark end_

/-- One of two parts. -/
def ifElse (condition : Condition) (thenPart elsePart : Emit Unit) : Emit Unit := do
  let else_ ← label
  let end_ ← label
  emit (.branch condition.negate else_)
  nested do
    thenPart
    emit (.jump end_)
    mark else_
    elsePart
  mark end_

/-- A part that runs again and again; it leaves by its second label, and begins anew by its
first. -/
def loop (body : Nat → Nat → Emit Unit) : Emit Unit := do
  let top ← label
  let exit ← label
  mark top
  nested (body top exit)
  emit (.jump top)
  mark exit

/-- A part that can be left early by its label. -/
def block (body : Nat → Emit Unit) : Emit Unit := do
  let exit ← label
  nested (body exit)
  mark exit

/-! ### Small parts -/

/-- Keeps the result in a new slot. -/
def storeResult : Emit Nat := do
  let v ← slot
  emit (.store v .result)
  pure v

/-- Keeps the position in a new slot. -/
def checkpoint : Emit Nat := do
  let v ← slot
  emit (.store v .position)
  pure v

/-- Succeeds with a value. -/
def succeedWith (value : Operand) : Emit Unit := do
  emit (.load value)
  emit (.setStatus true)

/-- Leaves for a label after a failure. -/
def leaveOnFailure (exit : Nat) : Emit Unit := emit (.branch .notStatus exit)

/-- Goes back to a position and leaves for a label after a failure. -/
def retreatOnFailure (back exit : Nat) : Emit Unit :=
  ifThen .notStatus do
    emit (.restore back)
    emit (.jump exit)

end Emit

end Packrat
