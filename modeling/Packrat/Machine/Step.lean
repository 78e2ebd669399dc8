import Packrat.Machine.Frame

/-
**Instructions at work.**

Main definitions:

* `Packrat.Action` — what an instruction asks of the machine;
* `Packrat.Instr.execute` — the work of an instruction in its frame.
-/

set_option autoImplicit false

namespace Packrat

/-- What drawing identities may fail with. -/
abbrev Exec := StateT Nat (Except Failure)

/-- What an instruction asks of the machine. -/
inductive Action where
  /-- To go on in the frame. -/
  | next (frame : Frame)
  /-- To call a function and leave its outcome in the frame. -/
  | call (frame : Frame) (function : Nat) (args : List Value)
  /-- To leave the frame. -/
  | ret (frame : Frame)

/-- Host code within a parse. -/
def Exec.host {α : Type} (e : Host.Eval α) : Exec α := fun n =>
  match e.run n with
  | .ok out => .ok out
  | .error error => .error (.host error)

/-- Whether bytes stand at an offset of others. -/
def bytesAt (bytes : ByteArray) : Nat → List UInt8 → Bool
  | _, [] => true
  | offset, b :: bs => bytes[offset]? == some b && bytesAt bytes (offset + 1) bs

/-- The work of matching up to an offset. -/
def Frame.matched (setting : Setting) (frame : Frame) (entry : Nat) : Option Nat → Frame
  | some stop =>
    frame.succeed (Input.excise setting.isBinary setting.bytes frame.pos stop) stop
  | none => frame.fail entry

/-- Operators around an operand, the first outermost. -/
def foldPrefixes (operand : Value) : List Value → Exec Value
  | [] => pure operand
  | op :: ops => do
    let right ← foldPrefixes operand ops
    Value.newNode .prefixOp [op, right]

/-- Operands with operators between them, folded to the right. -/
def foldSpine : List Value → Exec Value
  | [] => fault .emptyChain
  | [last] => pure last
  | [_, _] => fault .emptyChain
  | left :: op :: rest => do
    let right ← foldSpine rest
    Value.newNode .infixOp [left, op, right]

/-- The environment of a snippet: its captures before the globals. -/
def Setting.scope (setting : Setting) (names : List String) (values : List Value) : Env :=
  Host.bindAll names values setting.globals

/-- A call of what a slot holds: a parser with its captures before the arguments, or a value that
is the result at once. -/
def Frame.callSlot (frame : Frame) (value : Value) (args : List Value) : Action :=
  match value with
  | .parser _ function captures _ => .call frame function (captures ++ args)
  | value => .next (frame.yield value)

/-- The work of an instruction in its frame, which has moved to the next one already. -/
def Instr.execute (setting : Setting) (frame : Frame) : Instr → Exec Action
  | .matchLiteral literal entry => do
    let bytes ← poolEntry "literals" setting.program.literals literal
    let stop? :=
      if bytesAt setting.bytes frame.pos bytes then some (frame.pos + bytes.length) else none
    pure (.next (frame.matched setting entry stop?))
  | .matchRegex regex entry => do
    let e ← poolEntry "patterns" setting.program.regexes regex
    pure (.next (frame.matched setting entry (e.regex.matchEnd? setting.bytes frame.pos)))
  | .setStatus b => pure (.next { frame with status := b })
  | .load value => do
    let result ← frame.read value
    pure (.next { frame with result })
  | .store v value => do
    let x ← frame.read value
    pure (.next (frame.setSlot v x))
  | .restore v => do
    let pos ← frame.savedPosition v
    pure (.next { frame with pos })
  | .fail entry => pure (.next (frame.fail entry))
  | .jump label => do
    let frame ← frame.goto setting label
    pure (.next frame)
  | .branch condition label => do
    if ← frame.holds condition then do
      let frame ← frame.goto setting label
      pure (.next frame)
    else pure (.next frame)
  | .newList v => do
    let list ← Value.newList []
    pure (.next (frame.setSlot v list))
  | .push v value => do
    let x ← frame.read value
    let (id, items) ← frame.listAt v
    pure (.next (frame.setSlot v (.list id (items ++ [x]))))
  | .pop v => do
    let (id, items) ← frame.listAt v
    pure (.next (frame.setSlot v (.list id items.dropLast)))
  | .call (.function f) args => do
    let values ← frame.slotList args
    pure (.call frame f values)
  | .call (.slot v) args => do
    let values ← frame.slotList args
    let value ← frame.slot v
    pure (frame.callSlot value values)
  | .eval host captures => do
    let s ← poolEntry "host snippets" setting.program.hosts host
    let values ← frame.slotList captures
    let result ← Exec.host (s.term.evalIn setting.library (setting.scope s.locals values))
    pure (.next (frame.yield result))
  | .apply func arg => do
    let f ← frame.slot func
    let x ← frame.slot arg
    let result ← Exec.host (Host.callIn setting.library f [x])
    pure (.next (frame.yield result))
  | .test func arg entry => do
    let f ← frame.slot func
    let x ← frame.slot arg
    let verdict ← Exec.host (Host.callIn setting.library f [x])
    pure (.next (if verdict.truthy then frame.yield x else frame.fail entry))
  | .makeList items => do
    let values ← frame.slotList items
    let result ← Value.newList values
    pure (.next { frame with result })
  | .makeNode cls fields start => do
    let c ← poolEntry "classes" setting.program.classes cls
    let values ← frame.slotList fields
    let from_ ← frame.savedPosition start
    let id ← fresh
    let extent : Extent := ⟨.unresolved from_, .unresolved frame.pos⟩
    pure (.next { frame with result := .node id c values (some extent) })
  | .makeInfix left operator => do
    let a ← frame.slot left
    let op ← frame.slot operator
    let result ← Value.newNode .infixOp [a, op, frame.result]
    pure (.next { frame with result })
  | .makePostfix left => do
    let a ← frame.slot left
    let result ← Value.newNode .postfixOp [a, frame.result]
    pure (.next { frame with result })
  | .foldPrefix ops => do
    let (_, items) ← frame.listAt ops
    let result ← foldPrefixes frame.result items
    pure (.next { frame with result })
  | .foldRight spine => do
    let (_, items) ← frame.listAt spine
    let result ← foldSpine items
    pure (.next { frame with result })
  | .makeParser function captures => do
    let f ← poolEntry "functions" setting.program.functions function
    let values ← frame.slotList captures
    let id ← fresh
    pure (.next { frame with result := .parser id function values f.name })
  | .ret => pure (.ret frame)

end Packrat
