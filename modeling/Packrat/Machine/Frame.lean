import Packrat.Host.Eval
import Packrat.Input.Basic
import Packrat.Program.Basic

/-
**Frames.**

A frame is a function of the program at work: its three registers, its slots, and the instruction
it has come to.

Main definitions:

* `Packrat.Setting` — what stays the same during a parse: the program, its globals, the input;
* `Packrat.Frame` — frames, with access to their registers and slots;
* `Packrat.Frame.holds` — whether a condition holds in a frame.
-/

set_option autoImplicit false

namespace Packrat

/-- What stays the same during a parse. -/
structure Setting where
  program : Program
  library : Host.Library
  globals : Env
  bytes : ByteArray
  /-- Whether matches are worth bytes instead of texts. -/
  isBinary : Bool

/-- A function and the place it was called at. -/
abbrev MemoKey := Nat × Nat

/-- A function at work. -/
structure Frame where
  function : Nat
  /-- The number of the next instruction. -/
  pc : Nat
  status : Bool
  result : Value
  pos : Nat
  slots : Array Value
  /-- Where the outcome is kept, if it is. -/
  memoKey? : Option MemoKey

/-- The entry of a pool. -/
def poolEntry {α : Type} (name : String) (pool : Array α) (n : Nat) : Except Failure α :=
  match pool[n]? with
  | some x => .ok x
  | none => fault (.outOfRange name n)

namespace Frame

/-- A function before its first instruction. Arguments take the first slots. -/
def begin (function : Nat) (f : Function) (args : List Value) (pos : Nat)
    (memoKey? : Option MemoKey) : Frame where
  function := function
  pc := 0
  status := false
  result := .none
  pos := pos
  slots := (args ++ List.replicate (f.slots - args.length) Value.none).toArray
  memoKey? := memoKey?

/-- The value in a slot. -/
def slot (frame : Frame) (v : Nat) : Except Failure Value := poolEntry "slots" frame.slots v

/-- The values in slots. -/
def slotList (frame : Frame) : List Nat → Except Failure (List Value)
  | [] => .ok []
  | v :: vs => do
    let x ← frame.slot v
    let xs ← frame.slotList vs
    pure (x :: xs)

/-- The frame with another value in a slot. -/
def setSlot (frame : Frame) (v : Nat) (value : Value) : Frame :=
  { frame with slots := frame.slots.setIfInBounds v value }

/-- The items of the list in a slot, and its identity. -/
def listAt (frame : Frame) (v : Nat) : Except Failure (Nat × List Value) := do
  match ← frame.slot v with
  | .list id items => pure (id, items)
  | _ => fault (.noList v)

/-- The position in a slot. -/
def savedPosition (frame : Frame) (v : Nat) : Except Failure Nat := do
  match ← frame.slot v with
  | .int n => if 0 ≤ n.toInt then pure n.toInt.toNat else fault .noSavedPosition
  | _ => fault .noSavedPosition

/-- The value of an operand. -/
def read (frame : Frame) : Operand → Except Failure Value
  | .result => .ok frame.result
  | .position => .ok (.int (Int64.ofNat frame.pos))
  | .slot v => frame.slot v
  | .const value => .ok value

/-- The frame after a success up to a position. -/
def succeed (frame : Frame) (result : Value) (pos : Nat) : Frame :=
  { frame with status := true, result, pos }

/-- The frame after a success that reads nothing. -/
def yield (frame : Frame) (result : Value) : Frame := { frame with status := true, result }

/-- The frame after a failure. -/
def fail (frame : Frame) (entry : Nat) : Frame :=
  { frame with status := false, result := .failure entry }

/-- The number that a comparison reads from a slot; what is no number counts as minus one. -/
def savedNumber (frame : Frame) (v : Nat) : Except Failure Int := do
  let value ← frame.slot v
  pure (((value.asInt?).map Int64.toInt).getD (-1))

/-- A bound of a repetition; none leaves its side open. -/
def limit? (frame : Frame) : Limit → Except Failure (Option Int)
  | .const n => .ok (some (Int64.ofNat n).toInt)
  | .slot v => do
    match ← frame.slot v with
    | .none => pure none
    | value =>
      match value.asInt? with
      | some n => pure (some n.toInt)
      | none => throw (.host (.boundType value.typeName))

/-- Whether the length of a list compares to a bound as wanted; it does not if the bound is
open. -/
def lengthHolds (frame : Frame) (v : Nat) (limit : Limit) (wanted : Int → Int → Bool) :
    Except Failure Bool := do
  match ← frame.limit? limit with
  | some n => do
    let (_, items) ← frame.listAt v
    pure (wanted items.length n)
  | none => pure false

/-- Whether the position compares to a slot as wanted. -/
def positionHolds (frame : Frame) (v : Nat) (wanted : Int → Int → Bool) : Except Failure Bool := do
  let n ← frame.savedNumber v
  pure (wanted frame.pos n)

/-- Whether a condition holds. -/
def holds (frame : Frame) : Condition → Except Failure Bool
  | .status => .ok frame.status
  | .notStatus => .ok !frame.status
  | .posEq v => frame.positionHolds v fun pos n => pos == n
  | .posNe v => frame.positionHolds v fun pos n => pos != n
  | .posGe v => frame.positionHolds v fun pos n => decide (n ≤ pos)
  | .posGt v => frame.positionHolds v fun pos n => decide (n < pos)
  | .posLt v => frame.positionHolds v fun pos n => decide (pos < n)
  | .posLe v => frame.positionHolds v fun pos n => decide (pos ≤ n)
  | .lenLt v limit => frame.lengthHolds v limit fun length n => decide (length < n)
  | .lenGe v limit => frame.lengthHolds v limit fun length n => decide (n ≤ length)

/-- The frame at a label. -/
def goto (setting : Setting) (frame : Frame) (label : Nat) : Except Failure Frame := do
  let f ← poolEntry "functions" setting.program.functions frame.function
  match f.labels[label]? with
  | some pc => pure { frame with pc }
  | none => fault (.unknownLabel label)

end Frame

end Packrat
