import Packrat.Regex.Engine
import Packrat.Regex.Reader

/-
**Programs of patterns.**

A pattern becomes an automaton: an array of states, each of which reads something, tests the
place, or forks.  States are laid out from the end of the pattern to its beginning, so that what
comes behind a part is known when the part is laid out; only loops reserve a state before they
know what it does.

Main definitions:

* `Packrat.Regex.State` — states;
* `Packrat.Regex.Layout`, `Packrat.Regex.Pattern.layOut` — the automaton of a pattern;
* `Packrat.Regex.Automaton` — automata, with `Packrat.Regex.Automaton.ofPattern` and
  `Packrat.Regex.Automaton.ofText`.
-/

set_option autoImplicit false

namespace Packrat.Regex

/-- A state of an automaton. -/
inductive State where
  /-- Reads a byte of the set. -/
  | byte (set : CharSet) (after : Nat)
  /-- Reads a character of the set. -/
  | char (set : CharSet) (after : Nat)
  | look (l : Look) (after : Nat)
  /-- Goes on at either of two states; the first is preferred. -/
  | fork (first second : Nat)
  | accept
deriving Repr

/-- What lays out states. -/
abbrev Layout := StateM (Array State)

/-- A new state; its number. -/
def place (s : State) : Layout Nat := do
  let states ← get
  set (states.push s)
  pure states.size

/-- A fork that prefers going around, or else going on. -/
def forkTo (greedy : Bool) (around on : Nat) : State :=
  if greedy then .fork around on else .fork on around

/-- A part laid out several times, each before the one laid out last. -/
def copies (part : Nat → Layout Nat) : Nat → Nat → Layout Nat
  | 0, after => pure after
  | count + 1, after => do
    let entry ← part after
    copies part count entry

/-- A part laid out several times, each of which may be left out together with all behind it. -/
def optionalCopies (greedy : Bool) (part : Nat → Layout Nat) (exit : Nat) :
    Nat → Nat → Layout Nat
  | 0, after => pure after
  | count + 1, after => do
    let entry ← part after
    let fork ← place (forkTo greedy entry exit)
    optionalCopies greedy part exit count fork

/-- A part that may be gone through again; where the part begins, and where the decision to go
through it again is made. -/
def loop (greedy : Bool) (part : Nat → Layout Nat) (exit : Nat) : Layout (Nat × Nat) := do
  -- The part goes on at the fork, which is filled in once the part is laid out.
  let fork ← place .accept
  let entry ← part fork
  modify fun states => states.setIfInBounds fork (forkTo greedy entry exit)
  pure (entry, fork)

/-- A repetition of a part. A part that may read nothing is gone through once before it is decided
whether to go through it again, so that reading nothing ends the loop. -/
def repeated (greedy nullable : Bool) (part : Nat → Layout Nat) (least : Nat) (most? : Option Nat)
    (exit : Nat) : Layout Nat :=
  match least, most? with
  | 0, none => do
    let (entry, fork) ← loop greedy part exit
    if nullable then place (forkTo greedy entry exit) else pure fork
  | least + 1, none => do
    let (entry, _) ← loop greedy part exit
    copies part least entry
  | least, some most => do
    let entry ← optionalCopies greedy part exit (most - least) exit
    copies part least entry

/-- The states of a pattern that goes on at `after`; where it begins. -/
def Pattern.layOut : Pattern → Nat → Layout Nat
  | .empty, after => pure after
  | .byte set, after => place (.byte set after)
  | .char set, after => place (.char set after)
  | .look l, after => place (.look l after)
  | .seq p q, after => do
    let second ← q.layOut after
    p.layOut second
  | .alt p q, after => do
    let first ← p.layOut after
    let second ← q.layOut after
    place (.fork first second)
  | .rep p least most? greedy, after =>
    repeated greedy p.isNullable p.layOut least most? after

/-- The greatest weight of a pattern whose automaton is built. -/
def maxWeight : Nat := 327680

/-- The automaton of a pattern. -/
structure Automaton where
  states : Array State
  start : Nat
  /-- Whether it may accept without reading anything. -/
  nullable : Bool

/-- The automaton of a pattern. -/
def Automaton.ofPattern (p : Pattern) : Automaton :=
  let (start, states) := (p.layOut 0).run #[.accept]
  ⟨states, start, p.isNullable⟩

/-- The automaton of a pattern written as text. -/
def Automaton.ofText (text : String) (ignoreCase binary : Bool) : Except Refusal Automaton :=
  match Pattern.parse? text ignoreCase binary with
  | some p => if maxWeight < p.weight then .error .tooLarge else .ok (.ofPattern p)
  | none => .error .malformed

end Packrat.Regex
