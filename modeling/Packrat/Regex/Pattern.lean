import Packrat.Regex.CharSet

/-
**Patterns.**

A regular expression whose switches and groups have been resolved.

Main definitions:

* `Packrat.Regex.Look` — conditions on a place in the input;
* `Packrat.Regex.Pattern` — patterns;
* `Packrat.Regex.Pattern.isNullable` — whether a pattern may match without reading anything;
* `Packrat.Regex.Pattern.weight` — how large its program is.
-/

set_option autoImplicit false

namespace Packrat.Regex

/-- How a place lies to the words around it. -/
inductive WordPlace where
  | edge
  | notEdge
  | start
  | stop
  | startHalf
  | stopHalf
deriving DecidableEq, Repr

/-- A condition on a place in the input. -/
inductive Look where
  | start
  | stop
  /-- Lines end with a line feed, or else with a carriage return, a line feed, or both. -/
  | lineStart (crlf : Bool)
  | lineStop (crlf : Bool)
  /-- Words are those of the Unicode standard or of ASCII. -/
  | word (place : WordPlace) (unicode : Bool)
deriving DecidableEq, Repr

inductive Pattern where
  | empty
  /-- One byte. -/
  | byte (set : CharSet)
  /-- One character in UTF-8. -/
  | char (set : CharSet)
  | look (l : Look)
  | seq (first second : Pattern)
  /-- The first is preferred. -/
  | alt (first second : Pattern)
  /-- A greedy repetition prefers more rounds. -/
  | rep (inner : Pattern) (least : Nat) (most? : Option Nat) (greedy : Bool)
deriving Repr

namespace Pattern

/-- Whether a pattern may match without reading anything. -/
def isNullable : Pattern → Bool
  | .empty | .look _ => true
  | .byte _ | .char _ => false
  | .seq p q => p.isNullable && q.isNullable
  | .alt p q => p.isNullable || q.isNullable
  | .rep p least most? _ => least == 0 || most? == some 0 || p.isNullable

/-- How many steps the program of a pattern has, about. -/
def weight : Pattern → Nat
  | .empty => 0
  | .byte _ | .char _ | .look _ => 1
  | .seq p q => p.weight + q.weight
  | .alt p q => p.weight + q.weight + 1
  | .rep p least none _ => (max 1 least) * p.weight + 2
  | .rep p least (some most) _ => most * p.weight + (most - least)

end Pattern

end Packrat.Regex
