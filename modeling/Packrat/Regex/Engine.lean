/-
**Engines of patterns.**

What a pattern matches is decided by an engine: it turns the text of a pattern into something that
can be asked where the match that begins at a place ends, or refuses it.  Programs and the machine
that runs them take whatever engine there is, and rest on no more than the bounds of a match.

Main definitions:

* `Packrat.Regex` — compiled patterns;
* `Packrat.Regex.Refusal` — why a text is not compiled;
* `Packrat.Regex.Engine` — what compiles patterns.

Main results:

* `Packrat.Regex.matchEnd?_bounds` — a match ends behind its beginning, inside of the input.
-/

set_option autoImplicit false

namespace Packrat

/-- A compiled pattern. -/
structure Regex where
  /-- Where the match that begins at an offset of the input ends, if there is one. -/
  matchEnd? : ByteArray → Nat → Option Nat
  le_of_matchEnd? : ∀ {bytes : ByteArray} {start stop : Nat},
    matchEnd? bytes start = some stop → start ≤ stop
  matchEnd?_le_size : ∀ {bytes : ByteArray} {start stop : Nat},
    matchEnd? bytes start = some stop → start ≤ bytes.size → stop ≤ bytes.size

namespace Regex

theorem matchEnd?_bounds {r : Regex} {bytes : ByteArray} {start stop : Nat}
    (h : r.matchEnd? bytes start = some stop) (inside : start ≤ bytes.size) :
    start ≤ stop ∧ stop ≤ bytes.size :=
  ⟨r.le_of_matchEnd? h, r.matchEnd?_le_size h inside⟩

/-- Why a text is not compiled. -/
inductive Refusal where
  /-- The text is no pattern. -/
  | malformed
  /-- The compiled pattern would take too much room. -/
  | tooLarge
deriving DecidableEq, Repr

/-- What compiles the text of a pattern, whose letters may match those of the other case, and which
may stand for bytes instead of characters. -/
class Engine where
  compile (text : String) (ignoreCase binary : Bool) : Except Refusal Regex

export Engine (compile)

end Regex

end Packrat
