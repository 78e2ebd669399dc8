import Packrat.Failure
import Packrat.Host.Reader
import Packrat.Text.Blank

/-
**Host code as it stands in a grammar.**

A text that is not well formed is refused as a whole; otherwise the first integer literal that
does not fit is.

Main definitions:

* `Packrat.Host.Term.parse` — the term of a snippet;
* `Packrat.Host.parseSection` — the assignments of a host section.
-/

set_option autoImplicit false

namespace Packrat.Host

/-- A reading, unless it met a literal that does not fit. -/
def fitting {α : Type} : α × Option Scan.Misfit → Except GrammarError α
  | (x, none) => .ok x
  | (_, some misfit) => .error (.integerRange misfit.text)

/-- The term of a snippet. -/
def Term.parse (text : String) : Except GrammarError Term :=
  match Term.read? text with
  | some reading => fitting reading
  | none => .error (.hostExpression (Text.trim text))

/-- The assignments of a host section. -/
def parseSection (text : String) : Except GrammarError (List Assignment) :=
  match readSection? text with
  | some reading => fitting reading
  | none => .error .hostSection

end Packrat.Host
