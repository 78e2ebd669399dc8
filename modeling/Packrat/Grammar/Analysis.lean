import Packrat.Grammar.Ignored
import Packrat.Grammar.Names
import Packrat.Grammar.Numbering
import Packrat.Grammar.Resolve
import Packrat.Grammar.Scope

/-
**Analysis of a grammar.**

Main definitions:

* `Packrat.Grammar.analyze` — names are checked, skipping is woven in, expressions are numbered,
  and names find first their locals and then their rules.

Main results:

* `Packrat.Grammar.checkNames_of_analyze` — the names of an analyzed grammar were in order.
-/

set_option autoImplicit false

namespace Packrat

/-- A grammar ready to be compiled; `natives` are the names of registered functions. -/
def Grammar.analyze (natives : List String) (g : Grammar) : Except Failure Grammar := do
  g.checkNames
  let g ← g.weaveIgnored.numbered.scoped natives
  g.resolved

theorem Grammar.checkNames_of_analyze {natives : List String} {g out : Grammar}
    (h : g.analyze natives = .ok out) : g.checkNames = .ok () := by
  simp only [Grammar.analyze, bind, Except.bind] at h
  split at h
  · simp at h
  · assumption

end Packrat
