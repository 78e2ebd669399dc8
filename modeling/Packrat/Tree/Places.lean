import Packrat.Input.Lines
import Packrat.Tree.Transform

/-
**Places of nodes.**

While a parse is under way nodes only know the offsets between which they were parsed.  Lines and
columns are filled in when it has succeeded.

Main definitions:

* `Packrat.Value.resolvePlaces` — a tree with the lines and columns of its nodes.
-/

set_option autoImplicit false

namespace Packrat.Value

/-- A node with the lines and columns of its place, unless they are known. -/
def resolvePlace (table : LineTable) (input : Input) : Value → StateM Nat Value
  | .node id cls values (some extent) =>
    if extent.start.line == 0 then do
      let id ← fresh
      let start := table.position input extent.start.index
      let stop := table.position input extent.stop.index
      pure (.node id cls values (some ⟨start, stop⟩))
    else pure (.node id cls values (some extent))
  | v => pure v

/-- A tree with the lines and columns of its nodes. -/
def resolvePlaces (table : LineTable) (input : Input) (v : Value) : StateM Nat Value :=
  v.transform (m := Id) (resolvePlace table input)

end Packrat.Value
