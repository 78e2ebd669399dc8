import Packrat.Grammar.Basic

/-
**Numbers of expressions.**

Every expression of a grammar gets a number of its own, counted from one in the order in which
expressions are written, an expression before those below it.

Main definitions:

* `Packrat.Expr.numbered` — an expression with its numbers;
* `Packrat.Grammar.numbered` — a grammar with its numbers.

Main results:

* `Packrat.Grammar.numbered_names` — the definitions keep their names.
-/

set_option autoImplicit false

namespace Packrat

/-- The next number. -/
def nextTag (tag : Tag) : StateM Nat Tag := do
  modify (· + 1)
  let id ← get
  pure { tag with id }

mutual

/-- An expression with its numbers; the state is the last number given. -/
def Expr.numbered : Expr → StateM Nat Expr
  | .str tag value flags => do
    let tag ← nextTag tag
    pure (.str tag value flags)
  | .regex tag pattern flags => do
    let tag ← nextTag tag
    pure (.regex tag pattern flags)
  | .ref tag name binding => do
    let tag ← nextTag tag
    pure (.ref tag name binding)
  | .seq tag items cls? => do
    let tag ← nextTag tag
    let items ← numberedAll items
    pure (.seq tag items cls?)
  | .choice tag items => do
    let tag ← nextTag tag
    let items ← numberedAll items
    pure (.choice tag items)
  | .list tag item least most => do
    let tag ← nextTag tag
    let item ← item.numbered
    pure (.list tag item least most)
  | .sep tag item separator flags => do
    let tag ← nextTag tag
    let item ← item.numbered
    let separator ← separator.numbered
    pure (.sep tag item separator flags)
  | .opt tag inner => do
    let tag ← nextTag tag
    let inner ← inner.numbered
    pure (.opt tag inner)
  | .apply tag left right applyLeft => do
    let tag ← nextTag tag
    let left ← left.numbered
    let right ← right.numbered
    pure (.apply tag left right applyLeft)
  | .discard tag left right discardLeft => do
    let tag ← nextTag tag
    let left ← left.numbered
    let right ← right.numbered
    pure (.discard tag left right discardLeft)
  | .expect tag inner => do
    let tag ← nextTag tag
    let inner ← inner.numbered
    pure (.expect tag inner)
  | .expectNot tag inner => do
    let tag ← nextTag tag
    let inner ← inner.numbered
    pure (.expectNot tag inner)
  | .fail tag message? => do
    let tag ← nextTag tag
    pure (.fail tag message?)
  | .bound tag name value body => do
    let tag ← nextTag tag
    let value ← value.numbered
    let body ← body.numbered
    pure (.bound tag name value body)
  | .satisfying tag inner predicate => do
    let tag ← nextTag tag
    let inner ← inner.numbered
    let predicate ← predicate.numbered
    pure (.satisfying tag inner predicate)
  | .skip tag items => do
    let tag ← nextTag tag
    let items ← numberedAll items
    pure (.skip tag items)
  | .call tag callee args binding => do
    let tag ← nextTag tag
    let args ← numberedArgs args
    pure (.call tag callee args binding)
  | .host tag snippet => do
    let tag ← nextTag tag
    pure (.host tag snippet)
  | .operators tag atom levels => do
    let tag ← nextTag tag
    let atom ← atom.numbered
    let levels ← numberedLevels levels
    pure (.operators tag atom levels)

def numberedAll : List Expr → StateM Nat (List Expr)
  | [] => pure []
  | e :: es => do
    let e ← e.numbered
    let es ← numberedAll es
    pure (e :: es)

def numberedArgs : List (Option String × Expr) → StateM Nat (List (Option String × Expr))
  | [] => pure []
  | (keyword, e) :: rest => do
    let e ← e.numbered
    let rest ← numberedArgs rest
    pure ((keyword, e) :: rest)

def numberedLevels : List (Fixity × Expr) → StateM Nat (List (Fixity × Expr))
  | [] => pure []
  | (fixity, e) :: rest => do
    let e ← e.numbered
    let rest ← numberedLevels rest
    pure ((fixity, e) :: rest)

end

/-- Definitions with their numbers. -/
def numberedDefinitions : List Definition → StateM Nat (List Definition)
  | [] => pure []
  | d :: ds => do
    let body ← d.body.numbered
    let ds ← numberedDefinitions ds
    pure ({ d with body } :: ds)

theorem numberedDefinitions_names (ds : List Definition) (n : Nat) :
    ((numberedDefinitions ds).run n).1.map (·.name) = ds.map (·.name) := by
  induction ds generalizing n with
  | nil => rfl
  | cons d ds ih =>
    simp only [numberedDefinitions]
    exact congrArg (d.name :: ·) (ih _)

/-- A grammar with its numbers. -/
def Grammar.numbered (g : Grammar) : Grammar :=
  { g with definitions := ((numberedDefinitions g.definitions).run 0).1 }

theorem Grammar.numbered_names (g : Grammar) :
    g.numbered.definitions.map (·.name) = g.definitions.map (·.name) :=
  numberedDefinitions_names g.definitions 0

end Packrat
