import Packrat.Grammar.Basic

/-
**Skipping of ignored content.**

In a grammar that ignores something, literals and patterns outside of ignored rules skip ignored
content behind them, and the start rule skips it up front.

Main definitions:

* `Packrat.Expr.skipping` — an expression whose literals and patterns skip;
* `Packrat.Grammar.weaveIgnored` — a grammar with skipping woven in.
-/

set_option autoImplicit false

namespace Packrat

mutual

/-- An expression whose literals and patterns skip ignored content. -/
def Expr.skipping : Expr → Expr
  | .str tag value flags => .str tag value { flags with skip := true }
  | .regex tag pattern flags => .regex tag pattern { flags with skip := true }
  | .ref tag name binding => .ref tag name binding
  | .seq tag items cls? => .seq tag (skippingAll items) cls?
  | .choice tag items => .choice tag (skippingAll items)
  | .list tag item least most => .list tag item.skipping least most
  | .sep tag item separator flags => .sep tag item.skipping separator.skipping flags
  | .opt tag inner => .opt tag inner.skipping
  | .apply tag left right applyLeft => .apply tag left.skipping right.skipping applyLeft
  | .discard tag left right discardLeft => .discard tag left.skipping right.skipping discardLeft
  | .expect tag inner => .expect tag inner.skipping
  | .expectNot tag inner => .expectNot tag inner.skipping
  | .fail tag message? => .fail tag message?
  | .bound tag name value body => .bound tag name value.skipping body.skipping
  | .satisfying tag inner predicate => .satisfying tag inner.skipping predicate.skipping
  | .skip tag items => .skip tag (skippingAll items)
  | .call tag callee args binding => .call tag callee (skippingArgs args) binding
  | .host tag snippet => .host tag snippet
  | .operators tag atom levels => .operators tag atom.skipping (skippingLevels levels)

def skippingAll : List Expr → List Expr
  | [] => []
  | e :: es => e.skipping :: skippingAll es

def skippingArgs : List (Option String × Expr) → List (Option String × Expr)
  | [] => []
  | (keyword, e) :: rest => (keyword, e.skipping) :: skippingArgs rest

def skippingLevels : List (Fixity × Expr) → List (Fixity × Expr)
  | [] => []
  | (fixity, e) :: rest => (fixity, e.skipping) :: skippingLevels rest

end

/-- Whether a definition is a rule for whole inputs. -/
def Definition.isStartRule (d : Definition) : Bool :=
  isStart d.name && !d.isClass && d.params.isNone

/-- A definition with skipping woven in. -/
def Definition.weaveIgnored (d : Definition) : Definition :=
  if d.ignored || d.synthetic then d
  else
    let body := d.body.skipping
    let tag : Tag := ⟨0, body.span⟩
    let skip := Expr.ref tag ignoredRule .unresolved
    { d with body := if d.isStartRule then .discard tag skip body true else body }

/-- Whether a grammar has a rule that skips ignored content. -/
def Grammar.hasIgnored (g : Grammar) : Bool :=
  g.definitions.any fun d => d.synthetic && d.name == ignoredRule

/-- A grammar with skipping woven in. -/
def Grammar.weaveIgnored (g : Grammar) : Grammar :=
  if g.hasIgnored then { g with definitions := g.definitions.map (·.weaveIgnored) } else g

end Packrat
