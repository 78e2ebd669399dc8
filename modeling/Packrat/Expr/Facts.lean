import Packrat.Expr.Basic
import Packrat.Text.SortedNames

/-
**Static facts about expressions.**

Main definitions:

* `Packrat.Expr.alwaysSucceeds` — expressions that no input makes fail;
* `Packrat.Expr.canPartiallySucceed` — expressions that may fail behind where they started;
* `Packrat.Expr.numBlocks` — how many blocks an expression opens when it is compiled;
* `Packrat.Expr.freeLocals` — the locals that an expression reads from around it.

Main results:

* `Packrat.Expr.mem_freeLocals` — the free locals are the locals read.
-/

set_option autoImplicit false

namespace Packrat.Expr

/-- Whether a least number of repetitions asks for nothing. -/
def asksNothing : Option Bound → Bool
  | none => true
  | some (.const n) => n == 0
  | some (.host _) => false

mutual

/-- Whether an expression succeeds on every input. -/
def alwaysSucceeds : Expr → Bool
  | .str _ value _ => value.isEmpty
  | .regex _ _ _ | .ref _ _ _ | .call _ _ _ _ => false
  | .seq _ items _ => allSucceed items
  | .choice _ alternatives => anySucceeds alternatives
  | .list _ item least _ => asksNothing least || item.alwaysSucceeds
  | .sep _ _ _ flags => flags.allowEmpty
  | .opt _ _ | .skip _ _ | .host _ _ => true
  | .apply _ _ _ _ | .satisfying _ _ _ => false
  | .discard _ left right _ => left.alwaysSucceeds && right.alwaysSucceeds
  | .expect _ inner => inner.alwaysSucceeds
  | .expectNot _ _ | .fail _ _ => false
  | .bound _ _ value body => value.alwaysSucceeds && body.alwaysSucceeds
  | .operators _ _ _ => false

def allSucceed : List Expr → Bool
  | [] => true
  | e :: es => e.alwaysSucceeds && allSucceed es

def anySucceeds : List Expr → Bool
  | [] => false
  | e :: es => e.alwaysSucceeds || anySucceeds es

end

/-- Whether an expression may fail behind the place where it started. -/
def canPartiallySucceed : Expr → Bool
  | .str _ _ _ | .regex _ _ _ => false
  | .opt _ _ | .skip _ _ | .host _ _ | .fail _ _ => false
  | .expect _ _ | .expectNot _ _ => false
  | e => !e.alwaysSucceeds

/-- How many nested blocks an expression opens when it is compiled. -/
def numBlocks : Expr → Nat
  | .str _ _ flags | .regex _ _ flags => if flags.skip then 1 else 0
  | .ref _ _ _ | .call _ _ _ _ | .host _ _ | .fail _ _ | .operators _ _ _ => 0
  | .sep _ _ _ _ | .satisfying _ _ _ | .skip _ _ => 2
  | _ => 1

/-- The locals that a snippet captures and `bound` does not hold. -/
def snippetLocals (bound : List String) (s : Snippet) : List String :=
  s.locals.filter fun n => !bound.contains n

/-- The locals that a bound captures and `bound` does not hold. -/
def boundLocals (bound : List String) : Option Bound → List String
  | some (.host s) => snippetLocals bound s
  | _ => []

mutual

/-- The locals that an expression reads and `bound` does not hold. -/
def readLocals (bound : List String) : Expr → List String
  | .str _ _ _ | .regex _ _ _ | .fail _ _ => []
  | .ref _ name binding => if binding = .local ∧ !bound.contains name then [name] else []
  | .host _ snippet => snippetLocals bound snippet
  | .seq _ items cls? => readLocalsFields bound ((cls?.map (·.fields)).getD []) items
  | .bound _ name value body => value.readLocals bound ++ body.readLocals (name :: bound)
  | .list _ item least most =>
    item.readLocals bound ++ boundLocals bound least ++ boundLocals bound most
  | .call _ _ args _ => readLocalsArgs bound args
  | .choice _ items | .skip _ items => readLocalsAll bound items
  | .opt _ inner | .expect _ inner | .expectNot _ inner => inner.readLocals bound
  | .sep _ a b _ | .apply _ a b _ | .discard _ a b _ | .satisfying _ a b =>
    a.readLocals bound ++ b.readLocals bound
  | .operators _ atom levels => atom.readLocals bound ++ readLocalsLevels bound levels

def readLocalsAll (bound : List String) : List Expr → List String
  | [] => []
  | e :: es => e.readLocals bound ++ readLocalsAll bound es

/-- Items of which each may read the fields before it. -/
def readLocalsFields (bound fields : List String) : List Expr → List String
  | [] => []
  | e :: es => e.readLocals bound ++ readLocalsFields (fields.take 1 ++ bound) (fields.drop 1) es

def readLocalsArgs (bound : List String) : List (Option String × Expr) → List String
  | [] => []
  | (_, e) :: rest => e.readLocals bound ++ readLocalsArgs bound rest

def readLocalsLevels (bound : List String) : List (Fixity × Expr) → List String
  | [] => []
  | (_, e) :: rest => e.readLocals bound ++ readLocalsLevels bound rest

end

/-- The locals that an expression reads from the scope around it. -/
def freeLocals (e : Expr) : List String := Text.sortNames (e.readLocals [])

theorem mem_freeLocals {n : String} {e : Expr} : n ∈ e.freeLocals ↔ n ∈ e.readLocals [] :=
  Text.mem_sortNames

end Packrat.Expr
