import Packrat.Proofs.Simulation.Alternatives
import Packrat.Proofs.Simulation.Arguments
import Packrat.Proofs.Simulation.Operators
import Packrat.Proofs.Simulation.Peeking
import Packrat.Proofs.Simulation.Repetitions

/-
**The code of an expression realizes its meaning.**

Main results:

* `Packrat.Expr.compiles`, `Packrat.Expr.embeds` — **the code of any expression, alone and inside
  of another**.
-/

set_option autoImplicit false

namespace Packrat

variable [Regex.Engine]

mutual

theorem Expr.compiles : (e : Expr) → e.Compiles
  | .str tag value flags => compiles_str tag value flags
  | .regex tag pattern flags => compiles_regex tag pattern flags
  | .ref tag name binding => compiles_ref tag name binding
  | .call tag name args binding => compiles_call (compilesArgs args) tag name binding
  | .seq tag items none => compiles_seq_none (embedsAll items) tag
  | .seq tag items (some c) => compiles_seq_some (embedsAll items) tag c
  | .choice tag alternatives => compiles_choice (embedsAll alternatives) tag
  | .list tag item least most => (Expr.compiles item).within.list tag least most
  | .sep tag item separator flags =>
      (Expr.compiles item).within.sep (Expr.compiles separator).within tag flags
  | .opt tag inner => (Expr.compiles inner).within.opt tag
  | .apply tag left right applyLeft =>
      (Expr.compiles left).within.apply (Expr.compiles right).within tag applyLeft
  | .discard tag left right discardLeft =>
      (Expr.compiles left).within.discard (Expr.compiles right).within tag discardLeft
  | .expect tag inner => (Expr.compiles inner).within.expect tag
  | .expectNot tag inner => (Expr.compiles inner).within.expectNot tag
  | .fail tag message? => compiles_fail tag message?
  | .bound tag name value body =>
      (Expr.compiles value).within.bound (Expr.compiles body).within tag name
  | .satisfying tag inner predicate =>
      (Expr.compiles inner).within.satisfying (Expr.compiles predicate).within tag
  | .skip tag items => compiles_skip (embedsAll items) tag
  | .host tag snippet => compiles_host tag snippet
  | .operators tag atom levels =>
      compiles_operators (Expr.compiles atom).within (embedsLevels levels) tag

theorem Expr.embedsAll : (es : List Expr) → ∀ e ∈ es, e.Embeds
  | [], _, h => absurd h (List.not_mem_nil)
  | e :: es, e', h =>
      (List.mem_cons.1 h).elim (fun same => same ▸ (Expr.compiles e).within)
        (Expr.embedsAll es e')

theorem Expr.compilesArgs : (args : List (Option String × Expr)) → ∀ arg ∈ args, arg.2.Compiles
  | [], _, h => absurd h (List.not_mem_nil)
  | (_, e) :: args, arg, h =>
      (List.mem_cons.1 h).elim (fun same => same ▸ Expr.compiles e) (Expr.compilesArgs args arg)

theorem Expr.embedsLevels :
    (levels : List (Fixity × Expr)) → ∀ level ∈ levels, level.2.Embeds
  | [], _, h => absurd h (List.not_mem_nil)
  | (_, e) :: levels, level, h =>
      (List.mem_cons.1 h).elim (fun same => same ▸ (Expr.compiles e).within)
        (Expr.embedsLevels levels level)

end

/-- Whatever code is written for an expression inside of another realizes its meaning. -/
theorem Expr.embeds (e : Expr) : e.Embeds := e.compiles.within

end Packrat
