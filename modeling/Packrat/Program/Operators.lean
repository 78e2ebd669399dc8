import Packrat.Program.Emit

/-
**Levels of operators.**

Each level of an operator table is a function that parses chains of operands and operators, the
operands being what the level below parses.  A chain ends where an operator or the operand behind
it fails, and what was read for the failing step is given back; it also ends behind a step that
reads nothing.

Main definitions:

* `Packrat.Emit.callOperand` — the level below;
* `Packrat.Emit.level` — the body of a level.
-/

set_option autoImplicit false

namespace Packrat.Emit

/-- Calls the level below, passing on the parameters. -/
def callOperand (below arity : Nat) : Emit Unit := emit (.call (.function below) (List.range arity))

/-- An operator and an operand behind it, which is left in the result. Gives back the position
before both, and the slot of the operator. -/
def operatorStep (operator : Emit Unit) (below arity exit : Nat) : Emit (Nat × Nat) := do
  let back ← checkpoint
  operator
  retreatOnFailure back exit
  let op ← storeResult
  callOperand below arity
  retreatOnFailure back exit
  pure (back, op)

/-- Operators before an operand. -/
def prefixLevel (operator : Emit Unit) (below arity : Nat) : Emit Unit := do
  let ops ← slot
  emit (.newList ops)
  loop fun _ exit => do
    let back ← checkpoint
    operator
    retreatOnFailure back exit
    emit (.push ops .result)
    emit (.branch (.posEq back) exit)
  callOperand below arity
  ifThen .status (emit (.foldPrefix ops))

/-- Operators behind an operand. -/
def postfixLevel (operator : Emit Unit) (below arity : Nat) : Emit Unit :=
  block fun out => do
    callOperand below arity
    leaveOnFailure out
    let acc ← storeResult
    loop fun _ exit => do
      let back ← checkpoint
      operator
      retreatOnFailure back exit
      emit (.makePostfix acc)
      emit (.store acc .result)
      emit (.branch (.posEq back) exit)
    succeedWith (.slot acc)

/-- Operators between operands, grouped to the left; `once` ends the chain behind the first. -/
def leftLevel (once : Bool) (operator : Emit Unit) (below arity : Nat) : Emit Unit :=
  block fun out => do
    callOperand below arity
    leaveOnFailure out
    let acc ← storeResult
    loop fun _ exit => do
      let (back, op) ← operatorStep operator below arity exit
      emit (.makeInfix acc op)
      emit (.store acc .result)
      emit (if once then .jump exit else .branch (.posEq back) exit)
    succeedWith (.slot acc)

/-- Operators between operands, grouped to the right. -/
def rightLevel (operator : Emit Unit) (below arity : Nat) : Emit Unit :=
  block fun out => do
    let spine ← slot
    emit (.newList spine)
    callOperand below arity
    leaveOnFailure out
    emit (.push spine .result)
    loop fun _ exit => do
      let (back, op) ← operatorStep operator below arity exit
      emit (.push spine (.slot op))
      emit (.push spine .result)
      emit (.branch (.posEq back) exit)
    emit (.foldRight spine)
    emit (.setStatus true)

/-- The body of a level. -/
def level (fixity : Fixity) (operator : Emit Unit) (below arity : Nat) : Emit Unit :=
  match fixity with
  | .prefixOp => prefixLevel operator below arity
  | .postfixOp => postfixLevel operator below arity
  | .leftAssoc => leftLevel false operator below arity
  | .nonAssoc => leftLevel true operator below arity
  | .rightAssoc => rightLevel operator below arity

end Packrat.Emit
