import Packrat.Expr.Basic
import Packrat.Grammar.Basic
import Packrat.Regex.Engine

/-
**Parser programs.**

What a grammar is compiled to: functions made of flat instructions, and pools of the constants
that the instructions refer to by number.  A function works on three registers: the status says
whether the last part succeeded, the result is its value or the mark of a failure, and the
position is an offset of the input.  Everything else is kept in the slots of the function;
positions are kept in them as integers.

Main definitions:

* `Packrat.Operand`, `Packrat.Condition`, `Packrat.Instr` — instructions and their parts;
* `Packrat.Expectation`, `Packrat.FailureEntry` — what a failing expression expected;
* `Packrat.Function`, `Packrat.RuleEntry`, `Packrat.Program` — functions, rules and programs;
* `Packrat.leftRecursion` — the failure of a rule that begins with itself.

Main results:

* `Packrat.Condition.negate_negate` — negation is its own inverse.
-/

set_option autoImplicit false

namespace Packrat

/-- What an instruction reads. -/
inductive Operand where
  | result
  | position
  | slot (v : Nat)
  | const (value : Value)

/-- A bound of a repetition. -/
inductive Limit where
  | const (n : Nat)
  | slot (v : Nat)
deriving DecidableEq, Repr

/-- What a branch tests: the status, the position against one kept in a slot, or the length of the
list in a slot against a bound. -/
inductive Condition where
  | status
  | notStatus
  | posEq (v : Nat)
  | posNe (v : Nat)
  | posGe (v : Nat)
  | posGt (v : Nat)
  | posLt (v : Nat)
  | posLe (v : Nat)
  | lenLt (v : Nat) (limit : Limit)
  | lenGe (v : Nat) (limit : Limit)
deriving DecidableEq, Repr

/-- The opposite condition. -/
def Condition.negate : Condition → Condition
  | .status => .notStatus
  | .notStatus => .status
  | .posEq v => .posNe v
  | .posNe v => .posEq v
  | .posGe v => .posLt v
  | .posGt v => .posLe v
  | .posLt v => .posGe v
  | .posLe v => .posGt v
  | .lenLt v limit => .lenGe v limit
  | .lenGe v limit => .lenLt v limit

@[simp] theorem Condition.negate_negate (c : Condition) : c.negate.negate = c := by
  cases c <;> rfl

/-- What is called: a function of the program, or what a slot holds. -/
inductive Callee where
  | function (f : Nat)
  | slot (v : Nat)
deriving DecidableEq, Repr

inductive Instr where
  /-- Matches bytes at the position. -/
  | matchLiteral (literal entry : Nat)
  | matchRegex (regex entry : Nat)
  | setStatus (b : Bool)
  | load (value : Operand)
  | store (v : Nat) (value : Operand)
  /-- Goes back to a position kept in a slot. -/
  | restore (v : Nat)
  | fail (entry : Nat)
  | jump (label : Nat)
  | branch (condition : Condition) (label : Nat)
  | newList (v : Nat)
  | push (v : Nat) (value : Operand)
  | pop (v : Nat)
  /-- Waits for the registers that a function leaves behind. -/
  | call (callee : Callee) (args : List Nat)
  | eval (host : Nat) (captures : List Nat)
  | apply (func arg : Nat)
  /-- Keeps an argument that satisfies a predicate. -/
  | test (func arg entry : Nat)
  | makeList (items : List Nat)
  /-- Builds a node from the position in a slot to the current one. -/
  | makeNode (cls : Nat) (fields : List Nat) (start : Nat)
  | makeInfix (left operator : Nat)
  | makePostfix (left : Nat)
  /-- Wraps the result in the operators of a list, the last one innermost. -/
  | foldPrefix (ops : Nat)
  /-- Folds operands with operators between them to the right. -/
  | foldRight (spine : Nat)
  | makeParser (function : Nat) (captures : List Nat)
  | ret

/-- What a failing expression expected. -/
inductive Expectation where
  | literal (text : String)
  | regex (pattern : String)
  | unexpected
  | notExpected (expr : String)
  | predicate (source : String)
  | custom (text : String)
  | leftRecursion
deriving DecidableEq, Repr

/-- A way to fail: the expression that fails, and the rule it belongs to. -/
structure FailureEntry where
  rule : String
  expr : String
  expectation : Expectation
deriving DecidableEq, Repr

/-- The number of the failure of a rule that begins with itself. -/
def leftRecursion : Nat := 0

/-- A pattern with its automaton. -/
structure RegexEntry where
  pattern : String
  ignoreCase : Bool
  binary : Bool
  regex : Regex

structure Function where
  name : String
  /-- Parameters take the first slots. -/
  params : List String
  slots : Nat
  code : Array Instr
  /-- The instruction that each label stands before. -/
  labels : Array Nat

/-- What is known about a rule when the program runs. -/
structure RuleEntry where
  name : String
  function : Nat
  params : Option (List String)
  definition : String
  isClass : Bool
  ignored : Bool
  synthetic : Bool

structure Program where
  functions : Array Function
  literals : Array (List UInt8)
  regexes : Array RegexEntry
  hosts : Array Snippet
  classes : Array NodeClass
  failures : Array FailureEntry
  rules : List RuleEntry
  sections : List HostSection

end Packrat
