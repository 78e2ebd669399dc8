import Packrat.Text.SortedNames

/-
**Terms of the host language.**

The small expression language of snippets: literals, names, lists, calls, attributes,
subscripts, arithmetic, comparisons, boolean operators, conditionals and anonymous functions.

Main definitions:

* `Packrat.Host.Term` — terms;
* `Packrat.Host.Term.freeNames` — the names that a term reads from around it, sorted and each
  once;
* `Packrat.Host.Assignment` — a line of a host section.

Main results:

* `Packrat.Host.Term.mem_freeNames` — the free names are the names read.
-/

set_option autoImplicit false

namespace Packrat.Host

inductive UnaryOp where
  | neg
  | pos
  | not
deriving DecidableEq, Repr

inductive BinaryOp where
  | add
  | sub
  | mul
  | div
  | floorDiv
  | mod
  | pow
deriving DecidableEq, Repr

inductive Comparison where
  | eq
  | ne
  | lt
  | le
  | gt
  | ge
  | isIn
  | notIn
  | same
  | notSame
deriving DecidableEq, Repr

/-- What a literal stands for. -/
inductive Scalar where
  | none
  | bool (b : Bool)
  | int (n : Int64)
  | float (x : Float)
  | str (s : String)

inductive Term where
  | literal (s : Scalar)
  | name (n : String)
  | list (items : List Term)
  | call (func : Term) (args : List Term)
  | member (object : Term) (name : String)
  | index (object index : Term)
  | slice (object : Term) (lower upper : Option Term)
  | unary (op : UnaryOp) (operand : Term)
  | binary (op : BinaryOp) (left right : Term)
  /-- A chain of comparisons, each between neighbours, all of which must hold. -/
  | compare (first : Term) (rest : List (Comparison × Term))
  | and (left right : Term)
  | or (left right : Term)
  | conditional (test consequent alternative : Term)
  | lambda (params : List String) (body : Term)

/-- A line `name = term` of a host section. -/
structure Assignment where
  name : String
  value : Term

/-! ### Free names -/

mutual

/-- The names that a term reads and `bound` does not hold, in the order in which they are read. -/
def Term.readNames (bound : List String) : Term → List String
  | .literal _ => []
  | .name n => if bound.contains n then [] else [n]
  | .list items => readNamesList bound items
  | .call func args => func.readNames bound ++ readNamesList bound args
  | .member object _ => object.readNames bound
  | .index object index => object.readNames bound ++ index.readNames bound
  | .slice object lower upper =>
    object.readNames bound ++ readNamesOption bound lower ++ readNamesOption bound upper
  | .unary _ operand => operand.readNames bound
  | .binary _ left right => left.readNames bound ++ right.readNames bound
  | .compare first rest => first.readNames bound ++ readNamesRest bound rest
  | .and left right => left.readNames bound ++ right.readNames bound
  | .or left right => left.readNames bound ++ right.readNames bound
  | .conditional test consequent alternative =>
    test.readNames bound ++ consequent.readNames bound ++ alternative.readNames bound
  | .lambda params body => body.readNames (params ++ bound)

def readNamesList (bound : List String) : List Term → List String
  | [] => []
  | t :: ts => t.readNames bound ++ readNamesList bound ts

def readNamesOption (bound : List String) : Option Term → List String
  | .none => []
  | some t => t.readNames bound

def readNamesRest (bound : List String) : List (Comparison × Term) → List String
  | [] => []
  | (_, t) :: rest => t.readNames bound ++ readNamesRest bound rest

end

/-- The names that a term reads from the scope around it. -/
def Term.freeNames (t : Term) : List String := Text.sortNames (t.readNames [])

theorem Term.mem_freeNames {n : String} {t : Term} :
    n ∈ t.freeNames ↔ n ∈ t.readNames [] := Text.mem_sortNames

end Packrat.Host
