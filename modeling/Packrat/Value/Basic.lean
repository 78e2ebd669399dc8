import Packrat.Host.Term

/-
**Values.**

What parses return and host code computes: texts and bytes taken from the input, lists, nodes
built by classes and operators, functions, and parsers.  Lists, nodes, functions and parsers are
shared objects: each carries a number by which it is told apart from equal ones.  New numbers are
drawn from a counter that computations hand on.

Main definitions:

* `Packrat.Position`, `Packrat.Extent` — places in the input, and the stretch a node covers;
* `Packrat.NodeClass` — the name and the fields of a class, with the three operator classes;
* `Packrat.Callable` — what a function value does when it is called;
* `Packrat.Value` — values;
* `Packrat.fresh` — a new identity.
-/

set_option autoImplicit false

namespace Packrat

/-- A place in the input: an offset in bytes, and the line and column counted from one. Line zero
marks a place that has not been looked up yet. -/
structure Position where
  index : Nat
  line : Nat
  column : Nat
deriving DecidableEq, Repr, Inhabited

/-- A place whose line and column are not known yet. -/
def Position.unresolved (index : Nat) : Position := ⟨index, 0, 0⟩

/-- The text of a place. -/
def Position.repr (p : Position) : String :=
  s!"_Position(index={p.index}, line={p.line}, column={p.column})"

/-- The stretch of input that a node was parsed from. -/
structure Extent where
  start : Position
  stop : Position
deriving DecidableEq, Repr, Inhabited

/-- A class of nodes. -/
structure NodeClass where
  name : String
  fields : List String
deriving DecidableEq, Repr, Inhabited

namespace NodeClass

/-- Nodes of operators between two operands. -/
def infixOp : NodeClass := ⟨"Infix", ["left", "operator", "right"]⟩

/-- Nodes of operators before an operand. -/
def prefixOp : NodeClass := ⟨"Prefix", ["operator", "right"]⟩

/-- Nodes of operators behind an operand. -/
def postfixOp : NodeClass := ⟨"Postfix", ["left", "operator"]⟩

/-- Nodes that stand for a place in the input. -/
def position : NodeClass := ⟨"_Position", ["index", "line", "column"]⟩

/-- Nodes that stand for a stretch of input. -/
def extent : NodeClass := ⟨"_PositionInfo", ["start", "end"]⟩

end NodeClass

/-- The functions that every host expression may call. -/
inductive Builtin where
  | int
  | float
  | str
  | bool
  | repr
  | len
  | list
  | tuple
  | abs
  | min
  | max
  | sum
deriving DecidableEq, Repr

/-- The name of a builtin. -/
def Builtin.name : Builtin → String
  | .int => "int"
  | .float => "float"
  | .str => "str"
  | .bool => "bool"
  | .repr => "repr"
  | .len => "len"
  | .list => "list"
  | .tuple => "tuple"
  | .abs => "abs"
  | .min => "min"
  | .max => "max"
  | .sum => "sum"

/-- Every builtin. -/
def Builtin.all : List Builtin :=
  [.int, .float, .str, .bool, .repr, .len, .list, .tuple, .abs, .min, .max, .sum]

/-- The methods of texts. -/
inductive TextMethod where
  | join
  | lower
  | upper
  | strip
  | split
  | startsWith
  | endsWith
  | replace
deriving DecidableEq, Repr

/-- The name of a method. -/
def TextMethod.name : TextMethod → String
  | .join => "join"
  | .lower => "lower"
  | .upper => "upper"
  | .strip => "strip"
  | .split => "split"
  | .startsWith => "startswith"
  | .endsWith => "endswith"
  | .replace => "replace"

/-- Every method of texts. -/
def TextMethod.all : List TextMethod :=
  [.join, .lower, .upper, .strip, .split, .startsWith, .endsWith, .replace]

/-- What a function does when it is called. -/
inductive Callable (V : Type) where
  /-- Evaluates its body where it was written, with the arguments bound. -/
  | lambda (params : List String) (body : Host.Term) (env : List (String × V))
  | builtin (b : Builtin)
  /-- Builds a node. -/
  | constructor (cls : NodeClass)
  /-- A method together with the text it was taken from. -/
  | method (receiver : String) (m : TextMethod)
  /-- Answers every call with the text that bytes were decoded to. -/
  | decoder (text : String)
  /-- A function registered from outside under a name. -/
  | native (name : String)

/-- The name under which a function is shown. -/
def Callable.name {V : Type} : Callable V → String
  | .lambda _ _ _ => "<lambda>"
  | .builtin b => b.name
  | .constructor cls => cls.name
  | .method _ m => m.name
  | .decoder _ => "decode"
  | .native name => name

inductive Value where
  | none
  | bool (b : Bool)
  | int (n : Int64)
  | float (x : Float)
  | str (s : String)
  | bytes (bs : List UInt8)
  | list (id : Nat) (items : List Value)
  | node (id : Nat) (cls : NodeClass) (values : List Value) (extent? : Option Extent)
  | func (id : Nat) (f : Callable Value)
  /-- A function of the parsing program, and the values it was closed over. -/
  | parser (id : Nat) (function : Nat) (captures : List Value) (name : String)
  /-- The mark that a failed parse leaves instead of a result: an entry of the error table. -/
  | failure (entry : Nat)

instance : Inhabited Value := ⟨.none⟩

/-- Names and what they stand for, the most recent first. -/
abbrev Env := List (String × Value)

/-- A new identity. -/
def fresh {m : Type → Type} [Monad m] : StateT Nat m Nat := do
  let n ← get
  set (n + 1)
  pure n

namespace Value

/-- A new list. -/
def newList {m : Type → Type} [Monad m] (items : List Value) : StateT Nat m Value := do
  let id ← fresh
  pure (.list id items)

/-- A new node without a place in the input. -/
def newNode {m : Type → Type} [Monad m] (cls : NodeClass) (values : List Value) :
    StateT Nat m Value := do
  let id ← fresh
  pure (.node id cls values .none)

/-- A new function. -/
def newFunc {m : Type → Type} [Monad m] (f : Callable Value) : StateT Nat m Value := do
  let id ← fresh
  pure (.func id f)

/-- The name of the type of a value. -/
def typeName : Value → String
  | .none => "NoneType"
  | .bool _ => "bool"
  | .int _ => "int"
  | .float _ => "float"
  | .str _ => "str"
  | .bytes _ => "bytes"
  | .list _ _ => "list"
  | .node _ _ _ _ => "node"
  | .func _ _ => "function"
  | .parser _ _ _ _ => "parser"
  | .failure _ => "error"

/-- Whether a value counts as true in a condition. -/
def truthy : Value → Bool
  | .none => false
  | .bool b => b
  | .int n => n != 0
  | .float x => x != 0.0
  | .str s => !s.isEmpty
  | .bytes bs => !bs.isEmpty
  | .list _ items => !items.isEmpty
  | .node _ _ _ _ | .func _ _ | .parser _ _ _ _ => true
  | .failure _ => false

/-- The text of a text value. -/
def asText? : Value → Option String
  | .str s => some s
  | _ => Option.none

/-- The integer of an integer or a truth value. -/
def asInt? : Value → Option Int64
  | .int n => some n
  | .bool b => some (if b then 1 else 0)
  | _ => Option.none

/-- The items of a list. -/
def asList? : Value → Option (List Value)
  | .list _ items => some items
  | _ => Option.none

/-- The value of a field of a node with the given class and values. -/
def field? (cls : NodeClass) (values : List Value) (name : String) : Option Value :=
  (cls.fields.zip values).lookup name

end Value

/-- A literal as a value. -/
def Host.Scalar.value : Host.Scalar → Value
  | .none => .none
  | .bool b => .bool b
  | .int n => .int n
  | .float x => .float x
  | .str s => .str s

end Packrat
