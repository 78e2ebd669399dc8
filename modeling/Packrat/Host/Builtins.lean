import Packrat.Decimal.Float
import Packrat.Host.Sequence
import Packrat.Text.Blank
import Packrat.Value.Show

/-
**The functions that every host expression may call.**

Conversions (`int`, `float`, `str`, `bool`, `list`, `tuple`, `repr`) and aggregates (`len`, `abs`,
`min`, `max`, `sum`).

Main definitions:

* `Packrat.Host.readInt` — the integer that a text stands for in a base;
* `Packrat.Host.extremum` — the least or the greatest of some values;
* `Packrat.Host.callBuiltin` — the functions.
-/

set_option autoImplicit false

namespace Packrat.Host

/-- Refuses an unsuitable number of arguments. -/
def checkArity (callee : String) (least most : Nat) (args : List Value) : Except Error Unit :=
  if args.length < least || most < args.length then
    let expected := if least == most then toString least else s!"{least} to {most}"
    .error (.builtinArity callee expected args.length)
  else .ok ()

/-- The integer that a text stands for: underscores between digits are passed over. -/
def readInt (text : String) (base : Nat) : Except Error Value :=
  match (Text.readSigned? base (text.toList.filter (· != '_'))).bind fit? with
  | some n => .ok (.int n)
  | none => .error (.integerText base (Text.quoteText text))

/-- Conversion to an integer. -/
def toInteger (args : List Value) : Except Error Value := do
  checkArity "int" 1 2 args
  let base ←
    match (args[1]? : Option Value) with
    | none => pure 10
    | some (.int b) =>
      if 2 ≤ b.toInt ∧ b.toInt ≤ 36 then pure b.toInt.toNat
      else throw (.wrongType "int" "a base between 2 and 36" "int")
    | some v => throw (.wrongType "int" "a base between 2 and 36" v.typeName)
  match args.headD .none with
  | .int n => pure (.int n)
  | .bool b => pure (.int (if b then 1 else 0))
  | .float x =>
    if x.isFinite then pure (.int (Decimal.floatToInt64 x))
    else throw (.wrongType "int" "a number or string" "float")
  | .str s => readInt (Text.trim s) base
  | .bytes bs => readInt (Text.trim (Text.Utf8.decodeText bs)) base
  | v => throw (.wrongType "int" "a number or string" v.typeName)

/-- Conversion to a float. -/
def toFloat (args : List Value) : Except Error Value := do
  checkArity "float" 1 1 args
  match args.headD .none with
  | .str s =>
    match Decimal.readFloat? (Text.trim s) with
    | some x => pure (.float x)
    | none => throw (.floatText (Text.quoteText s))
  | v =>
    match toFloat? v with
    | some x => pure (.float x)
    | none => throw (.wrongType "float" "a number or string" v.typeName)

/-- The number of items of a value. -/
def lengthOf (args : List Value) : Except Error Value := do
  checkArity "len" 1 1 args
  match args.headD .none with
  | .str s => pure (.int (Int64.ofNat s.length))
  | .bytes bs => pure (.int (Int64.ofNat bs.length))
  | .list _ items => pure (.int (Int64.ofNat items.length))
  | .node _ _ values _ => pure (.int (Int64.ofNat values.length))
  | v => throw (.wrongType "len" "a sized value" v.typeName)

/-- The magnitude of a number. -/
def magnitude (args : List Value) : Except Error Value := do
  checkArity "abs" 1 1 args
  match args.headD .none with
  | .int n =>
    match fit? n.toInt.natAbs with
    | some m => pure (.int m)
    | none => throw (.overflowIn "abs")
  | .float x => pure (.float x.abs)
  | .bool b => pure (.int (if b then 1 else 0))
  | v => throw (.wrongType "abs" "a number" v.typeName)

/-- The first value that stands in the given order to the best one before it, over and over. -/
def extremumFrom (callee : String) (wanted : Ordering) (best : Value) :
    List Value → Except Error Value
  | [] => .ok best
  | v :: vs =>
    match compareValues? v best with
    | some o => extremumFrom callee wanted (if o == wanted then v else best) vs
    | none => .error (.incomparable callee v.typeName best.typeName)

/-- The least or the greatest of some values. -/
def extremumOf (callee : String) (wanted : Ordering) : List Value → Except Error Value
  | [] => throw (.emptySequence callee)
  | v :: vs => extremumFrom callee wanted v vs

/-- The least or the greatest of the arguments, or of the items of a single one. -/
def extremum (callee : String) (wanted : Ordering) (args : List Value) : Except Error Value := do
  let items ←
    match args with
    | [] => throw (.builtinArity callee "at least 1" 0)
    | [v] => iterate callee v
    | vs => pure vs
  extremumOf callee wanted items

/-- A sum of numbers; it stays an integer while all numbers are integers. -/
def sumFrom (total : Value) : List Value → Except Error Value
  | [] => .ok total
  | v :: vs =>
    match total, v with
    | .int a, .int b =>
      match fit? (a.toInt + b.toInt) with
      | some n => sumFrom (.int n) vs
      | none => .error (.overflowIn "sum")
    | total, v =>
      match toFloat? total, toFloat? v with
      | some a, some b => sumFrom (.float (a + b)) vs
      | _, _ => .error (.wrongType "sum" "numbers" v.typeName)

/-- The sum of the items of the first argument, starting from the second. -/
def sum (args : List Value) : Except Error Value := do
  checkArity "sum" 1 2 args
  let items ← iterate "sum" (args.headD .none)
  sumFrom (args[1]?.getD (.int 0)) items

/-- The items of a value as a new list. -/
def toList (callee : String) (args : List Value) : Eval Value := do
  checkArity callee 0 1 args
  match args with
  | v :: _ => do
    let items ← iterate callee v
    Value.newList items
  | [] => Value.newList []

/-- A builtin applied to arguments. -/
def callBuiltin (b : Builtin) (args : List Value) : Eval Value :=
  match b with
  | .int => toInteger args
  | .float => toFloat args
  | .str => do
    checkArity "str" 0 1 args
    pure (.str ((args.head?.map Value.display).getD ""))
  | .bool => do
    checkArity "bool" 0 1 args
    pure (.bool ((args.head?.map Value.truthy).getD false))
  | .repr => do
    checkArity "repr" 1 1 args
    pure (.str (args.headD .none).repr)
  | .len => lengthOf args
  | .list | .tuple => toList "list" args
  | .abs => magnitude args
  | .min => extremum "min" .lt args
  | .max => extremum "max" .gt args
  | .sum => sum args

end Packrat.Host
