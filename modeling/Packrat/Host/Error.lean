/-
**What can go wrong in host code.**

Main definitions:

* `Packrat.Host.Trap` — computations that the machine cannot carry out at all;
* `Packrat.Host.Error` — the causes of a failed evaluation;
* `Packrat.Host.Error.message` — their wording.
-/

set_option autoImplicit false

namespace Packrat.Host

/-- A computation that stops the whole program instead of failing. -/
inductive Trap where
  /-- The remainder of the least integer by minus one. -/
  | remainder
  /-- A text or list of more bytes than can be allocated at once. -/
  | capacity
  /-- An offset that does not fit in a word. -/
  | offset
  /-- An element or a range that is not in the sequence. -/
  | range
  /-- Function calls nested too deeply. -/
  | depth
deriving DecidableEq, Repr

/-- The cause of a failed evaluation. Types of values are given by their names. -/
inductive Error where
  | unbound (name : String)
  | notCallable (type : String)
  /-- A function, class or parser applied to the wrong number of arguments. -/
  | arity (callee : String) (expected given : Nat)
  /-- A builtin or method applied to the wrong number of arguments. -/
  | builtinArity (callee expected : String) (given : Nat)
  | wrongType (callee expected found : String)
  | overflow
  | overflowIn (callee : String)
  | divisionByZero
  | floatDivisionByZero
  | unaryOperand (type : String)
  | binaryOperands (operator left right : String)
  | membership (type : String)
  | comparison (left right : String)
  | noAttribute (type name : String)
  | indexType (type : String)
  | indexRange (index : Int64)
  | notSubscriptable (type : String)
  | sliceIndexType
  | notSliceable (type : String)
  | emptySequence (callee : String)
  | incomparable (callee left right : String)
  /-- The text is given as it is shown, in quotes. -/
  | integerText (base : Nat) (text : String)
  | floatText (text : String)
  | emptySeparator
  | noField (cls field : String)
  | whileLoading (name : String) (message : String)
  | boundType (type : String)
  | startBeyondEnd (start length : Nat)
  | unboundArguments (rule : String) (params : List String)
  | ruleArity (rule : String) (expected given : Nat)
  /-- A registered function gave up. -/
  | native (message : String)
  | trap (trap : Trap)
deriving DecidableEq, Repr

/-- The wording of an error. -/
def Error.message : Error → String
  | .unbound name => s!"name '{name}' is not defined"
  | .notCallable type => s!"'{type}' object is not callable"
  | .arity callee expected given =>
    s!"{callee}() takes {expected} arguments but {given} were given"
  | .builtinArity callee expected given => s!"{callee}() takes {expected} arguments ({given} given)"
  | .wrongType callee expected found => s!"{callee}() expected {expected}, got {found}"
  | .overflow => "integer overflow"
  | .overflowIn callee => s!"integer overflow in {callee}()"
  | .divisionByZero => "division by zero"
  | .floatDivisionByZero => "float division by zero"
  | .unaryOperand type => s!"bad operand type for unary operator: {type}"
  | .binaryOperands operator left right =>
    s!"unsupported operand types for {operator}: '{left}' and '{right}'"
  | .membership type => s!"argument of type '{type}' does not support membership tests"
  | .comparison left right => s!"comparison not supported between '{left}' and '{right}'"
  | .noAttribute type name => s!"'{type}' object has no attribute '{name}'"
  | .indexType type => s!"indices must be integers, not {type}"
  | .indexRange index => s!"index out of range: {index}"
  | .notSubscriptable type => s!"'{type}' object is not subscriptable"
  | .sliceIndexType => "slice indices must be integers"
  | .notSliceable type => s!"'{type}' object is not sliceable"
  | .emptySequence callee => s!"{callee}() arg is an empty sequence"
  | .incomparable callee left right => s!"{callee}() cannot compare {left} and {right}"
  | .integerText base text => s!"invalid literal for int() with base {base}: {text}"
  | .floatText text => s!"could not convert string to float: {text}"
  | .emptySeparator => "split() separator must not be empty"
  | .noField cls field => s!"{cls} has no field '{field}'"
  | .whileLoading name message => s!"while loading '{name}': {message}"
  | .boundType type => s!"repetition bound must be an int, not {type}"
  | .startBeyondEnd start length =>
    s!"start position {start} is past the end of the input ({length})"
  | .unboundArguments rule params =>
    let listed := ", ".intercalate params
    s!"rule '{rule}' takes arguments ({listed}); bind them before parsing"
  | .ruleArity rule expected given =>
    s!"rule '{rule}' takes {expected} arguments but {given} were given"
  | .native message => message
  | .trap .remainder => "the remainder does not fit"
  | .trap .capacity => "the result is too large"
  | .trap .offset => "the offset does not fit"
  | .trap .range => "there is no such range"
  | .trap .depth => "function calls are nested too deeply"

end Packrat.Host
