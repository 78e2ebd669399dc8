import Packrat.Host.Error
import Packrat.Span
import Packrat.Text.Quoted
import Packrat.Value.Basic

/-
**What can go wrong.**

A grammar may be refused, host code may fail, and an input may not parse.  Each failure keeps its
cause; the wording is a function of it.

Main definitions:

* `Packrat.GrammarError` — why a grammar or its options are refused;
* `Packrat.Fault` — broken assumptions inside the library;
* `Packrat.ParseFailure`, `Packrat.PartialParse` — inputs that do not parse;
* `Packrat.Failure` — all of them, with `Failure.message`, `Failure.help?` and `Failure.label?`.
-/

set_option autoImplicit false

namespace Packrat

/-- Why a grammar is refused. -/
inductive GrammarError where
  | description
  | emptyDescription
  | integerRange (text : String)
  | boundRange (text : String)
  | hostExpression (source : String)
  | hostSection
  | options
  | blockBudget (least given : Nat)
  | excerptWidth (least : Nat)
  | regex (pattern : String)
  | regexSize (pattern : String)
  | ignoredStart
  | byteRange (c : Char)
  | boundsOrder (least most : Nat)
  | unexpectedKeyword (callee keyword : String)
  | tooManyFormArguments (callee : String) (most given : Nat)
  | tooManyArguments (callee : String) (most : Nat)
  | repeatedArgument (callee param : String)
  | missingFormArgument (callee param : String)
  | missingArgument (callee param : String)
  | flagConstant
  | flagForm
  | boundForm
  | failMessage
  | emptySkip
  | noAtom
  | operatorForm
  | notOperator (callee : String)
  | noOperator (callee : String)
  | underscoreName (name : String)
  | invalidName (name : String)
  | duplicateRule (name : String)
  | duplicateLocal (name rule : String)
  | undefinedRule (name : String)
  | undefinedName (name source : String)
  | calledLocal (name : String)
  | unusedParameters (rule : String) (params : Nat)
  | noRules (grammar : String)
deriving DecidableEq, Repr

/-- The wording of a refusal. -/
def GrammarError.message : GrammarError → String
  | .description => "invalid grammar description"
  | .emptyDescription => "the grammar description is empty"
  | .integerRange text => s!"integer literal out of range: {text}"
  | .boundRange text => s!"invalid repetition bound: {text}"
  | .hostExpression source => "invalid host expression \x60" ++ source ++ "\x60"
  | .hostSection => "invalid host section"
  | .options => "invalid grammar options"
  | .blockBudget least given => s!"max_blocks must be at least {least}, got {given}"
  | .excerptWidth least => s!"excerpt_width must be at least {least}"
  | .regex pattern => s!"invalid regular expression /{pattern}/: error parsing pattern 0"
  | .regexSize pattern => s!"invalid regular expression /{pattern}/: error building NFA"
  | .ignoredStart => "the start rule cannot be ignored"
  | .byteRange c => "character " ++ Text.debugLetter c ++ " does not fit in a byte literal"
  | .boundsOrder least most =>
    s!"invalid repetition bounds: min_len {least} is greater than max_len {most}"
  | .unexpectedKeyword callee keyword =>
    s!"{callee}() got an unexpected keyword argument '{keyword}'"
  | .tooManyFormArguments callee most given =>
    s!"{callee}() takes at most {most} arguments ({given} given)"
  | .tooManyArguments callee most => s!"{callee}() takes {most} arguments"
  | .repeatedArgument callee param => s!"{callee}() got multiple values for argument '{param}'"
  | .missingFormArgument callee param => s!"{callee}() is missing required argument '{param}'"
  | .missingArgument callee param => s!"{callee}() is missing argument '{param}'"
  | .flagConstant => "expected a constant flag value"
  | .flagForm => "expected True or False"
  | .boundForm => "expected an integer or a host expression"
  | .failMessage => "Fail() expects a string message"
  | .emptySkip => "Skip() needs at least one expression"
  | .noAtom => "OperatorPrecedence() needs an atom"
  | .operatorForm => "expected Prefix, Postfix, LeftAssoc, RightAssoc or NonAssoc"
  | .notOperator callee => s!"'{callee}' is not an operator rule"
  | .noOperator callee => s!"{callee}() needs at least one operator"
  | .underscoreName name => s!"rule names cannot start with an underscore: '{name}'"
  | .invalidName name => s!"invalid rule name '{name}'"
  | .duplicateRule name => s!"duplicate rule name '{name}'"
  | .duplicateLocal name rule => s!"duplicate parameter or field '{name}' in '{rule}'"
  | .undefinedRule name => s!"undefined rule '{name}'"
  | .undefinedName name source =>
    s!"undefined name '{name}' in host expression " ++ "\x60" ++ source ++ "\x60"
  | .calledLocal name => s!"'{name}' is a local and cannot be called with arguments"
  | .unusedParameters rule params =>
    s!"rule '{rule}' takes {params} arguments but was used without any"
  | .noRules grammar => s!"the grammar '{grammar}' defines no rules"

/-- An assumption of the library that does not hold. -/
inductive Fault where
  | unresolved (name : String)
  | unknownRule (function : String)
  | unboundLocal (name function : String)
  | unplacedLabel (label : Nat) (function : String)
  | unknownLabel (label : Nat)
  | missingFunction (function : Nat)
  | emptyStack
  | codeEnd (function : String)
  | noSavedPosition
  | noList (slot : Nat)
  | emptyChain
  | noFailureMark
  | outOfRange (pool : String) (index : Nat)
  | outOfSteps
deriving DecidableEq, Repr

/-- The wording of a fault. -/
def Fault.message : Fault → String
  | .unresolved name => s!"reference to '{name}' was never resolved"
  | .unknownRule function => s!"no function for rule '{function}'"
  | .unboundLocal name function => s!"local '{name}' is not in scope in {function}"
  | .unplacedLabel label function => s!"label L{label} in {function} was never placed"
  | .unknownLabel label => s!"unknown label L{label}"
  | .missingFunction function => s!"function fn{function} was never written"
  | .emptyStack => "parser stack is empty"
  | .codeEnd function => s!"{function} ran past its last instruction"
  | .noSavedPosition => "expected a saved position"
  | .noList slot => s!"v{slot} does not hold a list"
  | .emptyChain => "cannot fold an empty operator chain"
  | .noFailureMark => "failed parse left no error"
  | .outOfRange pool index => s!"no entry {index} among the {pool}"
  | .outOfSteps => "the parse takes too many steps"

/-- A parse whose root rule failed. -/
structure ParseFailure where
  message : String
  /-- The farthest place reached. -/
  position : Position
  /-- The rule whose expression failed there. -/
  rule : String
  excerpt : String
  /-- Whether the input was a text, which can be shown with the failure. -/
  ofText : Bool

/-- A parse whose root rule succeeded and left some input. -/
structure PartialParse where
  message : String
  result : Value
  /-- The place of the first unread character. -/
  position : Position
  excerpt : String
  ofText : Bool

inductive Failure where
  | grammar (error : GrammarError) (span? : Option Span)
  | host (error : Host.Error)
  | internal (fault : Fault)
  | parse (report : ParseFailure)
  | incomplete (report : PartialParse)

/-- A labelled stretch of the text that a failure is about. -/
structure Label where
  start : Nat
  length : Nat
  text : String
deriving DecidableEq, Repr

namespace Failure

/-- The wording of a failure. -/
def message : Failure → String
  | .grammar error _ => error.message
  | .host error => error.message
  | .internal fault => fault.message
  | .parse report => report.message
  | .incomplete report => report.message

/-- Advice that comes with a failure. -/
def help? : Failure → Option String
  | .incomplete _ => some "pass fullparse = false to accept a prefix of the input"
  | _ => none

/-- Whether the text that a failure is about comes with it. -/
def hasSource : Failure → Bool
  | .grammar _ span? => span?.isSome
  | .host _ => false
  | .internal _ => false
  | .parse report => report.ofText
  | .incomplete report => report.ofText

/-- The stretch of text that a failure points at; one in a description is never empty. -/
def label? : Failure → Option Label
  | .grammar error span? =>
    span?.map fun span => ⟨span.start, max 1 (span.stop - span.start), error.message⟩
  | .host _ => none
  | .internal _ => none
  | .parse report =>
    if report.ofText then
      some ⟨report.position.index, 0, "while parsing '" ++ report.rule ++ "'"⟩
    else none
  | .incomplete report =>
    if report.ofText then some ⟨report.position.index, 0, "unexpected input"⟩ else none

/-- The place in the input that a failed parse points at. -/
def position? : Failure → Option Position
  | .parse report => some report.position
  | .incomplete report => some report.position
  | _ => none

end Failure

/-- The failure of a broken assumption. -/
def fault {α : Type} (f : Fault) : Except Failure α := .error (.internal f)

end Packrat
