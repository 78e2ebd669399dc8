import Packrat.Description.Basic
import Packrat.Grammar.Basic
import Packrat.Grammar.Slots
import Packrat.Host.Source

/-
**Builtin forms.**

Calls of certain names build expressions instead of calling a rule: `Opt`, `List`, `Some`, `Expect`,
`ExpectNot`, `Fail`, `Left`, `Right`, `Skip`, `Sep` and `OperatorPrecedence`.  A form looks at its
arguments as they are written and takes their meaning only where it needs it, so what it refuses
does not depend on arguments it has not come to.

Main definitions:

* `Packrat.FormArg` — an argument with its possible meanings;
* `Packrat.formNames` — the names of the forms;
* `Packrat.lowerForm?` — the expression that a form builds;
* `Packrat.lowerOperatorLevel` — a level of operators.

Main results:

* `Packrat.lowerForm?_isSome_iff` — exactly the names of forms build something.
-/

set_option autoImplicit false

namespace Packrat

/-- An argument of a form: as it is written, and what it means as an expression or as a level of
operators. -/
structure FormArg where
  phrase : Phrase
  expr : Unit → Except Failure Expr
  level : Unit → Except Failure (Fixity × Expr)

/-- The names of the forms. -/
def formNames : List String :=
  ["Opt", "List", "Some", "Expect", "ExpectNot", "Fail", "Left", "Right", "Skip", "Sep",
    "OperatorPrecedence"]

/-- Host code at a place in a description. -/
def lowerSnippet (source : String) (span : Span) : Except Failure Snippet :=
  match Host.Term.parse source with
  | .ok term => .ok ⟨Text.trim source, term, []⟩
  | .error error => refuse error span

/-- A repetition; constant bounds must be in order. -/
def lowerRepetition (span : Span) (item : Expr) (least most : Option Bound) :
    Except Failure Expr :=
  match least, most with
  | some (.const m), some (.const n) =>
    if n < m then refuse (.boundsOrder m n) span else .ok (.list ⟨0, span⟩ item least most)
  | _, _ => .ok (.list ⟨0, span⟩ item least most)

/-- The arguments of a form by its parameters, the first `required` of which must be given. -/
def formSlots (callee : String) (params : List String) (required : Nat) (span : Span)
    (args : List (Option String × FormArg)) : Except Failure (List (Option FormArg)) :=
  match fillSlots params args with
  | .error (.unexpected keyword) => refuse (.unexpectedKeyword callee keyword) span
  | .error .tooMany => refuse (.tooManyFormArguments callee params.length args.length) span
  | .error (.repeated param) => refuse (.repeatedArgument callee param) span
  | .ok slots =>
    match firstMissing? (params.take required) slots with
    | some param => refuse (.missingFormArgument callee param) span
    | none => .ok slots

/-- The argument in a slot, if it is filled. -/
def slot? (slots : List (Option FormArg)) (i : Nat) : Option FormArg := (slots[i]?).join

/-- The expression in a slot that must be filled. -/
def slotExpr (callee : String) (span : Span) (slots : List (Option FormArg)) (i : Nat) :
    Except Failure Expr :=
  match slot? slots i with
  | some arg => arg.expr ()
  | none => refuse (.missingArgument callee (toString i)) span

/-- The arguments of a form that takes them by position only. -/
def positionalOnly (callee : String) (span : Span) :
    List (Option String × FormArg) → Except Failure (List FormArg)
  | [] => .ok []
  | (some keyword, _) :: _ => refuse (.unexpectedKeyword callee keyword) span
  | (none, arg) :: rest => do
    let args ← positionalOnly callee span rest
    pure (arg :: args)

/-- A truth value that must be known when the grammar is built. -/
def lowerFlag (arg? : Option FormArg) (default : Bool) : Except Failure Bool :=
  match arg? with
  | none => .ok default
  | some arg =>
    match arg.phrase with
    | .ref _ "True" => .ok true
    | .ref _ "False" => .ok false
    | .int _ n => .ok (n != 0)
    | .host span source => do
      let snippet ← lowerSnippet source span
      match snippet.term with
      | .literal s => pure s.value.truthy
      | _ => refuse .flagConstant span
    | phrase => refuse .flagForm phrase.span

/-- A bound given as an argument. -/
def lowerFormBound (arg? : Option FormArg) : Except Failure (Option Bound) :=
  match arg? with
  | none => .ok none
  | some arg =>
    match arg.phrase with
    | .int _ n => .ok (some (.const n))
    | .ref _ "None" => .ok none
    | .host span source => do
      let snippet ← lowerSnippet source span
      match snippet.term with
      | .literal .none => pure none
      | .literal (.int n) =>
        if 0 ≤ n.toInt then pure (some (.const n.toInt.toNat)) else pure (some (.host snippet))
      | _ => pure (some (.host snippet))
    | phrase => refuse .boundForm phrase.span

/-- The meanings of arguments, from left to right. -/
def exprsOf : List FormArg → Except Failure (List Expr)
  | [] => .ok []
  | arg :: rest => do
    let e ← arg.expr ()
    let es ← exprsOf rest
    pure (e :: es)

/-- The levels that arguments stand for, from left to right. -/
def levelsOf : List FormArg → Except Failure (List (Fixity × Expr))
  | [] => .ok []
  | arg :: rest => do
    let l ← arg.level ()
    let ls ← levelsOf rest
    pure (l :: ls)

/-- The kind of operators that a name stands for. -/
def fixity? : String → Option Fixity
  | "Prefix" => some .prefixOp
  | "Postfix" => some .postfixOp
  | "LeftAssoc" => some .leftAssoc
  | "RightAssoc" => some .rightAssoc
  | "NonAssoc" => some .nonAssoc
  | _ => none

/-- A level of operators: a kind applied to its alternatives. -/
def lowerOperatorLevel (span : Span) (callee : String) (args : List (Option String × FormArg)) :
    Except Failure (Fixity × Expr) :=
  match fixity? callee with
  | none => refuse (.notOperator callee) span
  | some fixity => do
    let args ← positionalOnly callee span args
    let operators ← exprsOf args
    match operators with
    | [] => refuse (.noOperator callee) span
    | [operator] => pure (fixity, operator)
    | _ => pure (fixity, .choice ⟨0, span⟩ operators)

/-- A form with a single expression. -/
def lowerUnary (callee : String) (span : Span) (args : List (Option String × FormArg)) :
    Except Failure Expr := do
  let slots ← formSlots callee ["expr"] 1 span args
  slotExpr callee span slots 0

/-- A form that keeps one of two results. -/
def lowerDiscard (callee : String) (span : Span) (discardLeft : Bool)
    (args : List (Option String × FormArg)) : Except Failure Expr := do
  let slots ← formSlots callee ["left", "right"] 2 span args
  let left ← slotExpr callee span slots 0
  let right ← slotExpr callee span slots 1
  pure (.discard ⟨0, span⟩ left right discardLeft)

/-- A failure, with or without a message. -/
def lowerFail (span : Span) (args : List (Option String × FormArg)) : Except Failure Expr := do
  let slots ← formSlots "Fail" ["message"] 0 span args
  match slot? slots 0 with
  | none => pure (.fail ⟨0, span⟩ none)
  | some arg =>
    match arg.phrase with
    | .str _ value _ false => pure (.fail ⟨0, span⟩ (some value))
    | _ => refuse .failMessage span

/-- A list with separators. -/
def lowerSep (span : Span) (args : List (Option String × FormArg)) : Except Failure Expr := do
  let slots ← formSlots "Sep"
    ["expr", "separator", "discard_separators", "allow_trailer", "allow_empty"] 2 span args
  let item ← slotExpr "Sep" span slots 0
  let separator ← slotExpr "Sep" span slots 1
  let discardSeparators ← lowerFlag (slot? slots 2) true
  let allowTrailer ← lowerFlag (slot? slots 3) false
  let allowEmpty ← lowerFlag (slot? slots 4) true
  pure (.sep ⟨0, span⟩ item separator ⟨discardSeparators, allowTrailer, allowEmpty⟩)

/-- A repetition between bounds. -/
def lowerList (span : Span) (args : List (Option String × FormArg)) : Except Failure Expr := do
  let slots ← formSlots "List" ["expr", "min_len", "max_len"] 1 span args
  let item ← slotExpr "List" span slots 0
  let least ← lowerFormBound (slot? slots 1)
  let most ← lowerFormBound (slot? slots 2)
  lowerRepetition span item least most

/-- Content to pass over. -/
def lowerSkip (span : Span) (args : List (Option String × FormArg)) : Except Failure Expr := do
  let args ← positionalOnly "Skip" span args
  if args.isEmpty then refuse .emptySkip span
  else do
    let items ← exprsOf args
    pure (.skip ⟨0, span⟩ items)

/-- Levels of operators over an atom. -/
def lowerOperators (span : Span) (args : List (Option String × FormArg)) :
    Except Failure Expr := do
  let args ← positionalOnly "OperatorPrecedence" span args
  match args with
  | [] => refuse .noAtom span
  | atom :: levels => do
    let atom ← atom.expr ()
    let levels ← levelsOf levels
    pure (.operators ⟨0, span⟩ atom levels)

/-- The expression that a form builds; `none` where the name is that of no form. -/
def lowerForm? (span : Span) (callee : String) (args : List (Option String × FormArg)) :
    Option (Except Failure Expr) :=
  let tag : Tag := ⟨0, span⟩
  match callee with
  | "Opt" => some ((lowerUnary callee span args).map (.opt tag))
  | "Some" => some ((lowerUnary callee span args).map fun e => .list tag e (some (.const 1)) none)
  | "Expect" => some ((lowerUnary callee span args).map (.expect tag))
  | "ExpectNot" => some ((lowerUnary callee span args).map (.expectNot tag))
  | "List" => some (lowerList span args)
  | "Fail" => some (lowerFail span args)
  | "Left" => some (lowerDiscard callee span false args)
  | "Right" => some (lowerDiscard callee span true args)
  | "Skip" => some (lowerSkip span args)
  | "Sep" => some (lowerSep span args)
  | "OperatorPrecedence" => some (lowerOperators span args)
  | _ => none

theorem lowerForm?_isSome_iff {span : Span} {callee : String}
    {args : List (Option String × FormArg)} :
    (lowerForm? span callee args).isSome ↔ callee ∈ formNames := by
  simp only [lowerForm?, formNames]
  split <;> simp_all

end Packrat
