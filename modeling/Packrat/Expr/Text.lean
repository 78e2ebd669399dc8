import Packrat.Expr.Basic
import Packrat.Text.Find
import Packrat.Text.Quoted
import Packrat.Text.Utf8

/-
**Expressions in the notation of descriptions.**

Main definitions:

* `Packrat.Expr.text` — an expression as text;
* `Packrat.Expr.isOperatorForm` — expressions that stand in parentheses inside of others.
-/

set_option autoImplicit false

namespace Packrat.Expr

/-- Whether an expression is written with an operator, so that it needs parentheses as an
operand. -/
def isOperatorForm : Expr → Bool
  | .choice _ _ | .apply _ _ _ _ | .discard _ _ _ _ | .satisfying _ _ _ | .bound _ _ _ _ => true
  | .sep _ _ _ flags => flags.discardSeparators && flags.allowEmpty
  | _ => false

/-- The text of an operand. -/
def operand (e : Expr) (shown : String) : String :=
  if e.isOperatorForm then "(" ++ shown ++ ")" else shown

/-- A truth value in descriptions. -/
def flagText (b : Bool) : String := if b then "True" else "False"

/-- The characters that literal bytes stand for. -/
def literalChars (value : List UInt8) (binary : Bool) : List Char :=
  if binary then Text.latin value else Text.Utf8.decode value

/-- A literal in double quotes. -/
def literalText (value : List UInt8) (binary : Bool) : String :=
  let quoted := Text.quoteChars (literalChars value binary)
  let body := (quoted.drop 1).dropLast
  String.ofList ('"' :: Text.replaceAll ['"'] ['\\', '"'] body ++ ['"'])

/-- A pattern between slashes. -/
def patternText (pattern : String) : String :=
  "/" ++ String.ofList (Text.replaceAll ['/'] ['\\', '/'] pattern.toList) ++ "/"

/-- The letters around a literal. -/
def withFlags (flags : MatchFlags) (body : String) : String :=
  (if flags.binary then "b" else "") ++ body ++ (if flags.ignoreCase then "i" else "")

/-- Host code between its marks. -/
def snippetText (s : Snippet) : String := "\x60" ++ s.source ++ "\x60"

/-- A bound, or nothing. -/
def boundText : Option Bound → String
  | none => ""
  | some (.const n) => toString n
  | some (.host s) => snippetText s

/-- The operator behind a repeated expression. -/
def repetitionText (least most : Option Bound) : String :=
  match least, most with
  | none, none => "*"
  | some (.const 0), none => "*"
  | some (.const 1), none => "+"
  | least, most => "\x7b" ++ boundText least ++ "," ++ boundText most ++ "\x7d"

/-- A separated list, given its parts as text. -/
def sepText (flags : SepFlags) (item separator itemOperand separatorOperand : String) : String :=
  if flags.discardSeparators && flags.allowEmpty then
    itemOperand ++ (if flags.allowTrailer then " /? " else " // ") ++ separatorOperand
  else
    "Sep(" ++ item ++ ", " ++ separator
      ++ ", discard_separators=" ++ flagText flags.discardSeparators
      ++ ", allow_trailer=" ++ flagText flags.allowTrailer
      ++ ", allow_empty=" ++ flagText flags.allowEmpty ++ ")"

mutual

/-- An expression in the notation of descriptions. -/
def text : Expr → String
  | .str _ value flags => withFlags flags (literalText value flags.binary)
  | .regex _ pattern flags => withFlags flags (patternText pattern)
  | .ref _ name _ => name
  | .seq _ items _ => "[" ++ ", ".intercalate (textAll items) ++ "]"
  | .choice _ alternatives => " | ".intercalate (textOperands alternatives)
  | .list _ item least most => operand item item.text ++ repetitionText least most
  | .sep _ item separator flags =>
    sepText flags item.text separator.text (operand item item.text)
      (operand separator separator.text)
  | .opt _ inner => operand inner inner.text ++ "?"
  | .apply _ left right applyLeft =>
    operand left left.text ++ (if applyLeft then " <| " else " |> ") ++ operand right right.text
  | .discard _ left right discardLeft =>
    operand left left.text ++ (if discardLeft then " >> " else " << ") ++ operand right right.text
  | .expect _ inner => "Expect(" ++ inner.text ++ ")"
  | .expectNot _ inner => "ExpectNot(" ++ inner.text ++ ")"
  | .fail _ none => "Fail()"
  | .fail _ (some message) => "Fail(" ++ Text.quoteText message ++ ")"
  | .bound _ name value body => "let " ++ name ++ " = " ++ value.text ++ " in " ++ body.text
  | .satisfying _ inner predicate =>
    operand inner inner.text ++ " where " ++ operand predicate predicate.text
  | .skip _ items => "Skip(" ++ ", ".intercalate (textAll items) ++ ")"
  | .call _ callee args _ => callee ++ "(" ++ ", ".intercalate (textArgs args) ++ ")"
  | .host _ snippet => snippetText snippet
  | .operators _ atom levels =>
    "OperatorPrecedence(" ++ ", ".intercalate (atom.text :: textLevels levels) ++ ")"

def textAll : List Expr → List String
  | [] => []
  | e :: es => e.text :: textAll es

def textOperands : List Expr → List String
  | [] => []
  | e :: es => operand e e.text :: textOperands es

def textArgs : List (Option String × Expr) → List String
  | [] => []
  | (none, e) :: rest => e.text :: textArgs rest
  | (some name, e) :: rest => (name ++ "=" ++ e.text) :: textArgs rest

def textLevels : List (Fixity × Expr) → List String
  | [] => []
  | (fixity, e) :: rest => (fixity.name ++ "(" ++ e.text ++ ")") :: textLevels rest

end

end Packrat.Expr
