import Packrat.Expr.Basic
import Packrat.Failure
import Packrat.Text.Blank
import Packrat.Text.ByteOffset

/-
**Grammars.**

A grammar is a list of definitions, one for each rule and class, and of host sections.  A
definition that no description contains, made to skip ignored content, is synthetic.

Main definitions:

* `Packrat.Definition`, `Packrat.HostSection`, `Packrat.Grammar` — definitions, sections and
  grammars;
* `Packrat.isStart` — whether a name is that of the start rule;
* `Packrat.Span.textOf` — the text of a span, without the blanks around it.
-/

set_option autoImplicit false

namespace Packrat

/-- A rule or a class. -/
structure Definition where
  name : String
  params : Option (List String)
  body : Expr
  ignored : Bool
  /-- The fields of a class. -/
  fields : Option (List String)
  synthetic : Bool
  /-- The text of the definition in its description. -/
  source : String
  span : Span

namespace Definition

/-- Whether a definition is that of a class. -/
def isClass (d : Definition) : Bool := d.fields.isSome

/-- The parameters of a definition. -/
def paramList (d : Definition) : List String := d.params.getD []

end Definition

/-- A host section: assignments evaluated when the grammar is loaded. -/
structure HostSection where
  source : String
  assignments : List Host.Assignment
  span : Span

structure Grammar where
  definitions : List Definition
  sections : List HostSection

/-- Whether a name is `start` in letters of any case. -/
def isStart (name : String) : Bool := name.toLower == "start"

/-- The text of a span, without the blanks around it. -/
def Span.textOf (span : Span) (description : String) : String :=
  Text.trim (Text.bytesBetween span.start span.stop description)

/-- The refusal of a grammar at a place. -/
def refuse {α : Type} (error : GrammarError) (span : Span) : Except Failure α :=
  .error (.grammar error (some span))

end Packrat
