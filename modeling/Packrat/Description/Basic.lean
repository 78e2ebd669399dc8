import Packrat.Span

/-
**Grammar descriptions.**

A description is a list of statements (rules, classes, host sections) or a single phrase.  A
phrase is a parsing expression as it is written, with the span it was written in.

Main definitions:

* `Packrat.Phrase` — phrases;
* `Packrat.Statement`, `Packrat.Description` — statements and descriptions.
-/

set_option autoImplicit false

namespace Packrat

/-- Operators between two phrases. -/
inductive Phrase.Operator where
  /-- `|` -/
  | choice
  /-- `|>` -/
  | applyRight
  /-- `<|` -/
  | applyLeft
  /-- `//` -/
  | sep
  /-- `/?` -/
  | sepTrailer
  /-- `<<` -/
  | keepLeft
  /-- `>>` -/
  | keepRight
  /-- `where` -/
  | satisfying
deriving DecidableEq, Repr

/-- A bound of a repetition. -/
inductive Phrase.Bound where
  | int (n : Nat)
  | host (source : String)
deriving DecidableEq, Repr

/-- Operators behind a phrase. -/
inductive Phrase.Suffix where
  /-- `?` -/
  | opt
  /-- `*` -/
  | many
  /-- `+` -/
  | some
  /-- `{n}`, `{n,}`, `{,m}`, `{n,m}` -/
  | repeated (least most : Option Phrase.Bound)
deriving DecidableEq, Repr

/-- Parsing expressions as they are written. -/
inductive Phrase where
  | str (span : Span) (value : String) (ignoreCase binary : Bool)
  | regex (span : Span) (pattern : String) (ignoreCase binary : Bool)
  | ref (span : Span) (name : String)
  /-- Arguments are given by position or by keyword. -/
  | call (span : Span) (callee : String) (args : List (Option String × Phrase))
  | sequence (span : Span) (items : List Phrase)
  | suffixed (span : Span) (inner : Phrase) (suffix : Phrase.Suffix)
  | binary (span : Span) (op : Phrase.Operator) (left right : Phrase)
  | bound (span : Span) (name : String) (value body : Phrase)
  | host (span : Span) (source : String)
  | int (span : Span) (n : Nat)

/-- Where a phrase is written. -/
def Phrase.span : Phrase → Span
  | .str span _ _ _ | .regex span _ _ _ | .ref span _ | .call span _ _ | .sequence span _
  | .suffixed span _ _ | .binary span _ _ _ | .bound span _ _ _ | .host span _ | .int span _ => span

/-- The definition of a rule. -/
structure RuleStatement where
  name : String
  params : Option (List String)
  body : Phrase
  ignored : Bool
  span : Span

/-- A field of a class. -/
structure FieldStatement where
  name : String
  phrase : Phrase
  span : Span

/-- The definition of a class. -/
structure ClassStatement where
  name : String
  params : Option (List String)
  fields : List FieldStatement
  ignored : Bool
  span : Span

inductive Statement where
  | rule (r : RuleStatement)
  | cls (c : ClassStatement)
  | hostSection (source : String) (span : Span)

inductive Description where
  | statements (statements : List Statement)
  /-- A phrase on its own is the body of the rule `start`. -/
  | phrase (body : Phrase)

end Packrat
