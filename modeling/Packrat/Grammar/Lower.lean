import Packrat.Expr.Text
import Packrat.Grammar.Forms

/-
**From descriptions to grammars.**

Sugar is resolved: operators behind a phrase become repetitions, operators between phrases become
expressions of their own, nested alternatives become one, and calls of builtin forms become what
they build.  A rule of the grammar takes precedence over a form of its name.  If anything is
ignored, a rule that skips all of it is added.

Main definitions:

* `Packrat.Phrase.lower` — the expression of a phrase;
* `Packrat.skipRule` — the rule that skips ignored content;
* `Packrat.Description.lower` — the grammar of a description.
-/

set_option autoImplicit false

namespace Packrat

/-- The bytes of a literal. Characters of a binary literal stand for single bytes. -/
def literalBytes (value : String) (binary : Bool) (span : Span) : Except Failure (List UInt8) :=
  if binary then
    match value.toList.find? fun c => 255 < c.toNat with
    | some c => refuse (.byteRange c) span
    | none => .ok (value.toList.map fun c => UInt8.ofNat c.toNat)
  else .ok value.toUTF8.data.toList

/-- A bound of a repetition. -/
def Phrase.Bound.lower (span : Span) : Phrase.Bound → Except Failure Packrat.Bound
  | .int n => .ok (.const n)
  | .host source => (lowerSnippet source span).map .host

/-- A bound of a repetition, if there is one. -/
def lowerBound? (span : Span) : Option Phrase.Bound → Except Failure (Option Bound)
  | none => .ok none
  | some b => (b.lower span).map some

/-- An expression with an operator behind it. -/
def lowerSuffix (span : Span) (inner : Expr) (suffix : Phrase.Suffix) : Except Failure Expr :=
  let tag : Tag := ⟨0, span⟩
  match suffix with
  | .opt => .ok (.opt tag inner)
  | .many => .ok (.list tag inner none none)
  | .some => .ok (.list tag inner (some (.const 1)) none)
  | .repeated least most => do
    let least ← lowerBound? span least
    let most ← lowerBound? span most
    lowerRepetition span inner least most

/-- The alternatives that an expression consists of. -/
def alternatives : Expr → List Expr
  | .choice _ items => items
  | e => [e]

/-- Two expressions with an operator between them. -/
def lowerOperator (span : Span) (op : Phrase.Operator) (left right : Expr) : Expr :=
  let tag : Tag := ⟨0, span⟩
  match op with
  | .choice => .choice tag (alternatives left ++ alternatives right)
  | .applyRight => .apply tag left right false
  | .applyLeft => .apply tag left right true
  | .sep => .sep tag left right ⟨true, false, true⟩
  | .sepTrailer => .sep tag left right ⟨true, true, true⟩
  | .keepLeft => .discard tag left right false
  | .keepRight => .discard tag left right true
  | .satisfying => .satisfying tag left right

/-- An integer, which is host code. -/
def lowerInteger (n : Nat) : Snippet := ⟨toString n, .literal (.int (Int64.ofNat n)), []⟩

/-- Arguments that are expressions, from left to right. -/
def lowerArgs : List (Option String × FormArg) → Except Failure (List (Option String × Expr))
  | [] => .ok []
  | (keyword, arg) :: rest => do
    let e ← arg.expr ()
    let es ← lowerArgs rest
    pure ((keyword, e) :: es)

/-- A call of a form or of a rule. `rules` are the names that the grammar defines. -/
def lowerCall (rules : List String) (span : Span) (callee : String)
    (args : List (Option String × FormArg)) : Except Failure Expr :=
  match if rules.contains callee then none else lowerForm? span callee args with
  | some form => form
  | none => do
    let args ← lowerArgs args
    pure (.call ⟨0, span⟩ callee args .unresolved)

mutual

/-- The expression of a phrase. -/
def Phrase.lower (rules : List String) : Phrase → Except Failure Expr
  | .str span value ignoreCase binary => do
    let bytes ← literalBytes value binary span
    pure (.str ⟨0, span⟩ bytes ⟨ignoreCase, binary, false⟩)
  | .regex span pattern ignoreCase binary =>
    .ok (.regex ⟨0, span⟩ pattern ⟨ignoreCase, binary, false⟩)
  | .ref span name => .ok (.ref ⟨0, span⟩ name .unresolved)
  | .call span callee args => lowerCall rules span callee (formArgs rules args)
  | .sequence span items => do
    let es ← lowerPhrases rules items
    pure (.seq ⟨0, span⟩ es none)
  | .suffixed span inner suffix => do
    let e ← inner.lower rules
    lowerSuffix span e suffix
  | .binary span op left right => do
    let l ← left.lower rules
    let r ← right.lower rules
    pure (lowerOperator span op l r)
  | .bound span name value body => do
    let v ← value.lower rules
    let b ← body.lower rules
    pure (.bound ⟨0, span⟩ name v b)
  | .host span source => do
    let snippet ← lowerSnippet source span
    pure (.host ⟨0, span⟩ snippet)
  | .int span n => .ok (.host ⟨0, span⟩ (lowerInteger n))

/-- The expressions of phrases, from left to right. -/
def lowerPhrases (rules : List String) : List Phrase → Except Failure (List Expr)
  | [] => .ok []
  | p :: ps => do
    let e ← p.lower rules
    let es ← lowerPhrases rules ps
    pure (e :: es)

/-- Arguments with their possible meanings. -/
def formArgs (rules : List String) :
    List (Option String × Phrase) → List (Option String × FormArg)
  | [] => []
  | (keyword, p) :: rest =>
    (keyword, ⟨p, fun _ => p.lower rules, fun _ => p.lowerLevel rules⟩) :: formArgs rules rest

/-- The level of operators that a phrase stands for. -/
def Phrase.lowerLevel (rules : List String) : Phrase → Except Failure (Fixity × Expr)
  | .call span callee args => lowerOperatorLevel span callee (formArgs rules args)
  | .str span _ _ _ | .regex span _ _ _ | .ref span _ | .sequence span _ | .suffixed span _ _
  | .binary span _ _ _ | .bound span _ _ _ | .host span _ | .int span _ =>
    refuse .operatorForm span

end

/-! ### Statements -/

/-- The definition of a rule. A body that spans the whole statement was written without a name. -/
def lowerRule (rules : List String) (description : String) (r : RuleStatement) :
    Except Failure Definition := do
  let body ← r.body.lower rules
  let written := r.span.textOf description
  let source := if r.span = r.body.span then r.name ++ " = " ++ written else written
  pure ⟨r.name, r.params, body, r.ignored, none, false, source, r.span⟩

/-- The definition of a class: its fields one after the other. -/
def lowerClass (rules : List String) (description : String) (c : ClassStatement) :
    Except Failure Definition := do
  let fields := c.fields.map (·.name)
  let items ← lowerPhrases rules (c.fields.map (·.phrase))
  let body := .seq ⟨0, c.span⟩ items (some ⟨c.name, fields⟩)
  pure ⟨c.name, c.params, body, c.ignored, some fields, false, c.span.textOf description, c.span⟩

/-- A host section. -/
def lowerSection (source : String) (span : Span) : Except Failure HostSection :=
  match Host.parseSection source with
  | .ok assignments => .ok ⟨source, assignments, span⟩
  | .error error => refuse error span

/-- A grammar with one more statement at its end. -/
def lowerStatement (rules : List String) (description : String) (g : Grammar) :
    Statement → Except Failure Grammar
  | .rule r => do
    let d ← lowerRule rules description r
    pure { g with definitions := g.definitions ++ [d] }
  | .cls c => do
    let d ← lowerClass rules description c
    pure { g with definitions := g.definitions ++ [d] }
  | .hostSection source span => do
    let s ← lowerSection source span
    pure { g with sections := g.sections ++ [s] }

/-- The rule that skips all ignored content. -/
def skipRule (ignored : List Definition) : Definition :=
  let body := Expr.skip ⟨0, .nowhere⟩
    (ignored.map fun d => .ref ⟨0, d.span⟩ d.name .unresolved)
  { name := ignoredRule, params := none, body, ignored := false, fields := none, synthetic := true
    source := ignoredRule ++ " = " ++ body.text, span := .nowhere }

/-- A grammar with a rule that skips ignored content, if there is any. -/
def addSkipRule (g : Grammar) : Except Failure Grammar :=
  let ignored := g.definitions.filter (·.ignored)
  if ignored.isEmpty then .ok g
  else
    match ignored.find? fun d => isStart d.name with
    | some start => refuse .ignoredStart start.span
    | none => .ok { g with definitions := g.definitions ++ [skipRule ignored] }

/-- The name that a statement defines. -/
def Statement.name? : Statement → Option String
  | .rule r => some r.name
  | .cls c => some c.name
  | .hostSection _ _ => none

/-- The statements of a description. A single phrase is the body of the rule `start`. -/
def Description.toStatements : Description → List Statement
  | .statements items => items
  | .phrase body => [.rule ⟨"start", none, body, false, body.span⟩]

/-- The grammar of a description, given with its text. -/
def Description.lower (description : Description) (text : String) : Except Failure Grammar := do
  let statements := description.toStatements
  let rules := statements.filterMap (·.name?)
  let g ← statements.foldlM (lowerStatement rules text) ⟨[], []⟩
  addSkipRule g

end Packrat
