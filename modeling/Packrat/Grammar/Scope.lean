import Packrat.Grammar.Basic

/-
**Scopes.**

A name refers to a local where one is in scope: a parameter of its definition, an earlier field of
its class, or a name bound by `let` around it.  Host code captures the locals among its free
names; its other names must be known from elsewhere.

Main definitions:

* `Packrat.Known` — the names known in a grammar;
* `Packrat.Expr.scoped` — an expression whose names have found their locals;
* `Packrat.Grammar.scoped` — a grammar whose names have found their locals.

Main results:

* `Packrat.Snippet.scoped_term` — host code keeps its term.
-/

set_option autoImplicit false

namespace Packrat

/-- The names known in a grammar: its rules, and what host code may use besides locals. -/
structure Known where
  rules : List String
  globals : List String

/-- The names known in a grammar; `natives` are the registered functions. -/
def Grammar.known (g : Grammar) (natives : List String) : Known :=
  { rules := g.definitions.map (·.name)
    globals := natives
      ++ [NodeClass.infixOp.name, NodeClass.prefixOp.name, NodeClass.postfixOp.name]
      ++ (g.definitions.filter (·.isClass)).map (·.name)
      ++ (g.sections.flatMap (·.assignments)).map (·.name)
      ++ Builtin.all.map (·.name) }

/-- Host code with the locals that it captures. -/
def Snippet.scoped (known : Known) (scope : List String) (span : Span) (s : Snippet) :
    Except Failure Snippet :=
  let names := s.term.freeNames
  match names.find? fun n => !scope.contains n && !known.globals.contains n with
  | some name => refuse (.undefinedName name s.source) span
  | none => .ok { s with locals := names.filter scope.contains }

theorem Snippet.scoped_term {known : Known} {scope : List String} {span : Span} {s t : Snippet}
    (h : s.scoped known scope span = .ok t) : t.term = s.term := by
  simp only [Snippet.scoped] at h
  split at h
  · simp [refuse] at h
  · simp only [Except.ok.injEq] at h
    rw [← h]

/-- A bound with the locals that its host code captures. -/
def Bound.scoped (known : Known) (scope : List String) (span : Span) :
    Option Bound → Except Failure (Option Bound)
  | some (.host s) => do
    let s ← s.scoped known scope span
    pure (some (.host s))
  | b => .ok b

mutual

/-- An expression whose names have found their locals. -/
def Expr.scoped (known : Known) (scope : List String) : Expr → Except Failure Expr
  | .str tag value flags => .ok (.str tag value flags)
  | .regex tag pattern flags => .ok (.regex tag pattern flags)
  | .ref tag name binding =>
    if scope.contains name then .ok (.ref tag name .local)
    else if known.rules.contains name then .ok (.ref tag name binding)
    else refuse (.undefinedRule name) tag.span
  | .seq tag items cls? => do
    let items ← scopedFields known scope ((cls?.map (·.fields)).getD []) items
    pure (.seq tag items cls?)
  | .choice tag items => do
    let items ← scopedAll known scope items
    pure (.choice tag items)
  | .list tag item least most => do
    let item ← item.scoped known scope
    let least ← Bound.scoped known scope tag.span least
    let most ← Bound.scoped known scope tag.span most
    pure (.list tag item least most)
  | .sep tag item separator flags => do
    let item ← item.scoped known scope
    let separator ← separator.scoped known scope
    pure (.sep tag item separator flags)
  | .opt tag inner => do
    let inner ← inner.scoped known scope
    pure (.opt tag inner)
  | .apply tag left right applyLeft => do
    let left ← left.scoped known scope
    let right ← right.scoped known scope
    pure (.apply tag left right applyLeft)
  | .discard tag left right discardLeft => do
    let left ← left.scoped known scope
    let right ← right.scoped known scope
    pure (.discard tag left right discardLeft)
  | .expect tag inner => do
    let inner ← inner.scoped known scope
    pure (.expect tag inner)
  | .expectNot tag inner => do
    let inner ← inner.scoped known scope
    pure (.expectNot tag inner)
  | .fail tag message? => .ok (.fail tag message?)
  | .bound tag name value body => do
    let value ← value.scoped known scope
    let body ← body.scoped known (name :: scope)
    pure (.bound tag name value body)
  | .satisfying tag inner predicate => do
    let inner ← inner.scoped known scope
    let predicate ← predicate.scoped known scope
    pure (.satisfying tag inner predicate)
  | .skip tag items => do
    let items ← scopedAll known scope items
    pure (.skip tag items)
  | .call tag callee args binding =>
    if scope.contains callee then refuse (.calledLocal callee) tag.span
    else do
      let args ← scopedArgs known scope args
      pure (.call tag callee args binding)
  | .host tag snippet => do
    let snippet ← snippet.scoped known scope tag.span
    pure (.host tag snippet)
  | .operators tag atom levels => do
    let atom ← atom.scoped known scope
    let levels ← scopedLevels known scope levels
    pure (.operators tag atom levels)

def scopedAll (known : Known) (scope : List String) : List Expr → Except Failure (List Expr)
  | [] => .ok []
  | e :: es => do
    let e ← e.scoped known scope
    let es ← scopedAll known scope es
    pure (e :: es)

/-- Items of which each may use the fields before it. -/
def scopedFields (known : Known) (scope fields : List String) :
    List Expr → Except Failure (List Expr)
  | [] => .ok []
  | e :: es => do
    let e ← e.scoped known scope
    let es ← scopedFields known (fields.take 1 ++ scope) (fields.drop 1) es
    pure (e :: es)

def scopedArgs (known : Known) (scope : List String) :
    List (Option String × Expr) → Except Failure (List (Option String × Expr))
  | [] => .ok []
  | (keyword, e) :: rest => do
    let e ← e.scoped known scope
    let rest ← scopedArgs known scope rest
    pure ((keyword, e) :: rest)

def scopedLevels (known : Known) (scope : List String) :
    List (Fixity × Expr) → Except Failure (List (Fixity × Expr))
  | [] => .ok []
  | (fixity, e) :: rest => do
    let e ← e.scoped known scope
    let rest ← scopedLevels known scope rest
    pure ((fixity, e) :: rest)

end

/-- Definitions whose names have found their locals. -/
def scopedDefinitions (known : Known) : List Definition → Except Failure (List Definition)
  | [] => .ok []
  | d :: ds => do
    let body ← d.body.scoped known d.paramList
    let ds ← scopedDefinitions known ds
    pure ({ d with body } :: ds)

/-- A grammar whose names have found their locals. -/
def Grammar.scoped (natives : List String) (g : Grammar) : Except Failure Grammar := do
  let definitions ← scopedDefinitions (g.known natives) g.definitions
  pure { g with definitions }

end Packrat
