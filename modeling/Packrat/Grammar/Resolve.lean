import Packrat.Grammar.Basic
import Packrat.Grammar.Slots

/-
**References to rules.**

Names that are not locals refer to the functions of rules.  A rule with parameters must be called
with an argument for each; keyword arguments are put into the order of the parameters.

Main definitions:

* `Packrat.Signatures` — the rules of a grammar with their parameters;
* `Packrat.resolveArgs` — the arguments of a call in the order of the parameters;
* `Packrat.Expr.resolved`, `Packrat.Grammar.resolved` — expressions and grammars whose names have
  found their rules.

Main results:

* `Packrat.resolveArgs_unnamed` — resolved arguments are given by position.
-/

set_option autoImplicit false

namespace Packrat

/-- The rules of a grammar with their parameters. -/
abbrev Signatures := List (String × List String)

/-- The rules of a grammar with their parameters. -/
def Grammar.signatures (g : Grammar) : Signatures :=
  g.definitions.map fun d => (d.name, d.paramList)

/-- The arguments of parameters, all of which must be given. -/
def collectArgs {α : Type} (callee : String) (span : Span) :
    List String → List (Option α) → Except Failure (List (Option String × α))
  | p :: ps, slot :: slots =>
    match slot with
    | none => refuse (.missingArgument callee p) span
    | some x => do
      let rest ← collectArgs callee span ps slots
      pure ((none, x) :: rest)
  | _, _ => .ok []

/-- The arguments of a call in the order of the parameters. -/
def resolveArgs {α : Type} (callee : String) (span : Span) (params : List String)
    (args : List (Option String × α)) : Except Failure (List (Option String × α)) :=
  match fillSlots params args with
  | .error (.unexpected keyword) => refuse (.unexpectedKeyword callee keyword) span
  | .error .tooMany => refuse (.tooManyArguments callee params.length) span
  | .error (.repeated param) => refuse (.repeatedArgument callee param) span
  | .ok slots => collectArgs callee span params slots

theorem collectArgs_unnamed {α : Type} {callee : String} {span : Span} {params : List String}
    {slots : List (Option α)} {out : List (Option String × α)}
    (h : collectArgs callee span params slots = .ok out) : ∀ a ∈ out, a.1 = none := by
  induction params generalizing slots out with
  | nil => simp [collectArgs] at h; simp [h]
  | cons p ps ih =>
    cases slots with
    | nil => simp [collectArgs] at h; simp [h]
    | cons slot slots =>
      cases slot with
      | none => simp [collectArgs, refuse] at h
      | some x =>
        simp only [collectArgs, bind, Except.bind] at h
        split at h
        · simp at h
        · next rest hr =>
          simp only [pure, Except.pure, Except.ok.injEq] at h
          subst h
          intro a ha
          rcases List.mem_cons.1 ha with rfl | ha
          · rfl
          · exact ih hr a ha

theorem resolveArgs_unnamed {α : Type} {callee : String} {span : Span} {params : List String}
    {args out : List (Option String × α)}
    (h : resolveArgs callee span params args = .ok out) : ∀ a ∈ out, a.1 = none := by
  simp only [resolveArgs] at h
  split at h
  · simp [refuse] at h
  · simp [refuse] at h
  · simp [refuse] at h
  · exact collectArgs_unnamed h

/-- A reference to a rule without arguments. -/
def resolveRef (rules : Signatures) (tag : Tag) (name : String) : Except Failure Expr :=
  match rules.lookup name with
  | none => refuse (.undefinedRule name) tag.span
  | some [] => .ok (.ref tag name (.rule (ruleFunction name)))
  | some params => refuse (.unusedParameters name params.length) tag.span

/-- A call of a rule. -/
def resolveCall (rules : Signatures) (tag : Tag) (callee : String)
    (args : List (Option String × Expr)) : Except Failure Expr :=
  match rules.lookup callee with
  | none => refuse (.undefinedRule callee) tag.span
  | some params => do
    let args ← resolveArgs callee tag.span params args
    pure (.call tag callee args (.rule (ruleFunction callee)))

mutual

/-- An expression whose names have found their rules. -/
def Expr.resolved (rules : Signatures) : Expr → Except Failure Expr
  | .str tag value flags => .ok (.str tag value flags)
  | .regex tag pattern flags => .ok (.regex tag pattern flags)
  | .ref tag name binding =>
    if binding = .unresolved then resolveRef rules tag name else .ok (.ref tag name binding)
  | .seq tag items cls? => do
    let items ← resolvedAll rules items
    pure (.seq tag items cls?)
  | .choice tag items => do
    let items ← resolvedAll rules items
    pure (.choice tag items)
  | .list tag item least most => do
    let item ← item.resolved rules
    pure (.list tag item least most)
  | .sep tag item separator flags => do
    let item ← item.resolved rules
    let separator ← separator.resolved rules
    pure (.sep tag item separator flags)
  | .opt tag inner => do
    let inner ← inner.resolved rules
    pure (.opt tag inner)
  | .apply tag left right applyLeft => do
    let left ← left.resolved rules
    let right ← right.resolved rules
    pure (.apply tag left right applyLeft)
  | .discard tag left right discardLeft => do
    let left ← left.resolved rules
    let right ← right.resolved rules
    pure (.discard tag left right discardLeft)
  | .expect tag inner => do
    let inner ← inner.resolved rules
    pure (.expect tag inner)
  | .expectNot tag inner => do
    let inner ← inner.resolved rules
    pure (.expectNot tag inner)
  | .fail tag message? => .ok (.fail tag message?)
  | .bound tag name value body => do
    let value ← value.resolved rules
    let body ← body.resolved rules
    pure (.bound tag name value body)
  | .satisfying tag inner predicate => do
    let inner ← inner.resolved rules
    let predicate ← predicate.resolved rules
    pure (.satisfying tag inner predicate)
  | .skip tag items => do
    let items ← resolvedAll rules items
    pure (.skip tag items)
  | .call tag callee args _ => do
    let args ← resolvedArgs rules args
    resolveCall rules tag callee args
  | .host tag snippet => .ok (.host tag snippet)
  | .operators tag atom levels => do
    let atom ← atom.resolved rules
    let levels ← resolvedLevels rules levels
    pure (.operators tag atom levels)

def resolvedAll (rules : Signatures) : List Expr → Except Failure (List Expr)
  | [] => .ok []
  | e :: es => do
    let e ← e.resolved rules
    let es ← resolvedAll rules es
    pure (e :: es)

def resolvedArgs (rules : Signatures) :
    List (Option String × Expr) → Except Failure (List (Option String × Expr))
  | [] => .ok []
  | (keyword, e) :: rest => do
    let e ← e.resolved rules
    let rest ← resolvedArgs rules rest
    pure ((keyword, e) :: rest)

def resolvedLevels (rules : Signatures) :
    List (Fixity × Expr) → Except Failure (List (Fixity × Expr))
  | [] => .ok []
  | (fixity, e) :: rest => do
    let e ← e.resolved rules
    let rest ← resolvedLevels rules rest
    pure ((fixity, e) :: rest)

end

/-- Definitions whose names have found their rules. -/
def resolvedDefinitions (rules : Signatures) : List Definition → Except Failure (List Definition)
  | [] => .ok []
  | d :: ds => do
    let body ← d.body.resolved rules
    let ds ← resolvedDefinitions rules ds
    pure ({ d with body } :: ds)

/-- A grammar whose names have found their rules. -/
def Grammar.resolved (g : Grammar) : Except Failure Grammar := do
  let definitions ← resolvedDefinitions g.signatures g.definitions
  pure { g with definitions }

end Packrat
