import Packrat.Host.Term
import Packrat.Span
import Packrat.Value.Basic

/-
**Parsing expressions.**

What phrases mean once sugar has been resolved.  Each expression has a number, which tells it
apart from all others of the grammar, and the span it was written in.  Names refer to locals or
to rules; until a grammar has been analyzed they refer to nothing and numbers are zero.

Main definitions:

* `Packrat.Binding` — what a name refers to;
* `Packrat.Snippet`, `Packrat.Bound`, `Packrat.Fixity` — host code, bounds of repetitions, kinds
  of operators;
* `Packrat.Expr` — expressions;
* `Packrat.Expr.children` — the expressions directly below one.

Main results:

* `Packrat.Expr.sizeOf_lt_of_mem_children` — an expression is larger than those below it.
-/

set_option autoImplicit false

namespace Packrat

/-- What a name refers to. -/
inductive Binding where
  | unresolved
  /-- A parameter, an earlier field, or a name bound by `let`. -/
  | local
  /-- The function of a rule. -/
  | rule (function : String)
deriving DecidableEq, Repr

/-- Host code in a grammar. -/
structure Snippet where
  source : String
  term : Host.Term
  /-- The free names that refer to locals of the grammar. -/
  locals : List String

/-- A bound of a repetition. -/
inductive Bound where
  | const (n : Nat)
  | host (s : Snippet)

/-- Where an operator stands, and how a chain of operators groups. -/
inductive Fixity where
  | prefixOp
  | postfixOp
  | leftAssoc
  | rightAssoc
  | nonAssoc
deriving DecidableEq, Repr

/-- The name of a kind of operators in descriptions. -/
def Fixity.name : Fixity → String
  | .prefixOp => "Prefix"
  | .postfixOp => "Postfix"
  | .leftAssoc => "LeftAssoc"
  | .rightAssoc => "RightAssoc"
  | .nonAssoc => "NonAssoc"

/-- The number of an expression, and the span it was written in. -/
structure Tag where
  id : Nat
  span : Span
deriving DecidableEq, Repr

/-- How a separated list treats its separators. -/
structure SepFlags where
  discardSeparators : Bool
  allowTrailer : Bool
  allowEmpty : Bool
deriving DecidableEq, Repr

/-- Bytes, or a pattern, to match; `skip` says that ignored content behind it is skipped. -/
structure MatchFlags where
  ignoreCase : Bool
  binary : Bool
  skip : Bool
deriving DecidableEq, Repr

inductive Expr where
  | str (tag : Tag) (value : List UInt8) (flags : MatchFlags)
  | regex (tag : Tag) (pattern : String) (flags : MatchFlags)
  | ref (tag : Tag) (name : String) (binding : Binding)
  /-- One after the other. With a class, results become fields that later items may read, and
  together they build a node. -/
  | seq (tag : Tag) (items : List Expr) (cls? : Option NodeClass)
  /-- The first that succeeds. -/
  | choice (tag : Tag) (alternatives : List Expr)
  /-- As often as possible, within bounds. -/
  | list (tag : Tag) (item : Expr) (least most : Option Bound)
  /-- Items with separators between them. -/
  | sep (tag : Tag) (item separator : Expr) (flags : SepFlags)
  | opt (tag : Tag) (inner : Expr)
  /-- Calls the result of one side on that of the other; `applyLeft` says that the left side is
  the function. -/
  | apply (tag : Tag) (left right : Expr) (applyLeft : Bool)
  /-- Both, keeping one result; `discardLeft` says that the right one is kept. -/
  | discard (tag : Tag) (left right : Expr) (discardLeft : Bool)
  /-- Succeeds where the inner expression does, reading nothing. -/
  | expect (tag : Tag) (inner : Expr)
  /-- Succeeds where the inner expression fails, reading nothing. -/
  | expectNot (tag : Tag) (inner : Expr)
  | fail (tag : Tag) (message? : Option String)
  | bound (tag : Tag) (name : String) (value body : Expr)
  /-- Keeps a result that satisfies a predicate. -/
  | satisfying (tag : Tag) (inner predicate : Expr)
  /-- Any of the expressions, as often as possible, without a result. -/
  | skip (tag : Tag) (items : List Expr)
  /-- A rule with arguments, by position or keyword. -/
  | call (tag : Tag) (callee : String) (args : List (Option String × Expr)) (binding : Binding)
  | host (tag : Tag) (snippet : Snippet)
  /-- Levels of operators over an atom, the tightest first. -/
  | operators (tag : Tag) (atom : Expr) (levels : List (Fixity × Expr))

namespace Expr

/-- The tag of an expression. -/
def tag : Expr → Tag
  | .str t _ _ | .regex t _ _ | .ref t _ _ | .seq t _ _ | .choice t _ | .list t _ _ _
  | .sep t _ _ _ | .opt t _ | .apply t _ _ _ | .discard t _ _ _ | .expect t _ | .expectNot t _
  | .fail t _ | .bound t _ _ _ | .satisfying t _ _ | .skip t _ | .call t _ _ _ | .host t _
  | .operators t _ _ => t

/-- The span of an expression. -/
def span (e : Expr) : Span := e.tag.span

/-- The number of an expression. -/
def id (e : Expr) : Nat := e.tag.id

/-- The expressions directly below one, in the order in which they are written. -/
def children : Expr → List Expr
  | .str _ _ _ | .regex _ _ _ | .ref _ _ _ | .fail _ _ | .host _ _ => []
  | .seq _ items _ | .choice _ items | .skip _ items => items
  | .list _ inner _ _ | .opt _ inner | .expect _ inner | .expectNot _ inner => [inner]
  | .sep _ a b _ | .apply _ a b _ | .discard _ a b _ | .bound _ _ a b | .satisfying _ a b => [a, b]
  | .call _ _ args _ => args.map (·.2)
  | .operators _ atom levels => atom :: levels.map (·.2)

theorem sizeOf_snd_lt {α : Type} [SizeOf α] {pairs : List (α × Expr)} {e : Expr}
    (h : e ∈ pairs.map (·.2)) : sizeOf e < sizeOf pairs := by
  obtain ⟨p, hp, rfl⟩ := List.mem_map.1 h
  have below := List.sizeOf_lt_of_mem hp
  obtain ⟨a, e⟩ := p
  simp only [Prod.mk.sizeOf_spec] at below
  simp only
  omega

theorem sizeOf_lt_of_mem_children {c e : Expr} (h : c ∈ e.children) :
    sizeOf c < sizeOf e := by
  cases e with
  | str | regex | ref | fail | host => simp [children] at h
  | seq tag items cls? | choice tag items | skip tag items =>
    have := List.sizeOf_lt_of_mem (show c ∈ items from h)
    simp only [seq.sizeOf_spec, choice.sizeOf_spec, skip.sizeOf_spec]
    omega
  | list | opt | expect | expectNot =>
    simp only [children, List.mem_singleton] at h
    subst h
    simp only [list.sizeOf_spec, opt.sizeOf_spec, expect.sizeOf_spec, expectNot.sizeOf_spec]
    omega
  | sep | apply | discard | bound | satisfying =>
    simp only [children, List.mem_cons, List.not_mem_nil, or_false] at h
    simp only [sep.sizeOf_spec, apply.sizeOf_spec, discard.sizeOf_spec, bound.sizeOf_spec,
      satisfying.sizeOf_spec]
    rcases h with rfl | rfl <;> omega
  | call tag callee args binding =>
    have := sizeOf_snd_lt (show c ∈ args.map (·.2) from h)
    simp only [call.sizeOf_spec]
    omega
  | operators tag atom levels =>
    simp only [children, List.mem_cons] at h
    simp only [operators.sizeOf_spec]
    rcases h with rfl | h
    · omega
    · have := sizeOf_snd_lt h
      omega

/-- Whether an expression is a bare failure. -/
def isFail : Expr → Bool
  | .fail _ _ => true
  | _ => false

end Expr

/-- The name of the function of a rule. -/
def ruleFunction (rule : String) : String := "_try_" ++ rule

/-- The name of the rule that skips ignored content. -/
def ignoredRule : String := "_ignored"

end Packrat
