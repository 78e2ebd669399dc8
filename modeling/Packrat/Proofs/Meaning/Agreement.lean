import Mathlib.Data.Option.Basic
import Packrat.Proofs.Evaluation.Parametricity
import Packrat.Proofs.Simulation.Calls

/-
**Readings that tell nothing apart that is alike.**

Without a memory, what a reading comes to depends on the values of names only as far as host code
can tell them apart, and on the numbers of a program only as far as functions and shared lists under
these numbers are told apart.  So two readings of an expression whose values are alike, and whose
numbers go together, give up together, are stopped by the same, or come to verdicts at the same
place with values that are alike.

Main definitions:

* `Packrat.Reading.Agrees` — readings that come to the same where identities go together;
* `Packrat.Expr.Matches` — layouts of an expression whose numbers go together;
* `Packrat.Scene.Like`, `Packrat.World.Like` — scenes and worlds that are alike.

Main results:

* `Packrat.Expr.agrees` — expressions, by induction on them;
* `Packrat.World.Like.call` — **calls, by induction on the rounds**.
-/

set_option autoImplicit false

namespace Packrat

open Likeness

/-- Verdicts at the same place, with values that go together. -/
inductive Verdict.Rel {α β : Type} (R : α → β → Prop) : Verdict α → Verdict β → Prop
  | success {x : α} {y : β} (h : R x y) (stop : Nat) : Rel R (.success x stop) (.success y stop)
  | failure (entry : FailureEntry) (place : Nat) :
      Rel R (.failure entry place) (.failure entry place)

/-! ### Parts of readings -/

namespace Reading

variable {α β γ δ : Type}

/-- Readings that come to the same where they begin with identities that go together. -/
def Agrees (L : Likeness) (R : α → β → Prop) (r : Reading α) (r' : Reading β) : Prop :=
  ∀ s s' : Store, L.counters s.identity s'.identity →
    Option.Rel (Agree fun x y => R x.1 y.1 ∧ L.counters x.2.identity y.2.identity) (r s) (r' s')

namespace Agrees

variable {L : Likeness} {R : α → β → Prop} {Q : γ → δ → Prop}

theorem pure {a : α} {b : β} (h : R a b) :
    Agrees L R (Pure.pure a : Reading α) (Pure.pure b : Reading β) :=
  fun _ _ next => .some (.ok ⟨h, next⟩)

theorem stuck : Agrees L R (Reading.stuck : Reading α) (Reading.stuck : Reading β) :=
  fun _ _ _ => .some (.error _)

theorem exhausted : Agrees L R (Reading.exhausted : Reading α) (Reading.exhausted : Reading β) :=
  fun _ _ _ => .none

theorem stop (e : Stop) : Agrees L R (throw e : Reading α) (throw e : Reading β) :=
  fun _ _ _ => .some (.error e)

theorem bind {r : Reading α} {r' : Reading β} {k : α → Reading γ} {k' : β → Reading δ}
    (h : Agrees L R r r') (next : ∀ a b, R a b → Agrees L Q (k a) (k' b)) :
    Agrees L Q (r >>= k) (r' >>= k') := by
  intro s s' counters
  have first := h s s' counters
  rw [bind_apply, bind_apply]
  match r s, r' s', first with
  | none, none, .none => exact .none
  | some (.error _), some (.error _), .some (.error e) => exact .some (.error e)
  | some (.ok (a, t)), some (.ok (b, t')), .some (.ok both) =>
      exact next a b both.1 t t' both.2

theorem host {e : Host.Eval α} {e' : Host.Eval β} (h : AgreeOn L R e e') :
    Agrees L R (Reading.host e) (Reading.host e') := by
  intro s s' counters
  have both := h _ _ counters
  rw [Reading.host, Reading.host]
  change Agree _ (e.run s.identity) (e'.run s'.identity) at both
  generalize e.run s.identity = out at both ⊢
  generalize e'.run s'.identity = out' at both ⊢
  cases both with
  | error e => exact .some (.error _)
  | ok both => exact .some (.ok both)

theorem found {x? : Option α} {y? : Option β} (h : Option.Rel R x? y?) :
    Agrees L R (Reading.found x?) (Reading.found y?) := by
  cases h with
  | none => exact stuck
  | some h => exact pure h

theorem ite {c : Prop} [Decidable c] {r₁ r₂ : Reading α} {r₁' r₂' : Reading β}
    (yes : c → Agrees L R r₁ r₁') (no : ¬c → Agrees L R r₂ r₂') :
    Agrees L R (if c then r₁ else r₂) (if c then r₁' else r₂') := by
  split
  · next h => exact yes h
  · next h => exact no h

theorem andThen {r : Reading (Verdict α)} {r' : Reading (Verdict β)}
    {k : α → Nat → Reading (Verdict γ)} {k' : β → Nat → Reading (Verdict δ)}
    (h : Agrees L (Verdict.Rel R) r r')
    (next : ∀ a b pos, R a b → Agrees L (Verdict.Rel Q) (k a pos) (k' b pos)) :
    Agrees L (Verdict.Rel Q) (Reading.andThen r k) (Reading.andThen r' k') := by
  refine bind h ?_
  rintro _ _ (⟨related, pos⟩ | ⟨entry, place⟩)
  · exact next _ _ pos related
  · exact pure (.failure entry place)

theorem repeatFrom {σ τ : Type} {I : σ → τ → Prop} {part : σ → Reading (σ ⊕ α)}
    {part' : τ → Reading (τ ⊕ β)}
    (round : ∀ a b, I a b → Agrees L (Sum.LiftRel I R) (part a) (part' b)) (rounds : Nat) {a : σ}
    {b : τ} (h : I a b) :
    Agrees L R (Reading.repeatFrom part rounds a) (Reading.repeatFrom part' rounds b) := by
  induction rounds generalizing a b with
  | zero => exact exhausted
  | succ rounds ih =>
      refine bind (round a b h) ?_
      rintro _ _ (related | related)
      · exact ih related
      · exact pure related

end Agrees

/-- Readings of values that are alike. -/
abbrev SameVerdict (L : Likeness) (r r' : Reading (Verdict Value)) : Prop :=
  Agrees L (Verdict.Rel (Alike L)) r r'

end Reading

/-! ### Layouts whose numbers go together -/

mutual

/-- Layouts of an expression whose numbers go together, as far as its meaning without a memory
depends on them. -/
def Expr.Matches (L : Likeness) : Expr → Layout → Layout → Prop
  | .str _ _ _, _, _ | .regex _ _ _, _, _ | .ref _ _ _, _, _ | .fail _ _, _, _
  | .host _ _, _, _ => True
  | .seq _ items _, l, l' | .skip _ items, l, l' => matchesAll L items l.parts l'.parts
  | .choice _ alternatives, l, l' => matchesAlternatives L alternatives l.parts l'.parts
  | .list _ inner _ _, l, l' | .opt _ inner, l, l' | .expect _ inner, l, l'
  | .expectNot _ inner, l, l' => inner.Matches L (l.part 0) (l'.part 0)
  | .sep _ item separator _, l, l' =>
    L.ids l.shared l'.shared ∧ item.Matches L (l.part 0) (l'.part 0) ∧
      separator.Matches L (l.part 1) (l'.part 1) ∧ item.Matches L (l.part 2) (l'.part 2)
  | .apply _ a b _, l, l' | .discard _ a b _, l, l' | .bound _ _ a b, l, l'
  | .satisfying _ a b, l, l' =>
    a.Matches L (l.part 0) (l'.part 0) ∧ b.Matches L (l.part 1) (l'.part 1)
  | .call _ _ args _, l, l' => matchesArgs L args l.parts l'.parts
  | .operators _ atom levels, l, l' =>
    atom.Matches L ((l.part 0).part 0) ((l'.part 0).part 0) ∧
      matchesLevels L levels l.parts.tail l'.parts.tail

def matchesAll (L : Likeness) : List Expr → List Layout → List Layout → Prop
  | [], _, _ => True
  | e :: es, ls, ls' =>
    e.Matches L (ls.headD .blank) (ls'.headD .blank) ∧ matchesAll L es ls.tail ls'.tail

/-- Behind an alternative that always succeeds no others are read. -/
def matchesAlternatives (L : Likeness) : List Expr → List Layout → List Layout → Prop
  | [], _, _ => True
  | e :: es, ls, ls' =>
    e.Matches L (ls.headD .blank) (ls'.headD .blank) ∧
      (e.alwaysSucceeds = false → matchesAlternatives L es ls.tail ls'.tail)

/-- Of an argument that has become a function only its number counts. -/
def matchesArgs (L : Likeness) : List (Option String × Expr) → List Layout → List Layout → Prop
  | [], _, _ => True
  | (_, e) :: rest, ls, ls' =>
    (e.direct = false → L.functions (ls.headD .blank).function (ls'.headD .blank).function) ∧
      matchesArgs L rest ls.tail ls'.tail

def matchesLevels (L : Likeness) : List (Fixity × Expr) → List Layout → List Layout → Prop
  | [], _, _ => True
  | (_, e) :: rest, ls, ls' =>
    e.Matches L ((ls.headD .blank).part 0) ((ls'.headD .blank).part 0) ∧
      matchesLevels L rest ls.tail ls'.tail

end

/-! ### Parts of expressions -/

/-- Scenes that are alike and remember nothing. -/
structure Scene.Like (L : Likeness) (scene scene' : Scene) : Prop where
  respects : L.Respects scene.library
  library : scene'.library = scene.library
  globals : AlikeEnv L scene.globals scene'.globals
  bytes : scene'.bytes = scene.bytes
  isBinary : scene'.isBinary = scene.isBinary
  leastNone : scene'.leastNone? = scene.leastNone?
  plain : scene.memoize = false
  plain' : scene'.memoize = false
  classes : ∀ c, scene'.naming.cls c = scene.naming.cls c
  rules : ∀ name, Option.Rel L.functions (scene.naming.rules.lookup name)
    (scene'.naming.rules.lookup name)
  rule : scene'.rule = scene.rule
  rounds : scene'.rounds = scene.rounds
  calls : ∀ {f f' args args'}, L.functions f f' → AlikeAll L args args' → ∀ pos,
    Reading.SameVerdict L (scene.call f args pos) (scene'.call f' args' pos)

open Reading

namespace Scene

section

variable {L : Likeness} {env env' : Env}

theorem captured_agrees (h : AlikeEnv L env env') (names : List String) :
    Agrees L (AlikeAll L) (captured env names) (captured env' names) := by
  refine .found ?_
  induction names with
  | nil => exact .some .nil
  | cons n names ih =>
      simp only [List.mapM_cons]
      have here := h.lookup n
      revert here
      generalize env.lookup n = x?
      generalize env'.lookup n = y?
      intro here
      cases here with
      | none => exact .none
      | some head =>
          revert ih
          generalize names.mapM (fun n => env.lookup n) = xs?
          generalize names.mapM (fun n => env'.lookup n) = ys?
          intro ih
          cases ih with
          | none => exact .none
          | some tail => exact .some (.cons head tail)

theorem reaches_self (items : Nat) (v : Value) :
    Agrees L Eq (reaches items v) (reaches items v) := by
  unfold reaches
  split
  · exact .pure rfl
  · split
    · exact .pure rfl
    · exact .stop _

theorem reaches_agrees {v w : Value} (h : Alike L v w) (items : Nat) :
    Agrees L Eq (reaches items v) (reaches items w) := by
  cases h with
  | list | node | func | parser => exact .stop _
  | _ => exact reaches_self items _

theorem full_agrees {high high' : Option Value} (h : AlikeOption L high high') (items : Nat) :
    Agrees L Eq (full items high) (full items high') := by
  cases h with
  | none => exact .pure rfl
  | some h => exact reaches_agrees h items

variable {item item' separator separator' operator operator' operand operand' :
  Nat → Reading (Verdict Value)}

/-- Rounds of items that are read alike. -/
theorem anotherItem_agrees {high high' : Option Value} (most : AlikeOption L high high')
    (items : ∀ p, SameVerdict L (item p) (item' p))
    (a b : List Value × (FailureEntry × Nat) × Nat) (h : AlikeAll L a.1 b.1 ∧ a.2 = b.2) :
    Agrees L (Sum.LiftRel (fun a b => AlikeAll L a.1 b.1 ∧ a.2 = b.2)
        (fun a b => AlikeAll L a.1 b.1 ∧ a.2 = b.2))
      (anotherItem high item a) (anotherItem high' item' b) := by
  obtain ⟨xs, far, pos⟩ := a
  obtain ⟨ys, _⟩ := b
  obtain ⟨values, rfl⟩ := h
  change AlikeAll L xs ys at values
  rw [anotherItem, anotherItem, ← values.length_eq]
  refine .bind (full_agrees most _) ?_
  rintro isFull _ rfl
  refine .ite (fun _ => .pure (.inr ⟨values, rfl⟩)) fun _ => ?_
  refine .bind (items pos) ?_
  rintro _ _ (⟨v, stop⟩ | ⟨entry, place⟩)
  · have values := values.append (.cons v .nil)
    exact .ite (fun _ => .pure (.inr ⟨values, rfl⟩)) fun _ => .pure (.inl ⟨values, rfl⟩)
  · exact .pure (.inr ⟨values, rfl⟩)

theorem anotherPair_agrees (flags : SepFlags) (items : ∀ p, SameVerdict L (item p) (item' p))
    (separators : ∀ p, SameVerdict L (separator p) (separator' p)) (a b : List Value × Nat)
    (h : AlikeAll L a.1 b.1 ∧ a.2 = b.2) :
    Agrees L (Sum.LiftRel (fun a b => AlikeAll L a.1 b.1 ∧ a.2 = b.2)
        (fun a b => AlikeAll L a.1 b.1 ∧ a.2 = b.2))
      (anotherPair flags item separator a) (anotherPair flags item' separator' b) := by
  obtain ⟨xs, pos⟩ := a
  obtain ⟨ys, _⟩ := b
  obtain ⟨values, rfl⟩ := h
  change AlikeAll L xs ys at values
  refine .bind (separators pos) ?_
  rintro _ _ (@⟨x, y, same, between⟩ | ⟨entry, place⟩)
  · have kept : AlikeAll L (if flags.discardSeparators then xs else xs ++ [x])
        (if flags.discardSeparators then ys else ys ++ [y]) := by
      split
      · exact values
      · exact values.append (.cons same .nil)
    refine .bind (items between) ?_
    rintro _ _ (⟨v, stop⟩ | ⟨entry, place⟩)
    · have longer := kept.append (.cons v .nil)
      exact .ite (fun _ => .pure (.inr ⟨longer, rfl⟩)) fun _ => .pure (.inl ⟨longer, rfl⟩)
    · refine .pure (.inr ⟨?_, rfl⟩)
      dsimp only
      split
      · exact kept
      · exact values
  · exact .pure (.inr ⟨values, rfl⟩)

theorem anotherPrefix_agrees (operators : ∀ p, SameVerdict L (operator p) (operator' p))
    (a b : List Value × Nat) (h : AlikeAll L a.1 b.1 ∧ a.2 = b.2) :
    Agrees L (Sum.LiftRel (fun a b => AlikeAll L a.1 b.1 ∧ a.2 = b.2)
        (fun a b => AlikeAll L a.1 b.1 ∧ a.2 = b.2))
      (anotherPrefix operator a) (anotherPrefix operator' b) := by
  obtain ⟨xs, pos⟩ := a
  obtain ⟨ys, _⟩ := b
  obtain ⟨values, rfl⟩ := h
  change AlikeAll L xs ys at values
  refine .bind (operators pos) ?_
  rintro _ _ (⟨op, stop⟩ | ⟨entry, place⟩)
  · have longer := values.append (.cons op .nil)
    exact .ite (fun _ => .pure (.inr ⟨longer, rfl⟩)) fun _ => .pure (.inl ⟨longer, rfl⟩)
  · exact .pure (.inr ⟨values, rfl⟩)

theorem anotherPostfix_agrees (operators : ∀ p, SameVerdict L (operator p) (operator' p))
    (a b : Value × Nat) (h : Alike L a.1 b.1 ∧ a.2 = b.2) :
    Agrees L (Sum.LiftRel (fun a b => Alike L a.1 b.1 ∧ a.2 = b.2)
        (fun a b => Alike L a.1 b.1 ∧ a.2 = b.2))
      (anotherPostfix operator a) (anotherPostfix operator' b) := by
  obtain ⟨x, pos⟩ := a
  obtain ⟨y, _⟩ := b
  obtain ⟨value, rfl⟩ := h
  refine .bind (operators pos) ?_
  rintro _ _ (⟨op, stop⟩ | ⟨entry, place⟩)
  · refine .bind (.host (.newNode _ (.cons value (.cons op .nil)))) fun _ _ acc => ?_
    exact .ite (fun _ => .pure (.inr ⟨acc, rfl⟩)) fun _ => .pure (.inl ⟨acc, rfl⟩)
  · exact .pure (.inr ⟨value, rfl⟩)

/-- An operator and its operand, and the place behind them. -/
abbrev PairLike (L : Likeness) (a b : Value × Value × Nat) : Prop :=
  Alike L a.1 b.1 ∧ Alike L a.2.1 b.2.1 ∧ a.2.2 = b.2.2

theorem operatorPair_agrees (operators : ∀ p, SameVerdict L (operator p) (operator' p))
    (operands : ∀ p, SameVerdict L (operand p) (operand' p)) (pos : Nat) :
    Agrees L (Option.Rel (PairLike L)) (operatorPair operator operand pos)
      (operatorPair operator' operand' pos) := by
  refine .bind (operators pos) ?_
  rintro _ _ (⟨op, between⟩ | ⟨entry, place⟩)
  · refine .bind (operands between) ?_
    rintro _ _ (⟨right, stop⟩ | ⟨entry, place⟩)
    · exact .pure (.some ⟨op, right, rfl⟩)
    · exact .pure .none
  · exact .pure .none

theorem anotherInfix_agrees (once : Bool)
    (operators : ∀ p, SameVerdict L (operator p) (operator' p))
    (operands : ∀ p, SameVerdict L (operand p) (operand' p)) (a b : Value × Nat)
    (h : Alike L a.1 b.1 ∧ a.2 = b.2) :
    Agrees L (Sum.LiftRel (fun a b => Alike L a.1 b.1 ∧ a.2 = b.2)
        (fun a b => Alike L a.1 b.1 ∧ a.2 = b.2))
      (anotherInfix once operator operand a) (anotherInfix once operator' operand' b) := by
  obtain ⟨x, pos⟩ := a
  obtain ⟨y, _⟩ := b
  obtain ⟨value, rfl⟩ := h
  refine .bind (operatorPair_agrees operators operands pos) ?_
  rintro _ _ (@⟨⟨_, _, stop⟩, ⟨_, _, _⟩, op, right, rfl⟩ | _)
  · refine .bind (.host (.newNode _ (.cons value (.cons op (.cons right .nil))))) fun _ _ acc => ?_
    exact .ite (fun _ => .pure (.inr ⟨acc, rfl⟩)) fun _ => .pure (.inl ⟨acc, rfl⟩)
  · exact .pure (.inr ⟨value, rfl⟩)

/-- Operands with the operators behind them. -/
abbrev LinksLike (L : Likeness) : List (Value × Value) → List (Value × Value) → Prop :=
  List.Forall₂ fun a b => Alike L a.1 b.1 ∧ Alike L a.2 b.2

/-- Operands with the operators behind them, the last operand, and the place behind it. -/
abbrev ChainLike (L : Likeness) (a b : (List (Value × Value) × Value) × Nat) : Prop :=
  LinksLike L a.1.1 b.1.1 ∧ Alike L a.1.2 b.1.2 ∧ a.2 = b.2

theorem anotherLink_agrees (operators : ∀ p, SameVerdict L (operator p) (operator' p))
    (operands : ∀ p, SameVerdict L (operand p) (operand' p))
    (a b : (List (Value × Value) × Value) × Nat) (h : ChainLike L a b) :
    Agrees L (Sum.LiftRel (ChainLike L) (ChainLike L)) (anotherLink operator operand a)
      (anotherLink operator' operand' b) := by
  obtain ⟨⟨links, last⟩, pos⟩ := a
  obtain ⟨⟨links', last'⟩, _⟩ := b
  obtain ⟨same, value, rfl⟩ := h
  refine .bind (operatorPair_agrees operators operands pos) ?_
  rintro _ _ (@⟨⟨x, _, stop⟩, ⟨y, _, _⟩, op, right, rfl⟩ | _)
  · have link : LinksLike L [(last, x)] [(last', y)] := .cons ⟨value, op⟩ .nil
    have longer := List.rel_append same link
    exact .ite (fun _ => .pure (.inr ⟨longer, right, rfl⟩))
      fun _ => .pure (.inl ⟨longer, right, rfl⟩)
  · exact .pure (.inr ⟨same, value, rfl⟩)

theorem prefixes_agree {v w : Value} (h : Alike L v w) {ops ops' : List Value}
    (same : AlikeAll L ops ops') : AgreeOn L (Alike L) (prefixes v ops) (prefixes w ops') := by
  induction ops generalizing ops' with
  | nil =>
      cases same
      exact .pure h
  | cons op ops ih =>
      cases same with
      | cons head tail =>
          exact .bind (ih tail) fun _ _ right => .newNode _ (.cons head (.cons right .nil))

theorem spine_agree {v w : Value} (h : Alike L v w) {links links' : List (Value × Value)}
    (same : LinksLike L links links') : AgreeOn L (Alike L) (spine v links) (spine w links') := by
  induction same with
  | nil => exact .pure h
  | cons head _ ih =>
      exact .bind ih fun _ _ right => .newNode _ (.cons head.1 (.cons head.2 (.cons right .nil)))

end

namespace Like

variable {L : Likeness} {scene scene' : Scene} {env env' : Env}
  {item item' operator operator' operand operand' : Nat → Reading (Verdict Value)}

variable (like : Scene.Like L scene scene')

include like

theorem snippet (h : AlikeEnv L env env') (s : Snippet) :
    Agrees L (Alike L) (scene.snippet env s) (scene'.snippet env' s) := by
  refine .bind (captured_agrees h s.locals) fun values values' same => ?_
  rw [like.library]
  exact .host (like.respects.evalIn (.inl (like.globals.bindAll s.locals same)))

theorem boundOf (h : AlikeEnv L env env') (bound? : Option Bound) :
    Agrees L (AlikeOption L) (scene.boundOf env bound?) (scene'.boundOf env' bound?) := by
  match bound? with
  | none => exact .pure .none
  | some (.const n) => exact .pure (.some (.int _))
  | some (.host s) => exact .bind (like.snippet h s) fun _ _ same => .pure (.some same)

theorem enough {low low' : Option Value} (h : AlikeOption L low low') (items : Nat) :
    Agrees L Eq (scene.enough items low) (scene'.enough items low') := by
  cases h with
  | none => exact .pure rfl
  | some h =>
      cases h with
      | none =>
          rw [Scene.enough, Scene.enough, like.leastNone]
          exact .found (by cases scene.leastNone? <;> constructor; rfl)
      | list | node | func | parser => exact .stop _
      | bool b => exact reaches_self items (.bool b)
      | int n => exact reaches_self items (.int n)
      | float x => exact reaches_self items (.float x)
      | str s => exact reaches_self items (.str s)
      | bytes bs => exact reaches_self items (.bytes bs)
      | failure entry => exact reaches_self items (.failure entry)

theorem ruleNumber (function : String) :
    Agrees L L.functions (scene.ruleNumber function) (scene'.ruleNumber function) :=
  .found (like.rules function)

theorem callRule (function : String) (pos : Nat) :
    SameVerdict L (scene.callRule function pos) (scene'.callRule function pos) :=
  .bind (like.ruleNumber function) fun _ _ same => like.calls same .nil pos

theorem matched (entry : FailureEntry) (pos : Nat) (stop? : Option Nat) :
    Verdict.Rel (Alike L) (scene.matched entry pos stop?) (scene'.matched entry pos stop?) := by
  cases stop? with
  | none => exact .failure entry pos
  | some stop =>
      rw [Scene.matched, Scene.matched, like.isBinary, like.bytes]
      refine .success ?_ stop
      rw [Input.excise]
      split
      · exact .bytes _
      · exact .str _

theorem pattern [Regex.Engine] (entry : FailureEntry) (text : String) (ignoreCase binary : Bool)
    (pos : Nat) : SameVerdict L (scene.pattern entry text ignoreCase binary pos)
      (scene'.pattern entry text ignoreCase binary pos) := by
  rw [Scene.pattern, Scene.pattern, like.bytes]
  split
  · exact .pure (like.matched entry pos _)
  · exact .stuck

theorem skipping (skip : Bool) {v w : Verdict Value} (h : Verdict.Rel (Alike L) v w) :
    SameVerdict L (scene.skipping skip v) (scene'.skipping skip w) := by
  cases h with
  | failure entry place => exact .pure (.failure entry place)
  | success h stop =>
      refine .ite (fun _ => ?_) fun _ => .pure (.success h stop)
      refine .bind (like.callRule _ stop) ?_
      rintro _ _ (⟨-, place⟩ | ⟨-, place⟩)
      · exact .pure (.success h place)
      · exact .pure (.success h place)

theorem left (once : Bool) (operators : ∀ p, SameVerdict L (operator p) (operator' p))
    (operands : ∀ p, SameVerdict L (operand p) (operand' p)) (pos : Nat) :
    SameVerdict L (levelOf.left scene operator operand pos once)
      (levelOf.left scene' operator' operand' pos once) := by
  refine .andThen (operands pos) fun v w between first => ?_
  rw [like.rounds]
  refine .bind (.repeatFrom (anotherInfix_agrees once operators operands) scene.rounds
    ⟨first, rfl⟩) ?_
  rintro ⟨acc, stop⟩ ⟨acc', _⟩ ⟨same, rfl⟩
  exact .pure (.success same stop)

theorem levelOf (fixity : Fixity) (operators : ∀ p, SameVerdict L (operator p) (operator' p))
    (operands : ∀ p, SameVerdict L (operand p) (operand' p)) (pos : Nat) :
    SameVerdict L (scene.levelOf fixity operator operand pos)
      (scene'.levelOf fixity operator' operand' pos) := by
  cases fixity with
  | prefixOp =>
      refine .bind (.host .fresh) fun _ _ _ => ?_
      rw [like.rounds]
      refine .bind (.repeatFrom (anotherPrefix_agrees operators) scene.rounds ⟨.nil, rfl⟩) ?_
      rintro ⟨ops, between⟩ ⟨ops', _⟩ ⟨same, rfl⟩
      refine .andThen (operands between) fun v w stop innermost => ?_
      exact .bind (.host (prefixes_agree innermost same)) fun _ _ h => .pure (.success h stop)
  | postfixOp =>
      refine .andThen (operands pos) fun v w between first => ?_
      rw [like.rounds]
      refine .bind (.repeatFrom (anotherPostfix_agrees operators) scene.rounds ⟨first, rfl⟩) ?_
      rintro ⟨acc, stop⟩ ⟨acc', _⟩ ⟨same, rfl⟩
      exact .pure (.success same stop)
  | leftAssoc => exact like.left false operators operands pos
  | nonAssoc => exact like.left true operators operands pos
  | rightAssoc =>
      refine .bind (.host .fresh) fun _ _ _ => ?_
      refine .andThen (operands pos) fun v w between first => ?_
      rw [like.rounds]
      refine .bind (.repeatFrom (anotherLink_agrees operators operands) scene.rounds
        ⟨.nil, first, rfl⟩) ?_
      rintro ⟨⟨links, last⟩, stop⟩ ⟨⟨links', last'⟩, _⟩ ⟨same, innermost, rfl⟩
      exact .bind (.host (spine_agree innermost same)) fun _ _ h => .pure (.success h stop)

/-- The value of an argument. Only one that has become a function has a number of its own. -/
theorem argument (h : AlikeEnv L env env') {l l' : Layout} {e : Expr}
    (numbers : e.direct = false → L.functions l.function l'.function) :
    Agrees L (Alike L) (scene.argument env l e) (scene'.argument env' l' e) := by
  unfold Scene.argument
  split
  · next tag name =>
      refine .found ?_
      have here := h.lookup name
      generalize env.lookup name = x? at here ⊢
      generalize env'.lookup name = y? at here ⊢
      cases here with
      | none => exact .none
      | some h => exact .some h
  · exact .bind (like.ruleNumber _) fun _ _ number =>
      .bind (.host .fresh) fun _ _ id => .pure (.parser id number .nil _)
  · exact like.snippet h _
  · next isLocal isRule isHost =>
      have number := numbers (by
        unfold Expr.direct
        split
        · exact (isLocal _ _ rfl).elim
        · exact (isRule _ _ _ rfl).elim
        · exact (isHost _ _ rfl).elim
        · rfl)
      exact .bind (captured_agrees h _) fun _ _ values =>
        .bind (.host .fresh) fun _ _ id => .pure (.parser id number values _)

end Like

end Scene

/-! ### Expressions -/

/-- The layout of an alternative or an item is the first one of several. -/
theorem Layout.part_zero (l : Layout) : l.part 0 = l.parts.headD .blank := by
  rw [Layout.part]
  cases l.parts <;> rfl

/-- A part that remembers nothing is read as it is. -/
theorem Scene.Like.read {L : Likeness} {scene scene' : Scene} (like : Scene.Like L scene scene')
    {l l' : Layout} {params : List String} {pos : Nat} {r r' : Reading (Verdict Value)}
    (h : SameVerdict L r r') :
    SameVerdict L (l.read scene params pos r) (l'.read scene' params pos r') := by
  rw [Layout.read_plain like.plain, Layout.read_plain like.plain']
  exact h

variable [Regex.Engine]

namespace Scene.Like

open Scene

variable {L : Likeness} {scene scene' : Scene} {env env' : Env} {l l' : Layout}
  {tag : Tag} {item inner separator predicate : Expr}

variable (like : Scene.Like L scene scene')

include like

/-- A name is read as the rule that its value stands for, and as its value where it stands for none. -/
theorem ref_agrees (h : AlikeEnv L env env') {name : String} (pos : Nat) :
    SameVerdict L ((Expr.ref tag name .local).meaning scene env l pos)
      ((Expr.ref tag name .local).meaning scene' env' l' pos) := by
  rw [Expr.meaning, Expr.meaning]
  have here := h.lookup name
  generalize env.lookup name = x? at here ⊢
  generalize env'.lookup name = y? at here ⊢
  cases here with
  | none => exact .stuck
  | some same =>
      refine .bind (R := Alike L) (.pure same) fun v w same => ?_
      -- Values that are alike are of one kind, so both sides call or neither does.
      cases same with
      | parser _ functions captures _ => exact like.calls functions captures pos
      | none => exact .pure (.success .none pos)
      | bool b => exact .pure (.success (.bool b) pos)
      | int n => exact .pure (.success (.int n) pos)
      | float x => exact .pure (.success (.float x) pos)
      | str s => exact .pure (.success (.str s) pos)
      | bytes bs => exact .pure (.success (.bytes bs) pos)
      | list ids items => exact .pure (.success (.list ids items) pos)
      | node ids cls values extent? => exact .pure (.success (.node ids cls values extent?) pos)
      | func ids callable => exact .pure (.success (.func ids callable) pos)
      | failure entry marks => exact .pure (.success (.failure entry marks) pos)

theorem list_agrees (h : AlikeEnv L env env')
    (items : ∀ p, SameVerdict L (item.meaning scene env (l.part 0) p)
      (item.meaning scene' env' (l'.part 0) p)) {least most : Option Bound} (pos : Nat) :
    SameVerdict L ((Expr.list tag item least most).meaning scene env l pos)
      ((Expr.list tag item least most).meaning scene' env' l' pos) := by
  rw [Expr.meaning, Expr.meaning, like.rule, like.rounds]
  refine .bind (.host .fresh) fun id id' ids => .bind (like.boundOf h least) fun low low' lows =>
    .bind (like.boundOf h most) fun high high' highs => ?_
  refine .bind (.repeatFrom (anotherItem_agrees highs fun p => like.read (items p)) scene.rounds
    ⟨.nil, rfl⟩) ?_
  rintro ⟨xs, far, stop⟩ ⟨ys, _⟩ ⟨values, rfl⟩
  -- Only how many items there are goes into the comparison with the least number.
  dsimp only at values ⊢
  rw [← values.length_eq]
  refine .bind (like.enough lows xs.length) ?_
  rintro isEnough _ rfl
  exact .ite (fun _ => .pure (.success (.list ids values) stop)) fun _ => .pure (.failure _ _)

theorem sep_agrees (shared : L.ids l.shared l'.shared)
    (first : ∀ p, SameVerdict L (item.meaning scene env (l.part 0) p)
      (item.meaning scene' env' (l'.part 0) p))
    (between : ∀ p, SameVerdict L (separator.meaning scene env (l.part 1) p)
      (separator.meaning scene' env' (l'.part 1) p))
    (later : ∀ p, SameVerdict L (item.meaning scene env (l.part 2) p)
      (item.meaning scene' env' (l'.part 2) p)) {flags : SepFlags} (pos : Nat) :
    SameVerdict L ((Expr.sep tag item separator flags).meaning scene env l pos)
      ((Expr.sep tag item separator flags).meaning scene' env' l' pos) := by
  rw [Expr.meaning, Expr.meaning, like.rounds]
  refine .bind (.host .fresh) fun id id' ids => ?_
  refine .bind (like.read (first pos)) ?_
  rintro _ _ (⟨v, stop⟩ | ⟨entry, place⟩)
  · refine .bind (.repeatFrom (anotherPair_agrees flags (fun p => like.read (later p))
      fun p => like.read (between p)) scene.rounds ⟨.cons v .nil, rfl⟩) ?_
    rintro ⟨xs, stop⟩ ⟨ys, _⟩ ⟨values, rfl⟩
    exact .pure (.success (.list ids values) stop)
  · exact .ite (fun _ => .pure (.success (.list shared .nil) pos))
      fun _ => .pure (.failure entry place)

theorem satisfying_agrees
    (inners : ∀ p, SameVerdict L (inner.meaning scene env (l.part 0) p)
      (inner.meaning scene' env' (l'.part 0) p))
    (predicates : ∀ p, SameVerdict L (predicate.meaning scene env (l.part 1) p)
      (predicate.meaning scene' env' (l'.part 1) p)) (pos : Nat) :
    SameVerdict L ((Expr.satisfying tag inner predicate).meaning scene env l pos)
      ((Expr.satisfying tag inner predicate).meaning scene' env' l' pos) := by
  rw [Expr.meaning, Expr.meaning, like.library, like.rule]
  refine .andThen (like.read (inners pos)) fun x x' between first => ?_
  refine .andThen (like.read (predicates between)) fun f f' stop second => ?_
  refine .bind (.host (like.respects.callIn second (.cons first .nil))) fun v w same => ?_
  rw [same.truthy_eq]
  refine .pure ?_
  split
  · exact .success first stop
  · exact .failure _ stop

end Scene.Like

open Scene in
mutual

theorem Expr.agrees {L : Likeness} {scene scene' : Scene} (like : Scene.Like L scene scene') :
    (e : Expr) → {l l' : Layout} → e.Matches L l l' → {env env' : Env} → AlikeEnv L env env' →
      (pos : Nat) → SameVerdict L (e.meaning scene env l pos) (e.meaning scene' env' l' pos)
  -- The environments vary with the induction: a body is read with one more name on both sides.
  | .str tag value flags, l, l', _, env, env', _, pos => by
      rw [Expr.meaning, Expr.meaning, like.rule]
      refine .ite (fun _ => .bind (like.pattern _ _ _ _ pos) fun _ _ same =>
        like.skipping flags.skip same) fun _ => ?_
      rw [like.bytes]
      exact .bind (.pure (like.matched _ pos _)) fun _ _ same => like.skipping flags.skip same
  | .regex tag text flags, l, l', _, env, env', _, pos => by
      rw [Expr.meaning, Expr.meaning, like.rule]
      exact .bind (like.pattern _ _ _ _ pos) fun _ _ same => like.skipping flags.skip same
  | .ref _ _ .local, l, l', _, env, env', h, pos => like.ref_agrees h pos
  | .ref _ _ (.rule function), l, l', _, env, env', _, pos => by
      rw [Expr.meaning, Expr.meaning]
      exact like.callRule function pos
  | .ref _ _ .unresolved, l, l', _, env, env', _, pos => by
      rw [Expr.meaning, Expr.meaning]
      exact .stuck
  | .call _ _ args (.rule function), l, l', numbers, env, env', h, pos => by
      rw [Expr.meaning, Expr.meaning]
      rw [Expr.Matches] at numbers
      exact .bind (like.ruleNumber function) fun _ _ same =>
        .bind (Expr.args_agree like args numbers h) fun _ _ values => like.calls same values pos
  | .call _ _ _ .local, l, l', _, env, env', _, pos => by
      rw [Expr.meaning, Expr.meaning]
      · exact .stuck
      all_goals simp
  | .call _ _ _ .unresolved, l, l', _, env, env', _, pos => by
      rw [Expr.meaning, Expr.meaning]
      · exact .stuck
      all_goals simp
  | .seq _ items none, l, l', numbers, env, env', h, pos => by
      rw [Expr.meaning, Expr.meaning]
      rw [Expr.Matches] at numbers
      refine .andThen (Expr.items_agree like items numbers [] h pos) fun _ _ stop values => ?_
      exact .bind (.host (.newList values)) fun _ _ same => .pure (.success same stop)
  | .seq _ items (some c), l, l', numbers, env, env', h, pos => by
      rw [Expr.meaning, Expr.meaning]
      rw [Expr.Matches] at numbers
      refine .andThen (Expr.items_agree like items numbers c.fields h pos) fun _ _ stop values => ?_
      refine .bind (.host .fresh) fun _ _ ids => ?_
      rw [like.classes c]
      exact .pure (.success (.node ids _ values _) stop)
  | .choice _ [only], l, l', numbers, env, env', h, pos => by
      rw [Expr.meaning, Expr.meaning]
      rw [Expr.Matches, matchesAlternatives, ← Layout.part_zero, ← Layout.part_zero] at numbers
      exact like.read (only.agrees like numbers.1 h pos)
  | .choice _ [], l, l', numbers, env, env', h, pos => by
      rw [Expr.meaning, Expr.meaning]
      · exact Expr.alternatives_agree like [] numbers h pos none
      all_goals simp
  | .choice _ (first :: second :: rest), l, l', numbers, env, env', h, pos => by
      rw [Expr.meaning, Expr.meaning]
      · exact Expr.alternatives_agree like (first :: second :: rest) numbers h pos none
      all_goals simp
  | .list _ item _ _, l, l', numbers, env, env', h, pos => by
      rw [Expr.Matches] at numbers
      exact like.list_agrees h (fun p => item.agrees like numbers h p) pos
  | .sep _ item separator _, l, l', numbers, env, env', h, pos => by
      rw [Expr.Matches] at numbers
      obtain ⟨shared, first, between, later⟩ := numbers
      exact like.sep_agrees shared (fun p => item.agrees like first h p)
        (fun p => separator.agrees like between h p) (fun p => item.agrees like later h p) pos
  | .opt _ inner, l, l', numbers, env, env', h, pos => by
      rw [Expr.meaning, Expr.meaning]
      rw [Expr.Matches] at numbers
      refine .bind (like.read (inner.agrees like numbers h pos)) ?_
      rintro _ _ (⟨v, stop⟩ | ⟨entry, place⟩)
      · exact .pure (.success v stop)
      · exact .pure (.success .none pos)
  | .apply _ left right applyLeft, l, l', numbers, env, env', h, pos => by
      rw [Expr.meaning, Expr.meaning, like.library]
      rw [Expr.Matches] at numbers
      refine .andThen (like.read (left.agrees like numbers.1 h pos)) fun a a' between first => ?_
      refine .andThen (like.read (right.agrees like numbers.2 h between))
        fun b b' stop second => ?_
      refine .bind (.host ?_) fun _ _ v => .pure (.success v stop)
      split
      · exact like.respects.callIn first (.cons second .nil)
      · exact like.respects.callIn second (.cons first .nil)
  | .discard _ left right discardLeft, l, l', numbers, env, env', h, pos => by
      rw [Expr.meaning, Expr.meaning]
      rw [Expr.Matches] at numbers
      refine .andThen (like.read (left.agrees like numbers.1 h pos)) fun a a' between first => ?_
      refine .andThen (like.read (right.agrees like numbers.2 h between))
        fun b b' stop second => .pure (.success ?_ stop)
      split
      · exact second
      · exact first
  | .expect _ inner, l, l', numbers, env, env', h, pos => by
      rw [Expr.meaning, Expr.meaning]
      rw [Expr.Matches] at numbers
      refine .bind (like.read (inner.agrees like numbers h pos)) ?_
      rintro _ _ (⟨v, stop⟩ | ⟨entry, place⟩)
      · exact .pure (.success v pos)
      · exact .pure (.failure entry pos)
  | .expectNot _ inner, l, l', numbers, env, env', h, pos => by
      rw [Expr.meaning, Expr.meaning, like.rule]
      rw [Expr.Matches] at numbers
      refine .bind (like.read (inner.agrees like numbers h pos)) ?_
      rintro _ _ (⟨v, stop⟩ | ⟨entry, place⟩)
      · exact .pure (.failure _ pos)
      · exact .pure (.success .none pos)
  | .fail _ _, l, l', _, env, env', _, pos => by
      rw [Expr.meaning, Expr.meaning, like.rule]
      exact .pure (.failure _ pos)
  | .bound _ name value body, l, l', numbers, env, env', h, pos => by
      rw [Expr.meaning, Expr.meaning]
      rw [Expr.Matches] at numbers
      refine .andThen (like.read (value.agrees like numbers.1 h pos)) fun v w stop same => ?_
      exact like.read (body.agrees like numbers.2 (.cons name same h) stop)
  | .satisfying _ inner predicate, l, l', numbers, env, env', h, pos => by
      rw [Expr.Matches] at numbers
      exact like.satisfying_agrees (fun p => inner.agrees like numbers.1 h p)
        (fun p => predicate.agrees like numbers.2 h p) pos
  | .skip _ items, l, l', numbers, env, env', h, pos => by
      rw [Expr.meaning, Expr.meaning, like.rounds]
      rw [Expr.Matches] at numbers
      refine .bind (.repeatFrom (I := Eq) (R := Eq) ?_ scene.rounds rfl) ?_
      · rintro p _ rfl
        exact Expr.skipped_agrees like items numbers h p
      · rintro stop _ rfl
        exact .pure (.success .none stop)
  | .host _ s, l, l', _, env, env', h, pos => by
      rw [Expr.meaning, Expr.meaning]
      exact .bind (like.snippet h s) fun _ _ same => .pure (.success same pos)
  | .operators _ atom levels, l, l', numbers, env, env', h, pos => by
      rw [Expr.meaning, Expr.meaning]
      rw [Expr.Matches] at numbers
      exact Expr.levels_agree like levels numbers.2 _ h
        (fun p => like.read (like.read (atom.agrees like numbers.1 h p))) pos

theorem Expr.items_agree {L : Likeness} {scene scene' : Scene} (like : Scene.Like L scene scene') :
    (es : List Expr) → {ls ls' : List Layout} → matchesAll L es ls ls' → (fields : List String) →
      {env env' : Env} → AlikeEnv L env env' → (pos : Nat) →
      Agrees L (Verdict.Rel (AlikeAll L)) (meaningItems scene es fields env ls pos)
        (meaningItems scene' es fields env' ls' pos)
  | [], _, _, _, fields, env, env', _, pos => by
      rw [meaningItems, meaningItems]
      exact .pure (.success .nil pos)
  | e :: es, ls, ls', numbers, fields, env, env', h, pos => by
      rw [meaningItems, meaningItems]
      rw [matchesAll] at numbers
      refine .andThen (like.read (e.agrees like numbers.1 h pos)) fun v w between same => ?_
      have named : AlikeEnv L ((fields.take 1).map (·, v) ++ env) ((fields.take 1).map (·, w) ++ env') := by
        match fields with
        | [] => exact h
        | name :: _ => exact .cons name same h
      refine .andThen (Expr.items_agree like es numbers.2 (fields.drop 1) named between)
        fun vs ws stop rest => ?_
      exact .pure (.success (.cons same rest) stop)

theorem Expr.alternatives_agree {L : Likeness} {scene scene' : Scene}
    (like : Scene.Like L scene scene') :
    (es : List Expr) → {ls ls' : List Layout} → matchesAlternatives L es ls ls' →
      {env env' : Env} → AlikeEnv L env env' → (pos : Nat) →
      (far? : Option (FailureEntry × Nat)) →
      SameVerdict L (meaningAlternatives scene es env ls pos far?)
        (meaningAlternatives scene' es env' ls' pos far?)
  | [], _, _, _, env, env', _, pos, far? => by
      rw [meaningAlternatives, meaningAlternatives]
      cases far? with
      | none => exact .stuck
      | some far => exact .pure (.failure _ _)
  | e :: es, ls, ls', numbers, env, env', h, pos, far? => by
      rw [meaningAlternatives, meaningAlternatives]
      rw [matchesAlternatives] at numbers
      refine .bind (like.read (e.agrees like numbers.1 h pos)) ?_
      rintro _ _ (⟨v, stop⟩ | ⟨entry, place⟩)
      · exact .pure (.success v stop)
      · refine .ite (fun _ => .pure (.failure entry place)) fun may => ?_
        exact Expr.alternatives_agree like es (numbers.2 (by simpa using may)) h pos _

theorem Expr.skipped_agrees {L : Likeness} {scene scene' : Scene}
    (like : Scene.Like L scene scene') :
    (es : List Expr) → {ls ls' : List Layout} → matchesAll L es ls ls' → {env env' : Env} →
      AlikeEnv L env env' → (pos : Nat) →
      Agrees L (Sum.LiftRel Eq Eq) (meaningSkipped scene es env ls pos)
        (meaningSkipped scene' es env' ls' pos)
  | [], _, _, _, env, env', _, pos => by
      rw [meaningSkipped, meaningSkipped]
      exact .pure (.inr rfl)
  | e :: es, ls, ls', numbers, env, env', h, pos => by
      rw [meaningSkipped, meaningSkipped]
      rw [matchesAll] at numbers
      refine .bind (like.read (e.agrees like numbers.1 h pos)) ?_
      rintro _ _ (⟨v, stop⟩ | ⟨entry, place⟩)
      · exact .ite (fun _ => Expr.skipped_agrees like es numbers.2 h pos) fun _ => .pure (.inl rfl)
      · exact Expr.skipped_agrees like es numbers.2 h pos

theorem Expr.args_agree {L : Likeness} {scene scene' : Scene} (like : Scene.Like L scene scene') :
    (args : List (Option String × Expr)) → {ls ls' : List Layout} → matchesArgs L args ls ls' →
      {env env' : Env} → AlikeEnv L env env' →
      Agrees L (AlikeAll L) (meaningArgs scene args env ls) (meaningArgs scene' args env' ls')
  | [], _, _, _, env, env', _ => by
      rw [meaningArgs, meaningArgs]
      exact .pure .nil
  | (_, e) :: rest, ls, ls', numbers, env, env', h => by
      rw [meaningArgs, meaningArgs]
      rw [matchesArgs] at numbers
      exact .bind (like.argument h numbers.1) fun _ _ head =>
        .bind (Expr.args_agree like rest numbers.2 h) fun _ _ tail => .pure (.cons head tail)

theorem Expr.levels_agree {L : Likeness} {scene scene' : Scene} (like : Scene.Like L scene scene') :
    (levels : List (Fixity × Expr)) → {ls ls' : List Layout} → matchesLevels L levels ls ls' →
      (params : List String) → {env env' : Env} → AlikeEnv L env env' →
      {operand operand' : Nat → Reading (Verdict Value)} →
      (∀ p, SameVerdict L (operand p) (operand' p)) → (pos : Nat) →
      SameVerdict L (meaningLevels scene levels params env ls operand pos)
        (meaningLevels scene' levels params env' ls' operand' pos)
  | [], _, _, _, params, env, env', _, _, _, operands, pos => by
      rw [meaningLevels, meaningLevels]
      exact operands pos
  | (fixity, operator) :: rest, ls, ls', numbers, params, env, env', h, _, _, operands, pos => by
      rw [meaningLevels, meaningLevels]
      rw [matchesLevels] at numbers
      refine Expr.levels_agree like rest numbers.2 params h (fun p => ?_) pos
      exact like.read (like.levelOf fixity (fun q => like.read (operator.agrees like numbers.1 h q))
        operands p)

end

/-! ### Worlds -/

/-- Closures of the same expression, with layouts whose numbers go together. -/
structure Closure.Like (L : Likeness) (c c' : Closure) : Prop where
  name : c'.name = c.name
  params : c'.params = c.params
  rule : c'.rule = c.rule
  body : c'.body = c.body
  numbers : c.body.Matches L c.layout c'.layout

/-- Worlds that are alike and remember nothing. -/
structure World.Like (L : Likeness) (w w' : World) : Prop where
  respects : L.Respects w.library
  library : w'.library = w.library
  globals : AlikeEnv L w.globals w'.globals
  bytes : w'.bytes = w.bytes
  isBinary : w'.isBinary = w.isBinary
  leastNone : w'.leastNone? = w.leastNone?
  plain : w.memoize = false
  plain' : w'.memoize = false
  classes : ∀ c, w'.naming.cls c = w.naming.cls c
  rules : ∀ name, Option.Rel L.functions (w.naming.rules.lookup name) (w'.naming.rules.lookup name)
  closures : ∀ {k k'}, L.functions k k' →
    Option.Rel (Closure.Like L) (w.naming.closure? k) (w'.naming.closure? k')

namespace World

variable {L : Likeness} {w w' : World}

/-- Calls as they are where nothing is remembered. -/
theorem call_plain (plain : w.memoize = false) (rounds f : Nat) (args : List Value) (pos : Nat) :
    w.call rounds f args pos = w.run rounds f args pos := by
  rw [call, plain, Bool.and_false, remembered_false]

theorem Like.scene (like : Like L w w') {rounds : Nat}
    (calls : ∀ {f f' args args'}, L.functions f f' → AlikeAll L args args' → ∀ pos,
      SameVerdict L (w.call rounds f args pos) (w'.call rounds f' args' pos)) (rule : String) :
    Scene.Like L (w.scene rule rounds) (w'.scene rule rounds) where
  respects := like.respects
  library := like.library
  globals := like.globals
  bytes := like.bytes
  isBinary := like.isBinary
  leastNone := like.leastNone
  plain := like.plain
  plain' := like.plain'
  classes := like.classes
  rules := like.rules
  rule := rfl
  rounds := rfl
  calls := calls

/-- Calls of functions that go together, with arguments that are alike. -/
theorem Like.call (like : Like L w w') (rounds : Nat) {f f' : Nat} {args args' : List Value}
    (functions : L.functions f f') (values : AlikeAll L args args') (pos : Nat) :
    SameVerdict L (w.call rounds f args pos) (w'.call rounds f' args' pos) := by
  rw [call_plain like.plain, call_plain like.plain']
  induction rounds generalizing f f' args args' pos with
  | zero => exact .exhausted
  | succ rounds ih =>
      have closures := like.closures functions
      match hc : w.naming.closure? f, hc' : w'.naming.closure? f', closures with
      | none, none, _ =>
          rw [run_none hc, run_none hc']
          exact .stuck
      | some c, some c', .some same =>
          by_cases arity : args.length = c.params.length
          · rw [run_some hc arity, run_some hc' (by rw [← values.length_eq, arity, same.params]),
              same.params, same.rule, same.body]
            have calls : Scene.Like L (w.scene c.rule rounds) (w'.scene c.rule rounds) := by
              refine like.scene (fun functions values pos => ?_) c.rule
              rw [call_plain like.plain, call_plain like.plain']
              exact ih functions values pos
            exact calls.read (c.body.agrees calls same.numbers (.bindAll .nil c.params values) pos)
          · rw [run_arity hc arity,
              run_arity hc' (by rw [← values.length_eq, same.params]; exact arity), same.name,
              same.params, values.length_eq]
            exact .stop _

/-- Where expressions of a rule are read. -/
theorem Like.scenes (like : Like L w w') (rule : String) (rounds : Nat) :
    Scene.Like L (w.scene rule rounds) (w'.scene rule rounds) :=
  like.scene (fun functions values pos => like.call rounds functions values pos) rule

end World

end Packrat
