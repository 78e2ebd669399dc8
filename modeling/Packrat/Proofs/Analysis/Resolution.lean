import Packrat.Grammar.Analysis
import Packrat.Proofs.Analysis.Lowering
import Packrat.Expr.Facts
import Mathlib.Data.List.Forall2

/-
**What analysis settles.**

Behind analysis every name of an expression has found what it refers to: a local that is in scope, or
a rule that takes as many arguments as it is given.  Each pass keeps what the passes before it have
settled.

Main definitions:

* `Packrat.Expr.Settled` — an expression whose names refer to something;
* `Packrat.Grammar.Analyzed` — a grammar that is ready to be compiled;
* `Packrat.Grammar.History` — what analysis has done to a grammar.

Main results:

* `Packrat.Expr.scoped_closed` — an expression reads no locals but those in scope;
* `Packrat.Expr.resolved_settled` — names that are not locals have found their rules;
* `Packrat.Grammar.analyzed_of_analyze` — **analysis gives grammars that are ready to be compiled**.
-/

set_option autoImplicit false

namespace Packrat

/-- An expression whose names refer to locals, or to rules that take as many arguments as they are
given. -/
def Expr.Settled (rules : Signatures) : Expr → Prop
  | .str _ _ flags | .regex _ _ flags => flags.skip = true → rules.lookup ignoredRule = some []
  | .ref _ name binding =>
    binding = .local ∨ (binding = .rule (ruleFunction name) ∧ rules.lookup name = some [])
  | .choice _ alternatives => alternatives ≠ []
  | .call _ callee args binding => binding = .rule (ruleFunction callee) ∧
    ∃ params, rules.lookup callee = some params ∧ args.length = params.length
  | _ => True

/-- A grammar that is ready to be compiled. -/
structure Grammar.Analyzed (g : Grammar) : Prop where
  names : (g.definitions.map (·.name)).Nodup
  settled : ∀ d ∈ g.definitions, d.body.Every (Expr.Settled g.signatures)
  closed : ∀ d ∈ g.definitions, ∀ n ∈ d.body.readLocals [], n ∈ d.paramList

/-! ### Skipping -/

namespace Expr

theorem skippingAll_eq (es : List Expr) : skippingAll es = es.map Expr.skipping := by
  induction es with
  | nil => rfl
  | cons e es ih => rw [skippingAll, ih, List.map_cons]

theorem skippingArgs_eq (args : List (Option String × Expr)) :
    (skippingArgs args).map (·.2) = (args.map (·.2)).map Expr.skipping := by
  induction args with
  | nil => rfl
  | cons arg args ih => rw [skippingArgs, List.map_cons, ih]; rfl

theorem skippingLevels_eq (levels : List (Fixity × Expr)) :
    (skippingLevels levels).map (·.2) = (levels.map (·.2)).map Expr.skipping := by
  induction levels with
  | nil => rfl
  | cons level levels ih => rw [skippingLevels, List.map_cons, ih]; rfl

theorem children_skipping (e : Expr) : e.skipping.children = e.children.map Expr.skipping := by
  cases e <;> simp [skipping, children, skippingAll_eq, skippingArgs_eq, skippingLevels_eq]

/-- Matches may skip ignored content where there is any. -/
theorem Raw.skipping {e : Expr} (h : e.Raw) : e.skipping.Every (Plain True (· = .unresolved)) := by
  induction h with
  | @intro e here _ ih =>
      refine ⟨?_, fun c mem => ?_⟩
      · cases e <;> simp_all [Plain, Expr.skipping, skippingAll_eq]
      · rw [children_skipping] at mem
        obtain ⟨x, of, rfl⟩ := List.mem_map.1 mem
        exact ih x of

/-! ### Numbers -/

theorem mem_numberedAll {es : List Expr} {n : Nat} {c : Expr} (mem : c ∈ (numberedAll es n).1) :
    ∃ e ∈ es, ∃ m, c = (e.numbered m).1 := by
  induction es generalizing n with
  | nil => exact absurd mem List.not_mem_nil
  | cons e es ih =>
      rcases List.mem_cons.1 mem with rfl | mem
      · exact ⟨e, by simp, n, rfl⟩
      · obtain ⟨e, of, m, rfl⟩ := ih mem
        exact ⟨e, List.mem_cons_of_mem _ of, m, rfl⟩

theorem mem_numberedArgs {args : List (Option String × Expr)} {n : Nat} {c : Expr}
    (mem : c ∈ ((numberedArgs args n).1).map (·.2)) :
    ∃ e ∈ args.map (·.2), ∃ m, c = (e.numbered m).1 := by
  induction args generalizing n with
  | nil => exact absurd mem List.not_mem_nil
  | cons arg args ih =>
      rcases List.mem_cons.1 mem with rfl | mem
      · exact ⟨arg.2, by simp, n, rfl⟩
      · obtain ⟨e, of, m, rfl⟩ := ih mem
        exact ⟨e, List.mem_cons_of_mem _ of, m, rfl⟩

theorem mem_numberedLevels {levels : List (Fixity × Expr)} {n : Nat} {c : Expr}
    (mem : c ∈ ((numberedLevels levels n).1).map (·.2)) :
    ∃ e ∈ levels.map (·.2), ∃ m, c = (e.numbered m).1 := by
  induction levels generalizing n with
  | nil => exact absurd mem List.not_mem_nil
  | cons level levels ih =>
      rcases List.mem_cons.1 mem with rfl | mem
      · exact ⟨level.2, by simp, n, rfl⟩
      · obtain ⟨e, of, m, rfl⟩ := ih mem
        exact ⟨e, List.mem_cons_of_mem _ of, m, rfl⟩

theorem children_numbered {e c : Expr} {n : Nat} (mem : c ∈ (e.numbered n).1.children) :
    ∃ x ∈ e.children, ∃ m, c = (x.numbered m).1 := by
  cases e with
  | str | regex | ref | fail | host => exact absurd mem List.not_mem_nil
  | seq | choice | skip => exact mem_numberedAll mem
  | list _ inner | opt _ inner | expect _ inner | expectNot _ inner =>
      exact ⟨inner, by simp [children], _, List.mem_singleton.1 mem⟩
  | sep _ a b | apply _ a b | discard _ a b | bound _ _ a b | satisfying _ a b =>
      rcases List.mem_cons.1 mem with rfl | mem
      · exact ⟨a, by simp [children], _, rfl⟩
      · exact ⟨b, by simp [children], _, List.mem_singleton.1 mem⟩
  | call => exact mem_numberedArgs mem
  | operators _ atom levels =>
      rcases List.mem_cons.1 mem with rfl | mem
      · exact ⟨atom, by simp [children], _, rfl⟩
      · obtain ⟨x, of, m, rfl⟩ := mem_numberedLevels mem
        exact ⟨x, List.mem_cons_of_mem _ of, m, rfl⟩

/-- Numbers change nothing else. -/
theorem numbered_plain {skips : Prop} {may : Binding → Prop} {e : Expr} (h : e.Every (Plain skips may))
    (n : Nat) : (e.numbered n).1.Every (Plain skips may) := by
  induction h generalizing n with
  | @intro e here _ ih =>
      refine ⟨?_, fun c mem => ?_⟩
      · cases e with
        | choice tag items =>
            cases items with
            | nil => exact absurd rfl here
            | cons e es => exact List.cons_ne_nil _ _
        | _ => exact here
      · obtain ⟨x, of, m, rfl⟩ := children_numbered mem
        exact ih x of m

/-! ### Locals -/

theorem mem_scopedAll {known : Known} {scope : List String} {es out : List Expr}
    (h : scopedAll known scope es = .ok out) :
    es.length = out.length ∧ ∀ c ∈ out, ∃ e ∈ es, e.scoped known scope = .ok c := by
  induction es generalizing out with
  | nil =>
      obtain rfl : [] = out := by simpa [scopedAll] using h
      simp
  | cons e es ih =>
      obtain ⟨x, first, h⟩ := Except.bind_eq_ok.1 h
      obtain ⟨rest, found, h⟩ := Except.bind_eq_ok.1 h
      obtain rfl := Except.pure_eq_ok.1 h
      obtain ⟨length, all⟩ := ih found
      refine ⟨by simp [length], fun c mem => ?_⟩
      rcases List.mem_cons.1 mem with rfl | mem
      · exact ⟨e, by simp, first⟩
      · obtain ⟨y, of, from_⟩ := all c mem
        exact ⟨y, List.mem_cons_of_mem _ of, from_⟩

theorem mem_scopedFields {known : Known} {scope fields : List String} {es out : List Expr}
    (h : scopedFields known scope fields es = .ok out) :
    ∀ c ∈ out, ∃ e ∈ es, ∃ scope, e.scoped known scope = .ok c := by
  induction es generalizing out scope fields with
  | nil =>
      obtain rfl : [] = out := by simpa [scopedFields] using h
      simp
  | cons e es ih =>
      obtain ⟨x, first, h⟩ := Except.bind_eq_ok.1 h
      obtain ⟨rest, found, h⟩ := Except.bind_eq_ok.1 h
      obtain rfl := Except.pure_eq_ok.1 h
      intro c mem
      rcases List.mem_cons.1 mem with rfl | mem
      · exact ⟨e, by simp, scope, first⟩
      · obtain ⟨y, of, from_⟩ := ih found c mem
        exact ⟨y, List.mem_cons_of_mem _ of, from_⟩

theorem mem_scopedArgs {known : Known} {scope : List String}
    {args out : List (Option String × Expr)} (h : scopedArgs known scope args = .ok out) :
    ∀ c ∈ out.map (·.2), ∃ e ∈ args.map (·.2), e.scoped known scope = .ok c := by
  induction args generalizing out with
  | nil =>
      obtain rfl : [] = out := by simpa [scopedArgs] using h
      simp
  | cons arg args ih =>
      obtain ⟨x, first, h⟩ := Except.bind_eq_ok.1 h
      obtain ⟨rest, found, h⟩ := Except.bind_eq_ok.1 h
      obtain rfl := Except.pure_eq_ok.1 h
      intro c mem
      rcases List.mem_cons.1 mem with rfl | mem
      · exact ⟨arg.2, by simp, first⟩
      · obtain ⟨y, of, from_⟩ := ih found c mem
        exact ⟨y, List.mem_cons_of_mem _ of, from_⟩

theorem mem_scopedLevels {known : Known} {scope : List String} {levels out : List (Fixity × Expr)}
    (h : scopedLevels known scope levels = .ok out) :
    ∀ c ∈ out.map (·.2), ∃ e ∈ levels.map (·.2), e.scoped known scope = .ok c := by
  induction levels generalizing out with
  | nil =>
      obtain rfl : [] = out := by simpa [scopedLevels] using h
      simp
  | cons level levels ih =>
      obtain ⟨x, first, h⟩ := Except.bind_eq_ok.1 h
      obtain ⟨rest, found, h⟩ := Except.bind_eq_ok.1 h
      obtain rfl := Except.pure_eq_ok.1 h
      intro c mem
      rcases List.mem_cons.1 mem with rfl | mem
      · exact ⟨level.2, by simp, first⟩
      · obtain ⟨y, of, from_⟩ := ih found c mem
        exact ⟨y, List.mem_cons_of_mem _ of, from_⟩

/-- What may be said of an expression whose names have found their locals. -/
theorem scoped_here {known : Known} {scope : List String} {skips : Prop} {e out : Expr}
    (h : e.scoped known scope = .ok out) (here : Plain skips (· = .unresolved) e) :
    Plain skips (· ∈ [.unresolved, .local]) out ∧
      ∀ c ∈ out.children, ∃ x ∈ e.children, ∃ scope, x.scoped known scope = .ok c := by
  cases e with
  | str | regex | fail =>
      obtain rfl : _ = out := by simpa [Expr.scoped] using h
      exact ⟨here, by simp [children]⟩
  | ref tag name binding =>
      simp only [Expr.scoped] at h
      split at h
      · obtain rfl : _ = out := by simpa using h
        exact ⟨by simp [Plain], by simp [children]⟩
      · split at h
        · obtain rfl : _ = out := by simpa using h
          exact ⟨by simpa [Plain] using .inl here, by simp [children]⟩
        · exact absurd h not_refuse_eq_ok
  | seq tag items cls? =>
      obtain ⟨items, done, h⟩ := Except.bind_eq_ok.1 h
      obtain rfl := Except.pure_eq_ok.1 h
      exact ⟨trivial, mem_scopedFields done⟩
  | choice tag items =>
      obtain ⟨out, done, h⟩ := Except.bind_eq_ok.1 h
      obtain rfl := Except.pure_eq_ok.1 h
      obtain ⟨length, all⟩ := mem_scopedAll done
      refine ⟨fun none => here (List.length_eq_zero_iff.1 (by simpa [none] using length)), ?_⟩
      exact fun c mem => (all c mem).imp fun x h => ⟨h.1, scope, h.2⟩
  | skip tag items =>
      obtain ⟨out, done, h⟩ := Except.bind_eq_ok.1 h
      obtain rfl := Except.pure_eq_ok.1 h
      exact ⟨trivial, fun c mem => ((mem_scopedAll done).2 c mem).imp fun x h => ⟨h.1, scope, h.2⟩⟩
  | list tag item least most =>
      obtain ⟨x, first, h⟩ := Except.bind_eq_ok.1 h
      obtain ⟨_, -, h⟩ := Except.bind_eq_ok.1 h
      obtain ⟨_, -, h⟩ := Except.bind_eq_ok.1 h
      obtain rfl := Except.pure_eq_ok.1 h
      exact ⟨trivial, by simpa [children] using ⟨scope, first⟩⟩
  | opt tag inner | expect tag inner | expectNot tag inner =>
      obtain ⟨x, first, h⟩ := Except.bind_eq_ok.1 h
      obtain rfl := Except.pure_eq_ok.1 h
      exact ⟨trivial, by simpa [children] using ⟨scope, first⟩⟩
  | sep tag a b | apply tag a b | discard tag a b | bound tag _ a b | satisfying tag a b =>
      obtain ⟨x, first, h⟩ := Except.bind_eq_ok.1 h
      obtain ⟨y, second, h⟩ := Except.bind_eq_ok.1 h
      obtain rfl := Except.pure_eq_ok.1 h
      exact ⟨trivial, by simpa [children] using ⟨.inl ⟨_, first⟩, .inr ⟨_, second⟩⟩⟩
  | call tag callee args binding =>
      simp only [Expr.scoped] at h
      split at h
      · exact absurd h not_refuse_eq_ok
      · obtain ⟨out, done, h⟩ := Except.bind_eq_ok.1 h
        obtain rfl := Except.pure_eq_ok.1 h
        exact ⟨trivial, fun c mem => (mem_scopedArgs done c mem).imp
          fun x h => ⟨h.1, scope, h.2⟩⟩
  | host tag snippet =>
      obtain ⟨_, -, h⟩ := Except.bind_eq_ok.1 h
      obtain rfl := Except.pure_eq_ok.1 h
      exact ⟨trivial, by simp [children]⟩
  | operators tag atom levels =>
      obtain ⟨x, first, h⟩ := Except.bind_eq_ok.1 h
      obtain ⟨out, done, h⟩ := Except.bind_eq_ok.1 h
      obtain rfl := Except.pure_eq_ok.1 h
      refine ⟨trivial, fun c mem => ?_⟩
      rcases List.mem_cons.1 mem with rfl | mem
      · exact ⟨atom, by simp [children], scope, first⟩
      · obtain ⟨y, of, from_⟩ := mem_scopedLevels done c mem
        exact ⟨y, List.mem_cons_of_mem _ of, scope, from_⟩

/-- Names that have not found a local may still be those of rules. -/
theorem scoped_plain {known : Known} {skips : Prop} {e : Expr}
    (plain : e.Every (Plain skips (· = .unresolved))) {scope : List String} {out : Expr}
    (h : e.scoped known scope = .ok out) : out.Every (Plain skips (· ∈ [.unresolved, .local])) := by
  induction plain generalizing scope out with
  | @intro e here _ ih =>
      obtain ⟨here', all⟩ := scoped_here h here
      refine ⟨here', fun c mem => ?_⟩
      obtain ⟨x, of, scope', from_⟩ := all c mem
      exact ih x of from_

/-! ### What is read -/

theorem mem_readLocalsAll {bound : List String} {es : List Expr} {n : String} :
    n ∈ readLocalsAll bound es ↔ ∃ e ∈ es, n ∈ e.readLocals bound := by
  induction es with
  | nil => simp [readLocalsAll]
  | cons e es ih => simp [readLocalsAll, ih]

theorem mem_readLocalsArgs {bound : List String} {args : List (Option String × Expr)} {n : String} :
    n ∈ readLocalsArgs bound args ↔ ∃ e ∈ args.map (·.2), n ∈ e.readLocals bound := by
  induction args with
  | nil => simp [readLocalsArgs]
  | cons arg args ih => simp [readLocalsArgs, ih]

theorem mem_readLocalsLevels {bound : List String} {levels : List (Fixity × Expr)} {n : String} :
    n ∈ readLocalsLevels bound levels ↔ ∃ e ∈ levels.map (·.2), n ∈ e.readLocals bound := by
  induction levels with
  | nil => simp [readLocalsLevels]
  | cons level levels ih => simp [readLocalsLevels, ih]

theorem mem_snippetLocals {bound : List String} {s : Snippet} {n : String} :
    n ∈ snippetLocals bound s ↔ n ∈ s.locals ∧ n ∉ bound := by
  simp [snippetLocals]

theorem snippet_closed {known : Known} {scope bound : List String} {span : Span} {s out : Snippet}
    (h : s.scoped known scope span = .ok out) :
    ∀ n ∈ snippetLocals bound out, n ∈ scope ∧ n ∉ bound := by
  intro n mem
  obtain ⟨mem, free⟩ := mem_snippetLocals.1 mem
  simp only [Snippet.scoped] at h
  split at h
  · exact absurd h not_refuse_eq_ok
  · obtain rfl : _ = out := by simpa using h
    exact ⟨by simpa using (List.mem_filter.1 mem).2, free⟩

theorem bound_closed {known : Known} {scope bound : List String} {span : Span}
    {b? out : Option Bound} (h : Bound.scoped known scope span b? = .ok out) :
    ∀ n ∈ boundLocals bound out, n ∈ scope ∧ n ∉ bound := by
  match b? with
  | none | some (.const _) =>
      obtain rfl : _ = out := by simpa [Bound.scoped] using h
      simp [boundLocals]
  | some (.host s) =>
      obtain ⟨t, done, h⟩ := Except.bind_eq_ok.1 h
      obtain rfl := Except.pure_eq_ok.1 h
      exact snippet_closed done

/-- What an expression reads, once its names have found their locals in a scope, is in that scope. -/
def Confined (known : Known) (e : Expr) : Prop :=
  ∀ {scope bound : List String} {out : Expr}, e.scoped known scope = .ok out →
    ∀ n ∈ out.readLocals bound, n ∈ scope ∧ n ∉ bound

theorem fields_closed {known : Known} {scope bound fields : List String} {es out : List Expr}
    (all : ∀ e ∈ es, Confined known e) (h : scopedFields known scope fields es = .ok out) :
    ∀ n ∈ readLocalsFields bound fields out, n ∈ scope ∧ n ∉ bound := by
  induction es generalizing out scope bound fields with
  | nil =>
      obtain rfl : [] = out := by simpa [scopedFields] using h
      simp [readLocalsFields]
  | cons e es ih =>
      obtain ⟨x, first, h⟩ := Except.bind_eq_ok.1 h
      obtain ⟨rest, found, h⟩ := Except.bind_eq_ok.1 h
      obtain rfl := Except.pure_eq_ok.1 h
      intro n mem
      rcases List.mem_append.1 mem with mem | mem
      · exact all e (by simp) first n mem
      · -- A field that is in scope for the items behind it is none of what they read.
        have := ih (fun e of => all e (List.mem_cons_of_mem _ of)) found n mem
        simp only [List.mem_append, not_or] at this
        exact ⟨this.1.resolve_left this.2.1, this.2.2⟩

/-- **An expression whose names have found their locals reads only what is in scope.** -/
theorem scoped_closed {known : Known} {skips : Prop} {e : Expr}
    (plain : e.Every (Plain skips (· = .unresolved))) : Confined known e := by
  induction plain with
  | @intro e here _ ih =>
  intro scope bound out h
  cases e with
  | str | regex | fail =>
      obtain rfl : _ = out := by simpa [Expr.scoped] using h
      simp [readLocals]
  | ref tag name binding =>
      obtain rfl : binding = .unresolved := here
      simp only [Expr.scoped] at h
      split at h
      · obtain rfl : _ = out := by simpa using h
        simp_all [readLocals]
      · split at h
        · obtain rfl : _ = out := by simpa using h
          simp [readLocals]
        · exact absurd h not_refuse_eq_ok
  | seq tag items cls? =>
      obtain ⟨items, done, h⟩ := Except.bind_eq_ok.1 h
      obtain rfl := Except.pure_eq_ok.1 h
      exact fields_closed ih done
  | choice tag items | skip tag items =>
      obtain ⟨out, done, h⟩ := Except.bind_eq_ok.1 h
      obtain rfl := Except.pure_eq_ok.1 h
      intro n mem
      obtain ⟨c, of, mem⟩ := mem_readLocalsAll.1 mem
      obtain ⟨x, from_, done⟩ := (mem_scopedAll done).2 c of
      exact ih x from_ done n mem
  | list tag item least most =>
      obtain ⟨x, first, h⟩ := Except.bind_eq_ok.1 h
      obtain ⟨_, least, h⟩ := Except.bind_eq_ok.1 h
      obtain ⟨_, most, h⟩ := Except.bind_eq_ok.1 h
      obtain rfl := Except.pure_eq_ok.1 h
      intro n mem
      rcases List.mem_append.1 mem with mem | mem
      · rcases List.mem_append.1 mem with mem | mem
        · exact ih item (by simp [children]) first n mem
        · exact bound_closed least n mem
      · exact bound_closed most n mem
  | opt tag inner | expect tag inner | expectNot tag inner =>
      obtain ⟨x, first, h⟩ := Except.bind_eq_ok.1 h
      obtain rfl := Except.pure_eq_ok.1 h
      intro n mem
      exact ih inner (by simp [children]) first n mem
  | sep tag a b | apply tag a b | discard tag a b | satisfying tag a b =>
      obtain ⟨x, first, h⟩ := Except.bind_eq_ok.1 h
      obtain ⟨y, second, h⟩ := Except.bind_eq_ok.1 h
      obtain rfl := Except.pure_eq_ok.1 h
      intro n mem
      rcases List.mem_append.1 mem with mem | mem
      · exact ih a (by simp [children]) first n mem
      · exact ih b (by simp [children]) second n mem
  | bound tag name a b =>
      obtain ⟨x, first, h⟩ := Except.bind_eq_ok.1 h
      obtain ⟨y, second, h⟩ := Except.bind_eq_ok.1 h
      obtain rfl := Except.pure_eq_ok.1 h
      intro n mem
      rcases List.mem_append.1 mem with mem | mem
      · exact ih a (by simp [children]) first n mem
      · have := ih b (by simp [children]) second n mem
        simp only [List.mem_cons, not_or] at this
        exact ⟨this.1.resolve_left this.2.1, this.2.2⟩
  | call tag callee args binding =>
      simp only [Expr.scoped] at h
      split at h
      · exact absurd h not_refuse_eq_ok
      · obtain ⟨out, done, h⟩ := Except.bind_eq_ok.1 h
        obtain rfl := Except.pure_eq_ok.1 h
        intro n mem
        obtain ⟨c, of, mem⟩ := mem_readLocalsArgs.1 mem
        obtain ⟨x, from_, done⟩ := mem_scopedArgs done c of
        exact ih x from_ done n mem
  | host tag snippet =>
      obtain ⟨t, done, h⟩ := Except.bind_eq_ok.1 h
      obtain rfl := Except.pure_eq_ok.1 h
      exact snippet_closed done
  | operators tag atom levels =>
      obtain ⟨x, first, h⟩ := Except.bind_eq_ok.1 h
      obtain ⟨out, done, h⟩ := Except.bind_eq_ok.1 h
      obtain rfl := Except.pure_eq_ok.1 h
      intro n mem
      rcases List.mem_append.1 mem with mem | mem
      · exact ih atom (by simp [children]) first n mem
      · obtain ⟨c, of, mem⟩ := mem_readLocalsLevels.1 mem
        obtain ⟨y, from_, done⟩ := mem_scopedLevels done c of
        exact ih y (List.mem_cons_of_mem _ from_) done n mem

/-! ### Rules -/

variable {rules : Signatures}

theorem mem_resolvedAll {es out : List Expr} (h : resolvedAll rules es = .ok out) :
    List.Forall₂ (fun e c => e.resolved rules = .ok c) es out := by
  induction es generalizing out with
  | nil =>
      obtain rfl : [] = out := by simpa [resolvedAll] using h
      exact .nil
  | cons e es ih =>
      obtain ⟨x, first, h⟩ := Except.bind_eq_ok.1 h
      obtain ⟨rest, found, h⟩ := Except.bind_eq_ok.1 h
      obtain rfl := Except.pure_eq_ok.1 h
      exact .cons first (ih found)

theorem mem_resolvedArgs {args out : List (Option String × Expr)}
    (h : resolvedArgs rules args = .ok out) :
    List.Forall₂ (fun e c => e.resolved rules = .ok c) (args.map (·.2)) (out.map (·.2)) := by
  induction args generalizing out with
  | nil =>
      obtain rfl : [] = out := by simpa [resolvedArgs] using h
      exact .nil
  | cons arg args ih =>
      obtain ⟨x, first, h⟩ := Except.bind_eq_ok.1 h
      obtain ⟨rest, found, h⟩ := Except.bind_eq_ok.1 h
      obtain rfl := Except.pure_eq_ok.1 h
      exact .cons first (ih found)

theorem mem_resolvedLevels {levels out : List (Fixity × Expr)}
    (h : resolvedLevels rules levels = .ok out) :
    List.Forall₂ (fun e c => e.resolved rules = .ok c) (levels.map (·.2)) (out.map (·.2)) := by
  induction levels generalizing out with
  | nil =>
      obtain rfl : [] = out := by simpa [resolvedLevels] using h
      exact .nil
  | cons level levels ih =>
      obtain ⟨x, first, h⟩ := Except.bind_eq_ok.1 h
      obtain ⟨rest, found, h⟩ := Except.bind_eq_ok.1 h
      obtain rfl := Except.pure_eq_ok.1 h
      exact .cons first (ih found)

/-- The arguments of a call that has found its rule are those it was given, one for each parameter. -/
theorem resolveArgs_given {callee : String} {span : Span} {params : List String}
    {args out : List (Option String × Expr)} (h : resolveArgs callee span params args = .ok out) :
    out.length = params.length ∧ ∀ c ∈ out.map (·.2), c ∈ args.map (·.2) := by
  have collected {params : List String} {slots : List (Option Expr)}
      {out : List (Option String × Expr)} (h : collectArgs callee span params slots = .ok out)
      (length : slots.length = params.length) :
      out.length = params.length ∧ ∀ c ∈ out.map (·.2), some c ∈ slots := by
    induction params generalizing slots out with
    | nil =>
        obtain rfl : out = [] := by simpa [collectArgs] using h
        simp
    | cons p ps ih =>
        rcases slots with _ | ⟨_ | x, slots⟩
        · cases length
        · exact absurd h not_refuse_eq_ok
        · obtain ⟨rest, found, h⟩ := Except.bind_eq_ok.1 h
          obtain rfl := Except.pure_eq_ok.1 h
          have := ih found (by simpa using length)
          refine ⟨by simp [this.1], fun c mem => ?_⟩
          rcases List.mem_cons.1 mem with rfl | mem
          · exact List.mem_cons_self
          · exact List.mem_cons_of_mem _ (this.2 c mem)
  simp only [resolveArgs] at h
  split at h
  · exact absurd h not_refuse_eq_ok
  · exact absurd h not_refuse_eq_ok
  · exact absurd h not_refuse_eq_ok
  · next slots found =>
      obtain ⟨length, all⟩ := collected h (length_fillSlots found)
      exact ⟨length, fun c mem => mem_fillSlots found (all c mem)⟩

theorem exists_of_forall₂ {α β : Type} {R : α → β → Prop} {xs : List α} {ys : List β}
    (h : List.Forall₂ R xs ys) {y : β} (mem : y ∈ ys) : ∃ x ∈ xs, R x y := by
  induction h with
  | nil => exact absurd mem List.not_mem_nil
  | cons first _ ih =>
      rcases List.mem_cons.1 mem with rfl | mem
      · exact ⟨_, List.mem_cons_self, first⟩
      · exact (ih mem).imp fun _ h => ⟨List.mem_cons_of_mem _ h.1, h.2⟩

theorem resolved_call {tag : Tag} {callee : String} {args : List (Option String × Expr)}
    {binding : Binding} {out : Expr} (h : (Expr.call tag callee args binding).resolved rules = .ok out) :
    ∃ mid final params, resolvedArgs rules args = .ok mid ∧ rules.lookup callee = some params ∧
      resolveArgs callee tag.span params mid = .ok final ∧
      out = .call tag callee final (.rule (ruleFunction callee)) := by
  obtain ⟨mid, done, h⟩ := Except.bind_eq_ok.1 h
  simp only [resolveCall] at h
  split at h
  · exact absurd h not_refuse_eq_ok
  · next params known =>
      obtain ⟨final, filled, h⟩ := Except.bind_eq_ok.1 h
      exact ⟨mid, final, params, done, known, filled, (Except.pure_eq_ok.1 h).symm⟩

/-- What may be said of an expression whose names have found their rules. -/
theorem resolved_here {skips : Prop} (there : skips → rules.lookup ignoredRule = some [])
    {e out : Expr} (h : e.resolved rules = .ok out)
    (here : Plain skips (· ∈ [.unresolved, .local]) e) :
    Settled rules out ∧ ∀ c ∈ out.children, ∃ x ∈ e.children, x.resolved rules = .ok c := by
  cases e with
  | str | regex =>
      obtain rfl : _ = out := by simpa [Expr.resolved] using h
      exact ⟨fun skip => there (here skip), by simp [children]⟩
  | fail =>
      obtain rfl : _ = out := by simpa [Expr.resolved] using h
      exact ⟨trivial, by simp [children]⟩
  | host =>
      obtain rfl : _ = out := by simpa [Expr.resolved] using h
      exact ⟨trivial, by simp [children]⟩
  | ref tag name binding =>
      simp only [Expr.resolved] at h
      split at h
      · simp only [resolveRef] at h
        split at h
        · exact absurd h not_refuse_eq_ok
        · next known =>
            obtain rfl : _ = out := by simpa using h
            exact ⟨.inr ⟨rfl, known⟩, by simp [children]⟩
        · exact absurd h not_refuse_eq_ok
      · next resolved =>
          obtain rfl : _ = out := by simpa using h
          simp only [Plain, List.mem_cons, List.not_mem_nil, or_false] at here
          exact ⟨.inl (here.resolve_left resolved), by simp [children]⟩
  | seq tag items cls? =>
      obtain ⟨items, done, h⟩ := Except.bind_eq_ok.1 h
      obtain rfl := Except.pure_eq_ok.1 h
      exact ⟨trivial, fun c => exists_of_forall₂ (mem_resolvedAll done)⟩
  | choice tag items =>
      obtain ⟨out, done, h⟩ := Except.bind_eq_ok.1 h
      obtain rfl := Except.pure_eq_ok.1 h
      have all := mem_resolvedAll done
      refine ⟨?_, fun c => exists_of_forall₂ all⟩
      rintro rfl
      exact here (List.length_eq_zero_iff.1 all.length_eq)
  | skip tag items =>
      obtain ⟨out, done, h⟩ := Except.bind_eq_ok.1 h
      obtain rfl := Except.pure_eq_ok.1 h
      exact ⟨trivial, fun c => exists_of_forall₂ (mem_resolvedAll done)⟩
  | list tag item | opt tag item | expect tag item | expectNot tag item =>
      obtain ⟨x, first, h⟩ := Except.bind_eq_ok.1 h
      obtain rfl := Except.pure_eq_ok.1 h
      exact ⟨trivial, by simpa [children] using first⟩
  | sep tag a b | apply tag a b | discard tag a b | bound tag _ a b | satisfying tag a b =>
      obtain ⟨x, first, h⟩ := Except.bind_eq_ok.1 h
      obtain ⟨y, second, h⟩ := Except.bind_eq_ok.1 h
      obtain rfl := Except.pure_eq_ok.1 h
      exact ⟨trivial, by simpa [children] using ⟨.inl first, .inr second⟩⟩
  | call tag callee args binding =>
      obtain ⟨mid, final, params, done, known, filled, rfl⟩ := resolved_call h
      obtain ⟨length, given⟩ := resolveArgs_given filled
      exact ⟨⟨rfl, params, known, length⟩,
        fun c mem => exists_of_forall₂ (mem_resolvedArgs done) (given c mem)⟩
  | operators tag atom levels =>
      obtain ⟨x, first, h⟩ := Except.bind_eq_ok.1 h
      obtain ⟨out, done, h⟩ := Except.bind_eq_ok.1 h
      obtain rfl := Except.pure_eq_ok.1 h
      refine ⟨trivial, fun c mem => ?_⟩
      rcases List.mem_cons.1 mem with rfl | mem
      · exact ⟨atom, by simp [children], first⟩
      · obtain ⟨y, of, done⟩ := exists_of_forall₂ (mem_resolvedLevels done) mem
        exact ⟨y, List.mem_cons_of_mem _ of, done⟩

/-- **Every name has found what it refers to.** -/
theorem resolved_settled {skips : Prop} (there : skips → rules.lookup ignoredRule = some [])
    {e : Expr} (plain : e.Every (Plain skips (· ∈ [.unresolved, .local]))) {out : Expr}
    (h : e.resolved rules = .ok out) : out.Every (Settled rules) := by
  induction plain generalizing out with
  | @intro e here _ ih =>
      obtain ⟨settled, all⟩ := resolved_here there h here
      refine ⟨settled, fun c mem => ?_⟩
      obtain ⟨x, of, done⟩ := all c mem
      exact ih x of done

/-- Finding the rules adds nothing to what an expression reads. -/
def Narrows (rules : Signatures) (e : Expr) : Prop :=
  ∀ {bound : List String} {out : Expr}, e.resolved rules = .ok out →
    ∀ n ∈ out.readLocals bound, n ∈ e.readLocals bound

theorem fields_narrow {bound fields : List String} {es out : List Expr}
    (all : ∀ e ∈ es, Narrows rules e) (h : resolvedAll rules es = .ok out) :
    ∀ n ∈ readLocalsFields bound fields out, n ∈ readLocalsFields bound fields es := by
  induction es generalizing out bound fields with
  | nil =>
      obtain rfl : [] = out := by simpa [resolvedAll] using h
      simp
  | cons e es ih =>
      obtain ⟨x, first, h⟩ := Except.bind_eq_ok.1 h
      obtain ⟨rest, found, h⟩ := Except.bind_eq_ok.1 h
      obtain rfl := Except.pure_eq_ok.1 h
      intro n mem
      rcases List.mem_append.1 mem with mem | mem
      · exact List.mem_append_left _ (all e (by simp) first n mem)
      · exact List.mem_append_right _
          (ih (fun e of => all e (List.mem_cons_of_mem _ of)) found n mem)

/-- Names that find their rules are no locals. -/
theorem resolved_narrows {P : Expr → Prop} {e : Expr} (h : e.Every P) : Narrows rules e := by
  induction h with
  | @intro e _ _ ih =>
  intro bound out h
  cases e with
  | str | regex | fail | host =>
      obtain rfl : _ = out := by simpa [Expr.resolved] using h
      exact fun _ mem => mem
  | ref tag name binding =>
      simp only [Expr.resolved] at h
      split at h
      · simp only [resolveRef] at h
        split at h
        · exact absurd h not_refuse_eq_ok
        · obtain rfl : _ = out := by simpa using h
          simp [readLocals]
        · exact absurd h not_refuse_eq_ok
      · obtain rfl : _ = out := by simpa using h
        exact fun _ mem => mem
  | seq tag items cls? =>
      obtain ⟨items, done, h⟩ := Except.bind_eq_ok.1 h
      obtain rfl := Except.pure_eq_ok.1 h
      exact fields_narrow ih done
  | choice tag items | skip tag items =>
      obtain ⟨out, done, h⟩ := Except.bind_eq_ok.1 h
      obtain rfl := Except.pure_eq_ok.1 h
      intro n mem
      obtain ⟨c, of, mem⟩ := mem_readLocalsAll.1 mem
      obtain ⟨x, given, done⟩ := exists_of_forall₂ (mem_resolvedAll done) of
      exact mem_readLocalsAll.2 ⟨x, given, ih x given done n mem⟩
  | list tag item least most =>
      obtain ⟨x, first, h⟩ := Except.bind_eq_ok.1 h
      obtain rfl := Except.pure_eq_ok.1 h
      intro n mem
      have := @ih item (by simp [children]) bound x first n
      simp only [readLocals, List.mem_append] at mem ⊢
      tauto
  | opt tag inner | expect tag inner | expectNot tag inner =>
      obtain ⟨x, first, h⟩ := Except.bind_eq_ok.1 h
      obtain rfl := Except.pure_eq_ok.1 h
      intro n mem
      exact ih inner (by simp [children]) first n mem
  | sep tag a b | apply tag a b | discard tag a b | satisfying tag a b | bound tag _ a b =>
      obtain ⟨x, first, h⟩ := Except.bind_eq_ok.1 h
      obtain ⟨y, second, h⟩ := Except.bind_eq_ok.1 h
      obtain rfl := Except.pure_eq_ok.1 h
      intro n mem
      rcases List.mem_append.1 mem with mem | mem
      · exact List.mem_append_left _ (ih a (by simp [children]) first n mem)
      · exact List.mem_append_right _ (ih b (by simp [children]) second n mem)
  | call tag callee args binding =>
      obtain ⟨mid, final, params, done, known, filled, rfl⟩ := resolved_call h
      intro n mem
      obtain ⟨c, of, mem⟩ := mem_readLocalsArgs.1 mem
      obtain ⟨x, given, done⟩ :=
        exists_of_forall₂ (mem_resolvedArgs done) ((resolveArgs_given filled).2 c of)
      exact mem_readLocalsArgs.2 ⟨x, given, ih x given done n mem⟩
  | operators tag atom levels =>
      obtain ⟨x, first, h⟩ := Except.bind_eq_ok.1 h
      obtain ⟨out, done, h⟩ := Except.bind_eq_ok.1 h
      obtain rfl := Except.pure_eq_ok.1 h
      intro n mem
      rcases List.mem_append.1 mem with mem | mem
      · exact List.mem_append_left _ (ih atom (by simp [children]) first n mem)
      · obtain ⟨c, of, mem⟩ := mem_readLocalsLevels.1 mem
        obtain ⟨y, given, done⟩ := exists_of_forall₂ (mem_resolvedLevels done) of
        exact List.mem_append_right _ (mem_readLocalsLevels.2
          ⟨y, given, ih y (List.mem_cons_of_mem _ given) done n mem⟩)

end Expr

/-! ### Grammars -/

theorem names_of_checkDefinitions {seen : List String} {ds : List Definition}
    (h : checkDefinitions seen ds = .ok ()) :
    (ds.map (·.name)).Nodup ∧ ∀ d ∈ ds, d.name ∉ seen := by
  induction ds generalizing seen with
  | nil => simp
  | cons d ds ih =>
      obtain ⟨_, here, h⟩ := Except.bind_eq_ok.1 h
      obtain ⟨nodup, fresh⟩ := ih h
      have new : d.name ∉ seen := by
        simp only [Definition.checkNames] at here
        split at here
        · exact absurd here not_refuse_eq_ok
        · split at here
          · exact absurd here not_refuse_eq_ok
          · next new => simpa using new
      refine ⟨List.nodup_cons.2 ⟨fun mem => ?_, nodup⟩, fun x mem => ?_⟩
      · obtain ⟨x, of, same⟩ := List.mem_map.1 mem
        exact fresh x of (same ▸ List.mem_cons_self)
      · rcases List.mem_cons.1 mem with rfl | mem
        · exact new
        · exact fun old => fresh x mem (List.mem_cons_of_mem _ old)

theorem lookup_of_mem {α : Type} {pairs : List (String × α)} (nodup : (pairs.map (·.1)).Nodup)
    {k : String} {a : α} (mem : (k, a) ∈ pairs) : pairs.lookup k = some a := by
  induction pairs with
  | nil => exact absurd mem List.not_mem_nil
  | cons p pairs ih =>
      obtain ⟨fresh, nodup⟩ := List.nodup_cons.1 nodup
      rcases List.mem_cons.1 mem with rfl | mem
      · exact List.lookup_cons_self
      · have other : k ≠ p.1 := by
          rintro rfl
          exact fresh (List.mem_map.2 ⟨_, mem, rfl⟩)
        rw [List.lookup_cons, beq_false_of_ne other]
        exact ih nodup mem

theorem ruleFunction_injective {a b : String} (h : ruleFunction a = ruleFunction b) : a = b := by
  simpa [ruleFunction] using h

/-- A pass over definitions gives each a new body, which `R` relates to the definition. -/
def Passes (R : Definition → Expr → Prop) : List Definition → List Definition → Prop :=
  List.Forall₂ fun d e => ∃ body, e = { d with body } ∧ R d body

namespace Passes

variable {R : Definition → Expr → Prop} {ds es : List Definition}

/-- What does not depend on bodies is as before. -/
theorem map_eq {α : Type} (f : Definition → α) (same : ∀ d body, f { d with body } = f d)
    (h : Passes R ds es) : es.map f = ds.map f := by
  induction h with
  | nil => rfl
  | cons first _ ih =>
      obtain ⟨body, rfl, -⟩ := first
      rw [List.map_cons, List.map_cons, ih, same]

theorem of_mem (h : Passes R ds es) {e : Definition} (mem : e ∈ es) :
    ∃ d ∈ ds, e.paramList = d.paramList ∧ R d e.body := by
  obtain ⟨d, of, body, rfl, related⟩ := Expr.exists_of_forall₂ h mem
  exact ⟨d, of, rfl, related⟩

theorem imp {S : Definition → Expr → Prop} (h : Passes R ds es)
    (imp : ∀ d ∈ ds, ∀ body, R d body → S d body) : Passes S ds es := by
  induction h with
  | nil => exact .nil
  | cons first _ ih =>
      obtain ⟨body, rfl, related⟩ := first
      exact .cons ⟨body, rfl, imp _ List.mem_cons_self _ related⟩
        (ih fun d mem => imp d (List.mem_cons_of_mem _ mem))

theorem trans {S : Definition → Expr → Prop} {fs : List Definition} (h : Passes R ds es)
    (h' : Passes S es fs) :
    Passes (fun d body => ∃ mid, R d mid ∧ S { d with body := mid } body) ds fs := by
  induction h generalizing fs with
  | nil =>
      cases h'
      exact .nil
  | cons first _ ih =>
      cases h' with
      | cons second rest =>
          obtain ⟨mid, rfl, related⟩ := first
          obtain ⟨body, rfl, related'⟩ := second
          exact .cons ⟨body, rfl, mid, related, related'⟩ (ih rest)

end Passes

open Packrat.Expr in
theorem Definition.weaveIgnored_body {d : Definition} (raw : d.Raw) :
    ∃ body, d.weaveIgnored = { d with body } ∧ body.Every (Plain True (· = .unresolved)) := by
  unfold Definition.weaveIgnored
  split
  · refine ⟨d.body, rfl, raw.body.mono fun e plain => ?_⟩
    cases e <;> simp_all [Plain]
  · have skipping := raw.body.skipping
    refine ⟨_, rfl, ?_⟩
    split
    · refine ⟨trivial, fun c mem => ?_⟩
      simp only [children, List.mem_cons, List.not_mem_nil, or_false] at mem
      rcases mem with rfl | rfl
      · exact ⟨rfl, by simp [children]⟩
      · exact skipping
    · exact skipping

/-- A definition of a grammar with skipping woven in, if the grammar ignores anything. -/
def Grammar.weave (g : Grammar) (d : Definition) : Definition :=
  if g.hasIgnored then d.weaveIgnored else d

open Packrat.Expr in
/-- The bodies that skipping has been woven into are plain. -/
theorem Grammar.weave_plain {g : Grammar} {d : Definition} (raw : d.Raw) :
    (g.weave d).body.Every (Plain (g.hasIgnored = true) (· = .unresolved)) := by
  unfold Grammar.weave
  split
  · next ignores =>
      obtain ⟨body, same, plain⟩ := d.weaveIgnored_body raw
      rw [same]
      simpa [ignores] using plain
  · exact raw.body.mono fun e plain => by cases e <;> simp_all [Plain]

theorem Grammar.weaveIgnored_passes (g : Grammar) :
    Passes (fun d body => body = (g.weave d).body) g.definitions g.weaveIgnored.definitions := by
  have same : g.weaveIgnored.definitions = g.definitions.map g.weave := by
    unfold Grammar.weaveIgnored Grammar.weave
    split
    · rfl
    · exact (List.map_id' _).symm
  rw [same]
  refine List.forall₂_map_right_iff.2 (List.forall₂_same.2 fun d _ => ⟨_, ?_, rfl⟩)
  unfold Grammar.weave Definition.weaveIgnored
  split
  · split <;> rfl
  · rfl

theorem numbered_passes (ds : List Definition) (n : Nat) :
    Passes (fun d body => ∃ m, body = (d.body.numbered m).1) ds (numberedDefinitions ds n).1 := by
  induction ds generalizing n with
  | nil => exact .nil
  | cons d ds ih => exact .cons ⟨_, rfl, n, rfl⟩ (ih _)

theorem scoped_passes {known : Known} {ds out : List Definition}
    (h : scopedDefinitions known ds = .ok out) :
    Passes (fun d body => d.body.scoped known d.paramList = .ok body) ds out := by
  induction ds generalizing out with
  | nil =>
      obtain rfl : [] = out := by simpa [scopedDefinitions] using h
      exact .nil
  | cons d ds ih =>
      obtain ⟨body, first, h⟩ := Except.bind_eq_ok.1 h
      obtain ⟨rest, found, h⟩ := Except.bind_eq_ok.1 h
      obtain rfl := Except.pure_eq_ok.1 h
      exact .cons ⟨body, rfl, first⟩ (ih found)

theorem resolved_passes {rules : Signatures} {ds out : List Definition}
    (h : resolvedDefinitions rules ds = .ok out) :
    Passes (fun d body => d.body.resolved rules = .ok body) ds out := by
  induction ds generalizing out with
  | nil =>
      obtain rfl : [] = out := by simpa [resolvedDefinitions] using h
      exact .nil
  | cons d ds ih =>
      obtain ⟨body, first, h⟩ := Except.bind_eq_ok.1 h
      obtain ⟨rest, found, h⟩ := Except.bind_eq_ok.1 h
      obtain rfl := Except.pure_eq_ok.1 h
      exact .cons ⟨body, rfl, first⟩ (ih found)

/-- Where content is ignored there is a rule that skips it. -/
theorem Grammar.lookup_ignored {g : Grammar} (raw : ∀ d ∈ g.definitions, d.Raw)
    (names : (g.definitions.map (·.name)).Nodup) (ignores : g.hasIgnored = true) :
    g.signatures.lookup ignoredRule = some [] := by
  obtain ⟨d, mem, made⟩ := List.any_eq_true.1 ignores
  simp only [Bool.and_eq_true, beq_iff_eq] at made
  refine lookup_of_mem (by simpa [Grammar.signatures, Function.comp_def] using names) ?_
  have params : d.paramList = [] := by rw [Definition.paramList, (raw d mem).synthetic made.1]; rfl
  exact List.mem_map.2 ⟨d, mem, by rw [made.2, params]⟩

/-- What analysis has done: definitions are as before but for their bodies, and each body has come
through finding its locals and its rules. -/
structure Grammar.History (g out : Grammar) (natives : List String) : Prop where
  sections : out.sections = g.sections
  same : ∀ {α : Type} (f : Definition → α), (∀ d body, f { d with body } = f d) →
    out.definitions.map f = g.definitions.map f
  bodies : ∀ e ∈ out.definitions, ∃ plain body : Expr,
    plain.Every (Expr.Plain (g.hasIgnored = true) (· = .unresolved)) ∧
    plain.scoped (g.known natives) e.paramList = .ok body ∧
    body.resolved g.signatures = .ok e.body

/-- The passes that definitions come through. -/
theorem Grammar.passes_of_analyze {natives : List String} {g out : Grammar}
    (h : g.analyze natives = .ok out) :
    out.sections = g.sections ∧
      Passes (fun d body => ∃ n mid,
          ((g.weave d).body.numbered n).1.scoped (g.known natives) d.paramList = .ok mid ∧
          mid.resolved g.signatures = .ok body)
        g.definitions out.definitions := by
  obtain ⟨_, -, h⟩ := Except.bind_eq_ok.1 h
  obtain ⟨mid, h', h⟩ := Except.bind_eq_ok.1 h
  obtain ⟨ds, scoping, final⟩ := Except.bind_eq_ok.1 h'
  obtain rfl := Except.pure_eq_ok.1 final
  obtain ⟨es, resolving, final⟩ := Except.bind_eq_ok.1 h
  obtain rfl := Except.pure_eq_ok.1 final
  have numbers := g.weaveIgnored_passes.trans (numbered_passes g.weaveIgnored.definitions 0)
  have scopes := numbers.trans (scoped_passes scoping)
  have signatures : Grammar.signatures ⟨ds, g.weaveIgnored.numbered.sections⟩ = g.signatures :=
    scopes.map_eq _ fun _ _ => rfl
  have rules := scopes.trans (resolved_passes (signatures ▸ resolving))
  have sections : g.weaveIgnored.sections = g.sections := by
    unfold Grammar.weaveIgnored
    split <;> rfl
  have known : g.weaveIgnored.numbered.known natives = g.known natives := by
    have before {α : Type} (f : Definition → α) (same : ∀ d body, f { d with body } = f d) :
        g.weaveIgnored.numbered.definitions.map f = g.definitions.map f := numbers.map_eq f same
    have classes (ds : List Definition) : (ds.filter (·.isClass)).map (·.name) =
        ((ds.map fun d => (d.isClass, d.name)).filter (·.1)).map (·.2) := by
      simp [List.filter_map, Function.comp_def]
    rw [Grammar.known, Grammar.known, classes, classes, before (·.name) fun _ _ => rfl,
      before (fun d => (d.isClass, d.name)) fun _ _ => rfl,
      show g.weaveIgnored.numbered.sections = g.sections from sections]
  refine ⟨sections, rules.imp ?_⟩
  rintro d - body ⟨mid, ⟨_, ⟨_, rfl, n, rfl⟩, scoped_⟩, resolved_⟩
  exact ⟨n, mid, known ▸ scoped_, resolved_⟩

/-- What analysis has done, as far as what is known of all bodies. -/
theorem Grammar.history_of_analyze {natives : List String} {g out : Grammar}
    (raw : ∀ d ∈ g.definitions, d.Raw) (h : g.analyze natives = .ok out) :
    g.History out natives := by
  obtain ⟨sections, passes⟩ := Grammar.passes_of_analyze h
  refine ⟨sections, fun f same => passes.map_eq f same, fun e mem => ?_⟩
  obtain ⟨d, mem, params, n, mid, scoping, resolved⟩ := passes.of_mem mem
  rw [params]
  exact ⟨_, mid, Expr.numbered_plain (Grammar.weave_plain (raw d mem)) n, scoping, resolved⟩

/-- **Analysis gives grammars that are ready to be compiled.** -/
theorem Grammar.analyzed_of_analyze {natives : List String} {g out : Grammar}
    (raw : ∀ d ∈ g.definitions, d.Raw) (h : g.analyze natives = .ok out) : out.Analyzed := by
  obtain ⟨names, -⟩ := names_of_checkDefinitions (Grammar.checkNames_of_analyze h)
  have history := Grammar.history_of_analyze raw h
  have signatures : out.signatures = g.signatures := history.same _ fun _ _ => rfl
  refine ⟨?_, fun e mem => ?_, fun e mem n reads => ?_⟩
  · rw [history.same (·.name) fun _ _ => rfl]
    exact names
  · obtain ⟨plain, body, ok, scoping, resolved⟩ := history.bodies e mem
    rw [signatures]
    exact Expr.resolved_settled (Grammar.lookup_ignored raw names) (Expr.scoped_plain ok scoping)
      resolved
  · obtain ⟨plain, body, ok, scoping, resolved⟩ := history.bodies e mem
    have read := Expr.resolved_narrows (Expr.scoped_plain ok scoping) resolved n reads
    exact (Expr.scoped_closed ok scoping n read).1

end Packrat
