import Packrat.Proofs.Analysis.Resolution

/-
**Host code of analyzed grammars.**

Analysis looks at every piece of host code in a grammar, also at that of bounds, of predicates and of
arguments: each name that it reads is one of the locals that it captures, or is known from elsewhere.

Main definitions:

* `Packrat.Snippet.Named` — host code whose names are captured or known;
* `Packrat.Expr.snippets` — the host code of an expression itself;
* `Packrat.Expr.Named` — an expression with such host code.

Main results:

* `Packrat.Grammar.named_of_analyze` — **all host code of an analyzed grammar has captured the names
  that are not known**.
-/

set_option autoImplicit false

namespace Packrat

/-- Host code all of whose free names are locals that it captures, or known from elsewhere. -/
def Snippet.Named (globals : List String) (s : Snippet) : Prop :=
  ∀ x ∈ s.term.freeNames, x ∈ s.locals ∨ x ∈ globals

/-- The host code of a bound. -/
def Bound.snippets : Option Bound → List Snippet
  | some (.host s) => [s]
  | some (.const _) | none => []

/-- The host code of an expression, that of the expressions below it aside. -/
def Expr.snippets : Expr → List Snippet
  | .host _ s => [s]
  | .list _ _ least most => Bound.snippets least ++ Bound.snippets most
  | _ => []

/-- An expression whose own host code has captured the names that are not known. -/
def Expr.Named (globals : List String) (e : Expr) : Prop := ∀ s ∈ e.snippets, s.Named globals

theorem Snippet.scoped_named {known : Known} {scope : List String} {span : Span} {s t : Snippet}
    (h : s.scoped known scope span = .ok t) : t.Named known.globals := by
  simp only [Snippet.scoped] at h
  split at h
  · exact absurd h not_refuse_eq_ok
  · next found =>
      obtain rfl : _ = t := by simpa using h
      intro x free
      have found := List.find?_eq_none.1 found x free
      simp only [Bool.and_eq_true, Bool.not_eq_true', not_and,
        List.contains_iff_mem, ← Bool.not_eq_true] at found
      by_cases local_ : x ∈ scope
      · exact .inl (List.mem_filter.2 ⟨free, by simpa using local_⟩)
      · exact .inr (by simpa using found local_)

theorem Bound.scoped_named {known : Known} {scope : List String} {span : Span}
    {b? out : Option Bound} (h : Bound.scoped known scope span b? = .ok out) :
    ∀ s ∈ Bound.snippets out, s.Named known.globals := by
  match b? with
  | none | some (.const _) =>
      obtain rfl : _ = out := by simpa [Bound.scoped] using h
      simp [snippets]
  | some (.host s) =>
      obtain ⟨t, done, h⟩ := Except.bind_eq_ok.1 h
      obtain rfl := Except.pure_eq_ok.1 h
      simpa [snippets] using Snippet.scoped_named done

namespace Expr

theorem named_nil {globals : List String} {e : Expr} (h : e.snippets = []) : e.Named globals := by
  simp [Named, h]

/-- Names of host code have found their locals, or are known. -/
theorem scoped_named_here {known : Known} {scope : List String} {e out : Expr}
    (h : e.scoped known scope = .ok out) : out.Named known.globals := by
  cases e with
  | host tag s =>
      obtain ⟨t, done, h⟩ := Except.bind_eq_ok.1 h
      obtain rfl := Except.pure_eq_ok.1 h
      simpa [Named, snippets] using Snippet.scoped_named done
  | list tag item least most =>
      obtain ⟨_, -, h⟩ := Except.bind_eq_ok.1 h
      obtain ⟨_, low, h⟩ := Except.bind_eq_ok.1 h
      obtain ⟨_, high, h⟩ := Except.bind_eq_ok.1 h
      obtain rfl := Except.pure_eq_ok.1 h
      intro s mem
      exact (List.mem_append.1 mem).elim (Bound.scoped_named low s) (Bound.scoped_named high s)
  | str | regex | fail =>
      obtain rfl : _ = out := by simpa [Expr.scoped] using h
      exact named_nil rfl
  | ref tag name binding =>
      simp only [Expr.scoped] at h
      split at h
      · obtain rfl : _ = out := by simpa using h
        exact named_nil rfl
      · split at h
        · obtain rfl : _ = out := by simpa using h
          exact named_nil rfl
        · exact absurd h not_refuse_eq_ok
  | seq | choice | skip | opt | expect | expectNot =>
      obtain ⟨_, -, h⟩ := Except.bind_eq_ok.1 h
      obtain rfl := Except.pure_eq_ok.1 h
      exact named_nil rfl
  | sep | apply | discard | bound | satisfying | operators =>
      obtain ⟨_, -, h⟩ := Except.bind_eq_ok.1 h
      obtain ⟨_, -, h⟩ := Except.bind_eq_ok.1 h
      obtain rfl := Except.pure_eq_ok.1 h
      exact named_nil rfl
  | call tag callee args binding =>
      simp only [Expr.scoped] at h
      split at h
      · exact absurd h not_refuse_eq_ok
      · obtain ⟨_, -, h⟩ := Except.bind_eq_ok.1 h
        obtain rfl := Except.pure_eq_ok.1 h
        exact named_nil rfl

/-- All host code of an expression whose names have found their locals. -/
theorem scoped_named {known : Known} {skips : Prop} {e : Expr}
    (plain : e.Every (Plain skips (· = .unresolved))) {scope : List String} {out : Expr}
    (h : e.scoped known scope = .ok out) : out.Every (Named known.globals) := by
  induction plain generalizing scope out with
  | @intro e here _ ih =>
      refine ⟨scoped_named_here h, fun c mem => ?_⟩
      obtain ⟨x, of, scope', from_⟩ := (scoped_here h here).2 c mem
      exact ih x of from_

/-- Names that find their rules leave the host code of an expression alone. -/
theorem snippets_resolved {rules : Signatures} {e out : Expr} (h : e.resolved rules = .ok out) :
    out.snippets = e.snippets := by
  cases e with
  | str | regex | fail | host =>
      obtain rfl : _ = out := by simpa [Expr.resolved] using h
      rfl
  | ref tag name binding =>
      simp only [Expr.resolved, resolveRef] at h
      split at h
      · split at h
        · exact absurd h not_refuse_eq_ok
        · obtain rfl : _ = out := by simpa using h
          rfl
        · exact absurd h not_refuse_eq_ok
      · obtain rfl : _ = out := by simpa using h
        rfl
  | seq | choice | skip | list | opt | expect | expectNot =>
      obtain ⟨_, -, h⟩ := Except.bind_eq_ok.1 h
      obtain rfl := Except.pure_eq_ok.1 h
      rfl
  | sep | apply | discard | bound | satisfying | operators =>
      obtain ⟨_, -, h⟩ := Except.bind_eq_ok.1 h
      obtain ⟨_, -, h⟩ := Except.bind_eq_ok.1 h
      obtain rfl := Except.pure_eq_ok.1 h
      rfl
  | call tag callee args binding =>
      obtain ⟨_, _, _, -, -, -, rfl⟩ := resolved_call h
      rfl

/-- All host code of an expression whose names have found their rules. -/
theorem resolved_named {rules : Signatures} {globals : List String} {skips : Prop} {e : Expr}
    (there : skips → rules.lookup ignoredRule = some [])
    (plain : e.Every (Plain skips (· ∈ [.unresolved, .local]))) (named : e.Every (Named globals))
    {out : Expr} (h : e.resolved rules = .ok out) : out.Every (Named globals) := by
  induction plain generalizing out with
  | @intro e here _ ih =>
      refine ⟨?_, fun c mem => ?_⟩
      · rw [Named, snippets_resolved h]
        exact named.here
      · obtain ⟨x, of, done⟩ := (resolved_here there h here).2 c mem
        exact ih x of (named.parts x of) done

end Expr

/-- **All host code of an analyzed grammar has captured the names that are not known.** -/
theorem Grammar.named_of_analyze {natives : List String} {g out : Grammar}
    (raw : ∀ d ∈ g.definitions, d.Raw) (h : g.analyze natives = .ok out) :
    ∀ d ∈ out.definitions, d.body.Every (Expr.Named (g.known natives).globals) := by
  intro d mem
  obtain ⟨names, -⟩ := names_of_checkDefinitions (Grammar.checkNames_of_analyze h)
  obtain ⟨plain, body, ok, scoping, resolved⟩ :=
    (Grammar.history_of_analyze raw h).bodies d mem
  exact Expr.resolved_named (Grammar.lookup_ignored raw names) (Expr.scoped_plain ok scoping)
    (Expr.scoped_named ok scoping) resolved

end Packrat
