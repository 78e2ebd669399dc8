import Packrat.Proofs.Analysis.Weaving

/-
**Classes stand at the top of definitions.**

Only the statement of a class makes a sequence that builds a node, and such a sequence is the whole
body of its definition.  No step of the analysis moves it: skipping is woven in around the bodies of
rules only, and numbers, locals and rules are found where names stand.

Main definitions:

* `Packrat.Expr.cls?` — the class whose node an expression builds;
* `Packrat.Definition.Crowned` — a definition that builds nodes at its top at most.

Main results:

* `Packrat.Grammar.crowned_of_analyze` — **below the tops of definitions no nodes are built**;
* `Packrat.Grammar.ownClass_of_analyze` — at its top a definition builds nodes of its own class.
-/

set_option autoImplicit false

namespace Packrat

open Packrat.Expr

/-- The class whose node an expression builds. -/
def Expr.cls? : Expr → Option NodeClass
  | .seq _ _ cls? => cls?
  | _ => none

/-- A definition that builds nodes at its top at most, and there only of the class that it is. -/
structure Definition.Crowned (d : Definition) : Prop where
  below : ∀ c ∈ d.body.children, c.Every (·.cls? = none)
  named : ∀ c, d.body.cls? = some c → d.isClass = true ∧ c.name = d.name

/-- A rule builds no nodes. -/
theorem Definition.Crowned.rule {d : Definition} (h : d.Crowned) (rule : d.isClass = false) :
    d.body.cls? = none := by
  cases found : d.body.cls? with
  | none => rfl
  | some c => exact absurd (h.named c found).1 (by simp [rule])

/-! ### Expressions -/

namespace Expr

@[simp] theorem cls?_skipping (e : Expr) : e.skipping.cls? = e.cls? := by
  cases e <;> simp [skipping, cls?]

@[simp] theorem cls?_numbered (e : Expr) (n : Nat) : (e.numbered n).1.cls? = e.cls? := by
  cases e <;> rfl

theorem cls?_scoped {known : Known} {scope : List String} {e out : Expr}
    (h : e.scoped known scope = .ok out) : out.cls? = e.cls? := by
  cases e with
  | str | regex | fail =>
      obtain rfl : _ = out := by simpa [Expr.scoped] using h
      rfl
  | ref tag name binding =>
      simp only [Expr.scoped] at h
      split at h
      · obtain rfl : _ = out := by simpa using h
        rfl
      · split at h
        · obtain rfl : _ = out := by simpa using h
          rfl
        · exact absurd h not_refuse_eq_ok
  | call tag callee args binding =>
      simp only [Expr.scoped] at h
      split at h
      · exact absurd h not_refuse_eq_ok
      · obtain ⟨_, -, h⟩ := Except.bind_eq_ok.1 h
        obtain rfl := Except.pure_eq_ok.1 h
        rfl
  | seq | choice | skip | opt | expect | expectNot | host =>
      obtain ⟨_, -, h⟩ := Except.bind_eq_ok.1 h
      obtain rfl := Except.pure_eq_ok.1 h
      rfl
  | sep | apply | discard | bound | satisfying | operators =>
      obtain ⟨_, -, h⟩ := Except.bind_eq_ok.1 h
      obtain ⟨_, -, h⟩ := Except.bind_eq_ok.1 h
      obtain rfl := Except.pure_eq_ok.1 h
      rfl
  | list =>
      obtain ⟨_, -, h⟩ := Except.bind_eq_ok.1 h
      obtain ⟨_, -, h⟩ := Except.bind_eq_ok.1 h
      obtain ⟨_, -, h⟩ := Except.bind_eq_ok.1 h
      obtain rfl := Except.pure_eq_ok.1 h
      rfl

theorem cls?_resolved {rules : Signatures} {e out : Expr} (h : e.resolved rules = .ok out) :
    out.cls? = e.cls? := by
  cases e with
  | str | regex | fail | host =>
      obtain rfl : _ = out := by simpa [Expr.resolved] using h
      rfl
  | ref tag name binding =>
      simp only [Expr.resolved] at h
      split at h
      · simp only [resolveRef] at h
        split at h
        · exact absurd h not_refuse_eq_ok
        · obtain rfl : _ = out := by simpa using h
          rfl
        · exact absurd h not_refuse_eq_ok
      · obtain rfl : _ = out := by simpa using h
        rfl
  | call =>
      obtain ⟨_, _, _, -, -, -, rfl⟩ := resolved_call h
      rfl
  | seq | choice | skip | list | opt | expect | expectNot =>
      obtain ⟨_, -, h⟩ := Except.bind_eq_ok.1 h
      obtain rfl := Except.pure_eq_ok.1 h
      rfl
  | sep | apply | discard | bound | satisfying | operators =>
      obtain ⟨_, -, h⟩ := Except.bind_eq_ok.1 h
      obtain ⟨_, -, h⟩ := Except.bind_eq_ok.1 h
      obtain rfl := Except.pure_eq_ok.1 h
      rfl

theorem every_skipping {e : Expr} (h : e.Every (·.cls? = none)) :
    e.skipping.Every (·.cls? = none) := by
  induction h with
  | @intro e here _ ih =>
      refine ⟨by simpa using here, fun c mem => ?_⟩
      rw [children_skipping] at mem
      obtain ⟨x, of, rfl⟩ := List.mem_map.1 mem
      exact ih x of

theorem every_numbered {e : Expr} (h : e.Every (·.cls? = none)) (n : Nat) :
    (e.numbered n).1.Every (·.cls? = none) := by
  induction h generalizing n with
  | @intro e here _ ih =>
      refine ⟨by simpa using here, fun c mem => ?_⟩
      obtain ⟨x, of, m, rfl⟩ := children_numbered mem
      exact ih x of m

/-- What is below an expression builds no nodes when its locals and its rules have been found. -/
theorem analyzed_below {known : Known} {rules : Signatures} {skips : Prop}
    (there : skips → rules.lookup ignoredRule = some []) {e mid out : Expr} {scope : List String}
    (plain : e.Every (Plain skips (· = .unresolved)))
    (below : ∀ c ∈ e.children, c.Every (·.cls? = none))
    (scoping : e.scoped known scope = .ok mid) (resolving : mid.resolved rules = .ok out) :
    ∀ c ∈ out.children, c.Every (·.cls? = none) := by
  obtain ⟨here, scopes⟩ := scoped_here scoping plain.here
  obtain ⟨-, finds⟩ := resolved_here there resolving here
  intro c mem
  obtain ⟨y, of, resolves⟩ := finds c mem
  obtain ⟨x, of, scope', scopes⟩ := scopes y of
  exact analyzed_every (fun h none => (cls?_scoped h).trans none)
    (fun h none => (cls?_resolved h).trans none) there (plain.parts x of) (below x of) scopes resolves

end Expr

/-! ### Definitions -/

/-- Phrases become expressions that build no nodes. -/
theorem lowerPhrases_classless (rules : List String) (ps : List Phrase) (es : List Expr)
    (h : lowerPhrases rules ps = .ok es) : ∀ e ∈ es, e.Every (·.cls? = none) := fun e mem =>
  have made : e.Made False rules := lowerPhrases_made rules ps False.elim es h e mem
  made.mono fun e fresh => by cases e <;> first | exact fresh | rfl

theorem Phrase.lower_classless (rules : List String) (p : Phrase) (e : Expr)
    (h : p.lower rules = .ok e) : e.Every (·.cls? = none) :=
  lowerPhrases_classless rules [p] [e] (by simp [lowerPhrases, h, bind, Except.bind, pure, Except.pure])
    e List.mem_cons_self

theorem lowerStatement_crowned {rules : List String} {text : String} {g out : Grammar} {s : Statement}
    (crowned : ∀ d ∈ g.definitions, d.Crowned) (h : lowerStatement rules text g s = .ok out) :
    ∀ d ∈ out.definitions, d.Crowned := by
  have added {d : Definition} (new : d.Crowned) : ∀ x ∈ g.definitions ++ [d], x.Crowned :=
    List.forall_mem_append.2 ⟨crowned, List.forall_mem_singleton.2 new⟩
  cases s with
  | rule r =>
      obtain ⟨d, lowered, h⟩ := Except.bind_eq_ok.1 h
      obtain rfl := Except.pure_eq_ok.1 h
      obtain ⟨body, found, h⟩ := Except.bind_eq_ok.1 lowered
      obtain rfl := Except.pure_eq_ok.1 h
      have none := r.body.lower_classless rules body found
      exact added ⟨none.parts, fun c found => nomatch none.here.symm.trans found⟩
  | cls c =>
      obtain ⟨d, lowered, h⟩ := Except.bind_eq_ok.1 h
      obtain rfl := Except.pure_eq_ok.1 h
      obtain ⟨items, found, h⟩ := Except.bind_eq_ok.1 lowered
      obtain rfl := Except.pure_eq_ok.1 h
      refine added ⟨lowerPhrases_classless rules _ items found, fun c builds => ?_⟩
      obtain rfl := Option.some.inj builds
      exact ⟨rfl, rfl⟩
  | hostSection source span =>
      obtain ⟨_, -, h⟩ := Except.bind_eq_ok.1 h
      obtain rfl := Except.pure_eq_ok.1 h
      exact crowned

theorem addSkipRule_crowned {g out : Grammar} (crowned : ∀ d ∈ g.definitions, d.Crowned)
    (h : addSkipRule g = .ok out) : ∀ d ∈ out.definitions, d.Crowned := by
  simp only [addSkipRule] at h
  split at h
  · obtain rfl : g = out := by simpa using h
    exact crowned
  · split at h
    · exact absurd h not_refuse_eq_ok
    · obtain rfl : _ = out := by simpa using h
      refine List.forall_mem_append.2 ⟨crowned, List.forall_mem_singleton.2
        ⟨fun c mem => ?_, fun _ found => by cases found⟩⟩
      obtain ⟨_, -, rfl⟩ := List.mem_map.1 mem
      exact ⟨rfl, by simp [Expr.children]⟩

theorem Description.lower_crowned {description : Description} {text : String} {g : Grammar}
    (h : description.lower text = .ok g) : ∀ d ∈ g.definitions, d.Crowned := by
  obtain ⟨before, folded, h⟩ := Except.bind_eq_ok.1 h
  have crowned : ∀ d ∈ before.definitions, d.Crowned :=
    Except.foldlM_keeps (P := fun g => ∀ d ∈ g.definitions, d.Crowned)
      (fun _ _ _ _ crowned => lowerStatement_crowned crowned) (by simp) folded
  exact addSkipRule_crowned crowned h

/-- Skipping is woven in around the bodies of rules only. -/
theorem Grammar.weave_crowned {g : Grammar} {d : Definition} (crowned : d.Crowned) :
    ∀ c ∈ (g.weave d).body.children, c.Every (·.cls? = none) := by
  have skips : ∀ c ∈ d.body.skipping.children, c.Every (·.cls? = none) := by
    rw [children_skipping]
    exact List.forall_mem_map.2 fun c mem => every_skipping (crowned.below c mem)
  unfold Grammar.weave Definition.weaveIgnored
  split
  · split
    · exact crowned.below
    · simp only
      split
      · next start =>
          have rule : d.isClass = false := by
            simp only [Definition.isStartRule, Bool.and_eq_true, Bool.not_eq_true'] at start
            exact start.1.2
          intro c mem
          simp only [Expr.children, List.mem_cons, List.not_mem_nil, or_false] at mem
          rcases mem with rfl | rfl
          · exact ⟨rfl, by simp [Expr.children]⟩
          · exact ⟨by simpa using crowned.rule rule, skips⟩
      · exact skips
  · exact crowned.below

/-- Skipping is woven in below a sequence that builds a node. -/
theorem Grammar.cls?_weave {g : Grammar} {d : Definition} {c : NodeClass}
    (h : (g.weave d).body.cls? = some c) : d.body.cls? = some c := by
  revert h
  unfold Grammar.weave Definition.weaveIgnored
  split
  · split
    · exact id
    · simp only
      split
      · exact fun h => nomatch h
      · exact fun h => (cls?_skipping d.body).symm.trans h
  · exact id

/-- **Below the tops of the definitions of an analyzed grammar no nodes are built.** -/
theorem Grammar.crowned_of_analyze {description : Description} {text : String}
    {natives : List String} {before g : Grammar} (lowered : description.lower text = .ok before)
    (analyzed : before.analyze natives = .ok g) :
    ∀ d ∈ g.definitions, ∀ c ∈ d.body.children, c.Every (·.cls? = none) := by
  have raw := Description.lower_raw lowered
  obtain ⟨names, -⟩ := names_of_checkDefinitions (Grammar.checkNames_of_analyze analyzed)
  obtain ⟨-, passes⟩ := Grammar.passes_of_analyze analyzed
  intro e mem
  obtain ⟨d, of, -, n, mid, scoping, resolving⟩ := passes.of_mem mem
  refine analyzed_below (Grammar.lookup_ignored raw names)
    (numbered_plain (Grammar.weave_plain (raw d of)) n) (fun c mem => ?_) scoping resolving
  obtain ⟨x, of', m, rfl⟩ := children_numbered mem
  exact every_numbered (Grammar.weave_crowned (Description.lower_crowned lowered d of) x of') m

/-- At its top a definition of an analyzed grammar builds nodes of its own class at most. -/
theorem Grammar.ownClass_of_analyze {description : Description} {text : String}
    {natives : List String} {before g : Grammar} (lowered : description.lower text = .ok before)
    (analyzed : before.analyze natives = .ok g) :
    ∀ d ∈ g.definitions, ∀ c, d.body.cls? = some c → d.isClass = true ∧ c.name = d.name := by
  obtain ⟨-, passes⟩ := Grammar.passes_of_analyze analyzed
  intro e mem c found
  obtain ⟨d, of, body, rfl, n, mid, scoping, resolving⟩ := Expr.exists_of_forall₂ passes mem
  have top : (before.weave d).body.cls? = some c := by
    rw [← cls?_numbered _ n, ← cls?_scoped scoping, ← cls?_resolved resolving]
    exact found
  exact (Description.lower_crowned lowered d of).named c (Grammar.cls?_weave top)

end Packrat
