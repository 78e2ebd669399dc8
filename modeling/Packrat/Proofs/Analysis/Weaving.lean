import Packrat.Proofs.Analysis.Resolution

/-
**Where ignored content is skipped.**

In an analyzed grammar that ignores something there is one rule that skips all of it: its parts are
references to the ignored rules, in their order.  The literals and patterns of all other rules call
this rule behind what they match, and the start rule calls it before its body.

Main definitions:

* `Packrat.Expr.Skipping` — a match that skips ignored content behind it;
* `Packrat.Expr.Refers` — a reference to a rule that has been found;
* `Packrat.Grammar.Woven` — **a grammar with skipping woven in**.

Main results:

* `Packrat.Grammar.woven_of_analyze` — **analysis weaves skipping in**.
-/

set_option autoImplicit false

namespace Packrat

open Packrat.Expr

/-- A literal or a pattern that skips ignored content behind it, or something else. -/
def Expr.Skipping : Expr → Prop
  | .str _ _ flags | .regex _ _ flags => flags.skip = true
  | _ => True

/-- A reference to the rule of a name. -/
def Expr.Refers (name : String) (e : Expr) : Prop :=
  ∃ tag, e = .ref tag name (.rule (ruleFunction name))

/-- An analyzed grammar with skipping woven in. -/
structure Grammar.Woven (g : Grammar) : Prop where
  /-- Outside of ignored rules all matches skip ignored content. -/
  matches' : ∀ d ∈ g.definitions, d.ignored = false → d.synthetic = false →
    d.body.Every Expr.Skipping
  /-- The start rule skips ignored content before its body. -/
  starts : ∀ d ∈ g.definitions, d.isStartRule = true →
    ∃ tag first body, d.body = .discard tag first body true ∧ first.Refers ignoredRule
  /-- There is a rule that skips ignored content. -/
  skips : ∃ d ∈ g.definitions, d.name = ignoredRule ∧ d.paramList = [] ∧
    ∃ tag items, d.body = .skip tag items ∧
      List.Forall₂ Expr.Refers ((g.definitions.filter (·.ignored)).map (·.name)) items

/-! ### Matches -/

namespace Expr

theorem Raw.skipping_skips {e : Expr} (h : e.Raw) : e.skipping.Every Skipping := by
  induction h with
  | @intro e _ _ ih =>
      refine ⟨?_, fun c mem => ?_⟩
      · cases e <;> trivial
      · rw [children_skipping] at mem
        obtain ⟨x, of, rfl⟩ := List.mem_map.1 mem
        exact ih x of

theorem numbered_skipping {e : Expr} (h : e.Every Skipping) (n : Nat) :
    (e.numbered n).1.Every Skipping := by
  induction h generalizing n with
  | @intro e here _ ih =>
      refine ⟨?_, fun c mem => ?_⟩
      · cases e <;> exact here
      · obtain ⟨x, of, m, rfl⟩ := children_numbered mem
        exact ih x of m

/-- Finding locals changes no match. -/
theorem scoped_skipping_here {known : Known} {scope : List String} {e out : Expr}
    (h : e.scoped known scope = .ok out) (here : e.Skipping) : out.Skipping := by
  cases e with
  | str | regex =>
      obtain rfl : _ = out := by simpa [Expr.scoped] using h
      exact here
  | fail =>
      obtain rfl : _ = out := by simpa [Expr.scoped] using h
      trivial
  | ref tag name binding =>
      simp only [Expr.scoped] at h
      split at h
      · obtain rfl : _ = out := by simpa using h
        trivial
      · split at h
        · obtain rfl : _ = out := by simpa using h
          trivial
        · exact absurd h not_refuse_eq_ok
  | call tag callee args binding =>
      simp only [Expr.scoped] at h
      split at h
      · exact absurd h not_refuse_eq_ok
      · obtain ⟨_, -, h⟩ := Except.bind_eq_ok.1 h
        obtain rfl := Except.pure_eq_ok.1 h
        trivial
  | seq | choice | skip | opt | expect | expectNot | host =>
      obtain ⟨_, -, h⟩ := Except.bind_eq_ok.1 h
      obtain rfl := Except.pure_eq_ok.1 h
      trivial
  | sep | apply | discard | bound | satisfying | operators =>
      obtain ⟨_, -, h⟩ := Except.bind_eq_ok.1 h
      obtain ⟨_, -, h⟩ := Except.bind_eq_ok.1 h
      obtain rfl := Except.pure_eq_ok.1 h
      trivial
  | list =>
      obtain ⟨_, -, h⟩ := Except.bind_eq_ok.1 h
      obtain ⟨_, -, h⟩ := Except.bind_eq_ok.1 h
      obtain ⟨_, -, h⟩ := Except.bind_eq_ok.1 h
      obtain rfl := Except.pure_eq_ok.1 h
      trivial

/-- Finding rules changes no match. -/
theorem resolved_skipping_here {rules : Signatures} {e out : Expr}
    (h : e.resolved rules = .ok out) (here : e.Skipping) : out.Skipping := by
  cases e with
  | str | regex =>
      obtain rfl : _ = out := by simpa [Expr.resolved] using h
      exact here
  | fail | host =>
      obtain rfl : _ = out := by simpa [Expr.resolved] using h
      trivial
  | ref tag name binding =>
      simp only [Expr.resolved] at h
      split at h
      · simp only [resolveRef] at h
        split at h
        · exact absurd h not_refuse_eq_ok
        · obtain rfl : _ = out := by simpa using h
          trivial
        · exact absurd h not_refuse_eq_ok
      · obtain rfl : _ = out := by simpa using h
        trivial
  | call =>
      obtain ⟨_, _, _, -, -, -, rfl⟩ := resolved_call h
      trivial
  | seq | choice | skip | list | opt | expect | expectNot =>
      obtain ⟨_, -, h⟩ := Except.bind_eq_ok.1 h
      obtain rfl := Except.pure_eq_ok.1 h
      trivial
  | sep | apply | discard | bound | satisfying | operators =>
      obtain ⟨_, -, h⟩ := Except.bind_eq_ok.1 h
      obtain ⟨_, -, h⟩ := Except.bind_eq_ok.1 h
      obtain rfl := Except.pure_eq_ok.1 h
      trivial

/-- What neither finding locals nor finding rules changes comes through both. -/
theorem analyzed_every {P : Expr → Prop} {known : Known} {rules : Signatures} {skips : Prop}
    (scoped_keeps : ∀ {scope : List String} {e out : Expr}, e.scoped known scope = .ok out → P e → P out)
    (resolved_keeps : ∀ {e out : Expr}, e.resolved rules = .ok out → P e → P out)
    (there : skips → rules.lookup ignoredRule = some []) {e mid out : Expr} {scope : List String}
    (plain : e.Every (Plain skips (· = .unresolved))) (holds : e.Every P)
    (scoping : e.scoped known scope = .ok mid) (resolving : mid.resolved rules = .ok out) :
    out.Every P := by
  have found : mid.Every fun e => Plain skips (· ∈ [.unresolved, .local]) e ∧ P e := by
    have both := plain.and holds
    clear plain holds resolving
    induction both generalizing scope mid with
    | @intro e here _ ih =>
        obtain ⟨plain, all⟩ := scoped_here scoping here.1
        refine ⟨⟨plain, scoped_keeps scoping here.2⟩, fun c mem => ?_⟩
        obtain ⟨x, of, scope', from_⟩ := all c mem
        exact ih x of from_
  clear plain holds scoping
  induction found generalizing out with
  | @intro e here _ ih =>
      obtain ⟨-, all⟩ := resolved_here there resolving here.1
      refine ⟨resolved_keeps resolving here.2, fun c mem => ?_⟩
      obtain ⟨x, of, from_⟩ := all c mem
      exact ih x of from_

/-- The matches of an expression come through finding its locals and its rules. -/
theorem analyzed_skipping {known : Known} {rules : Signatures} {skips : Prop}
    (there : skips → rules.lookup ignoredRule = some []) {e mid out : Expr} {scope : List String}
    (plain : e.Every (Plain skips (· = .unresolved))) (skipping : e.Every Skipping)
    (scoping : e.scoped known scope = .ok mid) (resolving : mid.resolved rules = .ok out) :
    out.Every Skipping :=
  analyzed_every scoped_skipping_here resolved_skipping_here there plain skipping scoping resolving

/-! ### References -/

/-- A reference outside of all scopes finds its rule. -/
theorem refers_of_passes {known : Known} {rules : Signatures} {tag : Tag} {name : String}
    {mid out : Expr} (scoping : (Expr.ref tag name .unresolved).scoped known [] = .ok mid)
    (resolving : mid.resolved rules = .ok out) : out.Refers name := by
  simp only [Expr.scoped, List.contains_nil, Bool.false_eq_true, if_false] at scoping
  split at scoping
  · obtain rfl : _ = mid := by simpa using scoping
    replace resolving : resolveRef rules tag name = .ok out := resolving
    simp only [resolveRef] at resolving
    split at resolving
    · exact absurd resolving not_refuse_eq_ok
    · obtain rfl : _ = out := by simpa using resolving
      exact ⟨tag, rfl⟩
    · exact absurd resolving not_refuse_eq_ok
  · exact absurd scoping not_refuse_eq_ok

theorem all_refer_of_passes {known : Known} {rules : Signatures} {ds : List Definition} {n : Nat}
    {mid out : List Expr}
    (scoping : scopedAll known []
      (numberedAll (ds.map fun d => .ref ⟨0, d.span⟩ d.name .unresolved) n).1 = .ok mid)
    (resolving : resolvedAll rules mid = .ok out) :
    List.Forall₂ Expr.Refers (ds.map (·.name)) out := by
  induction ds generalizing n mid out with
  | nil =>
      replace scoping : scopedAll known [] [] = .ok mid := scoping
      obtain rfl : [] = mid := by simpa [scopedAll] using scoping
      obtain rfl : [] = out := by simpa [resolvedAll] using resolving
      exact .nil
  | cons d ds ih =>
      obtain ⟨e, first, scoping⟩ := Except.bind_eq_ok.1 scoping
      obtain ⟨es, rest, scoping⟩ := Except.bind_eq_ok.1 scoping
      obtain rfl := Except.pure_eq_ok.1 scoping
      obtain ⟨e', first', resolving⟩ := Except.bind_eq_ok.1 resolving
      obtain ⟨es', rest', resolving⟩ := Except.bind_eq_ok.1 resolving
      obtain rfl := Except.pure_eq_ok.1 resolving
      exact .cons (refers_of_passes first first') (ih rest rest')

end Expr

/-! ### Grammars -/

/-- Statements make no synthetic definitions; what skips ignored content is added behind them. -/
theorem Description.lower_eq_ok {description : Description} {text : String} {g : Grammar}
    (h : description.lower text = .ok g) :
    ∃ before : Grammar, (∀ d ∈ before.definitions, d.synthetic = false) ∧
      addSkipRule before = .ok g := by
  obtain ⟨before, folded, h⟩ := Except.bind_eq_ok.1 h
  refine ⟨before, ?_, h⟩
  refine Except.foldlM_keeps (P := fun g => ∀ d ∈ g.definitions, d.synthetic = false)
    (fun s _ g next written lowers d mem => ?_) (by simp) folded
  cases s with
  | rule | cls =>
      obtain ⟨made, lowered, adds⟩ := Except.bind_eq_ok.1 lowers
      obtain rfl := Except.pure_eq_ok.1 adds
      obtain ⟨_, -, lowered⟩ := Except.bind_eq_ok.1 lowered
      obtain rfl := Except.pure_eq_ok.1 lowered
      rcases List.mem_append.1 mem with mem | mem
      · exact written d mem
      · obtain rfl := List.mem_singleton.1 mem
        rfl
  | hostSection =>
      obtain ⟨_, -, adds⟩ := Except.bind_eq_ok.1 lowers
      obtain rfl := Except.pure_eq_ok.1 adds
      exact written d mem

/-- The definitions of a description that ignores something. -/
theorem Description.lower_ignoring {description : Description} {text : String} {g : Grammar}
    (h : description.lower text = .ok g) {d : Definition} (mem : d ∈ g.definitions)
    (ignored : d.ignored = true) :
    ∃ ds : List Definition, g.definitions = ds ++ [skipRule (ds.filter (·.ignored))] ∧
      ∀ d ∈ ds, d.synthetic = false ∧ (isStart d.name = true → d.ignored = false) := by
  obtain ⟨before, written, h⟩ := Description.lower_eq_ok h
  simp only [addSkipRule] at h
  split at h
  · next none =>
      obtain rfl : before = g := by simpa using h
      exact absurd (List.mem_filter.2 ⟨mem, ignored⟩) (by simp [List.isEmpty_iff.1 none])
  · split at h
    · exact absurd h not_refuse_eq_ok
    · next free =>
        obtain rfl : _ = g := by simpa using h
        refine ⟨before.definitions, rfl, fun d mem => ⟨written d mem, fun start => ?_⟩⟩
        by_contra ignored
        exact List.find?_eq_none.1 free d
          (List.mem_filter.2 ⟨mem, by simpa using ignored⟩) start

/-- **Analysis weaves skipping in.** -/
theorem Grammar.woven_of_analyze {description : Description} {text : String}
    {natives : List String} {before g : Grammar} (lowered : description.lower text = .ok before)
    (analyzed : before.analyze natives = .ok g) {d : Definition} (mem : d ∈ g.definitions)
    (ignored : d.ignored = true) : g.Woven := by
  have raw := Description.lower_raw lowered
  obtain ⟨names, -⟩ := names_of_checkDefinitions (Grammar.checkNames_of_analyze analyzed)
  obtain ⟨-, passes⟩ := Grammar.passes_of_analyze analyzed
  have from_ {e : Definition} (mem : e ∈ g.definitions) := Expr.exists_of_forall₂ passes mem
  obtain ⟨x, of, _, rfl, -⟩ := from_ mem
  obtain ⟨ds, shape, written⟩ := Description.lower_ignoring lowered of ignored
  have ignores : before.hasIgnored = true := by
    simp [Grammar.hasIgnored, shape, skipRule]
  have there := Grammar.lookup_ignored raw names
  refine ⟨fun e mem heeded real => ?_, fun e mem start => ?_, ?_⟩
  · obtain ⟨d, of, body, rfl, n, mid, scoping, resolving⟩ := from_ mem
    change d.ignored = false at heeded
    change d.synthetic = false at real
    refine Expr.analyzed_skipping there (Expr.numbered_plain (Grammar.weave_plain (raw d of)) n)
      (Expr.numbered_skipping ?_ n) scoping resolving
    have skipping := (raw d of).body.skipping_skips
    have woven : (before.weave d).body =
        if d.isStartRule then
          .discard ⟨0, d.body.skipping.span⟩
            (.ref ⟨0, d.body.skipping.span⟩ ignoredRule .unresolved) d.body.skipping true
        else d.body.skipping := by
      simp only [Grammar.weave, ignores, if_true, Definition.weaveIgnored, heeded, real,
        Bool.or_self, Bool.false_eq_true, if_false]
    rw [woven]
    split
    · refine ⟨trivial, fun c mem => ?_⟩
      simp only [Expr.children, List.mem_cons, List.not_mem_nil, or_false] at mem
      rcases mem with rfl | rfl
      · exact ⟨trivial, by simp [Expr.children]⟩
      · exact skipping
    · exact skipping
  · obtain ⟨d, of, body, rfl, n, mid, scoping, resolving⟩ := from_ mem
    change d.isStartRule = true at start
    have named : isStart d.name = true ∧ d.paramList = [] := by
      simp only [Definition.isStartRule, Bool.and_eq_true] at start
      exact ⟨start.1.1, by rw [Definition.paramList, Option.isNone_iff_eq_none.1 start.2]; rfl⟩
    have plain : d.synthetic = false ∧ d.ignored = false := by
      rw [shape] at of
      rcases List.mem_append.1 of with of | of
      · exact ⟨(written d of).1, (written d of).2 named.1⟩
      · obtain rfl := List.mem_singleton.1 of
        exact absurd named.1 (show ¬ isStart ignoredRule = true by decide +kernel)
    simp only [Grammar.weave, ignores, if_true, Definition.weaveIgnored, plain.1, plain.2,
      Bool.or_self, Bool.false_eq_true, if_false, start] at scoping
    rw [named.2] at scoping
    obtain ⟨left, first, scoping⟩ := Except.bind_eq_ok.1 scoping
    obtain ⟨right, second, scoping⟩ := Except.bind_eq_ok.1 scoping
    obtain rfl := Except.pure_eq_ok.1 scoping
    obtain ⟨left', first', resolving⟩ := Except.bind_eq_ok.1 resolving
    obtain ⟨right', second', resolving⟩ := Except.bind_eq_ok.1 resolving
    obtain rfl := Except.pure_eq_ok.1 resolving
    exact ⟨_, left', right', rfl, Expr.refers_of_passes first first'⟩
  · have last : skipRule (ds.filter (·.ignored)) ∈ before.definitions := by simp [shape]
    obtain ⟨e, mem, body, rfl, n, mid, scoping, resolving⟩ :=
      Expr.exists_of_forall₂ passes.flip last
    refine ⟨_, mem, rfl, rfl, ?_⟩
    have untouched : before.weave (skipRule (ds.filter (·.ignored))) =
        skipRule (ds.filter (·.ignored)) := by
      simp [Grammar.weave, ignores, Definition.weaveIgnored, skipRule]
    rw [untouched] at scoping
    obtain ⟨items, scoped_, scoping⟩ := Except.bind_eq_ok.1 scoping
    obtain rfl := Except.pure_eq_ok.1 scoping
    obtain ⟨items', resolved_, resolving⟩ := Except.bind_eq_ok.1 resolving
    obtain rfl := Except.pure_eq_ok.1 resolving
    have same (ds : List Definition) : (ds.filter (·.ignored)).map (·.name) =
        ((ds.map fun d => (d.ignored, d.name)).filter (·.1)).map (·.2) := by
      simp [List.filter_map, Function.comp_def]
    have ignored : (g.definitions.filter (·.ignored)).map (·.name) =
        (ds.filter (·.ignored)).map (·.name) := by
      rw [same, passes.map_eq (fun d => (d.ignored, d.name)) fun _ _ => rfl, ← same, shape]
      simp [skipRule]
    rw [ignored]
    exact ⟨_, items', rfl, Expr.all_refer_of_passes scoped_ resolved_⟩

end Packrat
