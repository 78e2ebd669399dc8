import Packrat.Proofs.Meaning.Agreement
import Packrat.Proofs.Recursion.Transparency

/-
**Code in the middle of a parse.**

What an expression comes to where nothing is remembered, its code comes to in the middle of any
parse with a memo table, and so does the call of a function.  Host code must not see which of two
equal values it is given, neither in the reading nor in the parse.

Main definitions:

* `Packrat.World.using` — a world with another library;
* `Packrat.Site.Attains` — a machine that comes to the end of some code with a verdict.

Main results:

* `Packrat.Realizes.arrives` — **code arrives at what it realizes**;
* `Packrat.World.answers` — a call is answered with what its function means.
-/

set_option autoImplicit false

namespace Packrat

open Likeness (contents AlikeEnv AlikeAll)

/-! ### Layouts match themselves -/

mutual

/-- The numbers of a layout go together with themselves. -/
theorem Expr.matches_refl {L : Likeness} (h : L.Reflexive) :
    (e : Expr) → (l : Layout) → e.Matches L l l
  | .str _ _ _, _ | .regex _ _ _, _ | .ref _ _ _, _ | .fail _ _, _ | .host _ _, _ => by
      simp [Expr.Matches]
  | .seq _ items _, l | .skip _ items, l => by
      rw [Expr.Matches]
      exact matchesAll_refl h items l.parts
  | .choice _ alternatives, l => by
      rw [Expr.Matches]
      exact matchesAlternatives_refl h alternatives l.parts
  | .list _ inner _ _, l | .opt _ inner, l | .expect _ inner, l | .expectNot _ inner, l => by
      rw [Expr.Matches]
      exact inner.matches_refl h (l.part 0)
  | .sep _ item separator _, l => by
      rw [Expr.Matches]
      exact ⟨h.ids _, item.matches_refl h _, separator.matches_refl h _, item.matches_refl h _⟩
  | .apply _ a b _, l | .discard _ a b _, l | .bound _ _ a b, l | .satisfying _ a b, l => by
      rw [Expr.Matches]
      exact ⟨a.matches_refl h _, b.matches_refl h _⟩
  | .call _ _ args _, l => by
      rw [Expr.Matches]
      exact matchesArgs_refl h args l.parts
  | .operators _ atom levels, l => by
      rw [Expr.Matches]
      exact ⟨atom.matches_refl h _, matchesLevels_refl h levels _⟩

theorem matchesAll_refl {L : Likeness} (h : L.Reflexive) :
    (es : List Expr) → (ls : List Layout) → matchesAll L es ls ls
  | [], _ => by simp [matchesAll]
  | e :: es, ls => by
      rw [matchesAll]
      exact ⟨e.matches_refl h _, matchesAll_refl h es _⟩

theorem matchesAlternatives_refl {L : Likeness} (h : L.Reflexive) :
    (es : List Expr) → (ls : List Layout) → matchesAlternatives L es ls ls
  | [], _ => by simp [matchesAlternatives]
  | e :: es, ls => by
      rw [matchesAlternatives]
      exact ⟨e.matches_refl h _, fun _ => matchesAlternatives_refl h es _⟩

theorem matchesArgs_refl {L : Likeness} (h : L.Reflexive) :
    (args : List (Option String × Expr)) → (ls : List Layout) → matchesArgs L args ls ls
  | [], _ => by simp [matchesArgs]
  | (_, e) :: rest, ls => by
      rw [matchesArgs]
      exact ⟨fun _ => h.functions _, matchesArgs_refl h rest _⟩

theorem matchesLevels_refl {L : Likeness} (h : L.Reflexive) :
    (levels : List (Fixity × Expr)) → (ls : List Layout) → matchesLevels L levels ls ls
  | [], _ => by simp [matchesLevels]
  | (_, e) :: rest, ls => by
      rw [matchesLevels]
      exact ⟨e.matches_refl h _, matchesLevels_refl h rest _⟩

end

/-! ### Worlds with another library -/

/-- A world with another library. -/
def World.using (w : World) (lib : Host.Library) : World := { w with library := lib }

theorem World.Fits.using [Regex.Engine] {w : World} {setting : Setting} (fits : w.Fits setting)
    (lib : Host.Library) : (w.using lib).Fits (setting.using lib) :=
  { fits with library := rfl }

namespace World

variable {w : World} {rounds : Nat}

/-- A world that remembers nothing, and whose host code looks at contents only, is like itself. -/
theorem like_self (respects : contents.Respects w.library) (plain : w.memoize = false) :
    Like contents w w where
  respects := respects
  library := rfl
  globals := contents.reflexive.alikeEnv _
  bytes := rfl
  isBinary := rfl
  leastNone := rfl
  plain := plain
  plain' := plain
  classes _ := rfl
  rules name := by
    cases w.naming.rules.lookup name with
    | none => exact .none
    | some k => exact .some rfl
  closures {k k'} same := by
    obtain rfl : k = k' := same
    cases w.naming.closure? k with
    | none => exact .none
    | some c => exact .some ⟨rfl, rfl, rfl, rfl, c.body.matches_refl contents.reflexive c.layout⟩

/-- What a call comes to does not depend on the identities drawn before. -/
theorem call_again [Regex.Engine] (respects : contents.Respects w.library)
    (plain : w.memoize = false) {k : Nat} {args : List Value} {pos : Nat} {s s' u : Store}
    {v : Verdict Value} (h : w.call rounds k args pos s = some (.ok (v, s'))) :
    ∃ v' u', w.call rounds k args pos u = some (.ok (v', u')) ∧
      Verdict.Rel (Likeness.Alike contents) v v' := by
  have same : contents.functions k k := rfl
  have both := (like_self respects plain).call rounds same
    (contents.reflexive.alikeAll args) pos s u trivial
  rw [h] at both
  match w.call rounds k args pos u, both with
  | some (.ok (v', u')), .some (.ok ⟨same, _⟩) => exact ⟨v', u', rfl, same⟩

end World

/-! ### Arrivals -/

/-- Registers that show a verdict up to identities. -/
def Verdict.Shown (o : Outcome) : Verdict Value → Prop
  | .success x stop => o.status = true ∧ Likeness.Alike contents x o.result ∧ o.pos = stop
  | .failure _ place => o.status = false ∧ o.pos = place

theorem Setting.Leaves.shown {setting : Setting} {o o' : Outcome} {v : Verdict Value}
    (leaves : setting.Leaves o v) (same : o.Like o') : v.Shown o' := by
  cases v with
  | success x stop =>
      obtain ⟨rfl, -⟩ := leaves
      exact ⟨same.status, same.result, same.pos⟩
  | failure entry place =>
      obtain ⟨mark, rfl, -, -⟩ := leaves
      exact ⟨same.status, same.pos⟩

namespace Site

variable {site : Site} {d d' : Draft} {env : Env} {σ : Moment}

/-- A moment before a part, whatever has been remembered. -/
structure Begins (site : Site) (d : Draft) (env : Env) (σ : Moment) : Prop where
  size : σ.slots.size = site.function.slots
  inside : σ.pos ≤ site.setting.bytes.size
  knows : d.Knows env σ.slots

/-- A machine that comes from some code to its end with a verdict, while it has a memo table. -/
def Attains (site : Site) (pc pc' : Nat) (σ : Moment) (v : Verdict Value) : Prop :=
  ∃ k σ', Machine.Leads site.setting true k (site.machine pc σ) (site.machine pc' σ') ∧
    v.Shown σ'.outcome ∧ σ'.pos ≤ site.setting.bytes.size

end Site

/-- Code that realizes a reading arrives at what it comes to where nothing is remembered. -/
theorem Realizes.arrives [Regex.Engine] {d d' : Draft} {p p' : Pools} {cs : List (Nat × Closure)}
    {r : Scene → Env → Nat → Reading (Verdict Value)} (realizes : Realizes d p d' p' cs r)
    {site : Site} {w : World} {lib : Host.Library} {env : Env} {σ : Moment} {rounds n : Nat}
    {v : Verdict Value} {s : Store} (code : site.function.Hosts d')
    (pools : site.setting.program.Hosts p') (fits : w.Fits site.setting)
    (plain : w.memoize = false) (rules : w.naming.rules = p.ruleFunctions)
    (respects : contents.Respects lib)
    (visits : site.setting.Visits lib (site.machine d.code.size σ)) (begins : site.Begins d env σ)
    (reading : r ((w.using lib).scene p.rule rounds) env σ.pos (.start n) = some (.ok (v, s))) :
    site.Attains d.code.size d'.code.size σ v := by
  -- The code is run alone first, with the library that looks at contents only.
  let alone : Site :=
    ⟨site.setting.using lib, false, site.number, site.function, site.known, none, []⟩
  let τ : Moment := { σ with memo := ∅, identity := n }
  have fits' : ((w.using lib).scene p.rule rounds).Fits alone.setting alone.memoize p.ruleFunctions
      p.rule := by
    have scene := (fits.using lib).scene (World.calls (fits.using lib) rounds) p.rule
    rwa [show (w.using lib).memoize = false from plain,
      show (w.using lib).naming.rules = p.ruleFunctions from rules] at scene
  have ready : alone.Ready d env τ (.start n) :=
    ⟨begins.size, begins.inside, begins.knows, rfl, .empty _⟩
  have follows := realizes.performs alone _ env code pools fits' τ _ ready
  change alone.Follows _ _ _ (r _ env σ.pos (.start n)) _ at follows
  rw [reading] at follows
  obtain ⟨k, _, leads, σ₁, rfl, leaves, behind⟩ := follows
  rcases Machine.comes_of_leads leads (Nat.le_refl 1) with
    ⟨now, frames, comes⟩ | ⟨l, j, last, n', -, -, caller, below, memo, split, -⟩
  · obtain rfl : alone.frame d'.code.size σ₁ = now := (List.cons.inj frames).1
    have same : (alone.frame d.code.size τ).Like (site.frame d.code.size σ) :=
      (Frame.Like.refl _).rekey _
    obtain ⟨j, last, memo, n', leads, like, kept⟩ := visits.comes respects comes same
    refine ⟨j, ⟨last.status, last.result, last.pos, last.slots, memo, n'⟩, ?_,
      leaves.shown like.outcome, ?_⟩
    · have there : site.frame d'.code.size
          ⟨last.status, last.result, last.pos, last.slots, memo, n'⟩ = last := by
        obtain ⟨function, pc, status, result, pos, slots, key?⟩ := last
        obtain rfl : function = site.number := like.function
        obtain rfl : pc = d'.code.size := like.pc
        obtain rfl : key? = site.key? := kept
        rfl
      rw [Site.machine, Site.machine, there]
      exact leads
    · change last.pos ≤ site.setting.bytes.size
      rw [like.pos]
      exact behind.inside
  · cases split

/-- A call is answered with what its function means where nothing is remembered. -/
theorem World.answers [Regex.Engine] {w : World} {setting : Setting} {lib : Host.Library}
    {frame caller callee : Frame} {rest : List Frame} {memo : Std.HashMap MemoKey Outcome}
    {function rounds i m n : Nat} {args : List Value} {v : Verdict Value} {s : Store}
    (fits : w.Fits setting)
    (plain : w.memoize = false) (respects : contents.Respects lib)
    (visits : setting.Visits lib ⟨frame :: rest, memo, n⟩)
    (turn : frame.turn setting n = .ok (.call caller function args callee, m))
    (inside : caller.pos ≤ setting.bytes.size)
    (reading : (w.using lib).run rounds function args caller.pos (.start i) = some (.ok (v, s))) :
    ∃ k o memo' n', Machine.Leads setting true k ⟨frame :: rest, memo, n⟩
      ⟨caller.resume o :: rest, memo', n'⟩ ∧ v.Shown o := by
  have shows := @World.shows (w.using lib) _ function caller.pos args _ (fits.using lib) inside rounds i
  rw [reading] at shows
  obtain ⟨o, ⟨fuel, run⟩, leaves⟩ := shows
  have entered : Machine.enter (setting.using lib) function args caller.pos none = .ok callee :=
    Machine.Enters.enter (Frame.enters_of_turn turn).2
  replace run := run 0
  rw [Setting.runFor, entered] at run
  change Machine.run (setting.using lib) (w.using lib).memoize fuel ⟨[callee], ∅, i⟩ = _ at run
  rw [show (w.using lib).memoize = false from plain] at run
  rcases Machine.comes_of_run run (.inl ⟨_, rfl⟩) with
    ⟨_, _, -, -, ⟨⟩⟩ | ⟨l, _, last, n', -, comes, ended⟩
  obtain rfl : o = last.outcome := (Prod.mk.inj (Except.ok.inj ended)).1
  obtain ⟨k, o, memo', n'', leads, like⟩ := visits.answers respects turn comes
  exact ⟨k, o, memo', n'', leads, leaves.shown like⟩

end Packrat
