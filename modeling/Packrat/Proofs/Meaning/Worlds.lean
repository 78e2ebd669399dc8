import Packrat.Proofs.Evaluation.Names
import Packrat.Proofs.Meaning.Surveyed
import Packrat.Proofs.Simulation.Programs

/-
**The functions of a program keep to surveys.**

What a function stands for is read by its number; what calls come to is known for fewer rounds.  So
functions that are given values as asked are never stuck and keep to the survey, by induction on the
rounds that are left, and a run of the machine with a memo table ends with what was read.

Main definitions:

* `Packrat.World.Part` — the expressions that are read in a world;
* `Packrat.World.Performs` — what the functions of a program read;
* `Packrat.World.Made` — nodes of a class whose fields were read from one place to another;
* `Packrat.World.Ready` — worlds in which functions can be read.

Main results:

* `Packrat.World.run_meets` — **functions, by induction on the rounds**;
* `Packrat.World.Ready.outcomes` — what a run of the machine ends with has been read.
-/

set_option autoImplicit false

namespace Packrat

open Reading

namespace World

/-- The expressions that are read in a rule: what its functions stand for, and the parts of that. -/
inductive Part (w : World) : String → Expr → Layout → Prop
  | body {k : Nat} {c : Closure} (known : w.naming.closure? k = some c) :
      Part w c.rule c.body c.layout
  | inPlace {rule : String} {e : Expr} {l : Layout} (whole : Part w rule e l) {x : Expr × Layout}
      (mem : x ∈ e.inPlace l) : Part w rule x.1 x.2

variable [Regex.Engine]

/-- What a function of a program reads at a place: what it stands for, a part of an expression that
has become a function of its own, or the atom or a level of a table. -/
inductive Performs (w : World) : Nat → Nat → Reading (Verdict Value) → Prop
  | run (rounds f pos : Nat) : Performs w f pos (w.run rounds f [] pos)
  | whole {rule : String} {e : Expr} {l : Layout} {f : Nat} (part : w.Part rule e l)
      (found : l.function? = some f) (rounds : Nat) (env : Env) (pos : Nat) :
      Performs w f pos (e.meaning (w.scene rule rounds) env l pos)
  | atom {rule : String} {tag : Tag} {atom : Expr} {levels : List (Fixity × Expr)} {l : Layout} {f : Nat}
      (part : w.Part rule (.operators tag atom levels) l) (found : (l.part 0).function? = some f)
      (rounds : Nat) (env : Env) (pos : Nat) :
      Performs w f pos ((w.scene rule rounds).atomBody env atom l pos)
  | level {rule : String} {tag : Tag} {atom operator : Expr} {below above : List (Fixity × Expr)}
      {fixity : Fixity} {l : Layout} {f : Nat}
      (part : w.Part rule (.operators tag atom (below ++ (fixity, operator) :: above)) l)
      (found : ((l.parts.tail.drop below.length).headD .blank).function? = some f)
      (params : List String) (rounds : Nat) (env : Env) (pos : Nat) :
      Performs w f pos ((w.scene rule rounds).levelBody params env l.parts.tail
        ((w.scene rule rounds).atomOf params env atom l) below fixity operator pos)

/-- The fields of a class were read from one place to another and came to some values; all that was
remembered before had been read as well. -/
def Made (w : World) (cls : NodeClass) (values : List Value) (start stop : Nat) : Prop :=
  ∃ rule tag items c l rounds env s s', w.Part rule (.seq tag items (some c)) l ∧
    cls = w.naming.cls c ∧ s.Earned w.Performs ∧
    meaningItems (w.scene rule rounds) items c.fields env l.parts start s =
      some (.ok (.success values stop, s'))

/-- What is asked of the values of a parse: nodes with places were made by classes, and parsers stand
for functions of the program. -/
def survey (w : World) (before : Heap) (nested : Prop) : Survey where
  before := before
  size := w.bytes.size
  callable f := ∃ c, w.naming.closure? f = some c
  made := w.Made
  performs := w.Performs
  nested := nested

/-- A world in which functions can be read. -/
structure Ready (w : World) (signatures : Signatures) (before : Heap) (nested : Prop) : Prop where
  natives : w.library.natives.HandOn
  least : w.leastNone? ≠ none
  globals : Env.Holds (before.Knows fun _ => False) w.globals
  rules : ∀ name params, signatures.lookup name = some params →
    ∃ f, w.naming.rules.lookup (ruleFunction name) = some f ∧
      (∃ c, w.naming.closure? f = some c) ∧ (nested → params = [])
  closed : ∀ k c, w.naming.closure? k = some c → ∀ n ∈ c.body.readLocals [], n ∈ c.params
  fine : ∀ k c, w.naming.closure? k = some c →
    c.body.Throughout (Expr.Surveyable (w.survey before nested) signatures) c.layout

variable {w : World} {signatures : Signatures} {before h : Heap} {nested : Prop}

theorem Ready.throughout (ready : w.Ready signatures before nested) {rule : String} {e : Expr}
    {l : Layout} (part : w.Part rule e l) :
    e.Throughout (Expr.Surveyable (w.survey before nested) signatures) l := by
  induction part with
  | body known => exact ready.fine _ _ known
  | inPlace _ mem ih => exact ih.part _ mem

theorem Ready.scene (ready : w.Ready signatures before nested) (rule : String) (rounds : Nat)
    (calls : ∀ {h : Heap} {f : Nat} {args : List Value} {pos : Nat},
      (w.survey before nested).callable f → (nested → args = []) →
      (w.survey before nested).AllLie h pos pos args → pos ≤ w.bytes.size →
      Meets (w.survey before nested) h ((w.survey before nested).Finds · pos pos)
        (w.call rounds f args pos)) :
    (w.scene rule rounds).Surveyed (w.survey before nested) signatures (w.Part rule) where
  closed part _ mem := .inPlace part mem
  fine part := (ready.throughout part).here
  natives := ready.natives
  size := rfl
  least := ready.least
  globals := ready.globals
  rules := ready.rules
  calls := calls
  whole part _ found env pos := .whole part found rounds env pos
  atom part _ found env pos := .atom part found rounds env pos
  level part _ found params env pos := .level part found params rounds env pos
  made part earned read := ⟨rule, _, _, _, _, rounds, _, _, _, part, rfl, earned, read⟩

/-- **Functions that are given values as asked are never stuck and keep to a survey.** -/
theorem run_meets (ready : w.Ready signatures before nested) (rounds : Nat) {f : Nat}
    {args : List Value} {pos : Nat} (callable : ∃ c, w.naming.closure? f = some c)
    (none : nested → args = []) (lie : (w.survey before nested).AllLie h pos pos args)
    (inside : pos ≤ w.bytes.size) :
    Meets (w.survey before nested) h ((w.survey before nested).Finds · pos pos)
      (w.run rounds f args pos) := by
  induction rounds generalizing h f args pos with
  | zero => exact .exhausted
  | succ rounds ih =>
      obtain ⟨c, known⟩ := callable
      by_cases arity : args.length = c.params.length
      · rw [run_some known arity]
        have part : w.Part c.rule c.body c.layout := .body known
        have surveyed := ready.scene c.rule rounds fun {h g xs p} callable none lie inside => by
          change Meets _ h _ (Reading.remembered (xs.isEmpty && w.memoize) g p (w.run rounds g xs p))
          have meets := ih callable none lie inside
          cases xs with
          | nil => exact meets.remembered inside (.run rounds g p)
          | cons => exact meets
        refine Expr.Meets.within surveyed (c.body.meaning_meets surveyed c.layout part) part
          (Nat.le_refl pos) inside fun n reads => ?_
        have binds : (Host.bindAll c.params args []).Binds c.params :=
          .bindAll arity fun _ mem free => absurd mem free
        obtain ⟨v, found⟩ := Option.isSome_iff_exists.1 (binds n (ready.closed f c known n reads))
        exact ⟨v, found, (Env.Holds.nil.bindAll c.params lie).lookup found⟩
      · rw [run_arity known arity]
        exact .stop _

/-- **What a run of the machine ends with has been read**, and is as asked; otherwise host code or the
number of its steps has stopped it. -/
theorem Ready.outcomes (ready : w.Ready signatures before nested) {setting : Setting}
    (fits : w.Fits setting) {f : Nat} {args : List Value} {pos : Nat}
    (callable : ∃ c, w.naming.closure? f = some c) (none : nested → args = [])
    (later : before.Grows h) (lie : (w.survey before nested).AllLie h pos pos args)
    (inside : pos ≤ setting.bytes.size) :
    (∃ o h' v, setting.run w.memoize f args pos h.next = .ok (o, h'.next) ∧ h.Grows h' ∧
        (w.survey before nested).Finds h' pos pos v ∧ setting.Leaves o v) ∨
      (∃ e, setting.run w.memoize f args pos h.next = .error (.host e)) ∨
      setting.run w.memoize f args pos h.next = fault .outOfSteps := by
  have inside' : pos ≤ w.bytes.size := fits.bytes ▸ inside
  have meets := run_meets ready (stepLimit + 1) callable none lie inside'
  have begins : (w.survey before nested).Fits h (.start h.next) :=
    ⟨rfl, later, (fun _ _ found => nomatch found), .empty fun _ => rfl⟩
  have shows : setting.Shows w.memoize (stepLimit + 1) f args pos h.next _ :=
    World.shows fits inside (stepLimit + 1) h.next
  cases read : w.run (stepLimit + 1) f args pos (.start h.next) with
  | none =>
      rw [read] at shows
      exact .inr (.inr (shows stepLimit (Nat.lt_succ_self _)))
  | some out =>
      rw [read] at shows
      match out, shows with
      | .error .stuck, _ => exact absurd read (meets.unstuck _ begins)
      | .error (.host e), stops => exact .inr ((stops.or_outOfSteps stepLimit).imp_left fun run => ⟨e, run⟩)
      | .ok (v, s), ⟨o, stops, leaves⟩ =>
          obtain ⟨h', grows, fits', finds⟩ := meets.keeps _ _ _ begins read
          rcases stops.or_outOfSteps stepLimit with run | run
          · exact .inl ⟨o, h', v, fits'.next ▸ run, grows, finds, leaves⟩
          · exact .inr (.inr run)

end World

end Packrat
