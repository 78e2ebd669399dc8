import Packrat.Proofs.Simulation.Expressions

/-
**Functions of a program mean what they stand for.**

A naming says what the functions of a program stand for.  If every closure of a naming is placed in
the program under its number, a machine that calls a function follows the meaning of the closure;
this is an induction on the rounds that the meaning has left.

Main definitions:

* `Packrat.World.Fits` — a world that knows the parse which a machine works in.

Main results:

* `Packrat.World.calls` — **a machine that calls a function follows its meaning**;
* `Packrat.World.performs` — the code of a function performs its meaning.
-/

set_option autoImplicit false

namespace Packrat

variable [Regex.Engine]

/-- A world that knows the parse which a machine works in, and whose closures are placed in its
program. -/
structure World.Fits (w : World) (setting : Setting) : Prop where
  library : w.library = setting.library
  globals : w.globals = setting.globals
  bytes : w.bytes = setting.bytes
  isBinary : w.isBinary = setting.isBinary
  leastNone : w.leastNone? ≠ some true
  classes : w.naming.classes = setting.program.classes.toList
  named : ∀ name k, w.naming.rules.lookup name = some k →
    ∃ f, setting.program.functions[k]? = some f ∧ f.name = name
  small : setting.bytes.size < 2 ^ 63
  seeded : setting.program.failures[leftRecursion]? = some ⟨"", "", .leftRecursion⟩
  sound : ∀ e ∈ setting.program.regexes, e.Sound
  placed : ∀ k c, w.naming.closure? k = some c → c.Placed setting.program w.naming.rules k

namespace World

/-- What a call comes to, after so many rounds at most. -/
def call (w : World) (rounds : Nat) (f : Nat) (args : List Value) (pos : Nat) :
    Reading (Verdict Value) :=
  Reading.remembered (args.isEmpty && w.memoize) f pos (w.run rounds f args pos)

/-- Where the expressions of a rule are read. -/
def scene (w : World) (rule : String) (rounds : Nat) : Scene :=
  { w with rule, call := w.call rounds, rounds }

variable {w : World} {setting : Setting} {c : Closure} {k rounds pos : Nat} {args : List Value}

theorem run_none (h : w.naming.closure? k = none) :
    w.run (rounds + 1) k args pos = Reading.stuck := by
  rw [run, h]
  rfl

theorem run_some (h : w.naming.closure? k = some c) (arity : args.length = c.params.length) :
    w.run (rounds + 1) k args pos =
      c.layout.read (w.scene c.rule rounds) c.body.freeLocals pos
        (c.body.meaning (w.scene c.rule rounds) (Host.bindAll c.params args []) c.layout pos) := by
  rw [run, h]
  simp only [Reading.found, pure_bind, arity, beq_self_eq_true, if_true]
  rfl

theorem run_arity (h : w.naming.closure? k = some c) (arity : args.length ≠ c.params.length) :
    w.run (rounds + 1) k args pos =
      throw (.host (.arity c.name c.params.length args.length)) := by
  rw [run, h]
  simp only [Reading.found, pure_bind, beq_iff_eq, if_neg arity]

theorem Fits.scene (fits : w.Fits setting)
    (calls : setting.Calls w.memoize rounds (w.call rounds)) (rule : String) :
    (w.scene rule rounds).Fits setting w.memoize w.naming.rules rule where
  library := fits.library
  globals := fits.globals
  bytes := fits.bytes
  isBinary := fits.isBinary
  memoize := rfl
  leastNone := fits.leastNone
  rules := rfl
  classes := fits.classes
  rule := rfl
  named := fits.named
  small := fits.small
  seeded := fits.seeded
  sound := fits.sound
  calls := calls

/-- A machine that calls a function follows its meaning. -/
theorem calls (fits : w.Fits setting) (rounds : Nat) :
    setting.Calls w.memoize rounds (w.call rounds) := by
  induction rounds with
  | zero =>
      intro f args frame rest memo s m inside recalls call
      refine Setting.follow_remembered fits.seeded inside recalls (fun _ _ _ m _ _ => ?_) call
      exact ⟨0, m, Nat.le_refl 0, .refl m⟩
  | succ rounds ih =>
      intro f args frame rest memo s m inside recalls call
      cases hc : w.naming.closure? f with
      | none =>
          refine Setting.follow_remembered fits.seeded inside recalls (fun _ _ _ _ _ _ => ?_) call
          rw [run_none hc]
          trivial
      | some c =>
          obtain ⟨g, draft, budget, hg, done, name, grown, performs⟩ := fits.placed f c hc
          by_cases arity : args.length = c.params.length
          · rw [World.call, run_some hc arity]
            exact Setting.follow_callee hg done grown
              (fun site hs hm hf => performs site _ _ (by rw [hs]) hf
                (by rw [hs, hm]; exact fits.scene ih c.rule))
              arity (fun _ => Draft.knows_begin_bindAll arity) fits.seeded inside recalls call
          · -- The frame is not even made.
            rw [World.call, run_arity hc arity]
            refine Setting.follow_remembered fits.seeded inside recalls
              (fun key? memo s m _ enters => .fail ?_) call
            obtain ⟨-, -, params, -, -⟩ := Draft.function_eq_ok done
            have given : g.params = c.params := by rw [params, grown.params]; rfl
            rw [enters, Machine.enter_arity hg (given ▸ arity), name, given]
            rfl

end World

end Packrat
