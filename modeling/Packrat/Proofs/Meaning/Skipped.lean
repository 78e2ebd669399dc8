import Packrat.Proofs.Meaning.Chains
import Packrat.Proofs.Simulation.Operators

/-
**What is skipped.**

Skipping takes steps, each over the first of its parts that reads anything at a place, and comes to
rest at the first place where none of them does.

Main definitions:

* `Packrat.Reading.Idle`, `Packrat.Expr.Idle` — a part, and parts, that read nothing at a place;
* `Packrat.Expr.Steps` — the step over the first part that reads anything;
* `Packrat.Expr.Skips` — **steps until no part reads anything**.

Main results:

* `Packrat.Expr.meaning_skip` — an expression that skips takes such steps;
* `Packrat.Expr.Skips.rested` — where it comes to rest no part reads anything.
-/

set_option autoImplicit false

namespace Packrat

/-! ### Steps -/

/-- A part that reads nothing at a place: it fails, or it succeeds where it began. -/
def Reading.Idle (r : Nat → Reading (Verdict Value)) (pos : Nat) (s s' : Store) : Prop :=
  Misses r pos s s' ∨ ∃ v, Finds r pos s v pos s'

namespace Expr

variable (scene : Scene) (env : Env)

variable [Regex.Engine]

/-- Parts that read nothing at a place, one after the other. -/
inductive Idle (pos : Nat) : List Expr → List Layout → Store → Store → Prop
  | nil {ls : List Layout} {s : Store} : Idle pos [] ls s s
  | cons {e : Expr} {es : List Expr} {ls : List Layout} {s s₁ s' : Store}
      (here : Reading.Idle (e.reads scene env (ls.headD .blank)) pos s s₁)
      (rest : Idle pos es ls.tail s₁ s') : Idle pos (e :: es) ls s s'

/-- A step from one place to another, over the first part that reads anything. -/
inductive Steps (pos : Nat) : List Expr → List Layout → Store → Nat → Store → Prop
  | here {e : Expr} {es : List Expr} {ls : List Layout} {v : Value} {next : Nat} {s s' : Store}
      (finds : Reading.Finds (e.reads scene env (ls.headD .blank)) pos s v next s')
      (moves : next ≠ pos) : Steps pos (e :: es) ls s next s'
  | behind {e : Expr} {es : List Expr} {ls : List Layout} {next : Nat} {s s₁ s' : Store}
      (idle : Reading.Idle (e.reads scene env (ls.headD .blank)) pos s s₁)
      (rest : Steps pos es ls.tail s₁ next s') : Steps pos (e :: es) ls s next s'

/-- Steps from a place, so many at most, to one where no part reads anything. -/
inductive Skips (es : List Expr) (ls : List Layout) : Nat → Nat → Store → Nat → Store → Prop
  | rests {rounds pos : Nat} {s s' : Store} (idle : Idle scene env pos es ls s s') :
      Skips es ls (rounds + 1) pos s pos s'
  | step {rounds pos next stop : Nat} {s s₁ s' : Store}
      (first : Steps scene env pos es ls s next s₁) (rest : Skips es ls rounds next s₁ stop s') :
      Skips es ls (rounds + 1) pos s stop s'

variable {scene env} {e : Expr} {es : List Expr} {ls : List Layout} {pos stop rounds : Nat}
  {s s₁ s' : Store}

/-- A part that reads nothing is passed over. -/
theorem meaningSkipped_idle (idle : Reading.Idle (e.reads scene env (ls.headD .blank)) pos s s₁) :
    meaningSkipped scene (e :: es) env ls pos s = meaningSkipped scene es env ls.tail pos s₁ := by
  rw [meaningSkipped, Reading.bind_apply]
  rcases idle with ⟨entry, place, misses⟩ | ⟨v, finds⟩
  · rw [reads] at misses
    rw [misses]
  · rw [Reading.Finds, reads] at finds
    rw [finds]
    exact congrFun (if_pos rfl) s₁

theorem meaningSkipped_finds {v : Value} {next : Nat}
    (finds : Reading.Finds (e.reads scene env (ls.headD .blank)) pos s v next s')
    (moves : next ≠ pos) :
    meaningSkipped scene (e :: es) env ls pos s = some (.ok (.inl next, s')) := by
  rw [meaningSkipped, Reading.bind_apply]
  rw [Reading.Finds, reads] at finds
  rw [finds]
  exact congrFun (if_neg moves) s'

/-- A round finds out whether there is a step. -/
theorem meaningSkipped_eq_ok {out : Nat ⊕ Nat} :
    meaningSkipped scene es env ls pos s = some (.ok (out, s')) ↔
      (out = .inr pos ∧ Idle scene env pos es ls s s') ∨
        ∃ next, out = .inl next ∧ Steps scene env pos es ls s next s' := by
  induction es generalizing ls s with
  | nil =>
      rw [meaningSkipped, Reading.pure_eq_ok]
      constructor
      · rintro ⟨rfl, rfl⟩
        exact .inl ⟨rfl, .nil⟩
      · rintro (⟨rfl, ⟨⟩⟩ | ⟨next, -, ⟨⟩⟩)
        exact ⟨rfl, rfl⟩
  | cons e es ih =>
      constructor
      · intro ends
        -- What is behind a part that reads nothing is the rest of the round.
        have passes {s₁ : Store}
            (idle : Reading.Idle (e.reads scene env (ls.headD .blank)) pos s s₁) :
            (out = .inr pos ∧ Idle scene env pos (e :: es) ls s s') ∨
              ∃ next, out = .inl next ∧ Steps scene env pos (e :: es) ls s next s' := by
          rw [meaningSkipped_idle idle] at ends
          rcases ih.1 ends with ⟨rfl, behind⟩ | ⟨next, rfl, behind⟩
          · exact .inl ⟨rfl, .cons idle behind⟩
          · exact .inr ⟨next, rfl, .behind idle behind⟩
        have round := ends
        rw [meaningSkipped] at round
        obtain ⟨⟨v, next⟩ | ⟨entry, place⟩, s₁, first, -⟩ := Reading.bind_eq_ok.1 round
        · by_cases moves : next = pos
          · subst moves
            exact passes (.inr ⟨v, first⟩)
          · rw [meaningSkipped_finds first moves] at ends
            cases ends
            exact .inr ⟨next, rfl, .here first moves⟩
        · exact passes (.inl ⟨entry, place, first⟩)
      · rintro (⟨rfl, idle⟩ | ⟨next, rfl, steps⟩)
        · cases idle with
          | cons here rest =>
              rw [meaningSkipped_idle here]
              exact ih.2 (.inl ⟨rfl, rest⟩)
        · cases steps with
          | here finds moves => exact meaningSkipped_finds finds moves
          | behind idle rest =>
              rw [meaningSkipped_idle idle]
              exact ih.2 (.inr ⟨next, rfl, rest⟩)

/-- The rounds of skipping are its steps. -/
theorem repeatFrom_skipped :
    Reading.repeatFrom (meaningSkipped scene es env ls) rounds pos s = some (.ok (stop, s')) ↔
      Skips scene env es ls rounds pos s stop s' := by
  induction rounds generalizing pos s with
  | zero =>
      constructor
      · intro ends
        cases ends
      · intro skips
        cases skips
  | succ rounds ih =>
      rw [Reading.repeatFrom, Reading.bind_eq_ok]
      constructor
      · rintro ⟨next | next, s₁, round, rest⟩
        · rcases meaningSkipped_eq_ok.1 round with ⟨⟨⟩, -⟩ | ⟨next', ⟨⟩, first⟩
          exact .step first (ih.1 rest)
        · rcases meaningSkipped_eq_ok.1 round with ⟨⟨⟩, idle⟩ | ⟨next', ⟨⟩, -⟩
          obtain ⟨rfl, rfl⟩ := Reading.pure_eq_ok.1 rest
          exact .rests idle
      · intro skips
        cases skips with
        | rests idle => exact ⟨.inr stop, s', meaningSkipped_eq_ok.2 (.inl ⟨rfl, idle⟩), rfl⟩
        | @step _ _ next _ _ s₁ _ first rest =>
            exact ⟨.inl next, s₁, meaningSkipped_eq_ok.2 (.inr ⟨next, rfl, first⟩), ih.2 rest⟩

/-- An expression that skips always succeeds, with none, where its steps come to rest. -/
theorem meaning_skip {tag : Tag} {l : Layout} {v : Verdict Value} :
    (Expr.skip tag es).meaning scene env l pos s = some (.ok (v, s')) ↔
      ∃ stop, v = .success .none stop ∧
        Skips scene env es l.parts scene.rounds pos s stop s' := by
  rw [Expr.meaning, Reading.bind_eq_ok]
  constructor
  · rintro ⟨stop, s₁, rounds, rest⟩
    obtain ⟨rfl, rfl⟩ := Reading.pure_eq_ok.1 rest
    exact ⟨stop, rfl, repeatFrom_skipped.1 rounds⟩
  · rintro ⟨stop, rfl, skips⟩
    exact ⟨stop, s', repeatFrom_skipped.2 skips, rfl⟩

/-- Where skipping comes to rest the last round has read nothing. -/
theorem Skips.rested (h : Skips scene env es ls rounds pos s stop s') :
    0 < rounds ∧ ∃ t, Idle scene env stop es ls t s' := by
  induction h with
  | rests idle => exact ⟨Nat.succ_pos _, _, idle⟩
  | step _ _ ih => exact ⟨Nat.succ_pos _, ih.2⟩

/-- Parts that read nothing are skipped in one round. -/
theorem Idle.skips (h : Idle scene env pos es ls s s') (some : 0 < rounds) :
    Skips scene env es ls rounds pos s pos s' := by
  obtain ⟨rounds, rfl⟩ := Nat.exists_eq_succ_of_ne_zero (Nat.pos_iff_ne_zero.1 some)
  exact .rests h

end Expr

end Packrat
