import Packrat.Proofs.Emission.Stages
import Packrat.Regex.Search

/-
**The budget of blocks behind an expression.**

Entering a block takes one from the budget, where there is one left to take; leaving it gives one
back, whether or not one was taken.  A block that is entered with nothing left so leaves the
budget larger than it was, and an expression behind it is compiled as if it stood less deep.  Code
that is written never lowers the budget, and restores it exactly where each of the blocks that it
opens in place is paid for.

Main definitions:

* `Packrat.Expr.fits` — the blocks that the code of an expression opens in place are all left;
* `Packrat.Stage.Restores` — writing that never lowers the budget, and the budgets it restores.

Main results:

* `Packrat.Stage.Restores.andThen`, `Packrat.Stage.Restores.nested` — budgets behind one part of code
  after another, and behind a block;
* `Packrat.Expr.behind_restores` — the budgets that the code of an expression restores;
* `Packrat.Expr.budget_restored` — **the budget behind an expression is never smaller, and is the
  same exactly where the blocks that are opened in place are left**.
-/

set_option autoImplicit false

namespace Packrat

/-! ### Budgets that are large enough -/

/-- Whether the blocks of an expression are left where it is compiled inside of another. One that
gets a function of its own opens none here. -/
def Expr.fitsInside (b : Nat) (e : Expr) (fits : Bool) : Bool := b < e.numBlocks || fits

mutual

/-- Whether all blocks that the code of an expression opens in place are left, out of `b`. -/
def Expr.fits (b : Nat) : Expr → Bool
  | .str _ _ flags | .regex _ _ flags => !flags.skip || 1 ≤ b
  -- Arguments, and the levels of an operator table, are functions of their own.
  | .ref _ _ _ | .call _ _ _ _ | .fail _ _ | .host _ _ | .operators _ _ _ => true
  | .seq _ items _ => 1 ≤ b && itemsFit (b - 1) items
  | .choice _ [only] => only.fitsInside b (only.fits b)
  | .choice _ alternatives => 1 ≤ b && alternativesFit (b - 1) alternatives
  | .list _ item _ _ => 2 ≤ b && item.fitsInside (b - 1) (item.fits (b - 1))
  | .sep _ item separator _ =>
    -- The first item is read before the loop, the others inside of it.
    3 ≤ b && item.fitsInside (b - 1) (item.fits (b - 1)) &&
      separator.fitsInside (b - 2) (separator.fits (b - 2)) &&
      item.fitsInside (b - 2) (item.fits (b - 2))
  | .opt _ inner | .expect _ inner | .expectNot _ inner =>
    1 ≤ b && inner.fitsInside (b - 1) (inner.fits (b - 1))
  | .apply _ left right _ | .discard _ left right _ | .bound _ _ left right
  | .satisfying _ left right =>
    1 ≤ b && left.fitsInside (b - 1) (left.fits (b - 1)) &&
      right.fitsInside (b - 1) (right.fits (b - 1))
  | .skip _ items => 1 ≤ b && partsFit (b - 1) items

/-- The blocks of items, one after the other. -/
def itemsFit (b : Nat) : List Expr → Bool
  | [] => true
  | e :: es => e.fitsInside b (e.fits b) && itemsFit b es

/-- The blocks of alternatives, up to one that always succeeds; behind every other one, a block
keeps the farthest failure. -/
def alternativesFit (b : Nat) : List Expr → Bool
  | [] => true
  | e :: es => e.fitsInside b (e.fits b) && (e.alwaysSucceeds || 1 ≤ b && alternativesFit b es)

/-- The blocks of the parts of a skipping expression; behind every part a block decides whether to
begin anew. -/
def partsFit (b : Nat) : List Expr → Bool
  | [] => true
  | e :: es => e.fitsInside b (e.fits b) && 1 ≤ b && partsFit b es

end

/-- Whether the blocks of an expression are left, out of `b`, where it is compiled inside of
another. -/
def Expr.fitsWithin (b : Nat) (e : Expr) : Bool := e.fitsInside b (e.fits b)

/-! ### Stages -/

/-- Writing that never lowers the budget, and restores exactly the budgets in `F`. -/
structure Stage.Restores (F : Nat → Prop) (f : Stage → Stage) : Prop where
  grows : ∀ s, s.blocksLeft ≤ (f s).blocksLeft
  exact : ∀ s, (f s).blocksLeft = s.blocksLeft ↔ F s.blocksLeft

namespace Stage.Restores

variable {F G : Nat → Prop} {f g : Stage → Stage}

/-- The budgets that are restored, in other words. -/
theorem congr (h : Restores F f) (same : ∀ b, F b ↔ G b) : Restores G f where
  grows := h.grows
  exact s := (h.exact s).trans (same _)

theorem of_eq (h : ∀ s, (f s).blocksLeft = s.blocksLeft) : Restores (fun _ => True) f where
  grows s := Nat.le_of_eq (h s).symm
  exact s := by simp [h s]

/-- What one has leaked, the other does not take back. -/
theorem andThen (hf : Restores F f) (hg : Restores G g) :
    Restores (fun b => F b ∧ G b) fun s => g (f s) where
  grows s := Nat.le_trans (hf.grows s) (hg.grows _)
  exact s := by
    have first := hf.grows s
    have second := hg.grows (f s)
    rw [← hf.exact]
    constructor
    · intro same
      have same₁ := Nat.le_antisymm (same ▸ second) first
      exact ⟨same₁, same₁ ▸ (hg.exact _).1 (same.trans same₁.symm)⟩
    · rintro ⟨same₁, hG⟩
      rw [← same₁] at hG ⊢
      exact (hg.exact _).2 hG

/-- A block restores what is at least one, where its body restores one less. A block that is
entered with nothing left gives back what it did not take. -/
theorem nested (h : Restores F f) : Restores (fun b => 1 ≤ b ∧ F (b - 1)) (Stage.nested f) where
  grows s := by
    have := h.grows s.entered
    simp only [Stage.nested, entered, left] at this ⊢
    omega
  exact s := by
    have inner := h.exact s.entered
    have := h.grows s.entered
    simp only [entered] at inner this
    simp only [Stage.nested, left, entered, ← inner]
    omega

theorem tested : Restores (fun b => 1 ≤ b) Stage.tested :=
  (nested (of_eq fun _ => rfl)).congr fun b => by simp

/-- A function of its own opens its blocks elsewhere. -/
theorem apart (f : Stage → Stage) : Restores (fun _ => True) (Stage.apart f) := of_eq fun _ => rfl

theorem inside (e : Expr) (h : Restores F f) :
    Restores (fun b => b < e.numBlocks ∨ F b) (Stage.inside f e) where
  grows s := by
    rw [Stage.inside]
    split
    · exact (apart f).grows s
    · exact h.grows s
  exact s := by
    rw [Stage.inside]
    split
    · next few => simpa [few] using (apart f).exact s
    · next enough => simpa [enough] using h.exact s

/-- A test that may be left out. -/
theorem testedIf (b : Bool) :
    Restores (fun n => b = false ∨ 1 ≤ n) fun s => if b then Stage.tested s else s := by
  cases b with
  | false => exact (of_eq fun _ => rfl).congr fun _ => by simp
  | true => exact tested.congr fun _ => by simp

end Stage.Restores

/-! ### Expressions -/

open Stage

/-- An expression inside of another. -/
theorem inside_restores {e : Expr} (h : Restores (fun b => e.fits b) e.behind) :
    Restores (fun b => e.fitsInside b (e.fits b)) (Stage.inside e.behind e) :=
  (h.inside e).congr fun b => by simp [Expr.fitsInside]

mutual

/-- The budgets that the code of an expression restores. -/
theorem Expr.behind_restores : (e : Expr) → Restores (fun b => e.fits b) e.behind
  | .str _ _ flags | .regex _ _ flags => by
      rw [Expr.behind]
      cases skip : flags.skip with
      | false => exact (Restores.of_eq fun _ => rfl).congr fun b => by simp [Expr.fits, skip]
      | true => exact Restores.tested.congr fun b => by simp [Expr.fits, skip]
  | .ref _ _ _ | .fail _ _ | .host _ _ => by
      rw [Expr.behind]
      exact (Restores.of_eq fun _ => rfl).congr fun b => by simp [Expr.fits]
  | .call _ _ args _ => by
      rw [Expr.behind]
      exact (behindArgs_restores args).congr fun b => by simp [Expr.fits]
  | .seq _ items _ => by
      rw [Expr.behind]
      exact (behindItems_restores items).nested.congr fun b => by simp [Expr.fits]
  | .choice _ [only] => by
      rw [Expr.behind]
      exact (inside_restores (Expr.behind_restores only)).congr fun b => by rw [Expr.fits]
  | .choice _ [] => by
      rw [Expr.behind]
      · exact (behindAlternatives_restores []).nested.congr fun b => by simp [Expr.fits]
      · simp
  | .choice _ (e :: e' :: es) => by
      rw [Expr.behind]
      · exact (behindAlternatives_restores (e :: e' :: es)).nested.congr fun b => by
          simp [Expr.fits]
      · simp
  | .list _ item least most => by
      rw [Expr.behind]
      -- Whether the number of items is tested at all does not matter behind the repetition.
      exact (((inside_restores (Expr.behind_restores item)).andThen .tested).nested.andThen
        (.testedIf least.isSome)).congr fun b => by grind [Expr.fits]
  | .sep _ item separator flags => by
      rw [Expr.behind]
      have items := inside_restores (Expr.behind_restores item)
      have separators := inside_restores (Expr.behind_restores separator)
      have empty : Restores (fun _ => True) (if flags.allowEmpty then Stage.shared else id) := by
        cases flags.allowEmpty <;> exact .of_eq fun _ => rfl
      exact ((items.andThen empty.nested).andThen
        ((separators.andThen .tested).andThen (items.andThen .tested)).nested).nested.congr
          fun b => by
            rw [Expr.fits, show b - 2 = b - 1 - 1 by omega]
            grind
  | .opt _ inner | .expectNot _ inner => by
      rw [Expr.behind]
      exact ((inside_restores (Expr.behind_restores inner)).nested.andThen .tested).congr
        fun b => by grind [Expr.fits]
  | .expect _ inner => by
      rw [Expr.behind]
      exact (inside_restores (Expr.behind_restores inner)).nested.congr fun b => by
        simp [Expr.fits]
  | .apply _ a b _ | .discard _ a b _ | .bound _ _ a b | .satisfying _ a b => by
      rw [Expr.behind]
      exact ((inside_restores (Expr.behind_restores a)).andThen
        (inside_restores (Expr.behind_restores b))).nested.congr fun b => by
          simp [Expr.fits, and_assoc]
  | .skip _ items => by
      rw [Expr.behind]
      exact (behindParts_restores items).nested.congr fun b => by simp [Expr.fits]
  | .operators _ atom levels => by
      rw [Expr.behind]
      exact ((Restores.apart _).andThen (behindLevels_restores levels)).congr fun b => by
        simp [Expr.fits]

theorem behindItems_restores :
    (items : List Expr) → Restores (fun b => itemsFit b items) (behindItems items)
  | [] => by
      rw [behindItems]
      exact (Restores.of_eq fun _ => rfl).congr fun b => by simp [itemsFit]
  | e :: es => by
      rw [behindItems]
      exact ((inside_restores (Expr.behind_restores e)).andThen (behindItems_restores es)).congr
        fun b => by simp [itemsFit]

theorem behindAlternatives_restores :
    (es : List Expr) → Restores (fun b => alternativesFit b es) (behindAlternatives es)
  | [] => by
      rw [behindAlternatives]
      exact (Restores.of_eq fun _ => rfl).congr fun b => by simp [alternativesFit]
  | e :: es => by
      rw [behindAlternatives]
      have first := inside_restores (Expr.behind_restores e)
      by_cases always : e.alwaysSucceeds = true
      · simp only [always, if_true]
        exact first.congr fun b => by simp [alternativesFit, always]
      · simp only [always]
        exact (first.andThen (Restores.tested.andThen (behindAlternatives_restores es))).congr
          fun b => by simp [alternativesFit, always]

theorem behindParts_restores :
    (es : List Expr) → Restores (fun b => partsFit b es) (behindParts es)
  | [] => by
      rw [behindParts]
      exact (Restores.of_eq fun _ => rfl).congr fun b => by simp [partsFit]
  | e :: es => by
      rw [behindParts]
      exact (((inside_restores (Expr.behind_restores e)).andThen .tested).andThen
        (behindParts_restores es)).congr fun b => by simp [partsFit]

/-- Arguments are functions of their own, or open no blocks. -/
theorem behindArgs_restores :
    (args : List (Option String × Expr)) → Restores (fun _ => True) (behindArgs args)
  | [] => by
      rw [behindArgs]
      exact .of_eq fun _ => rfl
  | (_, e) :: rest => by
      rw [behindArgs]
      have first : Restores (fun _ => True) fun s => if e.direct then s else .apart e.behind s := by
        cases e.direct <;> exact .of_eq fun _ => rfl
      exact (first.andThen (behindArgs_restores rest)).congr fun b => by simp

theorem behindLevels_restores :
    (levels : List (Fixity × Expr)) → Restores (fun _ => True) (behindLevels levels)
  | [] => by
      rw [behindLevels]
      exact .of_eq fun _ => rfl
  | (_, _) :: rest => by
      rw [behindLevels]
      exact ((Restores.apart _).andThen (behindLevels_restores rest)).congr fun b => by simp

end

open Emit in
/-- **The budget behind an expression**: writing an expression never lowers the budget of blocks,
and leaves it as it was exactly where the blocks that are opened in place are all left. -/
theorem Expr.budget_restored [Regex.Engine] {e : Expr} {d d' : Draft} {p p' : Pools} {u : Unit}
    (h : (within e e.emit).Writes d p u d' p') :
    d.blocksLeft ≤ d'.blocksLeft ∧
      (d'.blocksLeft = d.blocksLeft ↔ e.fitsWithin d.blocksLeft) :=
  have restores := inside_restores e.behind_restores
  have behind : d'.blocksLeft = (Stage.inside e.behind e (d.stage p)).blocksLeft :=
    congrArg Stage.blocksLeft ((Moves.within e e.emit_moves).stage h)
  ⟨behind ▸ restores.grows (d.stage p), behind ▸ restores.exact (d.stage p)⟩

/-- A repetition of what always fails. -/
def Expr.failures : Expr := .list ⟨2, ⟨0, 0⟩⟩ (.fail ⟨1, ⟨0, 0⟩⟩ none) none none

open Emit in
/-- A repetition opens a block inside of its loop: with two blocks left it restores the budget, with
one it asks for no more than that one and leaks. -/
theorem Expr.budget_restored_failures :
    (∃ d' p', (within failures failures.emit).Writes (.begin "f" [] 3) (.initial 3 0) () d' p' ∧
      d'.blocksLeft = 2) ∧
    ∃ d' p', (within failures failures.emit).Writes (.begin "f" [] 2) (.initial 2 0) () d' p' ∧
      1 < d'.blocksLeft := by
  constructor
  · obtain ⟨d', p', w⟩ : ∃ d' p', (within failures failures.emit).Writes (.begin "f" [] 3)
        (.initial 3 0) () d' p' := ⟨_, _, rfl⟩
    exact ⟨d', p', w, (budget_restored w).2.2 (by decide)⟩
  · obtain ⟨d', p', w⟩ : ∃ d' p', (within failures failures.emit).Writes (.begin "f" [] 2)
        (.initial 2 0) () d' p' := ⟨_, _, rfl⟩
    have leaks : d'.blocksLeft ≠ 1 := fun same => absurd ((budget_restored w).2.1 same) (by decide)
    exact ⟨d', p', w, Nat.lt_of_le_of_ne (budget_restored w).1 leaks.symm⟩

end Packrat
