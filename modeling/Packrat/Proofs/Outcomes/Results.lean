import Packrat.Proofs.Outcomes.Expressions
import Packrat.Regex.Search

/-
**What comes out of expressions.**

The code of an expression stands between two drafts of a function, and the function may be at work
anywhere in a parse, with any values in its slots.  When the parse has come from the beginning of
the code to its end, an expression that is sure to succeed has done so, and a repetition that has
succeeded has as many items as its numbers allow.

Main results:

* `Packrat.Expr.succeeds` — **expressions that are sure to succeed**;
* `Packrat.Expr.list_within_bounds` — **the numbers of a repetition**.
-/

set_option autoImplicit false

namespace Packrat

variable {d d' : Draft} {p p' : Pools} {site : Site} {σ σ' : Moment}

/-! ### Success -/

/-- **Expressions that always succeed.** The code of an expression that is marked, and deserves it,
leaves the mark of a success, provided that none of the functions that it was split into is called
while it is at work at the same place. -/
theorem Expr.succeeds [Regex.Engine] {e : Expr} (sure : e.Sure) (w : e.emit.Writes d p () d' p')
    (code : site.function.Hosts d') (pools : site.setting.program.Hosts p')
    (arrives : site.Arrives (fun f => f < p.functions.size ∨ p'.functions.size ≤ f)
      d.code.size d'.code.size σ σ') : σ'.status = true := by
  let aim : Aim := ⟨fun f => f < p.functions.size ∨ p'.functions.size ≤ f, d'.code.size,
    fun frame => frame.status = true⟩
  have straight : aim.Straight p p' := by
    rintro k low high (less | more)
    · omega
    · omega
  refine (Site.Arrives.goal arrives fun n => ?_ : aim.goal (site.frame aim.stop σ'))
  exact e.emit_assures.leaves _ _ _ _ w site aim (Site.part_hosts code (Nat.le_refl _)) pools n
    (site.frame d.code.size σ) fun r' _ succeeds => Site.ensures_goal (succeeds sure straight)

/-- A part that fails, and need not succeed. -/
def Expr.spare : Expr := .opt ⟨1, .nowhere⟩ (.fail ⟨2, .nowhere⟩ none)

/-- The function of that part. -/
def Function.spare : Function where
  name := "start"
  params := []
  slots := 1
  code := #[.store 0 .position, .fail 1, .branch .status 1, .restore 0, .load (.const .none),
    .setStatus true, .ret]
  labels := #[2, 6]

theorem Expr.succeeds_spare :
    ∃ (fs : Array FailureEntry) (d' : Draft) (σ σ' : Moment),
      let p' := { Pools.initial 4 0 with failures := fs }
      Expr.spare.Sure ∧ Expr.spare.emit.Writes (.begin "start" [] 4) (.initial 4 0) () d' p' ∧
        d'.code.size = 6 ∧ (p'.site .spare).Strides 6 6 0 σ σ' ∧ σ'.status = true := by
  obtain ⟨fs, d', w, done, size⟩ : ∃ fs d',
      Expr.spare.emit.Writes (.begin "start" [] 4) (.initial 4 0) () d'
        { Pools.initial 4 0 with failures := fs } ∧
      d'.function = .ok .spare ∧ d'.code.size = 6 := ⟨_, _, rfl, rfl, rfl⟩
  let p' := { Pools.initial 4 0 with failures := fs }
  have strides : (p'.site .spare).Strides 6 6 0 ⟨false, .none, 0, #[.none], ∅, 0⟩
      ⟨true, .none, 0, #[.ofPos 0], ∅, 0⟩ := by
    iterate 6 refine .step (Nat.ne_of_beq_eq_false rfl) rfl rfl ?_
    exact .refl _
  have sure : Expr.spare.Sure := ⟨rfl, rfl⟩
  have code : (p'.site .spare).function.Hosts d' := (Draft.function_eq_ok done).1
  have arrives := strides.arrives rfl rfl fun f => f < 0 ∨ 0 ≤ f
  rw [← size] at arrives
  exact ⟨fs, d', _, _, sure, w, size, strides,
    Expr.succeeds sure w code (p'.alone_hosts .spare rfl) arrives⟩

/-! ### Bounds -/

/-- **The numbers of a repetition.** Behind a success the result is a list with at least as many
items as the least number says, if that is a number that lengths can be compared to, and at most as
many as the greatest number says, whatever it is. -/
theorem Expr.list_within_bounds [Regex.Engine] {tag : Tag} {item : Expr} {least most : Option Bound}
    (w : (Expr.list tag item least most).emit.Writes d p () d' p')
    (code : site.function.Hosts d') (pools : site.setting.program.Hosts p')
    (arrives : site.Arrives (fun _ => True) d.code.size d'.code.size σ σ')
    (success : σ'.status = true) :
    ∃ id items, σ'.result = .list id items ∧
      (∀ k, least = some (.const k) → k < 2 ^ 63 → k ≤ items.length) ∧
      ∀ k, most = some (.const k) → items.length ≤ k := by
  rw [Expr.emit] at w
  let aim : Aim := ⟨fun _ => True, d'.code.size, fun frame => frame.status = true →
    ∃ id items, frame.result = .list id items ∧
      (∀ k, least = some (.const k) → signedWord k ≤ items.length) ∧
      ∀ k, most = some (.const k) → items.length ≤ k⟩
  have ensured (n : Nat) : (site.frame d.code.size σ).Ensures site.setting aim n :=
    Site.ensures_listOf (r := site.frame d.code.size σ) (item.emit_assures.within item) w
      (Site.part_hosts code (Nat.le_refl _)) pools fun r' _ bounds _ => Site.ensures_goal bounds
  have goal : aim.goal (site.frame aim.stop σ') := Site.Arrives.goal arrives ensured
  obtain ⟨id, items, result, atLeast, atMost⟩ := goal success
  refine ⟨id, items, result, fun k hk small => ?_, atMost⟩
  have := atLeast k hk
  rw [signedWord_of_lt small] at this
  omega

/-- One or two values of host code that reads nothing. -/
def Expr.oneOrTwo : Expr :=
  .list ⟨1, .nowhere⟩ (.host ⟨2, .nowhere⟩ ⟨"None", .literal .none, []⟩) (some (.const 1))
    (some (.const 2))

/-- The function of that repetition. -/
def Function.oneOrTwo : Function where
  name := "start"
  params := []
  slots := 4
  code := #[.newList 0, .store 1 (.const (.failure 1)), .store 2 .position,
    .branch (.lenGe 0 (.const 2)) 1, .store 3 .position, .eval 0 [], .branch .status 2,
    .store 1 .result, .store 2 .position, .restore 3, .jump 1, .push 0 .result, .branch (.posEq 3) 1,
    .jump 0, .branch (.lenGe 0 (.const 1)) 3, .restore 2, .load (.slot 1), .setStatus false, .jump 4,
    .load (.slot 0), .setStatus true, .ret]
  labels := #[3, 14, 11, 19, 21]

theorem Expr.list_within_bounds_oneOrTwo :
    ∃ (fs : Array FailureEntry) (d' : Draft) (σ σ' : Moment),
      let p' := { Pools.initial 4 0 with hosts := #[⟨"None", .literal .none, []⟩], failures := fs }
      Expr.oneOrTwo.emit.Writes (.begin "start" [] 4) (.initial 4 0) () d' p' ∧
        d'.code.size = 21 ∧ (p'.site .oneOrTwo).Strides 21 12 0 σ σ' ∧ σ'.status = true ∧
        ∃ id items, σ'.result = .list id items ∧ 1 ≤ items.length ∧ items.length ≤ 2 := by
  obtain ⟨fs, d', w, done, size⟩ : ∃ fs d',
      Expr.oneOrTwo.emit.Writes (.begin "start" [] 4) (.initial 4 0) () d'
        { Pools.initial 4 0 with hosts := #[⟨"None", .literal .none, []⟩], failures := fs } ∧
      d'.function = .ok .oneOrTwo ∧ d'.code.size = 21 := ⟨_, _, rfl, rfl, rfl⟩
  let p' := { Pools.initial 4 0 with hosts := #[⟨"None", .literal .none, []⟩], failures := fs }
  let site : Site := p'.site .oneOrTwo
  let here (status : Bool) (result : Value) (slots : Array Value) : Moment :=
    ⟨status, result, 0, slots, ∅, 8⟩
  let one : Value := .list 7 [.none]
  let zero : Value := .ofPos 0
  let last : Moment := here true one #[one, .failure 1, zero, zero]
  have strides : site.Strides 21 12 0 ⟨false, .none, 0, #[.none, .none, .none, .none], ∅, 7⟩ last :=
    .step (by decide) rfl rfl <|
    show site.Strides 21 11 1 (here false .none #[.list 7 [], .none, .none, .none]) last from
    .step (by decide) rfl rfl <|
    show site.Strides 21 10 2 (here false .none #[.list 7 [], .failure 1, .none, .none]) last from
    .step (by decide) rfl rfl <|
    show site.Strides 21 9 3 (here false .none #[.list 7 [], .failure 1, zero, .none]) last from
    .step (by decide) rfl rfl <|
    show site.Strides 21 8 4 (here false .none #[.list 7 [], .failure 1, zero, .none]) last from
    .step (by decide) rfl rfl <|
    show site.Strides 21 7 5 (here false .none #[.list 7 [], .failure 1, zero, zero]) last from
    .step (by decide) rfl rfl <|
    show site.Strides 21 6 6 (here true .none #[.list 7 [], .failure 1, zero, zero]) last from
    .step (by decide) rfl rfl <|
    show site.Strides 21 5 11 (here true .none #[.list 7 [], .failure 1, zero, zero]) last from
    .step (by decide) rfl rfl <|
    show site.Strides 21 4 12 (here true .none #[one, .failure 1, zero, zero]) last from
    .step (by decide) rfl rfl <|
    show site.Strides 21 3 14 (here true .none #[one, .failure 1, zero, zero]) last from
    .step (by decide) rfl rfl <|
    show site.Strides 21 2 19 (here true .none #[one, .failure 1, zero, zero]) last from
    .step (by decide) rfl rfl <|
    show site.Strides 21 1 20 last last from .step (by decide) rfl rfl (.refl last)
  have code : site.function.Hosts d' := (Draft.function_eq_ok done).1
  have arrives := strides.arrives rfl rfl fun _ => True
  rw [← size] at arrives
  obtain ⟨id, items, result, atLeast, atMost⟩ :=
    Expr.list_within_bounds w code (p'.alone_hosts .oneOrTwo rfl) arrives rfl
  exact ⟨fs, d', _, _, w, size, strides, rfl, id, items, result, atLeast 1 rfl (by decide),
    atMost 2 rfl⟩

end Packrat
