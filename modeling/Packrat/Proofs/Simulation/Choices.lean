import Mathlib.Data.List.Induction
import Packrat.Proofs.Meaning.Chains
import Packrat.Proofs.Simulation.Bounds

/-
**The farthest failure of a choice.**

Alternatives are read one after the other at the same place, until one of them succeeds.  If none
does, the failure that has come farthest is reported, and of several at one place the last; an
alternative that is nothing but a failure only takes over from those that have not come as far.

Main definitions:

* `Packrat.Refusal` — the failure of an alternative;
* `Packrat.Refusal.Reported` — **the failure that is reported of several**;
* `Packrat.Expr.Refuse` — alternatives that fail one after the other.

Main results:

* `Packrat.Refusal.farthest_eq_some` — the running maximum is the failure reported;
* `Packrat.Expr.choice_reports` — **what a choice comes to, told by its alternatives**.
-/

set_option autoImplicit false

namespace Packrat

/-! ### Failures of alternatives -/

/-- The failure of an alternative, which may be nothing but a failure. -/
structure Refusal where
  bare : Bool
  entry : FailureEntry
  place : Nat

namespace Refusal

/-- The farthest failure of several, one taking over from another. -/
def farthest (refusals : List Refusal) (far? : Option (FailureEntry × Nat)) :
    Option (FailureEntry × Nat) :=
  refusals.foldl (fun far? r => Scene.farther r.bare r.entry r.place far?) far?

/-- The failure that is reported of several. No other one has come farther; those behind it have
not even come as far, unless they are bare, and neither have those before it if it is. -/
def Reported (refusals : List Refusal) (entry : FailureEntry) (place : Nat) : Prop :=
  ∃ before r behind, refusals = before ++ r :: behind ∧ r.entry = entry ∧ r.place = place ∧
    (∀ x ∈ before, if r.bare then x.place < place else x.place ≤ place) ∧
    ∀ x ∈ behind, if x.bare then x.place ≤ place else x.place < place

variable {refusals : List Refusal} {r : Refusal} {entry : FailureEntry} {place : Nat}

/-- The failure that is reported has come farthest. -/
theorem Reported.le (h : Reported refusals entry place) : ∀ x ∈ refusals, x.place ≤ place := by
  obtain ⟨before, r, behind, rfl, rfl, rfl, ahead, after⟩ := h
  intro x mem
  rcases List.mem_append.1 mem with mem | mem
  · have := ahead x mem
    split at this <;> omega
  · rcases List.mem_cons.1 mem with rfl | mem
    · exact Nat.le_refl _
    · have := after x mem
      split at this <;> omega

/-- The place reported is that of one of the failures. -/
theorem Reported.mem (h : Reported refusals entry place) : ∃ x ∈ refusals, x.place = place := by
  obtain ⟨before, r, behind, rfl, -, here, -, -⟩ := h
  exact ⟨r, by simp, here⟩

theorem farthest_concat (far? : Option (FailureEntry × Nat)) :
    farthest (refusals ++ [r]) far? = Scene.farther r.bare r.entry r.place (farthest refusals far?) :=
  List.foldl_concat ..

theorem farthest_eq_none : farthest refusals none = none ↔ refusals = [] := by
  constructor
  · intro nothing
    cases refusals using List.reverseRecOn with
    | nil => rfl
    | append_singleton refusals r =>
        rw [farthest_concat] at nothing
        cases found : farthest refusals none with
        | none => simp [found, Scene.farther] at nothing
        | some far =>
            rw [found, Scene.farther] at nothing
            by_cases beyond : if r.bare then far.2 < r.place else far.2 ≤ r.place
            · rw [if_pos beyond] at nothing
              cases nothing
            · rw [if_neg beyond] at nothing
              cases nothing
  · rintro rfl
    rfl

/-- A failure takes over from those before it. -/
theorem Reported.takes {far : FailureEntry × Nat} (h : Reported refusals far.1 far.2)
    (beyond : if r.bare then far.2 < r.place else far.2 ≤ r.place) :
    Reported (refusals ++ [r]) r.entry r.place := by
  refine ⟨refusals, r, [], rfl, rfl, rfl, fun x mem => ?_, by simp⟩
  have := h.le x mem
  split at beyond
  · next bare => rw [if_pos bare]; omega
  · next bare => rw [if_neg bare]; omega

/-- A failure does not take over from those before it. -/
theorem Reported.keeps (h : Reported refusals entry place)
    (beyond : ¬if r.bare then place < r.place else place ≤ r.place) :
    Reported (refusals ++ [r]) entry place := by
  obtain ⟨before, f, behind, rfl, same, here, ahead, after⟩ := h
  refine ⟨before, f, behind ++ [r], by simp, same, here, ahead, fun x mem => ?_⟩
  rcases List.mem_append.1 mem with mem | mem
  · exact after x mem
  · obtain rfl := List.mem_singleton.1 mem
    split at beyond
    · next bare => rw [if_pos bare]; omega
    · next bare => rw [if_neg bare]; omega

/-- The failure that is reported is the last, or it is reported of those before the last. -/
theorem Reported.split_last (h : Reported (refusals ++ [r]) entry place) :
    (r.entry = entry ∧ r.place = place ∧
      ∀ x ∈ refusals, if r.bare then x.place < place else x.place ≤ place) ∨
    Reported refusals entry place ∧ if r.bare then r.place ≤ place else r.place < place := by
  obtain ⟨before, f, behind, split, same, here, ahead, after⟩ := h
  rcases behind.eq_nil_or_concat with rfl | ⟨behind, last, rfl⟩
  · obtain ⟨rfl, ends⟩ := List.append_inj' split rfl
    obtain rfl : r = f := by simpa using ends
    exact .inl ⟨same, here, ahead⟩
  · rw [List.concat_eq_append] at split after
    have split : refusals ++ [r] = (before ++ f :: behind) ++ [last] := by simpa using split
    obtain ⟨rfl, ends⟩ := List.append_inj' split rfl
    obtain rfl : r = last := by simpa using ends
    exact .inr ⟨⟨before, f, behind, rfl, same, here, ahead, fun x mem => after x (by simp [mem])⟩,
      after r (by simp)⟩

/-- The running maximum is the failure that is reported. -/
theorem farthest_eq_some : farthest refusals none = some (entry, place) ↔
    Reported refusals entry place := by
  induction refusals using List.reverseRecOn generalizing entry place with
  | nil =>
      constructor
      · intro found
        cases found
      · rintro ⟨before, r, behind, split, -⟩
        simp at split
  | append_singleton refusals r ih =>
      rw [farthest_concat]
      cases found : farthest refusals none with
      | none =>
          -- The first failure is taken as it is.
          obtain rfl := farthest_eq_none.1 found
          constructor
          · intro taken
            cases taken
            exact ⟨[], r, [], rfl, rfl, rfl, by simp, by simp⟩
          · intro h
            rcases h.split_last with ⟨rfl, rfl, -⟩ | ⟨h, -⟩
            · rfl
            · obtain ⟨x, mem, -⟩ := h.mem
              simp at mem
      | some far =>
          have before := ih.1 found
          constructor
          · intro taken
            rw [Scene.farther] at taken
            by_cases beyond : if r.bare then far.2 < r.place else far.2 ≤ r.place
            · rw [if_pos beyond] at taken
              cases taken
              exact before.takes beyond
            · rw [if_neg beyond] at taken
              cases taken
              exact before.keeps beyond
          · intro h
            rw [Scene.farther]
            rcases h.split_last with ⟨rfl, rfl, ahead⟩ | ⟨h, after⟩
            · -- The place of the maximum is that of a failure before the last.
              obtain ⟨x, mem, here⟩ := before.mem
              have beyond := ahead x mem
              rw [here] at beyond
              exact if_pos beyond
            · obtain rfl : far = (entry, place) := Option.some.inj (found.symm.trans (ih.2 h))
              refine if_neg fun beyond => ?_
              dsimp only at beyond
              split at after
              · next bare => rw [if_pos bare] at beyond; omega
              · next bare => rw [if_neg bare] at beyond; omega

end Refusal

/-! ### Alternatives in order -/

/-- Alternatives that fail one after the other at a place. -/
inductive Expr.Refuse [Regex.Engine] (scene : Scene) (env : Env) (pos : Nat) :
    List Expr → List Layout → Store → List Refusal → Store → Prop
  | nil {ls : List Layout} {s : Store} : Expr.Refuse scene env pos [] ls s [] s
  | cons {e : Expr} {es : List Expr} {ls : List Layout} {entry : FailureEntry} {place : Nat}
      {refusals : List Refusal} {s s₁ s' : Store}
      (fails : e.reads scene env (ls.headD .blank) pos s = some (.ok (.failure entry place, s₁)))
      (rest : Expr.Refuse scene env pos es ls.tail s₁ refusals s') :
      Expr.Refuse scene env pos (e :: es) ls s (⟨e.isFail, entry, place⟩ :: refusals) s'

/-- An alternative succeeds behind others that have failed. -/
def Expr.Chosen [Regex.Engine] (scene : Scene) (env : Env) (pos : Nat) (es : List Expr)
    (ls : List Layout) (s : Store) (v : Value) (stop : Nat) (s' : Store) : Prop :=
  ∃ before e behind refusals s₁, es = before ++ e :: behind ∧
    Expr.Refuse scene env pos before ls s refusals s₁ ∧
    Reading.Finds (e.reads scene env ((ls.drop before.length).headD .blank)) pos s₁ v stop s'

namespace Expr

variable {scene : Scene} {env : Env} {pos : Nat} {es : List Expr} {ls : List Layout}
  {far? : Option (FailureEntry × Nat)} {s s' : Store}

/-- Alternatives succeed with the first that does. -/
theorem alternatives_eq_success [Regex.Engine] (may : ∀ e ∈ es, e.alwaysSucceeds = false)
    {v : Value} {stop : Nat} : meaningAlternatives scene es env ls pos far? s =
        some (.ok (.success v stop, s')) ↔ Chosen scene env pos es ls s v stop s' := by
  induction es generalizing ls far? s with
  | nil =>
      rw [meaningAlternatives, Reading.bind_eq_ok]
      constructor
      · rintro ⟨⟨entry, place⟩, s₁, -, rest⟩
        cases (Reading.pure_eq_ok.1 rest).1
      · rintro ⟨before, e, behind, refusals, s₁, split, -⟩
        simp at split
  | cons e es ih =>
      have may' := fun e mem => may e (List.mem_cons_of_mem _ mem)
      have fallible : e.alwaysSucceeds = false := may e (.head _)
      rw [meaningAlternatives, Reading.bind_eq_ok]
      constructor
      · rintro ⟨⟨x, place⟩ | ⟨entry, place⟩, s₁, first, rest⟩
        · obtain ⟨⟨⟩, rfl⟩ := Reading.pure_eq_ok.1 rest
          exact ⟨[], e, es, [], s, rfl, .nil, first⟩
        · simp only [fallible, Bool.false_eq_true, if_false] at rest
          obtain ⟨before, e', behind, refusals, s₂, rfl, refuse, finds⟩ := (ih may').1 rest
          refine ⟨e :: before, e', behind, _, s₂, rfl, .cons first refuse, ?_⟩
          rwa [List.length_cons, ← List.drop_tail]
      · rintro ⟨before, e', behind, refusals, s₁, split, refuse, finds⟩
        cases refuse with
        | nil =>
            cases split
            exact ⟨_, _, finds, rfl⟩
        | @cons _ before _ entry place refusals _ s₂ _ fails refuse =>
            cases split
            refine ⟨_, s₂, fails, ?_⟩
            simp only [fallible, Bool.false_eq_true, if_false]
            refine (ih may').2 ⟨before, e', behind, refusals, s₁, rfl, refuse, ?_⟩
            rwa [List.length_cons, ← List.drop_tail] at finds

/-- Alternatives fail if all of them do, with the farthest of their failures. -/
theorem alternatives_eq_failure [Regex.Engine] (may : ∀ e ∈ es, e.alwaysSucceeds = false)
    {entry : FailureEntry} {place : Nat} : meaningAlternatives scene es env ls pos far? s =
        some (.ok (.failure entry place, s')) ↔
      ∃ refusals, Refuse scene env pos es ls s refusals s' ∧
        Refusal.farthest refusals far? = some (entry, place) := by
  induction es generalizing ls far? s with
  | nil =>
      rw [meaningAlternatives, Reading.bind_eq_ok]
      constructor
      · rintro ⟨⟨entry', place'⟩, s₁, given, rest⟩
        obtain ⟨⟨⟩, rfl⟩ := Reading.pure_eq_ok.1 rest
        cases far? with
        | none => cases given
        | some far =>
            obtain ⟨rfl, rfl⟩ := Reading.pure_eq_ok.1 given
            exact ⟨[], .nil, rfl⟩
      · rintro ⟨refusals, refuse, farthest⟩
        cases refuse
        obtain rfl : far? = some (entry, place) := farthest
        exact ⟨_, _, rfl, rfl⟩
  | cons e es ih =>
      have may' := fun e mem => may e (List.mem_cons_of_mem _ mem)
      have fallible : e.alwaysSucceeds = false := may e (.head _)
      rw [meaningAlternatives, Reading.bind_eq_ok]
      constructor
      · rintro ⟨⟨x, place'⟩ | ⟨entry', place'⟩, s₁, first, rest⟩
        · cases (Reading.pure_eq_ok.1 rest).1
        · simp only [fallible, Bool.false_eq_true, if_false] at rest
          obtain ⟨refusals, refuse, farthest⟩ := (ih may').1 rest
          exact ⟨_, .cons first refuse, farthest⟩
      · rintro ⟨refusals, refuse, farthest⟩
        cases refuse with
        | cons fails refuse =>
            refine ⟨_, _, fails, ?_⟩
            simp only [fallible, Bool.false_eq_true, if_false]
            exact (ih may').2 ⟨_, refuse, farthest⟩

/-- Two alternatives and more are read as such. -/
theorem meaning_choice [Regex.Engine] {tag : Tag} (several : 2 ≤ es.length) (l : Layout) :
    (Expr.choice tag es).meaning scene env l pos =
      meaningAlternatives scene es env l.parts pos none := by
  rw [Expr.meaning]
  rintro only rfl
  simp at several

end Expr

/-! ### Choices -/

/-- A letter that is not there, and a bare failure. -/
def Expr.neither : Expr :=
  .choice ⟨1, .nowhere⟩ [.str ⟨2, .nowhere⟩ [98] ⟨false, false, false⟩, .fail ⟨3, .nowhere⟩ none]

/-- **The farthest failure.** The code of a choice of several alternatives, none of which is sure to
succeed, follows a reading that succeeds with the first alternative that does. It fails where all of
them do, with the failure that has come farthest: of several at the same place with the last, where
a bare failure does not take over from those before it. -/
theorem Expr.choice_reports [Regex.Engine] {tag : Tag} {es : List Expr} (several : 2 ≤ es.length)
    (may : ∀ e ∈ es, e.alwaysSucceeds = false) {d d' : Draft} {p p' : Pools}
    (w : (Expr.choice tag es).emit.Writes d p () d' p') :
    ∃ l : Layout, ∀ (site : Site) (scene : Scene) (env : Env) (σ : Moment) (s : Store),
      site.Sets scene env d d' p p' σ s →
      let r := (Expr.choice tag es).meaning scene env l σ.pos s
      site.Follows scene.rounds d.code.size σ r (site.Done d.slots d'.code.size σ.slots) ∧
      (∀ v stop s', r = some (.ok (.success v stop, s')) ↔
        Expr.Chosen scene env σ.pos es l.parts s v stop s') ∧
      ∀ entry place s', r = some (.ok (.failure entry place, s')) ↔
        ∃ refusals, Expr.Refuse scene env σ.pos es l.parts s refusals s' ∧
          Refusal.Reported refusals entry place := by
  have realizes := Expr.compiles _ _ _ _ _ w none
  refine ⟨(Expr.choice tag es).layout none (d.stage p), fun site scene env σ s sets =>
    ⟨?_, ?_, ?_⟩⟩
  · exact realizes.performs site scene env sets.code sets.pools sets.fits σ s sets.ready
  · intro v stop s'
    rw [meaning_choice several]
    exact alternatives_eq_success may
  · intro entry place s'
    rw [meaning_choice several, alternatives_eq_failure may]
    simp only [Refusal.farthest_eq_some]

theorem Expr.choice_reports_neither :
    ∃ (d' : Draft) (p' : Pools) (l : Layout),
      Expr.neither.emit.Writes (.begin "start" [] 4) (.initial 4 0) () d' p' ∧
      Expr.neither.meaning (.bare ⟨#[97]⟩ 5) [] l 0 ⟨0, fun _ => none⟩ =
        some (.ok (.failure ⟨"", Expr.text (.str ⟨2, .nowhere⟩ [98] ⟨false, false, false⟩),
          .literal "b"⟩ 0, ⟨0, fun _ => none⟩)) := by
  obtain ⟨d', p', w, plain⟩ := Expr.neither.emits_alone (by decide +kernel)
  obtain ⟨l, reports⟩ := Expr.choice_reports (by decide) (by decide) w
  have letter (l : Layout) (s : Store) :
      (Expr.str ⟨2, .nowhere⟩ [98] ⟨false, false, false⟩).reads (.bare ⟨#[97]⟩ 5) [] l 0 s =
        some (.ok (.failure ⟨"", Expr.text (.str ⟨2, .nowhere⟩ [98] ⟨false, false, false⟩),
          .literal "b"⟩ 0, s)) := by
    rw [reads, Layout.read_plain rfl, Expr.meaning]
    rfl
  have bare (l : Layout) (s : Store) :
      (Expr.fail ⟨3, .nowhere⟩ none).reads (.bare ⟨#[97]⟩ 5) [] l 0 s =
        some (.ok (.failure ⟨"", Expr.text (.fail ⟨3, .nowhere⟩ none), .custom "Failed"⟩ 0, s)) := by
    rw [reads, Layout.read_plain rfl, Expr.meaning]
    rfl
  refine ⟨d', p', l, w, ((reports _ _ _ _ _ (Expr.sets_alone w plain (by decide) 5)).2.2 _ _ _).2
    ⟨_, .cons (letter _ _) (.cons (bare _ _) .nil), [], _, [_], rfl, rfl, rfl, by simp, ?_⟩⟩
  intro x mem
  obtain rfl := List.mem_singleton.1 mem
  exact Nat.le_refl 0

end Packrat
