import Packrat.Proofs.Meaning.Reading

/-
**Machines follow readings.**

A machine follows a reading if it does what the reading says: where the reading ends it comes to a
state that fits its verdict, where host code stops the reading it stops with the same error, and
while the reading goes on it keeps running.  A reading that has given up stands for one that goes on
for long; the machine then runs for as many steps as the reading had rounds.

Main definitions:

* `Packrat.Machine.Leads` — so many steps of a machine;
* `Packrat.Machine.Follows` — machines that follow readings.

Main results:

* `Packrat.Machine.Follows.step`, `Packrat.Machine.Follows.bind` — following a reading step by step,
  and one reading after another;
* `Packrat.Machine.Follows.repeatFrom` — **following the rounds of a repetition**;
* `Packrat.Machine.Leads.run_add` — steps are rounds of the run of a machine.
-/

set_option autoImplicit false

namespace Packrat.Machine

/-! ### Steps -/

/-- So many steps of a machine, from one state to another. -/
inductive Leads (setting : Setting) (memoize : Bool) : Nat → Machine → Machine → Prop
  | refl (m : Machine) : Leads setting memoize 0 m m
  | step {k : Nat} {m m₁ m₂ : Machine} : step setting memoize m = .ok (.running m₁) →
      Leads setting memoize k m₁ m₂ → Leads setting memoize (k + 1) m m₂

section

variable {setting : Setting} {memoize : Bool} {k l : Nat} {m m₁ m₂ : Machine}

theorem Leads.trans (h : Leads setting memoize k m m₁) (h' : Leads setting memoize l m₁ m₂) :
    Leads setting memoize (k + l) m m₂ := by
  induction h with
  | refl =>
      rw [Nat.zero_add]
      exact h'
  | step hs _ ih =>
      rw [Nat.add_right_comm]
      exact .step hs (ih h')

theorem Leads.run_add (h : Leads setting memoize k m m₁) (fuel : Nat) :
    run setting memoize (k + fuel) m = run setting memoize fuel m₁ := by
  induction h with
  | refl => rw [Nat.zero_add]
  | step hs _ ih =>
      rw [Nat.add_right_comm, run, hs]
      exact ih

/-- A machine that is led on for some steps is still running after fewer. -/
theorem Leads.run_short (h : Leads setting memoize k m m₁) {fuel : Nat} (short : fuel ≤ k) :
    run setting memoize fuel m = fault .outOfSteps := by
  induction h generalizing fuel with
  | refl =>
      obtain rfl : fuel = 0 := by omega
      rfl
  | step hs _ ih =>
      cases fuel with
      | zero => rfl
      | succ fuel =>
          rw [run, hs]
          exact ih (by omega)

/-- A machine that is not stopped by the number of its steps does not need more of them. -/
theorem run_enough (setting : Setting) (memoize : Bool) (fuel : Nat) (m : Machine) :
    run setting memoize fuel m = fault .outOfSteps ∨
      ∀ extra, run setting memoize (fuel + extra) m = run setting memoize fuel m := by
  induction fuel generalizing m with
  | zero => exact .inl rfl
  | succ fuel ih =>
      have more (extra : Nat) : fuel + 1 + extra = fuel + extra + 1 := Nat.add_right_comm ..
      simp only [more, run]
      cases step setting memoize m with
      | error e => exact .inr fun _ => rfl
      | ok out =>
          cases out with
          | done o n => exact .inr fun _ => rfl
          | running m' => exact ih m'

end

/-! ### Following a reading -/

/-- What a machine does in the face of what a reading comes to. Nothing is asked of it where the
reading is stuck. -/
def Follows (setting : Setting) (memoize : Bool) (n : Nat) (m : Machine) {α : Type}
    (r : Option (Except Stop (α × Store))) (post : α → Store → Machine → Prop) : Prop :=
  match r with
  | none => ∃ k m', n ≤ k ∧ Leads setting memoize k m m'
  | some (.error .stuck) => True
  | some (.error (.host e)) =>
      ∃ k m', Leads setting memoize k m m' ∧ step setting memoize m' = .error (.host e)
  | some (.ok (x, s)) => ∃ k m', Leads setting memoize k m m' ∧ post x s m'

/-- The end of a round: another step begins the next one, or what comes behind the rounds holds. -/
abbrev Turns (setting : Setting) (memoize : Bool) {σ α : Type} (inv : σ → Store → Machine → Prop)
    (post : α → Store → Machine → Prop) (out : σ ⊕ α) (s : Store) (m : Machine) : Prop :=
  match out with
  | .inl a => ∃ m', step setting memoize m = .ok (.running m') ∧ inv a s m'
  | .inr x => post x s m

namespace Follows

variable {setting : Setting} {memoize : Bool} {n : Nat} {m m' : Machine} {α β σ : Type}
variable {r : Option (Except Stop (α × Store))} {post : α → Store → Machine → Prop}

theorem pure {x : α} {s : Store} (h : post x s m) :
    Follows setting memoize n m ((Pure.pure x : Reading α) s) post := ⟨0, m, .refl m, h⟩

theorem fail {e : Host.Error} (h : Machine.step setting memoize m = .error (.host e)) :
    Follows setting memoize n m (some (.error (.host e))) post := ⟨0, m, .refl m, h⟩

theorem mono {post' : α → Store → Machine → Prop} (h : Follows setting memoize n m r post)
    (imp : ∀ x s m', post x s m' → post' x s m') : Follows setting memoize n m r post' := by
  match r, h with
  | none, h => exact h
  | some (.error .stuck), _ => trivial
  | some (.error (.host _)), h => exact h
  | some (.ok (x, s)), ⟨k, m', run, hp⟩ => exact ⟨k, m', run, imp x s m' hp⟩

theorem weaken {n' : Nat} (h : Follows setting memoize n m r post) (le : n' ≤ n) :
    Follows setting memoize n' m r post := by
  match r, h with
  | none, ⟨k, m', hk, run⟩ => exact ⟨k, m', Nat.le_trans le hk, run⟩
  | some (.error .stuck), _ => trivial
  | some (.error (.host _)), h => exact h
  | some (.ok _), h => exact h

/-- Steps before a machine that follows a reading count. -/
theorem steps {k : Nat} (run : Leads setting memoize k m m')
    (h : Follows setting memoize n m' r post) : Follows setting memoize (n + k) m r post := by
  match r, h with
  | none, ⟨l, m₂, hl, run'⟩ => exact ⟨k + l, m₂, by omega, run.trans run'⟩
  | some (.error .stuck), _ => trivial
  | some (.error (.host _)), ⟨l, m₂, run', he⟩ => exact ⟨k + l, m₂, run.trans run', he⟩
  | some (.ok _), ⟨l, m₂, run', hp⟩ => exact ⟨k + l, m₂, run.trans run', hp⟩

/-- Steps behind a machine that has followed a reading. -/
theorem onward {post' : α → Store → Machine → Prop} (h : Follows setting memoize n m r post)
    (go : ∀ x s m', post x s m' → ∃ k m'', Leads setting memoize k m' m'' ∧ post' x s m'') :
    Follows setting memoize n m r post' := by
  match r, h with
  | none, h => exact h
  | some (.error .stuck), _ => trivial
  | some (.error (.host _)), h => exact h
  | some (.ok (x, s)), ⟨k, m', run, hp⟩ =>
      obtain ⟨l, m'', run', hp'⟩ := go x s m' hp
      exact ⟨k + l, m'', run.trans run', hp'⟩

theorem step' (hs : Machine.step setting memoize m = .ok (.running m'))
    (h : Follows setting memoize n m' r post) : Follows setting memoize (n + 1) m r post :=
  steps (.step hs (.refl _)) h

theorem step (hs : Machine.step setting memoize m = .ok (.running m'))
    (h : Follows setting memoize n m' r post) : Follows setting memoize n m r post :=
  (step' hs h).weaken (Nat.le_succ n)

theorem bind {x : Reading α} {k : α → Reading β} {s : Store} {post : β → Store → Machine → Prop}
    (h : Follows setting memoize n m (x s) fun a s' m' =>
      Follows setting memoize n m' (k a s') post) :
    Follows setting memoize n m ((x >>= k) s) post := by
  rw [Reading.bind_apply]
  match x s, h with
  | none, h => exact h
  | some (.error .stuck), _ => trivial
  | some (.error (.host _)), h => exact h
  | some (.ok (a, s')), ⟨l, m', run, h⟩ => exact (steps run h).weaken (Nat.le_add_right n l)

/-- A repetition is followed if each of its rounds is: a step at least leads from the end of a round
to the beginning of the next one. -/
theorem repeatFrom {part : σ → Reading (σ ⊕ α)} {post : α → Store → Machine → Prop}
    (inv : σ → Store → Machine → Prop)
    (round : ∀ a s m, inv a s m →
      Follows setting memoize n m (part a s) (Turns setting memoize inv post))
    {a : σ} {s : Store} (start : inv a s m) :
    Follows setting memoize n m (Reading.repeatFrom part n a s) post := by
  suffices h : ∀ rounds ≤ n, ∀ a s m, inv a s m →
      Follows setting memoize rounds m (Reading.repeatFrom part rounds a s) post from
    h n (Nat.le_refl n) a s m start
  intro rounds
  induction rounds with
  | zero => exact fun _ _ s m _ => ⟨0, m, Nat.le_refl 0, .refl m⟩
  | succ rounds ih =>
      intro le a s m start
      refine bind (((round a s m start).weaken le).mono ?_)
      rintro (a' | x) s' m' h
      · obtain ⟨m'', hs, next⟩ := h
        exact step' hs (ih (by omega) a' s' m'' next)
      · exact pure h

end Follows

end Packrat.Machine
