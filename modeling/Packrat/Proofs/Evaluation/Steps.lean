/-
**Steps that may fail.**

Main results:

* `Packrat.Except.bind_eq_ok` — what succeeds in two steps succeeds in each;
* `Packrat.Except.foldlM_keeps` — what every step of a fold keeps.
-/

set_option autoImplicit false

namespace Packrat

theorem Except.bind_eq_ok {ε α β : Type} {x : Except ε α} {f : α → Except ε β} {b : β} :
    (x >>= f) = .ok b ↔ ∃ a, x = .ok a ∧ f a = .ok b := by
  cases x with
  | error e => simp [bind, Except.bind]
  | ok a => simp [bind, Except.bind]

theorem Except.bind_eq_error {ε α β : Type} {x : Except ε α} {f : α → Except ε β} {e : ε} :
    (x >>= f) = .error e ↔ (∃ a, x = .ok a ∧ f a = .error e) ∨ x = .error e := by
  cases x with
  | error e' => simp [bind, Except.bind]
  | ok a => simp [bind, Except.bind]

theorem Except.pure_eq_ok {ε α : Type} {a b : α} :
    (pure a : Except ε α) = .ok b ↔ a = b := by simp [pure, Except.pure]

theorem Except.map_eq_ok {ε α β : Type} {x : Except ε α} {f : α → β} {b : β} :
    x.map f = .ok b ↔ ∃ a, x = .ok a ∧ f a = b := by
  cases x with
  | error e => simp [Except.map]
  | ok a => simp [Except.map]

theorem Except.exists_of_isOk {ε α : Type} {x : Except ε α} (h : x.isOk = true) :
    ∃ a, x = .ok a := by
  cases x with
  | error e => simp [Except.isOk, Except.toBool] at h
  | ok a => exact ⟨a, rfl⟩

/-- Values that are looked up one after the other. -/
theorem mapM_cons_eq_some {α β : Type} {f : α → Option β} {x : α} {xs : List α} {ys : List β} :
    (x :: xs).mapM f = some ys ↔ ∃ y, f x = some y ∧ ∃ zs, xs.mapM f = some zs ∧ y :: zs = ys := by
  simp only [List.mapM_cons, Option.bind_eq_bind, Option.bind_eq_some_iff, Option.pure_def,
    Option.some.injEq]

/-- A fold of steps that may fail keeps what each of its steps keeps. -/
theorem Except.foldlM_keeps {ε α σ : Type} {P : σ → Prop} {f : σ → α → Except ε σ} {as : List α}
    (keeps : ∀ a ∈ as, ∀ s s', P s → f s a = .ok s' → P s') {s s' : σ} (start : P s)
    (h : as.foldlM f s = .ok s') : P s' := by
  induction as generalizing s with
  | nil =>
      obtain rfl := Except.pure_eq_ok.1 h
      exact start
  | cons a as ih =>
      rw [List.foldlM_cons] at h
      obtain ⟨mid, first, rest⟩ := Except.bind_eq_ok.1 h
      exact ih (fun b mem => keeps b (List.mem_cons_of_mem _ mem))
        (keeps a List.mem_cons_self _ _ start first) rest

end Packrat
