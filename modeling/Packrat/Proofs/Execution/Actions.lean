import Packrat.Machine.Run

/-
**What instructions may ask for.**

The work of an instruction is taken apart from its outcome: whatever it does, it goes on in its own
frame, calls a function from there, or leaves the frame.

Main definitions:

* `Packrat.Frame.Moved` — a frame that is still that of the same function.

Main results:

* `Packrat.Exec.bind_eq_ok`, `Packrat.Exec.lift_eq_ok` — work in parts;
* `Packrat.Instr.execute_cases` — **what an instruction may ask of the machine**.
-/

set_option autoImplicit false

namespace Packrat

/-! ### Work in parts -/

namespace Exec

variable {α β : Type} {n : Nat}

theorem bind_eq_ok {x : Exec α} {k : α → Exec β} {out : β × Nat}
    (h : (x >>= k) n = .ok out) : ∃ a n', x n = .ok (a, n') ∧ k a n' = .ok out := by
  change (x n >>= fun r => k r.1 r.2) = _ at h
  cases hx : x n with
  | error e => simp [hx, bind, Except.bind] at h
  | ok r =>
      rw [hx] at h
      exact ⟨r.1, r.2, rfl, h⟩

theorem lift_eq_ok {x : Except Failure α} {a : α} {n' : Nat}
    (h : (liftM x : Exec α) n = .ok (a, n')) : x = .ok a ∧ n' = n := by
  change (x >>= fun b => Except.ok (b, n)) = _ at h
  cases x with
  | error e => simp [bind, Except.bind] at h
  | ok b =>
      obtain ⟨rfl, rfl⟩ : b = a ∧ n = n' := by simpa [bind, Except.bind] using h
      exact ⟨rfl, rfl⟩

theorem lift_bind_eq_ok {x : Except Failure α} {k : α → Exec β} {out : β × Nat}
    (h : (liftM x >>= k : Exec β) n = .ok out) : ∃ a, x = .ok a ∧ k a n = .ok out := by
  obtain ⟨a, n', hx, hk⟩ := bind_eq_ok h
  obtain ⟨found, rfl⟩ := lift_eq_ok hx
  exact ⟨a, found, hk⟩

theorem pure_eq_ok {a b : α} {n' : Nat} (h : (pure a : Exec α) n = .ok (b, n')) :
    b = a ∧ n' = n := by
  have same : (Except.ok (a, n) : Except Failure (α × Nat)) = .ok (b, n') := h
  obtain ⟨rfl, rfl⟩ := Prod.mk.inj (Except.ok.inj same)
  exact ⟨rfl, rfl⟩

end Exec

/-! ### Frames at work -/

/-- A frame that is still that of the same function. -/
structure Frame.Moved (frame frame' : Frame) : Prop where
  function : frame'.function = frame.function
  memoKey? : frame'.memoKey? = frame.memoKey?

namespace Frame

variable {setting : Setting} {frame frame' : Frame}

theorem Moved.refl (frame : Frame) : frame.Moved frame := ⟨rfl, rfl⟩

theorem moved_goto {label : Nat} (h : frame.goto setting label = .ok frame') :
    frame.Moved frame' := by
  simp only [goto, bind, Except.bind] at h
  split at h
  · simp at h
  · split at h
    · obtain rfl : _ = frame' := by simpa [pure, Except.pure] using h
      exact ⟨rfl, rfl⟩
    · simp [fault] at h

theorem moved_matched (entry : Nat) (stop? : Option Nat) :
    frame.Moved (frame.matched setting entry stop?) := by
  cases stop? <;> exact ⟨rfl, rfl⟩

end Frame

/-- An instruction goes on in its own frame, calls from there, or leaves it. -/
inductive Action.From (i : Instr) (frame : Frame) : Action → Prop
  | next {frame' : Frame} (moved : frame.Moved frame') : Action.From i frame (.next frame')
  | call (function : Nat) (args : List Value) : Action.From i frame (.call frame function args)
  | ret (leaves : i = .ret) : Action.From i frame (.ret frame)

theorem Action.From.callSlot (i : Instr) (frame : Frame) (value : Value) (args : List Value) :
    Action.From i frame (frame.callSlot value args) := by
  cases value <;> first | exact .call _ _ | exact .next ⟨rfl, rfl⟩

/-- What an instruction may ask of the machine. -/
theorem Instr.execute_cases {setting : Setting} {i : Instr} {frame : Frame} {action : Action}
    {n n' : Nat} (h : i.execute setting frame n = .ok (action, n')) : Action.From i frame action := by
  cases i with
  | setStatus | fail =>
      obtain ⟨rfl, -⟩ := Exec.pure_eq_ok h
      exact .next ⟨rfl, rfl⟩
  | ret =>
      obtain ⟨rfl, -⟩ := Exec.pure_eq_ok h
      exact .ret rfl
  | matchLiteral | matchRegex =>
      obtain ⟨_, _, -, h⟩ := Exec.bind_eq_ok h
      obtain ⟨rfl, -⟩ := Exec.pure_eq_ok h
      exact .next (Frame.moved_matched _ _)
  | load | store | restore | newList | pop =>
      obtain ⟨_, _, -, h⟩ := Exec.bind_eq_ok h
      obtain ⟨rfl, -⟩ := Exec.pure_eq_ok h
      exact .next ⟨rfl, rfl⟩
  | jump =>
      obtain ⟨_, moved, h⟩ := Exec.lift_bind_eq_ok h
      obtain ⟨rfl, -⟩ := Exec.pure_eq_ok h
      exact .next (Frame.moved_goto moved)
  | branch =>
      obtain ⟨b, -, h⟩ := Exec.lift_bind_eq_ok h
      cases b with
      | false =>
          obtain ⟨rfl, -⟩ := Exec.pure_eq_ok h
          exact .next ⟨rfl, rfl⟩
      | true =>
          obtain ⟨_, moved, h⟩ := Exec.lift_bind_eq_ok h
          obtain ⟨rfl, -⟩ := Exec.pure_eq_ok h
          exact .next (Frame.moved_goto moved)
  | push | makeList | makePostfix | foldPrefix | foldRight =>
      obtain ⟨_, _, -, h⟩ := Exec.bind_eq_ok h
      obtain ⟨_, _, -, h⟩ := Exec.bind_eq_ok h
      obtain ⟨rfl, -⟩ := Exec.pure_eq_ok h
      exact .next ⟨rfl, rfl⟩
  | eval | apply | makeInfix | makeParser =>
      obtain ⟨_, _, -, h⟩ := Exec.bind_eq_ok h
      obtain ⟨_, _, -, h⟩ := Exec.bind_eq_ok h
      obtain ⟨_, _, -, h⟩ := Exec.bind_eq_ok h
      obtain ⟨rfl, -⟩ := Exec.pure_eq_ok h
      exact .next ⟨rfl, rfl⟩
  | test =>
      obtain ⟨_, _, -, h⟩ := Exec.bind_eq_ok h
      obtain ⟨_, _, -, h⟩ := Exec.bind_eq_ok h
      obtain ⟨verdict, _, -, h⟩ := Exec.bind_eq_ok h
      obtain ⟨rfl, -⟩ := Exec.pure_eq_ok h
      split <;> exact .next ⟨rfl, rfl⟩
  | makeNode =>
      obtain ⟨_, _, -, h⟩ := Exec.bind_eq_ok h
      obtain ⟨_, _, -, h⟩ := Exec.bind_eq_ok h
      obtain ⟨_, _, -, h⟩ := Exec.bind_eq_ok h
      obtain ⟨_, _, -, h⟩ := Exec.bind_eq_ok h
      obtain ⟨rfl, -⟩ := Exec.pure_eq_ok h
      exact .next ⟨rfl, rfl⟩
  | call callee args =>
      cases callee with
      | function f =>
          obtain ⟨_, -, h⟩ := Exec.lift_bind_eq_ok h
          obtain ⟨rfl, -⟩ := Exec.pure_eq_ok h
          exact .call _ _
      | slot v =>
          obtain ⟨_, -, h⟩ := Exec.lift_bind_eq_ok h
          obtain ⟨_, -, h⟩ := Exec.lift_bind_eq_ok h
          obtain ⟨rfl, -⟩ := Exec.pure_eq_ok h
          exact .callSlot _ _ _ _

end Packrat
