import Packrat.Proofs.Evaluation.Steps
import Packrat.Proofs.Execution.Activations

/-
**Memo tables as lists.**

A hash map cannot be looked into by reduction.  A machine whose memo table is a list of pairs, the
latest first, works like the one with a hash map, and its runs can be evaluated.

Main definitions:

* `Packrat.Machine.Listed` — machines with a list for a memo table;
* `Packrat.Machine.Listed.run`, `Packrat.Machine.Listed.after` — their runs, and where they are after
  some steps;
* `Packrat.Machine.Lists` — lists that hold the same as a hash map;
* `Packrat.Machine.Calls` — the call of a function as a whole.

Main results:

* `Packrat.Machine.Listed.step_shown` — such a machine and one with a hash map go step by step;
* `Packrat.Machine.run_of_listed`, `Packrat.Machine.leads_of_listed` — and so do their runs;
* `Packrat.Machine.calls_of_listed` — a call that has been evaluated by itself is one over any callers.
-/

set_option autoImplicit false

namespace Packrat.Machine

/-- A machine whose memo table is a list of pairs, the latest first. -/
structure Listed where
  frames : List Frame
  memo : List (MemoKey × Outcome)
  identity : Nat

namespace Listed

/-- One instruction: the machine behind it, or the outcome of the whole run. -/
def step (setting : Setting) : Listed → Except Failure (Listed ⊕ Outcome × Nat)
  | ⟨[], _, _⟩ => fault .emptyStack
  | ⟨frame :: rest, memo, n⟩ =>
    match frame.turn setting n with
    | .error e => .error e
    | .ok (.next frame', n) => .ok (.inl ⟨frame' :: rest, memo, n⟩)
    | .ok (.call caller function [] callee, n) =>
      let key := (function, caller.pos)
      match memo.lookup key with
      | some o => .ok (.inl ⟨caller.resume o :: rest, memo, n⟩)
      | none =>
        .ok (.inl ⟨{ callee with memoKey? := some key } :: caller :: rest,
          (key, seed key) :: memo, n⟩)
    | .ok (.call caller _ (_ :: _) callee, n) => .ok (.inl ⟨callee :: caller :: rest, memo, n⟩)
    | .ok (.ret, n) =>
      match rest with
      | [] => .ok (.inr (frame.outcome, n))
      | caller :: below =>
        .ok (.inl ⟨caller.resume frame.outcome :: below,
          frame.memoKey?.toList.map (·, frame.outcome) ++ memo, n⟩)

/-- The outcome after at most so many steps. -/
def run (setting : Setting) : Nat → Listed → Except Failure (Outcome × Nat)
  | 0, _ => fault .outOfSteps
  | fuel + 1, m =>
    match m.step setting with
    | .error e => .error e
    | .ok (.inl m) => run setting fuel m
    | .ok (.inr out) => .ok out

/-- The machine after so many steps, if it is still running. -/
def after (setting : Setting) : Nat → Listed → Option Listed
  | 0, m => some m
  | k + 1, m =>
    match m.step setting with
    | .ok (.inl m) => after setting k m
    | _ => none

/-- The same machine with a hash map. -/
def machine (m : Listed) (memo : Std.HashMap MemoKey Outcome) : Machine :=
  ⟨m.frames, memo, m.identity⟩

/-- The same machine with more frames below. -/
def onto (m : Listed) (below : List Frame) : Listed := { m with frames := m.frames ++ below }

end Listed

/-! ### Lists and hash maps -/

/-- A list that holds what a hash map holds. -/
def Lists (memo : Std.HashMap MemoKey Outcome) (pairs : List (MemoKey × Outcome)) : Prop :=
  ∀ key : MemoKey, memo[key]? = pairs.lookup key

variable {setting : Setting} {memo : Std.HashMap MemoKey Outcome}
variable {pairs : List (MemoKey × Outcome)}

theorem Lists.empty : Lists ∅ [] := fun key => by simp

theorem Lists.insert (h : Lists memo pairs) (key : MemoKey) (o : Outcome) :
    Lists (memo.insert key o) ((key, o) :: pairs) := fun k => by
  rw [Std.HashMap.getElem?_insert, List.lookup_cons]
  by_cases same : key = k
  · subst same
    simp
  · have other : (k == key) = false := by simpa using Ne.symm same
    rw [if_neg (by simpa using same), other, h k]

theorem Lists.remember (h : Lists memo pairs) (frame : Frame) :
    Lists (remember frame memo) (frame.memoKey?.toList.map (·, frame.outcome) ++ pairs) := by
  rw [Machine.remember]
  cases frame.memoKey? with
  | none => exact h
  | some key => exact h.insert key frame.outcome

namespace Listed

/-- What a step with a list comes to, and what the same step with a hash map does. -/
inductive Shows : Listed ⊕ Outcome × Nat → Progress → Prop
  | running {m : Listed} {memo : Std.HashMap MemoKey Outcome} (lists : Lists memo m.memo) :
      Shows (.inl m) (.running (m.machine memo))
  | done (o : Outcome) (n : Nat) : Shows (.inr (o, n)) (.done o n)

/-- A step with a list for a memo table is one with a hash map. -/
theorem step_shown {m : Listed} {r : Listed ⊕ Outcome × Nat} (lists : Lists memo m.memo)
    (h : m.step setting = .ok r) :
    ∃ progress, Machine.step setting true (m.machine memo) = .ok progress ∧ Shows r progress := by
  obtain ⟨frames, pairs, n⟩ := m
  cases frames with
  | nil => cases h
  | cons frame rest =>
      rw [step] at h
      cases turn : frame.turn setting n with
      | error e =>
          rw [turn] at h
          cases h
      | ok p =>
          obtain ⟨t, n'⟩ := p
          rw [turn] at h
          cases t with
          | next frame' =>
              obtain rfl := Except.ok.inj h
              exact ⟨_, step_turn turn (fun _ _ _ _ same => nomatch same),
                .running (m := ⟨frame' :: rest, pairs, n'⟩) lists⟩
          | call caller function args callee =>
              cases args with
              | cons arg args =>
                  obtain rfl := Except.ok.inj h
                  exact ⟨_, step_turn turn (fun _ _ _ _ same => nomatch same),
                    .running (m := ⟨callee :: caller :: rest, pairs, n'⟩) lists⟩
              | nil =>
                  have known := lists (function, caller.pos)
                  simp only at h
                  split at h
                  · next o found =>
                      obtain rfl := Except.ok.inj h
                      exact ⟨_, step_hit turn (known.trans found),
                        .running (m := ⟨caller.resume o :: rest, pairs, n'⟩) lists⟩
                  · next missing =>
                      obtain rfl := Except.ok.inj h
                      exact ⟨_, step_miss turn (known.trans missing),
                        .running (m := ⟨_ :: caller :: rest, _, n'⟩) (lists.insert _ _)⟩
          | ret =>
              obtain ⟨-, rfl⟩ := Frame.returning_of_turn turn
              cases rest with
              | nil =>
                  obtain rfl := Except.ok.inj h
                  exact ⟨_, step_turn turn (fun _ _ _ _ same => nomatch same), .done _ _⟩
              | cons caller below =>
                  obtain rfl := Except.ok.inj h
                  exact ⟨_, step_return turn,
                    .running (m := ⟨caller.resume frame.outcome :: below, _, _⟩)
                      (lists.remember frame)⟩

/-- Frames below do not matter to a step that does not leave the lowest one. -/
theorem step_onto {m m' : Listed} (h : m.step setting = .ok (.inl m')) (below : List Frame) :
    (m.onto below).step setting = .ok (.inl (m'.onto below)) := by
  obtain ⟨frames, pairs, n⟩ := m
  cases frames with
  | nil => cases h
  | cons frame rest =>
      rw [step] at h
      rw [onto, List.cons_append, step]
      cases turn : frame.turn setting n with
      | error e =>
          rw [turn] at h
          cases h
      | ok p =>
          obtain ⟨t, n'⟩ := p
          rw [turn] at h
          cases t with
          | next frame' =>
              cases h
              rfl
          | call caller function args callee =>
              cases args with
              | cons arg args =>
                  cases h
                  rfl
              | nil =>
                  simp only at h ⊢
                  split at h <;> cases h <;> simp_all [onto]
          | ret =>
              cases rest with
              | nil => cases h
              | cons caller below =>
                  cases h
                  rfl

theorem after_onto {k : Nat} {m m' : Listed} (h : m.after setting k = some m')
    (below : List Frame) : (m.onto below).after setting k = some (m'.onto below) := by
  induction k generalizing m with
  | zero =>
      obtain rfl := Option.some.inj h
      rfl
  | succ k ih =>
      rw [after] at h
      split at h
      · next m₁ stepped =>
          rw [after, step_onto stepped below]
          exact ih h
      · cases h

end Listed

/-! ### Runs -/

/-- A run with a list for a memo table is one with a hash map. -/
theorem run_of_listed {fuel : Nat} {m : Listed} {out : Outcome × Nat} (lists : Lists memo m.memo)
    (h : m.run setting fuel = .ok out) : run setting true fuel (m.machine memo) = .ok out := by
  induction fuel generalizing m memo with
  | zero => cases h
  | succ fuel ih =>
      rw [Listed.run] at h
      split at h
      · cases h
      · next m' stepped =>
          obtain ⟨_, stepped, ⟨lists'⟩⟩ := Listed.step_shown lists stepped
          rw [run, stepped]
          exact ih lists' h
      · next stepped =>
          obtain ⟨_, stepped, ⟨⟩⟩ := Listed.step_shown lists stepped
          rw [run, stepped]
          exact h

/-- Steps with a list for a memo table are steps with a hash map. -/
theorem leads_of_listed {k : Nat} {m m' : Listed} (lists : Lists memo m.memo)
    (h : m.after setting k = some m') :
    ∃ memo', Leads setting true k (m.machine memo) (m'.machine memo') ∧ Lists memo' m'.memo := by
  induction k generalizing m memo with
  | zero =>
      obtain rfl := Option.some.inj h
      exact ⟨memo, .refl _, lists⟩
  | succ k ih =>
      rw [Listed.after] at h
      split at h
      · next m₁ stepped =>
          obtain ⟨_, stepped, ⟨lists'⟩⟩ := Listed.step_shown lists stepped
          obtain ⟨memo', leads, lists''⟩ := ih lists' h
          exact ⟨memo', .step stepped leads, lists''⟩
      · cases h

/-- A run with a list for a memo table that comes to its end is a parse. -/
theorem setting_run_of_listed {function fuel pos n : Nat} {args : List Value} {frame : Frame}
    {out : Outcome × Nat} (enters : enter setting function args pos none = .ok frame)
    (h : Listed.run setting fuel ⟨[frame], [], n⟩ = .ok out) (enough : fuel ≤ stepLimit) :
    setting.run true function args pos n = .ok out := by
  have run := run_more (run_of_listed .empty h) (stepLimit - fuel)
  rw [Nat.add_sub_of_le enough] at run
  exact Except.bind_eq_ok.2 ⟨frame, enters, run⟩

/-! ### Calls -/

/-- The call of a function with an argument as a whole: a parse is about to make it at a place, and
goes on with what it has come to. -/
inductive Calls (setting : Setting) (function : Nat) (arg : Value) :
    Machine → Nat → Outcome → Machine → Prop
  | intro {frame caller callee : Frame} {rest : List Frame}
      {memo memo' : Std.HashMap MemoKey Outcome} {n n₁ n' k : Nat} {o : Outcome}
      (turn : frame.turn setting n = .ok (.call caller function [arg] callee, n₁))
      (leads : Leads setting true k ⟨frame :: rest, memo, n⟩ ⟨caller.resume o :: rest, memo', n'⟩) :
      Calls setting function arg ⟨frame :: rest, memo, n⟩ caller.pos o
        ⟨caller.resume o :: rest, memo', n'⟩

/-- The call of a function with an argument that a machine is about to make, run by itself: the
argument, the place, what the call comes to after so many steps, and the machine that goes on. -/
def Listed.call? (setting : Setting) (function k : Nat) (m : Listed) :
    Option (Value × Nat × Outcome × Listed) :=
  match m with
  | ⟨[], _, _⟩ => none
  | ⟨frame :: rest, memo, n⟩ =>
    match frame.turn setting n with
    | .ok (.call caller f [arg] callee, n) =>
      match after setting k ⟨[callee], memo, n⟩ with
      | some ⟨[last], memo, n⟩ =>
        match last.turn setting n with
        | .ok (.ret, _) =>
          if f = function then
            some (arg, caller.pos, last.outcome, ⟨caller.resume last.outcome :: rest,
              last.memoKey?.toList.map (·, last.outcome) ++ memo, n⟩)
          else none
        | _ => none
      | _ => none
    | _ => none

/-- A call that has been run by itself is one over the callers that there are. -/
theorem calls_of_listed {function k pos : Nat} {arg : Value} {o : Outcome} {m m' : Listed}
    (lists : Lists memo m.memo) (h : m.call? setting function k = some (arg, pos, o, m')) :
    ∃ memo', Calls setting function arg (m.machine memo) pos o (m'.machine memo') ∧
      Lists memo' m'.memo := by
  unfold Listed.call? at h
  split at h
  · cases h
  · next frame rest pairs n =>
      split at h
      · next caller f arg callee n₁ turn =>
          split at h
          · next last pairs' n₂ runs =>
              split at h
              · next n₃ returns =>
                  split at h
                  · next same =>
                      subst same
                      obtain ⟨rfl, rfl, rfl, rfl⟩ : _ ∧ _ ∧ _ ∧ _ := by simpa using h
                      obtain ⟨-, rfl⟩ := Frame.returning_of_turn returns
                      obtain ⟨memo₂, leads, lists₂⟩ :=
                        leads_of_listed (m := ⟨callee :: caller :: rest, pairs, n₁⟩) lists
                          (Listed.after_onto runs (caller :: rest))
                      refine ⟨_, .intro turn (.step ?_ (leads.trans (.step ?_ (.refl _)))),
                        lists₂.remember last⟩
                      · exact step_turn turn fun _ _ _ _ same => nomatch same
                      · exact step_return returns
                  · cases h
              · cases h
          · cases h
      · cases h

end Packrat.Machine
