import Packrat.Proofs.Execution.Activations

/-
**A memo table that is right makes no difference.**

A function that is at work counts as a failure in the memo table, so its entry there is wrong.  But a
function that comes to its end without a memo table does not call itself at the place where it was
called: it would have to do all its steps again within them.  So it is enough if a table is right
about functions that take fewer steps than what is at hand, and this holds again while a function is
at work.

Main definitions:

* `Packrat.Machine.Remembers` — **memo tables that are right about functions of few steps**;
* `Packrat.Machine.Learns` — memo tables that have been filled with what is right;
* `Packrat.Machine.Mirrors` — machines with a memo table that do what a frame does without one.

Main results:

* `Packrat.Machine.answers` — a call is answered with what its function comes to;
* `Packrat.Machine.mirrors` — **what a frame comes to without a memo table, it comes to with one**.
-/

set_option autoImplicit false

namespace Packrat

open Likeness (Agree AlikeAll contents)

namespace Machine

variable {setting : Setting}

/-! ### What is remembered -/

/-- An outcome that may stand for calls of a function at a place: the function can be entered there,
and if it takes fewer than so many steps without a memo table, this is what it comes to. -/
def Vouched (setting : Setting) (bound : Nat) (key : MemoKey) (o : Outcome) : Prop :=
  ∃ callee, enter setting key.1 [] key.2 none = .ok callee ∧ ∀ l out, l < bound →
    callee.Finishes setting l out → ∃ last, out = .ok last ∧ last.outcome.Like o

/-- A memo table that is right about functions of fewer than so many steps. -/
def Remembers (setting : Setting) (bound : Nat) (memo : Std.HashMap MemoKey Outcome) : Prop :=
  ∀ (key : MemoKey) (o : Outcome), memo[key]? = some o → Vouched setting bound key o

/-- A memo table that has been filled with nothing but what is right. -/
def Learns (setting : Setting) (memo memo' : Std.HashMap MemoKey Outcome) : Prop :=
  ∀ (key : MemoKey) (o : Outcome), memo'[key]? = some o →
    memo[key]? = some o ∨ ∀ bound, Vouched setting bound key o

variable {bound bound' : Nat} {key : MemoKey} {o : Outcome}
variable {memo memo' memo'' : Std.HashMap MemoKey Outcome}

theorem Vouched.mono (h : Vouched setting bound key o) (le : bound' ≤ bound) :
    Vouched setting bound' key o := by
  obtain ⟨callee, entered, right⟩ := h
  exact ⟨callee, entered, fun l out lt => right l out (Nat.lt_of_lt_of_le lt le)⟩

theorem Remembers.mono (h : Remembers setting bound memo) (le : bound' ≤ bound) :
    Remembers setting bound' memo := fun key o known => (h key o known).mono le

theorem Remembers.empty : Remembers setting bound ∅ := fun key o known => by simp at known

theorem Learns.refl : Learns setting memo memo := fun _ _ => .inl

theorem Learns.trans (h : Learns setting memo memo') (h' : Learns setting memo' memo'') :
    Learns setting memo memo'' := fun key o known =>
  (h' key o known).elim (h key o) .inr

theorem Learns.remembers (h : Learns setting memo memo') (before : Remembers setting bound memo) :
    Remembers setting bound memo' := fun key o known =>
  (h key o known).elim (before key o) (· bound)

/-- What is remembered once a function has been left that had been remembered as failing. -/
theorem Learns.insert {x : Outcome} (h : Learns setting (memo.insert key x) memo')
    (right : ∀ bound, Vouched setting bound key o) :
    Learns setting memo (memo'.insert key o) := fun k o' known => by
  rw [Std.HashMap.getElem?_insert] at known
  split at known
  · next same =>
      obtain rfl := eq_of_beq same
      obtain rfl := Option.some.inj known
      exact .inr right
  · next other =>
      rcases h k o' known with old | right'
      · rw [Std.HashMap.getElem?_insert, if_neg other] at old
        exact .inl old
      · exact .inr right'

/-! ### Machines with a memo table -/

/-- What a machine with a memo table does where a frame comes to something without one: it comes to
the same, in as many steps at most. -/
def Mirrors (setting : Setting) (k : Nat) (frame : Frame) (rest : List Frame)
    (memo : Std.HashMap MemoKey Outcome) (n : Nat) : Except Host.Error (Frame × Nat) → Prop
  | .ok (last, _) => ∃ j last' memo' n', j ≤ k ∧
      Leads setting true j ⟨frame :: rest, memo, n⟩ ⟨last' :: rest, memo', n'⟩ ∧ last.Like last' ∧
      last'.memoKey? = frame.memoKey? ∧ Learns setting memo memo'
  | .error e => ∃ j m, j ≤ k ∧ Leads setting true j ⟨frame :: rest, memo, n⟩ m ∧
      step setting true m = .error (.host e)

/-- Steps before. -/
theorem Mirrors.after {i j k : Nat} {frame frame' : Frame} {rest : List Frame} {n n' : Nat}
    {out : Except Host.Error (Frame × Nat)} (h : Mirrors setting k frame' rest memo' n' out)
    (leads : Leads setting true i ⟨frame :: rest, memo, n⟩ ⟨frame' :: rest, memo', n'⟩)
    (same : frame'.memoKey? = frame.memoKey?) (learns : Learns setting memo memo')
    (le : i + k ≤ j) : Mirrors setting j frame rest memo n out := by
  match out, h with
  | .ok _, ⟨i', last', memo'', m, le', leads', like, kept, learns'⟩ =>
      exact ⟨i + i', last', memo'', m, by omega, leads.trans leads', like, kept.trans same,
        learns.trans learns'⟩
  | .error _, ⟨i', m, le', leads', stops⟩ => exact ⟨i + i', m, by omega, leads.trans leads', stops⟩

/-- Functions that are remembered can be entered. -/
theorem Remembers.real (h : Remembers setting bound memo) (key : MemoKey) (o : Outcome)
    (known : memo[key]? = some o) : ∃ callee, enter setting key.1 [] key.2 none = .ok callee := by
  obtain ⟨callee, entered, -⟩ := h key o known
  exact ⟨callee, entered⟩

/-- What a function comes to may be remembered. -/
theorem recorded (respects : contents.Respects setting.library) {l : Nat} {callee last : Frame}
    (entered : enter setting key.1 [] key.2 none = .ok callee)
    (finishes : callee.Finishes setting l (.ok last)) (bound : Nat) :
    Vouched setting bound key last.outcome := by
  refine ⟨callee, entered, fun l' out _ finishes' => ?_⟩
  obtain ⟨-, ⟨same⟩⟩ := finishes.unique respects finishes'
  exact ⟨_, rfl, same.symm.outcome⟩

/-- A function that is at work may be remembered as failing while less is done than it does. -/
theorem Remembers.seed (respects : contents.Respects setting.library) {l : Nat} {callee : Frame}
    {out : Except Host.Error Frame} (h : Remembers setting l memo)
    (entered : enter setting key.1 [] key.2 none = .ok callee)
    (finishes : callee.Finishes setting l out) :
    Remembers setting l (memo.insert key (Machine.seed key)) := fun k o known => by
  rw [Std.HashMap.getElem?_insert] at known
  split at known
  · next same =>
      obtain rfl := eq_of_beq same
      refine ⟨callee, entered, fun l' out' lt finishes' => ?_⟩
      obtain ⟨rfl, -⟩ := finishes.unique respects finishes'
      exact absurd lt (Nat.lt_irrefl _)
  · exact h k o known

/-- What a machine with a memo table does where a function is called. -/
def Answers (setting : Setting) (k : Nat) (frame caller : Frame) (rest : List Frame)
    (memo : Std.HashMap MemoKey Outcome) (n : Nat) : Except Host.Error (Frame × Nat) → Prop
  | .ok (last, _) => ∃ j o memo' n', j ≤ k + 2 ∧
      Leads setting true j ⟨frame :: rest, memo, n⟩ ⟨caller.resume o :: rest, memo', n'⟩ ∧
      last.outcome.Like o ∧ Learns setting memo memo'
  | .error e => ∃ j m, j ≤ k + 1 ∧ Leads setting true j ⟨frame :: rest, memo, n⟩ m ∧
      step setting true m = .error (.host e)

/-- A call whose function does what it would do without a memo table. -/
theorem Mirrors.answers {k : Nat} {frame caller callee : Frame} {rest : List Frame} {n n' : Nat}
    {out : Except Host.Error (Frame × Nat)}
    (hs : step setting true ⟨frame :: rest, memo, n⟩ =
      .ok (.running ⟨callee :: caller :: rest, memo', n'⟩))
    (h : Mirrors setting k callee (caller :: rest) memo' n' out)
    (returns : ∀ last m, out = .ok (last, m) → last.Returning setting)
    (learns : ∀ last m last' memo'', out = .ok (last, m) → last.Like last' →
      last'.memoKey? = callee.memoKey? → Learns setting memo' memo'' →
      Learns setting memo (remember last' memo'')) :
    Answers setting k frame caller rest memo n out := by
  match out, h with
  | .ok (last, m), ⟨j, last', memo'', n'', le, leads, like, kept, learnt⟩ =>
      have back : step setting true ⟨last' :: caller :: rest, memo'', n''⟩ = _ :=
        step_return ((like.returning (returns last m rfl)).turn n'')
      exact ⟨j + 1 + 1, last'.outcome, _, n'', by omega,
        .step hs (leads.trans (.step back (.refl _))), like.outcome,
        learns last m last' memo'' rfl like kept learnt⟩
  | .error _, ⟨j, m, le, leads, stops⟩ => exact ⟨j + 1, m, by omega, .step hs leads, stops⟩

/-- A call is answered with what its function would come to without a memo table. -/
theorem answers (respects : contents.Respects setting.library) {l n m m' function : Nat}
    {frame' callee caller' callee' : Frame} {args' : List Value}
    {out : Except Host.Error (Frame × Nat)}
    (inner : callee.Comes setting (Frame.Returning setting) l n out)
    (turn : frame'.turn setting m = .ok (.call caller' function args' callee', m'))
    (same : callee.Like callee') (rest : List Frame) (lt : l < bound)
    (remembers : Remembers setting bound memo)
    (ih : ∀ (callee' : Frame) (rest : List Frame) (m bound : Nat)
      (memo : Std.HashMap MemoKey Outcome), callee.Like callee' → l ≤ bound →
      Remembers setting bound memo → Mirrors setting l callee' rest memo m out) :
    Answers setting l frame' caller' rest memo m out := by
  have returns : ∀ last m, out = .ok (last, m) → last.Returning setting := by
    rintro last m rfl
    exact inner.reached
  have finishes := Frame.Finishes.of_comes respects inner same
  obtain ⟨rfl, enters⟩ := Frame.enters_of_turn turn
  have kept : callee'.memoKey? = none := by
    obtain ⟨_, -, -, rfl⟩ := enters
    rfl
  cases args' with
  | cons arg args' =>
      refine Mirrors.answers (step_turn turn fun _ _ _ _ h => nomatch h)
        (ih callee' _ m' bound memo same (Nat.le_of_lt lt) remembers) returns ?_
      intro last _ last' memo'' _ _ key learns
      rw [remember, key, kept]
      exact learns
  | nil =>
      cases known : memo[(function, frame'.next.pos)]? with
      | some o =>
          obtain ⟨_, entered, right⟩ := remembers _ _ known
          obtain rfl := Except.ok.inj (enters.enter.symm.trans entered)
          obtain ⟨last', come, like⟩ := right l _ lt finishes
          cases out with
          | error e => cases come
          | ok p =>
              obtain rfl := Except.ok.inj come
              exact ⟨1, o, memo, m', by omega, .step (step_hit turn known) (.refl _), like, .refl⟩
      | none =>
          refine Mirrors.answers (step_miss turn known)
            (ih _ _ m' l _ (same.rekey _) (Nat.le_refl l)
              ((remembers.mono (Nat.le_of_lt lt)).seed respects enters.enter finishes)) returns ?_
          rintro last n₁ last' memo'' rfl like key learns
          rw [remember, key]
          exact learns.insert (recorded respects enters.enter (finishes.as like))

/-- **A memo table that is right makes no difference.** What a frame comes to without one, it comes
to with one. -/
theorem mirrors (respects : contents.Respects setting.library) {goal : Frame → Prop} {k : Nat}
    {frame frame' : Frame} {n : Nat} {out : Except Host.Error (Frame × Nat)}
    (h : frame.Comes setting goal k n out) (same : frame.Like frame') (rest : List Frame) (m : Nat)
    (le : k ≤ bound) (remembers : Remembers setting bound memo) :
    Mirrors setting k frame' rest memo m out := by
  induction h generalizing frame' rest m bound memo with
  | here there => exact ⟨0, frame', memo, m, Nat.le_refl 0, .refl _, same, rfl, .refl⟩
  | next turn _ ih =>
      obtain ⟨next, m', turn', like⟩ := same.turn_next respects turn m
      exact (ih like rest m' (Nat.le_of_succ_le le) remembers).after
        (.step (step_turn turn' fun _ _ _ _ h => nomatch h) (.refl _))
        (Frame.moved_of_turn turn').memoKey? .refl (by omega)
  | call turn inner _ inner_ih ih =>
      obtain ⟨caller', _, callee', m', turn', caller, -, callee⟩ := same.turn_call respects turn m
      obtain ⟨j, o, memo', n', le', leads, like, learns⟩ :=
        answers respects inner turn' callee rest (by omega) remembers
          fun _ rest m bound memo same le remembers => inner_ih same rest m le remembers
      refine (ih (caller.resume like) rest n' (by omega) (learns.remembers remembers)).after leads ?_
        learns (by omega)
      rw [(Frame.enters_of_turn turn').1]
      rfl
  | stop turn =>
      exact ⟨0, _, Nat.le_refl 0, .refl _,
        step_stop (same.turn_stop respects turn m) fun _ => remembers.real⟩
  | broken turn inner inner_ih =>
      obtain ⟨caller', _, callee', m', turn', -, -, callee⟩ := same.turn_call respects turn m
      exact answers respects inner turn' callee rest (by omega) remembers
        fun _ rest m bound memo same le remembers => inner_ih same rest m le remembers

end Machine

end Packrat
