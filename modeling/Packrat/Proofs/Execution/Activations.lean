import Packrat.Proofs.Execution.Lockstep
import Packrat.Proofs.Execution.Site

/-
**Calls as a whole.**

Without a memo table a frame works like a recursive function: what a call does is a matter between
the called function, its arguments and the place, and the frame goes on once it is over.  The number
of steps that a frame takes this way, and what it comes to, do not depend on the frames below.

Main definitions:

* `Packrat.Turn`, `Packrat.Frame.turn` — what a frame asks for next when nothing is remembered;
* `Packrat.Frame.Comes` — **what a frame comes to when nothing is remembered**.

Main results:

* `Packrat.Frame.Comes.unique` — there is one way only for a frame to come to its return;
* `Packrat.Frame.Comes.like` — frames that are alike come to what is alike;
* `Packrat.Machine.comes_of_leads`, `Packrat.Machine.comes_of_run` — the steps of a machine without a
  memo table, seen from a frame.
-/

set_option autoImplicit false

namespace Packrat

open Likeness (Agree AlikeAll contents)
open Exec (Agrees)

/-! ### Turns -/

/-- What a frame asks for next: to go on, to have the frame of a function put on top, or to be
left. -/
inductive Turn where
  | next (frame : Frame)
  | call (caller : Frame) (function : Nat) (args : List Value) (callee : Frame)
  | ret

/-- The turn of an action when nothing is remembered: functions that are called are entered. -/
def Action.turn (setting : Setting) : Action → Exec Turn
  | .next frame => pure (.next frame)
  | .call caller function args => do
    let callee ← Machine.enter setting function args caller.pos none
    pure (.call caller function args callee)
  | .ret _ => pure .ret

/-- What a frame asks for next when nothing is remembered. -/
def Frame.turn (setting : Setting) (frame : Frame) : Exec Turn := do
  let i ← Machine.fetch setting frame
  let action ← i.execute setting frame.next
  action.turn setting

/-- What a turn leads to where nothing is remembered. -/
def Turn.progress (frame : Frame) (rest : List Frame)
    (memo : Std.HashMap MemoKey Outcome) (identity : Nat) : Turn → Progress
  | .next frame' => .running ⟨frame' :: rest, memo, identity⟩
  | .call caller _ _ callee => .running ⟨callee :: caller :: rest, memo, identity⟩
  | .ret => Machine.returnFrom frame rest memo identity

/-- Turns of the same kind, with values of the same contents. -/
inductive Turn.Like : Turn → Turn → Prop
  | next {frame frame' : Frame} (like : frame.Like frame') : Turn.Like (.next frame) (.next frame')
  | call {caller caller' callee callee' : Frame} (like : caller.Like caller') (function : Nat)
      {args args' : List Value} (values : AlikeAll contents args args')
      (entered : callee.Like callee') :
      Turn.Like (.call caller function args callee) (.call caller' function args' callee')
  | ret : Turn.Like .ret .ret

namespace Frame

variable {setting : Setting} {frame frame' caller callee : Frame} {function n n' : Nat}
variable {args : List Value}

theorem Like.fetch (h : frame.Like frame') :
    Machine.fetch setting frame' = Machine.fetch setting frame := by
  rw [Machine.fetch, Machine.fetch, h.function, h.pc]

theorem Like.enter {args' : List Value} (values : AlikeAll contents args args') (function pos : Nat)
    (key? key?' : Option MemoKey) :
    Agree Frame.Like (Machine.enter setting function args pos key?)
      (Machine.enter setting function args' pos key?') := by
  rw [Machine.enter, Machine.enter, ← values.length_eq]
  refine (Agree.same _).bind fun f _ same => ?_
  subst same
  split
  · exact .ok (Like.start function f pos key? key?' values)
  · exact .error _

/-- Frames that are alike take like turns. -/
theorem Like.turn (respects : contents.Respects setting.library) (h : frame.Like frame') :
    Agrees Turn.Like (frame.turn setting) (frame'.turn setting) := by
  rw [Frame.turn, Frame.turn, h.fetch]
  refine .bind (.lift (.same _)) fun i _ same => ?_
  subst same
  refine .bind (Instr.execute_like respects h.next i) fun _ _ same => ?_
  cases same with
  | next like => exact .pure (.next like)
  | call like function values =>
      refine .bind (.lift ?_) fun _ _ entered => .pure (.call like function values entered)
      rw [like.pos]
      exact Like.enter values ..
  | ret => exact .pure .ret

theorem Like.turn_next (respects : contents.Respects setting.library) (h : frame.Like frame')
    {next : Frame} (turn : frame.turn setting n = .ok (.next next, n')) (m : Nat) :
    ∃ next' m', frame'.turn setting m = .ok (.next next', m') ∧ next.Like next' := by
  have turns := h.turn respects n m
  rw [turn] at turns
  match frame'.turn setting m, turns with
  | .ok (_, m'), .ok (.next like) => exact ⟨_, m', rfl, like⟩

theorem Like.turn_call (respects : contents.Respects setting.library) (h : frame.Like frame')
    (turn : frame.turn setting n = .ok (.call caller function args callee, n')) (m : Nat) :
    ∃ caller' args' callee' m', frame'.turn setting m = .ok (.call caller' function args' callee', m') ∧
      caller.Like caller' ∧ AlikeAll contents args args' ∧ callee.Like callee' := by
  have turns := h.turn respects n m
  rw [turn] at turns
  match frame'.turn setting m, turns with
  | .ok (_, m'), .ok (.call like _ values entered) => exact ⟨_, _, _, m', rfl, like, values, entered⟩

theorem Like.turn_stop (respects : contents.Respects setting.library) (h : frame.Like frame')
    {e : Failure} (turn : frame.turn setting n = .error e) (m : Nat) :
    frame'.turn setting m = .error e := by
  have turns := h.turn respects n m
  rw [turn] at turns
  match frame'.turn setting m, turns with
  | _, .error _ => rfl

/-! ### Turns and steps -/

/-- A turn is taken by an instruction. -/
theorem turn_eq_ok {t : Turn} (h : frame.turn setting n = .ok (t, n')) :
    ∃ i action, Machine.fetch setting frame = .ok i ∧
      i.execute setting frame.next n = .ok (action, n') ∧
      match action with
      | .next frame' => t = .next frame' ∧ frame.Moved frame'
      | .call caller function args => caller = frame.next ∧ ∃ callee,
          Machine.Enters setting function args frame.pos none callee ∧
          t = .call frame.next function args callee
      | .ret frame' => i = .ret ∧ frame' = frame.next ∧ t = .ret := by
  obtain ⟨i, fetched, h⟩ := Exec.lift_bind_eq_ok h
  obtain ⟨action, n₁, work, h⟩ := Exec.bind_eq_ok h
  cases Instr.execute_cases work with
  | next moved =>
      obtain ⟨rfl, rfl⟩ := Exec.pure_eq_ok h
      exact ⟨i, _, fetched, work, rfl, ⟨moved.function, moved.memoKey?⟩⟩
  | call function args =>
      obtain ⟨callee, entered, h⟩ := Exec.lift_bind_eq_ok h
      obtain ⟨rfl, rfl⟩ := Exec.pure_eq_ok h
      exact ⟨i, _, fetched, work, rfl, callee, Machine.enters_of_enter entered, rfl⟩
  | ret leaves =>
      obtain ⟨rfl, rfl⟩ := Exec.pure_eq_ok h
      exact ⟨i, _, fetched, work, leaves, rfl, rfl⟩

theorem moved_of_turn (h : frame.turn setting n = .ok (.next frame', n')) : frame.Moved frame' := by
  obtain ⟨_, action, -, -, shape⟩ := turn_eq_ok h
  cases action with
  | next =>
      obtain ⟨⟨⟩, moved⟩ := shape
      exact moved
  | call =>
      obtain ⟨-, _, -, ⟨⟩⟩ := shape
  | ret => exact nomatch shape.2.2

theorem enters_of_turn (h : frame.turn setting n = .ok (.call caller function args callee, n')) :
    caller = frame.next ∧ Machine.Enters setting function args caller.pos none callee := by
  obtain ⟨_, action, -, -, shape⟩ := turn_eq_ok h
  cases action with
  | next => exact nomatch shape.1
  | call =>
      obtain ⟨rfl, _, enters, ⟨⟩⟩ := shape
      exact ⟨rfl, enters⟩
  | ret => exact nomatch shape.2.2

end Frame

/-! ### Steps -/

namespace Machine

variable {setting : Setting} {memoize : Bool} {frame caller callee : Frame} {rest : List Frame}
variable {memo : Std.HashMap MemoKey Outcome} {n n' function : Nat} {args : List Value} {t : Turn}

/-- A step in parts. -/
theorem step_work {i : Instr} {action : Action} (fetched : fetch setting frame = .ok i)
    (work : i.execute setting frame.next n = .ok (action, n')) :
    step setting memoize ⟨frame :: rest, memo, n⟩ =
      match action with
      | .next frame' => .ok (.running ⟨frame' :: rest, memo, n'⟩)
      | .call caller function args =>
        (callFrom setting memoize caller rest memo n' function args).map .running
      | .ret frame' => .ok (returnFrom frame' rest memo n') := by
  simp only [step, fetched, bind, Except.bind, StateT.run]
  rw [show i.execute setting { frame with pc := frame.pc + 1 } n = _ from work]
  cases action with
  | next | ret => rfl
  | call caller function args =>
      simp only
      cases callFrom setting memoize caller rest memo n' function args <;> rfl

/-- A step that neither reads the memo table nor writes into it, but for what a return leaves. -/
theorem step_turn (h : frame.turn setting n = .ok (t, n'))
    (plain : memoize = true → ∀ caller f callee, t ≠ .call caller f [] callee) :
    step setting memoize ⟨frame :: rest, memo, n⟩ = .ok (t.progress frame rest memo n') := by
  obtain ⟨i, action, fetched, work, shape⟩ := Frame.turn_eq_ok h
  rw [step_work fetched work]
  cases action with
  | next frame' =>
      obtain ⟨rfl, -⟩ := shape
      rfl
  | call caller function args =>
      obtain ⟨rfl, callee, enters, rfl⟩ := shape
      have off : (args.isEmpty && memoize) = false := by
        cases args with
        | nil => cases memoize with
          | false => rfl
          | true => exact absurd rfl (plain rfl _ _ _)
        | cons => rfl
      have entered : enter setting function args frame.next.pos none = .ok callee := enters.enter
      simp only [callFrom, off, Bool.false_eq_true, if_false, entered]
      rfl
  | ret frame' =>
      obtain ⟨-, rfl, rfl⟩ := shape
      rfl

/-- Whether a function can be entered has nothing to do with what will be remembered. -/
theorem enter_error {e : Failure} {pos : Nat} {key? : Option MemoKey}
    (h : enter setting function args pos none = .error e) :
    enter setting function args pos key? = .error e := by
  simp only [enter] at h ⊢
  cases hf : poolEntry "functions" setting.program.functions function with
  | error e' => simpa [hf, bind, Except.bind] using h
  | ok f =>
      simp only [hf, bind, Except.bind] at h ⊢
      split at h
      · cases h
      · next other => rw [if_neg other, h]

/-- A turn that fails is a step that fails, provided that only functions are remembered that can be
entered. -/
theorem step_stop {e : Failure} (h : frame.turn setting n = .error e)
    (real : memoize = true → ∀ (key : MemoKey) (o : Outcome), memo[key]? = some o →
      ∃ callee, enter setting key.1 [] key.2 none = .ok callee) :
    step setting memoize ⟨frame :: rest, memo, n⟩ = .error e := by
  cases fetched : fetch setting frame with
  | error e' =>
      have stops : frame.turn setting n = .error e' := by rw [Frame.turn, fetched]; rfl
      obtain rfl : e' = e := Except.error.inj (stops.symm.trans h)
      simp [step, fetched, bind, Except.bind]
  | ok i =>
      replace h := (Exec.lift_bind fetched _ n).symm.trans h
      cases work : i.execute setting frame.next n with
      | error e' =>
          change (i.execute setting frame.next n >>= _) = _ at h
          rw [work] at h
          obtain rfl : e' = e := Except.error.inj h
          simp only [step, fetched, bind, Except.bind, StateT.run]
          rw [show i.execute setting { frame with pc := frame.pc + 1 } n = _ from work]
      | ok p =>
          obtain ⟨action, n'⟩ := p
          change (i.execute setting frame.next n >>= _) = _ at h
          rw [work] at h
          rw [step_work fetched work]
          cases action with
          | next | ret => cases h
          | call caller function args =>
              replace h : (liftM (enter setting function args caller.pos none) >>=
                  fun c => pure (Turn.call caller function args c) : Exec Turn) n' = .error e := h
              have refused : enter setting function args caller.pos none = .error e := by
                cases entered : enter setting function args caller.pos none with
                | error e' =>
                    rw [entered] at h
                    exact congrArg Except.error (Except.error.inj h)
                | ok callee => cases (Exec.lift_bind entered _ _).symm.trans h
              -- A function that cannot be entered is not in the table.
              have called : callFrom setting memoize caller rest memo n' function args = .error e := by
                simp only [callFrom]
                split
                · next remembers =>
                    obtain ⟨nothing, on⟩ : args = [] ∧ memoize = true := by simpa using remembers
                    subst nothing
                    split
                    · next o known =>
                        obtain ⟨callee, entered⟩ := real on _ _ known
                        cases entered.symm.trans refused
                    · rw [enter_error refused]
                      rfl
                · rw [refused]
                  rfl
              simp only [called]
              rfl

/-- Without a memo table steps are turns. -/
theorem step_unremembered (frame : Frame) (rest : List Frame) (memo : Std.HashMap MemoKey Outcome)
    (n : Nat) :
    step setting false ⟨frame :: rest, memo, n⟩ =
      (frame.turn setting n).map fun p => p.1.progress frame rest memo p.2 := by
  cases h : frame.turn setting n with
  | ok p => exact step_turn h (fun on => nomatch on)
  | error e => exact step_stop h (fun on => nomatch on)

/-- A return to the frame that called. -/
theorem step_return (h : frame.turn setting n = .ok (.ret, n)) :
    step setting memoize ⟨frame :: caller :: rest, memo, n⟩ =
      .ok (.running ⟨caller.resume frame.outcome :: rest, remember frame memo, n⟩) :=
  step_turn h (by simp)

/-- A call without arguments whose outcome is known. -/
theorem step_hit {o : Outcome} (h : frame.turn setting n = .ok (.call caller function [] callee, n'))
    (known : memo[(function, caller.pos)]? = some o) :
    step setting true ⟨frame :: rest, memo, n⟩ = .ok (.running ⟨caller.resume o :: rest, memo, n'⟩) := by
  obtain ⟨i, action, fetched, work, shape⟩ := Frame.turn_eq_ok h
  rw [step_work fetched work]
  cases action with
  | next => exact nomatch shape.1
  | ret => exact nomatch shape.2.2
  | call =>
      obtain ⟨rfl, _, -, ⟨⟩⟩ := shape
      simp only [callFrom, List.isEmpty_nil, Bool.and_self, if_true, known]
      rfl

/-- A call without arguments whose outcome is not known. -/
theorem step_miss (h : frame.turn setting n = .ok (.call caller function [] callee, n'))
    (unknown : memo[(function, caller.pos)]? = none) :
    step setting true ⟨frame :: rest, memo, n⟩ =
      .ok (.running ⟨{ callee with memoKey? := some (function, caller.pos) } :: caller :: rest,
        memo.insert (function, caller.pos) (seed (function, caller.pos)), n'⟩) := by
  obtain ⟨i, action, fetched, work, shape⟩ := Frame.turn_eq_ok h
  rw [step_work fetched work]
  cases action with
  | next => exact nomatch shape.1
  | ret => exact nomatch shape.2.2
  | call =>
      obtain ⟨rfl, callee, ⟨f, hf, arity, rfl⟩, ⟨⟩⟩ := shape
      have entered : enter setting function [] frame.next.pos (some (function, frame.next.pos)) =
          .ok (Frame.begin function f [] frame.next.pos (some (function, frame.next.pos))) :=
        Enters.enter ⟨f, hf, arity, rfl⟩
      simp only [callFrom, List.isEmpty_nil, Bool.and_self, if_true, unknown, entered]
      rfl

end Machine

/-! ### What a frame comes to -/

/-- A frame before its return. -/
def Frame.Returning (setting : Setting) (frame : Frame) : Prop :=
  Machine.fetch setting frame = .ok .ret

/-- What a frame comes to when nothing is remembered, in so many steps: with a goal in sight, or
stopped by host code. -/
inductive Frame.Comes (setting : Setting) :
    (Frame → Prop) → Nat → Frame → Nat → Except Host.Error (Frame × Nat) → Prop
  | here {goal : Frame → Prop} {frame : Frame} {n : Nat} (there : goal frame) :
      Comes setting goal 0 frame n (.ok (frame, n))
  | next {goal : Frame → Prop} {k n n' : Nat} {frame frame' : Frame}
      {out : Except Host.Error (Frame × Nat)} (turn : frame.turn setting n = .ok (.next frame', n'))
      (rest : Comes setting goal k frame' n' out) : Comes setting goal (k + 1) frame n out
  | call {goal : Frame → Prop} {l k n n' n'' function : Nat} {frame caller callee last : Frame}
      {args : List Value} {out : Except Host.Error (Frame × Nat)}
      (turn : frame.turn setting n = .ok (.call caller function args callee, n'))
      (inner : Comes setting (Returning setting) l callee n' (.ok (last, n'')))
      (rest : Comes setting goal k (caller.resume last.outcome) n'' out) :
      Comes setting goal (l + k + 2) frame n out
  | stop {goal : Frame → Prop} {n : Nat} {frame : Frame} {e : Host.Error}
      (turn : frame.turn setting n = .error (.host e)) : Comes setting goal 0 frame n (.error e)
  | broken {goal : Frame → Prop} {l n n' function : Nat} {frame caller callee : Frame}
      {args : List Value} {e : Host.Error}
      (turn : frame.turn setting n = .ok (.call caller function args callee, n'))
      (inner : Comes setting (Returning setting) l callee n' (.error e)) :
      Comes setting goal (l + 1) frame n (.error e)

namespace Frame

variable {setting : Setting} {goal : Frame → Prop} {frame frame' : Frame} {k k' n n' : Nat}
variable {out out' : Except Host.Error (Frame × Nat)}

theorem Returning.turn (h : frame.Returning setting) (n : Nat) :
    frame.turn setting n = .ok (.ret, n) := Exec.lift_bind h _ _

theorem Like.returning (h : frame.Like frame') (returns : frame.Returning setting) :
    frame'.Returning setting := h.fetch.trans returns

theorem returning_of_turn (h : frame.turn setting n = .ok (.ret, n')) :
    frame.Returning setting ∧ n' = n := by
  obtain ⟨i, action, fetched, work, shape⟩ := turn_eq_ok h
  cases action with
  | next => exact nomatch shape.1
  | call =>
      obtain ⟨-, _, -, ⟨⟩⟩ := shape
  | ret =>
      obtain ⟨rfl, -, -⟩ := shape
      exact ⟨fetched, (Exec.pure_eq_ok work).2⟩

namespace Comes

/-- There is one way only for a frame to come to its return. -/
theorem unique (h : Comes setting (Returning setting) k frame n out)
    (h' : Comes setting (Returning setting) k' frame n out') : k' = k ∧ out' = out := by
  generalize same : Returning setting = goal at h
  induction h generalizing k' out' with
  | here there =>
      subst same
      have turn := Returning.turn there
      cases h' with
      | here => exact ⟨rfl, rfl⟩
      | next turn' | call turn' | broken turn' | stop turn' =>
        rw [turn] at turn'
        cases turn'
  | next turn rest ih =>
      subst same
      cases h' with
      | here there => cases turn.symm.trans (Returning.turn there _)
      | next turn' rest' =>
          cases turn.symm.trans turn'
          obtain ⟨rfl, rfl⟩ := ih rest' rfl
          exact ⟨rfl, rfl⟩
      | call turn' | broken turn' | stop turn' => cases turn.symm.trans turn'
  | call turn inner rest inner_ih ih =>
      subst same
      cases h' with
      | here there => cases turn.symm.trans (Returning.turn there _)
      | next turn' | stop turn' => cases turn.symm.trans turn'
      | call turn' inner' rest' =>
          cases turn.symm.trans turn'
          obtain ⟨rfl, ⟨⟩⟩ := inner_ih inner' rfl
          obtain ⟨rfl, rfl⟩ := ih rest' rfl
          exact ⟨rfl, rfl⟩
      | broken turn' inner' =>
          cases turn.symm.trans turn'
          obtain ⟨-, ⟨⟩⟩ := inner_ih inner' rfl
  | stop turn =>
      subst same
      cases h' with
      | here there => cases turn.symm.trans (Returning.turn there _)
      | next turn' | call turn' | broken turn' => cases turn.symm.trans turn'
      | stop turn' =>
          cases turn.symm.trans turn'
          exact ⟨rfl, rfl⟩
  | broken turn inner inner_ih =>
      subst same
      cases h' with
      | here there => cases turn.symm.trans (Returning.turn there _)
      | next turn' | stop turn' => cases turn.symm.trans turn'
      | call turn' inner' rest' =>
          cases turn.symm.trans turn'
          obtain ⟨-, ⟨⟩⟩ := inner_ih inner' rfl
      | broken turn' inner' =>
          cases turn.symm.trans turn'
          obtain ⟨rfl, ⟨⟩⟩ := inner_ih inner' rfl
          exact ⟨rfl, rfl⟩

/-- What a frame has come to is a goal. -/
theorem reached {last : Frame} (h : Comes setting goal k frame n (.ok (last, n'))) : goal last := by
  generalize same : (Except.ok (last, n') : Except Host.Error (Frame × Nat)) = mid at h
  induction h with
  | here there =>
      obtain ⟨rfl, -⟩ : last = _ ∧ n' = _ := by simpa using same
      exact there
  | next _ _ ih | call _ _ _ _ ih => exact ih same
  | stop | broken => cases same

/-- What has come to one goal has come to another. -/
theorem mono {goal' : Frame → Prop} (h : Comes setting goal k frame n out)
    (imp : ∀ f, goal f → goal' f) : Comes setting goal' k frame n out := by
  induction h with
  | here there => exact .here (imp _ there)
  | next turn _ ih => exact .next turn (ih imp)
  | call turn inner _ _ ih => exact .call turn inner (ih imp)
  | stop turn => exact .stop turn
  | broken turn inner _ => exact .broken turn inner

/-- Frames that are alike come to what is alike, in as many steps. -/
theorem like (respects : contents.Respects setting.library) (h : Comes setting goal k frame n out)
    (closed : ∀ f f', f.Like f' → goal f → goal f') (same : frame.Like frame') (m : Nat) :
    ∃ out', Comes setting goal k frame' m out' ∧ Agree (fun p q => p.1.Like q.1) out out' := by
  induction h generalizing frame' m with
  | here there => exact ⟨_, .here (closed _ _ same there), .ok same⟩
  | next turn _ ih =>
      obtain ⟨_, m', turn', next⟩ := same.turn_next respects turn m
      obtain ⟨out', comes, both⟩ := ih closed next m'
      exact ⟨out', .next turn' comes, both⟩
  | call turn _ _ inner_ih ih =>
      obtain ⟨_, _, _, m', turn', caller, -, callee⟩ := same.turn_call respects turn m
      obtain ⟨_, inner', ⟨last⟩⟩ := inner_ih (fun _ _ => Like.returning) callee m'
      obtain ⟨out', comes, both⟩ := ih closed (caller.resume last.outcome) _
      exact ⟨out', .call turn' inner' comes, both⟩
  | stop turn => exact ⟨_, .stop (same.turn_stop respects turn m), .error _⟩
  | broken turn _ inner_ih =>
      obtain ⟨_, _, _, m', turn', -, -, callee⟩ := same.turn_call respects turn m
      obtain ⟨_, inner', ⟨⟩⟩ := inner_ih (fun _ _ => Like.returning) callee m'
      exact ⟨_, .broken turn' inner', .error _⟩

/-- A frame has not returned before it comes to a goal on its way. -/
theorem le (way : Comes setting goal k frame n out)
    (comes : Comes setting (Returning setting) k' frame n out') : k ≤ k' := by
  induction way generalizing k' out' with
  | here | stop => exact Nat.zero_le _
  | next turn _ ih =>
      cases comes with
      | here there => cases turn.symm.trans (there.turn _)
      | next turn' rest' =>
          cases turn.symm.trans turn'
          exact Nat.succ_le_succ (ih rest')
      | call turn' | stop turn' | broken turn' => cases turn.symm.trans turn'
  | call turn inner _ _ ih =>
      cases comes with
      | here there => cases turn.symm.trans (there.turn _)
      | next turn' | stop turn' => cases turn.symm.trans turn'
      | call turn' inner' rest' =>
          cases turn.symm.trans turn'
          obtain ⟨rfl, ⟨⟩⟩ := inner.unique inner'
          have := ih rest'
          omega
      | broken turn' inner' =>
          cases turn.symm.trans turn'
          obtain ⟨-, ⟨⟩⟩ := inner.unique inner'
  | broken turn inner _ =>
      cases comes with
      | here there => cases turn.symm.trans (there.turn _)
      | next turn' | stop turn' => cases turn.symm.trans turn'
      | call turn' inner' rest' =>
          cases turn.symm.trans turn'
          obtain ⟨-, ⟨⟩⟩ := inner.unique inner'
      | broken turn' inner' =>
          cases turn.symm.trans turn'
          obtain ⟨rfl, -⟩ := inner.unique inner'
          exact Nat.le_refl _

end Comes

/-! ### Returns -/

/-- A frame that returns after so many steps when nothing is remembered, as a frame like the one
given, or is stopped by host code. -/
def Finishes (setting : Setting) (l : Nat) (frame : Frame) (out : Except Host.Error Frame) : Prop :=
  ∃ n out', frame.Comes setting (Returning setting) l n out' ∧ Agree (fun p f => p.1.Like f) out' out

namespace Finishes

variable {l l' : Nat} {end_ end_' : Except Host.Error Frame} {caller callee : Frame}
variable {function : Nat} {args : List Value}

theorem of_comes (respects : contents.Respects setting.library)
    (h : frame.Comes setting (Returning setting) l n out) (same : frame.Like frame') :
    Finishes setting l frame' (out.map (·.1)) := by
  obtain ⟨out', comes, both⟩ := h.like respects (fun _ _ => Like.returning) same n
  refine ⟨n, out', comes, ?_⟩
  cases both with
  | ok both => exact .ok both.symm
  | error e => exact .error e

/-- The next identity does not matter. -/
theorem comes (respects : contents.Respects setting.library) (h : Finishes setting l frame end_)
    (same : frame.Like frame') (m : Nat) :
    ∃ out, frame'.Comes setting (Returning setting) l m out ∧
      Agree (fun p f => p.1.Like f) out end_ := by
  obtain ⟨n, out, comes, both⟩ := h
  obtain ⟨out', comes', both'⟩ := comes.like respects (fun _ _ => Like.returning) same m
  refine ⟨out', comes', ?_⟩
  cases both' with
  | ok like => cases both with
    | ok both => exact .ok (like.join both)
  | error e => exact both

theorem like (respects : contents.Respects setting.library) (h : Finishes setting l frame end_)
    (same : frame.Like frame') : Finishes setting l frame' end_ := ⟨0, h.comes respects same 0⟩

theorem as {last last' : Frame} (h : Finishes setting l frame (.ok last)) (same : last.Like last') :
    Finishes setting l frame (.ok last') := by
  obtain ⟨n, _, comes, ⟨both⟩⟩ := h
  exact ⟨n, _, comes, .ok (both.trans same)⟩

/-- There is one way only. -/
theorem unique (respects : contents.Respects setting.library) (h : Finishes setting l frame end_)
    (h' : Finishes setting l' frame end_') : l' = l ∧ Agree Like end_ end_' := by
  obtain ⟨out, comes, both⟩ := h.comes respects (.refl _) 0
  obtain ⟨out', comes', both'⟩ := h'.comes respects (.refl _) 0
  obtain ⟨rfl, rfl⟩ := comes.unique comes'
  refine ⟨rfl, ?_⟩
  cases both with
  | ok both => cases both' with
    | ok both' => exact .ok (both.join both')
  | error e =>
      cases both'
      exact .error e

theorem returning (respects : contents.Respects setting.library) (h : Finishes setting l frame end_)
    (returns : frame.Returning setting) : ∃ last, end_ = .ok last ∧ frame.Like last := by
  have here : Finishes setting 0 frame (.ok frame) := ⟨0, _, .here returns, .ok (.refl frame)⟩
  obtain ⟨-, ⟨same⟩⟩ := here.unique respects h
  exact ⟨_, rfl, same⟩

/-- After the next turn. -/
theorem next (respects : contents.Respects setting.library) (h : Finishes setting l frame end_)
    (turn : frame.turn setting n = .ok (.next frame', n')) :
    ∃ l' < l, Finishes setting l' frame' end_ := by
  obtain ⟨out, comes, both⟩ := h.comes respects (.refl _) n
  cases comes with
  | here there => cases turn.symm.trans (there.turn n)
  | next turn' rest =>
      cases turn.symm.trans turn'
      exact ⟨_, Nat.lt_succ_self _, _, out, rest, both⟩
  | call turn' | stop turn' | broken turn' => cases turn.symm.trans turn'

/-- During a call, and behind it. -/
theorem call (respects : contents.Respects setting.library) (h : Finishes setting l frame end_)
    (turn : frame.turn setting n = .ok (.call caller function args callee, n')) :
    ∃ l₁ < l, ∃ end₁, Finishes setting l₁ callee end₁ ∧ ∀ last, end₁ = .ok last →
      ∃ l₂ < l, Finishes setting l₂ (caller.resume last.outcome) end_ := by
  obtain ⟨out, comes, both⟩ := h.comes respects (.refl _) n
  cases comes with
  | here there => cases turn.symm.trans (there.turn n)
  | next turn' | stop turn' => cases turn.symm.trans turn'
  | call turn' inner rest =>
      cases turn.symm.trans turn'
      refine ⟨_, Nat.lt_succ_of_le (Nat.le_succ_of_le (Nat.le_add_right _ _)), _,
        of_comes respects inner (.refl _), ?_⟩
      rintro _ ⟨⟩
      exact ⟨_, Nat.lt_succ_of_le (Nat.le_succ_of_le (Nat.le_add_left _ _)), _, out, rest, both⟩
  | broken turn' inner =>
      cases turn.symm.trans turn'
      refine ⟨_, Nat.lt_succ_self _, _, of_comes respects inner (.refl _), ?_⟩
      rintro _ ⟨⟩

/-- A frame has not returned before it comes to a goal on its way. -/
theorem le (respects : contents.Respects setting.library) (h : Finishes setting l frame end_)
    (way : frame.Comes setting goal k n out) : k ≤ l := by
  obtain ⟨_, comes, -⟩ := h.comes respects (.refl _) n
  exact way.le comes

end Finishes

end Frame

/-! ### Machines without a memo table -/

namespace Machine

variable {setting : Setting} {frame : Frame} {rest : List Frame}
variable {memo : Std.HashMap MemoKey Outcome} {n : Nat}

theorem step_unremembered_eq_ok {m : Machine}
    (h : step setting false ⟨frame :: rest, memo, n⟩ = .ok (.running m)) :
    ∃ t n', frame.turn setting n = .ok (t, n') ∧ t.progress frame rest memo n' = .running m := by
  rw [step_unremembered] at h
  cases turn : frame.turn setting n with
  | error e =>
      rw [turn] at h
      cases h
  | ok p =>
      rw [turn] at h
      exact ⟨p.1, p.2, rfl, Except.ok.inj h⟩

/-- A machine that is not deeper in the end than in the beginning: the frame is still there, and has
come to its present state, or it has returned. -/
theorem comes_of_leads {k : Nat} {m : Machine}
    (h : Leads setting false k ⟨frame :: rest, memo, n⟩ m) (low : m.frames.length ≤ rest.length + 1) :
    (∃ now, m.frames = now :: rest ∧ frame.Comes setting (· = now) k n (.ok (now, m.identity))) ∨
      ∃ l j last n', l + j + 1 = k ∧
        frame.Comes setting (Frame.Returning setting) l n (.ok (last, n')) ∧
        ∃ caller below memo, rest = caller :: below ∧
          Leads setting false j ⟨caller.resume last.outcome :: below, memo, n'⟩ m := by
  induction k using Nat.strongRecOn generalizing frame rest memo n with
  | ind k ih =>
      cases h with
      | refl => exact .inl ⟨frame, rfl, .here rfl⟩
      | @step k _ m₁ _ hs leads =>
          obtain ⟨t, n', turn, progress⟩ := step_unremembered_eq_ok hs
          cases t with
          | next frame' =>
              obtain rfl := Progress.running.inj progress
              rcases ih k (Nat.lt_succ_self k) leads low with
                ⟨now, frames, comes⟩ | ⟨l, j, last, n'', sum, comes, callers⟩
              · exact .inl ⟨now, frames, .next turn comes⟩
              · exact .inr ⟨l + 1, j, last, n'', by omega, .next turn comes, callers⟩
          | call caller function args callee =>
              obtain rfl := Progress.running.inj progress
              -- The callee must have returned, since the machine is no deeper than its caller.
              rcases ih k (Nat.lt_succ_self k) leads (Nat.le_succ_of_le low) with
                ⟨now, frames, -⟩ | ⟨l, j, last, n'', sum, inner, _, _, _, ⟨⟩, leads'⟩
              · simp only [frames, List.length_cons] at low
                omega
              · rcases ih j (by omega) leads' low with
                  ⟨now, frames, comes⟩ | ⟨l', j', last', n₃, sum', comes, callers⟩
                · refine .inl ⟨now, frames, ?_⟩
                  rw [show k + 1 = l + j + 2 by omega]
                  exact .call turn inner comes
                · exact .inr ⟨l + l' + 2, j', last', n₃, by omega, .call turn inner comes, callers⟩
          | ret =>
              obtain ⟨returns, rfl⟩ := Frame.returning_of_turn turn
              cases rest with
              | nil => cases progress
              | cons caller below =>
                  obtain rfl := Progress.running.inj progress
                  exact .inr ⟨0, k, frame, n', by omega, .here returns, caller, below, _, rfl, leads⟩

/-- What is left of a run when a frame has returned: nothing, or the run of the frames below. -/
def Remains (setting : Setting) (fuel : Nat) (o : Outcome) (n : Nat)
    (r : Except Failure (Outcome × Nat)) : List Frame → Prop
  | [] => r = .ok (o, n)
  | caller :: below => ∃ memo, run setting false fuel ⟨caller.resume o :: below, memo, n⟩ = r

/-- A run that ends with an outcome or is stopped by host code: it is the frame that has stopped, or
it has returned and the rest of the run is that of the frame below. -/
theorem comes_of_run {fuel : Nat} {r : Except Failure (Outcome × Nat)}
    (h : run setting false fuel ⟨frame :: rest, memo, n⟩ = r)
    (ended : (∃ out, r = .ok out) ∨ ∃ e, r = .error (.host e)) :
    (∃ l e, frame.Comes setting (Frame.Returning setting) l n (.error e) ∧ l < fuel ∧
        r = .error (.host e)) ∨
      ∃ l j last n', l + j + 1 = fuel ∧
        frame.Comes setting (Frame.Returning setting) l n (.ok (last, n')) ∧
        Remains setting j last.outcome n' r rest := by
  induction fuel using Nat.strongRecOn generalizing frame rest memo n with
  | ind fuel ih =>
      cases fuel with
      | zero =>
          subst h
          rcases ended with ⟨_, same⟩ | ⟨_, same⟩ <;> simp [run, fault] at same
      | succ fuel =>
          rw [run, step_unremembered] at h
          cases turn : frame.turn setting n with
          | error e =>
              rw [turn] at h
              subst h
              rcases ended with ⟨_, ⟨⟩⟩ | ⟨e', ⟨⟩⟩
              exact .inl ⟨0, e', .stop turn, Nat.succ_pos _, rfl⟩
          | ok p =>
              obtain ⟨t, n'⟩ := p
              rw [turn] at h
              cases t with
              | next frame' =>
                  rcases ih fuel (Nat.lt_succ_self _) h with
                    ⟨l, e, comes, lt, same⟩ | ⟨l, j, last, n'', sum, comes, behind⟩
                  · exact .inl ⟨l + 1, e, .next turn comes, by omega, same⟩
                  · exact .inr ⟨l + 1, j, last, n'', by omega, .next turn comes, behind⟩
              | call caller function args callee =>
                  rcases ih fuel (Nat.lt_succ_self _) h with
                    ⟨l, e, inner, lt, same⟩ | ⟨l, j, last, n'', sum, inner, _, h'⟩
                  · exact .inl ⟨l + 1, e, .broken turn inner, by omega, same⟩
                  · rcases ih j (by omega) h' with
                      ⟨l', e, comes, lt, same⟩ | ⟨l', j', last', n₃, sum', comes, behind⟩
                    · exact .inl ⟨l + l' + 2, e, .call turn inner comes, by omega, same⟩
                    · exact .inr ⟨l + l' + 2, j', last', n₃, by omega, .call turn inner comes, behind⟩
              | ret =>
                  obtain ⟨returns, rfl⟩ := Frame.returning_of_turn turn
                  refine .inr ⟨0, fuel, frame, n', by omega, .here returns, ?_⟩
                  cases rest with
                  | nil => exact h.symm
                  | cons caller below => exact ⟨_, h⟩

end Machine

end Packrat
