import Packrat.Proofs.Execution.Actions

/-
**What a step of the machine may do.**

A step goes on in the innermost frame, answers a call from the memo table, puts the frame of a called
function on top, or returns.  Invariants of the machine are proved transition by transition.

Main definitions:

* `Packrat.Frame.next` — a frame that has moved to its next instruction;
* `Packrat.Machine.seed` — what counts as the outcome of a remembered function while it is at work;
* `Packrat.Machine.Transition` — the transitions of the machine.

Main results:

* `Packrat.Machine.step_transition` — **every step is one of the transitions**.
-/

set_option autoImplicit false

namespace Packrat

/-- A frame that has moved to its next instruction. -/
def Frame.next (frame : Frame) : Frame := { frame with pc := frame.pc + 1 }

@[simp] theorem Frame.next_pos (frame : Frame) : frame.next.pos = frame.pos := rfl

@[simp] theorem Frame.next_function (frame : Frame) : frame.next.function = frame.function := rfl

@[simp] theorem Frame.next_slots (frame : Frame) : frame.next.slots = frame.slots := rfl

namespace Machine

/-- What counts as the outcome of a remembered function while it is at work. -/
def seed (key : MemoKey) : Outcome := ⟨false, .failure leftRecursion, key.2⟩

/-- What is remembered when a frame is left. -/
def remember (frame : Frame) (memo : Std.HashMap MemoKey Outcome) :
    Std.HashMap MemoKey Outcome :=
  match frame.memoKey? with
  | some key => memo.insert key frame.outcome
  | none => memo

/-- A frame of a function, called with arguments at a place. -/
def Enters (setting : Setting) (function : Nat) (args : List Value) (pos : Nat)
    (memoKey? : Option MemoKey) (callee : Frame) : Prop :=
  ∃ f, setting.program.functions[function]? = some f ∧ args.length = f.params.length ∧
    callee = Frame.begin function f args pos memoKey?

theorem enters_of_enter {setting : Setting} {function pos : Nat} {args : List Value}
    {memoKey? : Option MemoKey} {callee : Frame}
    (h : enter setting function args pos memoKey? = .ok callee) :
    Enters setting function args pos memoKey? callee := by
  simp only [enter, poolEntry, bind, Except.bind] at h
  cases hf : setting.program.functions[function]? with
  | none => simp [hf, fault] at h
  | some f =>
      simp only [hf] at h
      split at h
      · next same =>
          obtain rfl : _ = callee := by simpa [pure, Except.pure] using h
          exact ⟨f, hf, by simpa using same, rfl⟩
      · simp [throw, throwThe, MonadExceptOf.throw] at h

theorem Enters.enter {setting : Setting} {function pos : Nat} {args : List Value}
    {memoKey? : Option MemoKey} {callee : Frame}
    (h : Enters setting function args pos memoKey? callee) :
    Machine.enter setting function args pos memoKey? = .ok callee := by
  obtain ⟨f, hf, same, rfl⟩ := h
  simp [Machine.enter, poolEntry, hf, same, bind, Except.bind, pure, Except.pure]

/-- The transitions of the machine from a frame on top of others. -/
inductive Transition (setting : Setting) (memoize : Bool) (frame : Frame) (rest : List Frame)
    (memo : Std.HashMap MemoKey Outcome) (identity : Nat) : Progress → Prop
  /-- The frame goes on. -/
  | next {i : Instr} {frame' : Frame} {n : Nat} (fetched : fetch setting frame = .ok i)
      (work : i.execute setting frame.next identity = .ok (.next frame', n))
      (moved : frame.Moved frame') :
      Transition setting memoize frame rest memo identity (.running ⟨frame' :: rest, memo, n⟩)
  /-- A call is answered from the memo table. -/
  | hit {i : Instr} {f n : Nat} {o : Outcome} (fetched : fetch setting frame = .ok i)
      (work : i.execute setting frame.next identity = .ok (.call frame.next f [], n))
      (known : memo[(f, frame.pos)]? = some o) (on : memoize = true) :
      Transition setting memoize frame rest memo identity
        (.running ⟨frame.next.resume o :: rest, memo, n⟩)
  /-- A call whose outcome will be remembered. -/
  | miss {i : Instr} {f n : Nat} {callee : Frame} (fetched : fetch setting frame = .ok i)
      (work : i.execute setting frame.next identity = .ok (.call frame.next f [], n))
      (unknown : memo[(f, frame.pos)]? = none) (on : memoize = true)
      (enters : Enters setting f [] frame.pos (some (f, frame.pos)) callee) :
      Transition setting memoize frame rest memo identity (.running
        ⟨callee :: frame.next :: rest, memo.insert (f, frame.pos) (seed (f, frame.pos)), n⟩)
  /-- A call whose outcome will not be remembered. -/
  | call {i : Instr} {f n : Nat} {args : List Value} {callee : Frame}
      (fetched : fetch setting frame = .ok i)
      (work : i.execute setting frame.next identity = .ok (.call frame.next f args, n))
      (off : (args.isEmpty && memoize) = false)
      (enters : Enters setting f args frame.pos none callee) :
      Transition setting memoize frame rest memo identity
        (.running ⟨callee :: frame.next :: rest, memo, n⟩)
  /-- The frame returns to the one that called. -/
  | ret {caller : Frame} {below : List Frame} (fetched : fetch setting frame = .ok .ret)
      (callers : rest = caller :: below) :
      Transition setting memoize frame rest memo identity
        (.running ⟨caller.resume frame.outcome :: below, remember frame memo, identity⟩)
  /-- The last frame is left. -/
  | done (fetched : fetch setting frame = .ok .ret) (last : rest = []) :
      Transition setting memoize frame rest memo identity (.done frame.outcome identity)

/-- What a call leads to. -/
theorem call_transition {setting : Setting} {memoize : Bool} {frame : Frame} {rest : List Frame}
    {memo : Std.HashMap MemoKey Outcome} {identity f n : Nat} {args : List Value} {i : Instr}
    {m : Machine} (fetched : fetch setting frame = .ok i)
    (work : i.execute setting frame.next identity = .ok (.call frame.next f args, n))
    (h : callFrom setting memoize frame.next rest memo n f args = .ok m) :
    Transition setting memoize frame rest memo identity (.running m) := by
  simp only [callFrom] at h
  split at h
  · next remembers =>
      obtain ⟨nothing, on⟩ : args = [] ∧ memoize = true := by simpa using remembers
      subst nothing
      split at h
      · next o known =>
          obtain rfl : _ = m := by simpa using h
          exact .hit fetched work known on
      · next unknown =>
          simp only [bind, Except.bind] at h
          split at h
          · simp at h
          · next callee entered =>
              obtain rfl : _ = m := by simpa [pure, Except.pure] using h
              exact .miss fetched work unknown on (enters_of_enter entered)
  · next off =>
      simp only [bind, Except.bind] at h
      split at h
      · simp at h
      · next callee entered =>
          obtain rfl : _ = m := by simpa [pure, Except.pure] using h
          exact .call fetched work (by simpa using off) (enters_of_enter entered)

/-- A return leads to the frame below, or out of the machine. -/
theorem ret_transition {setting : Setting} {memoize : Bool} {frame : Frame} {rest : List Frame}
    {memo : Std.HashMap MemoKey Outcome} {identity : Nat}
    (fetched : fetch setting frame = .ok .ret) :
    Transition setting memoize frame rest memo identity
      (returnFrom frame.next rest memo identity) := by
  cases rest with
  | nil => exact .done fetched rfl
  | cons caller below => exact .ret fetched rfl

/-- Every step is one of the transitions. -/
theorem step_transition {setting : Setting} {memoize : Bool} {m : Machine} {out : Progress}
    (h : step setting memoize m = .ok out) :
    ∃ frame rest, m.frames = frame :: rest ∧
      Transition setting memoize frame rest m.memo m.identity out := by
  obtain ⟨frames, memo, identity⟩ := m
  cases frames with
  | nil => simp [step, fault] at h
  | cons frame rest =>
      refine ⟨frame, rest, rfl, ?_⟩
      cases fetched : fetch setting frame with
      | error e => simp [step, fetched, bind, Except.bind] at h
      | ok i =>
          simp only [step, fetched, bind, Except.bind, StateT.run] at h
          cases work : i.execute setting frame.next identity with
          | error e =>
              rw [show i.execute setting { frame with pc := frame.pc + 1 } identity = _ from work]
                at h
              simp at h
          | ok result =>
              obtain ⟨action, n⟩ := result
              rw [show i.execute setting { frame with pc := frame.pc + 1 } identity = _ from work]
                at h
              cases Instr.execute_cases work with
              | next moved =>
                  obtain rfl : _ = out := by simpa [pure, Except.pure] using h
                  exact .next fetched work ⟨moved.function, moved.memoKey?⟩
              | call f args =>
                  simp only at h
                  split at h
                  · simp at h
                  · next m' called =>
                      obtain rfl : _ = out := by simpa [pure, Except.pure] using h
                      exact call_transition fetched work called
              | ret leaves =>
                  subst leaves
                  obtain ⟨-, rfl⟩ := Exec.pure_eq_ok work
                  obtain rfl : _ = out := by simpa [pure, Except.pure] using h
                  exact ret_transition fetched

end Machine

end Packrat
