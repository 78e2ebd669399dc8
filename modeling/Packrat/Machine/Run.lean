import Packrat.Machine.Step
import Std.Data.HashMap

/-
**The machine.**

Functions at work form a stack of frames.  A call puts a frame on top, unless the function has
been called without arguments at the same place before: then its outcome is in the memo table.
While such a function is still at work the table holds a failure, so a rule that begins with
itself fails instead of running forever.

Main definitions:

* `Packrat.Outcome` — the registers that a function leaves behind;
* `Packrat.Machine` — the stack and the memo table;
* `Packrat.Machine.step`, `Packrat.Machine.run` — one instruction, and all of them;
* `Packrat.Setting.run` — the outcome of a function of a program.

Main results:

* `Packrat.Machine.run_more` — more steps do not change an outcome.
-/

set_option autoImplicit false

namespace Packrat

/-- The registers that a function leaves behind. -/
structure Outcome where
  status : Bool
  result : Value
  pos : Nat

/-- The outcome of a frame that is left. -/
def Frame.outcome (frame : Frame) : Outcome := ⟨frame.status, frame.result, frame.pos⟩

/-- A frame with the outcome of a function it called. -/
def Frame.resume (frame : Frame) (o : Outcome) : Frame :=
  { frame with status := o.status, result := o.result, pos := o.pos }

/-- A parse at work. -/
structure Machine where
  /-- The frames, the innermost first. -/
  frames : List Frame
  memo : Std.HashMap MemoKey Outcome
  /-- The next identity of a shared value. -/
  identity : Nat

/-- What a step leads to. -/
inductive Progress where
  | running (m : Machine)
  | done (o : Outcome) (identity : Nat)

namespace Machine

/-- The frame of a called function. -/
def enter (setting : Setting) (function : Nat) (args : List Value) (pos : Nat)
    (memoKey? : Option MemoKey) : Except Failure Frame := do
  let f ← poolEntry "functions" setting.program.functions function
  if args.length == f.params.length then pure (Frame.begin function f args pos memoKey?)
  else throw (.host (.arity f.name f.params.length args.length))

/-- A call from the frame at hand. Calls with arguments are not remembered, and without a memo
table no calls are. -/
def callFrom (setting : Setting) (memoize : Bool) (frame : Frame) (rest : List Frame)
    (memo : Std.HashMap MemoKey Outcome) (identity function : Nat) (args : List Value) :
    Except Failure Machine :=
  if args.isEmpty && memoize then
    let key := (function, frame.pos)
    match memo[key]? with
    | some o => .ok ⟨frame.resume o :: rest, memo, identity⟩
    | none => do
      let callee ← enter setting function args frame.pos (some key)
      -- Until the callee returns, a call of it at the same place fails.
      let seed : Outcome := ⟨false, .failure leftRecursion, frame.pos⟩
      pure ⟨callee :: frame :: rest, memo.insert key seed, identity⟩
  else do
    let callee ← enter setting function args frame.pos none
    pure ⟨callee :: frame :: rest, memo, identity⟩

/-- The return from the frame at hand. -/
def returnFrom (frame : Frame) (rest : List Frame) (memo : Std.HashMap MemoKey Outcome)
    (identity : Nat) : Progress :=
  let o := frame.outcome
  let memo := match frame.memoKey? with
    | some key => memo.insert key o
    | none => memo
  match rest with
  | [] => .done o identity
  | caller :: rest => .running ⟨caller.resume o :: rest, memo, identity⟩

/-- The next instruction of a frame. -/
def fetch (setting : Setting) (frame : Frame) : Except Failure Instr := do
  let f ← poolEntry "functions" setting.program.functions frame.function
  match f.code[frame.pc]? with
  | some i => pure i
  | none => fault (.codeEnd f.name)

/-- One instruction. -/
def step (setting : Setting) (memoize : Bool) (m : Machine) : Except Failure Progress :=
  match m with
  | ⟨[], _, _⟩ => fault .emptyStack
  | ⟨frame :: rest, memo, identity⟩ => do
    let i ← fetch setting frame
    -- The instruction works on a frame that has moved on, so a jump only sets the counter.
    let (action, identity) ← (i.execute setting { frame with pc := frame.pc + 1 }).run identity
    match action with
    | .next frame => pure (.running ⟨frame :: rest, memo, identity⟩)
    | .call frame function args => do
      let m ← callFrom setting memoize frame rest memo identity function args
      pure (.running m)
    | .ret frame => pure (returnFrom frame rest memo identity)

/-- The outcome after at most so many steps, and the next identity. -/
def run (setting : Setting) (memoize : Bool) : Nat → Machine → Except Failure (Outcome × Nat)
  | 0, _ => fault .outOfSteps
  | fuel + 1, m =>
    match step setting memoize m with
    | .error e => .error e
    | .ok (.done o identity) => .ok (o, identity)
    | .ok (.running m) => run setting memoize fuel m

theorem run_more {setting : Setting} {memoize : Bool} {fuel : Nat} {m : Machine}
    {out : Outcome × Nat} (h : run setting memoize fuel m = .ok out) (extra : Nat) :
    run setting memoize (fuel + extra) m = .ok out := by
  induction fuel generalizing m with
  | zero => simp [run, fault] at h
  | succ fuel ih =>
    rw [show fuel + 1 + extra = (fuel + extra) + 1 by omega]
    simp only [run] at h ⊢
    split at h
    · simp at h
    · exact h
    · exact ih h

end Machine

/-- How many steps a parse may take. -/
def stepLimit : Nat := 0x1000000000000000

/-- The outcome of a function of a program, called with arguments at a place of the input. -/
def Setting.run (setting : Setting) (memoize : Bool) (function : Nat) (args : List Value)
    (pos : Nat) : Exec Outcome := fun identity => do
  let frame ← Machine.enter setting function args pos none
  Machine.run setting memoize stepLimit ⟨[frame], ∅, identity⟩

end Packrat
