import Packrat.Proofs.Conduct.Parses

/-
**Runs without faults.**

A parse begins with a rule at a place of the input, given values in which no mark of a failure
occurs.  Whatever the rule goes on to call comes back where it was called or further on, within the
input; if it succeeds it leaves a value without marks of failures, and otherwise the mark of a failure
that the program knows.  No state of the parse reads a slot, a label or a constant that is not there,
or goes back to a place that was never kept, so the parse does not come to a fault.  What remains is
the bound on the number of its steps.

Main definitions:

* `Packrat.Machine.Roomy` — frames with all the slots of their functions;
* `Packrat.Machine.Returns` — **what a call at a place comes back with**;
* `Packrat.Machine.Clean` — what holds in a state of a parse.

Main results:

* `Packrat.Instr.execute_slots` — instructions keep the number of slots;
* `Packrat.Machine.Orderly.clean` — a state with the invariant of a parse is clean;
* `Packrat.Parser.parse_clean` — **every state of a parse is clean, and no parse comes to a fault**.
-/

set_option autoImplicit false

namespace Packrat

variable {setting : Setting} {memoize : Bool} {R : Regime} {begins start n n' : Nat}
variable {frame frame' callee : Frame} {rest : List Frame} {memo : Std.HashMap MemoKey Outcome}

/-! ### Slots -/

theorem Frame.size_slots_goto {label : Nat} (h : frame.goto setting label = .ok frame') :
    frame'.slots.size = frame.slots.size := by
  simp only [goto, bind, Except.bind] at h
  split at h
  · simp at h
  · split at h
    · obtain rfl : _ = frame' := by simpa [pure, Except.pure] using h
      rfl
    · simp [fault] at h

@[simp] theorem Frame.size_slots_setSlot (v : Nat) (x : Value) :
    (frame.setSlot v x).slots.size = frame.slots.size := by simp [setSlot]

@[simp] theorem Frame.size_slots_matched (entry : Nat) (stop? : Option Nat) :
    (frame.matched setting entry stop?).slots.size = frame.slots.size := by
  cases stop? <;> rfl

/-- An instruction that goes on in its frame keeps the number of slots. -/
theorem Instr.execute_slots {i : Instr} (h : i.execute setting frame n = .ok (.next frame', n')) :
    frame'.slots.size = frame.slots.size := by
  cases i with
  | ret => cases h
  | setStatus | fail =>
      obtain ⟨⟨⟩, -⟩ := Exec.pure_eq_ok h
      rfl
  | matchLiteral | matchRegex =>
      obtain ⟨_, _, -, h⟩ := Exec.bind_eq_ok h
      obtain ⟨⟨⟩, -⟩ := Exec.pure_eq_ok h
      exact Frame.size_slots_matched _ _
  | load | restore =>
      obtain ⟨_, _, -, h⟩ := Exec.bind_eq_ok h
      obtain ⟨⟨⟩, -⟩ := Exec.pure_eq_ok h
      rfl
  | store | newList | pop =>
      obtain ⟨_, _, -, h⟩ := Exec.bind_eq_ok h
      obtain ⟨⟨⟩, -⟩ := Exec.pure_eq_ok h
      exact Frame.size_slots_setSlot _ _
  | push =>
      obtain ⟨_, _, -, h⟩ := Exec.bind_eq_ok h
      obtain ⟨_, _, -, h⟩ := Exec.bind_eq_ok h
      obtain ⟨⟨⟩, -⟩ := Exec.pure_eq_ok h
      exact Frame.size_slots_setSlot _ _
  | jump =>
      obtain ⟨_, moved, h⟩ := Exec.lift_bind_eq_ok h
      obtain ⟨⟨⟩, -⟩ := Exec.pure_eq_ok h
      exact Frame.size_slots_goto moved
  | branch =>
      obtain ⟨b, -, h⟩ := Exec.lift_bind_eq_ok h
      cases b with
      | false =>
          obtain ⟨⟨⟩, -⟩ := Exec.pure_eq_ok h
          rfl
      | true =>
          obtain ⟨_, moved, h⟩ := Exec.lift_bind_eq_ok h
          obtain ⟨⟨⟩, -⟩ := Exec.pure_eq_ok h
          exact Frame.size_slots_goto moved
  | makeList | makePostfix | foldPrefix | foldRight =>
      obtain ⟨_, _, -, h⟩ := Exec.bind_eq_ok h
      obtain ⟨_, _, -, h⟩ := Exec.bind_eq_ok h
      obtain ⟨⟨⟩, -⟩ := Exec.pure_eq_ok h
      rfl
  | eval | apply | makeInfix | makeParser =>
      obtain ⟨_, _, -, h⟩ := Exec.bind_eq_ok h
      obtain ⟨_, _, -, h⟩ := Exec.bind_eq_ok h
      obtain ⟨_, _, -, h⟩ := Exec.bind_eq_ok h
      obtain ⟨⟨⟩, -⟩ := Exec.pure_eq_ok h
      rfl
  | test =>
      obtain ⟨_, _, -, h⟩ := Exec.bind_eq_ok h
      obtain ⟨_, _, -, h⟩ := Exec.bind_eq_ok h
      obtain ⟨verdict, _, -, h⟩ := Exec.bind_eq_ok h
      obtain ⟨⟨⟩, -⟩ := Exec.pure_eq_ok h
      split <;> rfl
  | makeNode =>
      obtain ⟨_, _, -, h⟩ := Exec.bind_eq_ok h
      obtain ⟨_, _, -, h⟩ := Exec.bind_eq_ok h
      obtain ⟨_, _, -, h⟩ := Exec.bind_eq_ok h
      obtain ⟨_, _, -, h⟩ := Exec.bind_eq_ok h
      obtain ⟨⟨⟩, -⟩ := Exec.pure_eq_ok h
      rfl
  | call callee args =>
      cases callee with
      | function f =>
          obtain ⟨_, -, h⟩ := Exec.lift_bind_eq_ok h
          obtain ⟨⟨⟩, -⟩ := Exec.pure_eq_ok h
      | slot v =>
          obtain ⟨_, -, h⟩ := Exec.lift_bind_eq_ok h
          obtain ⟨value, -, h⟩ := Exec.lift_bind_eq_ok h
          obtain ⟨same, -⟩ := Exec.pure_eq_ok h
          cases value <;> cases same <;> rfl

/-- A frame with all the slots of its function. -/
def Frame.Roomy (setting : Setting) (frame : Frame) : Prop :=
  ∃ f, setting.program.functions[frame.function]? = some f ∧ f.slots ≤ frame.slots.size

namespace Frame.Roomy

theorem same (h : frame.Roomy setting) (function : frame'.function = frame.function)
    (slots : frame'.slots.size = frame.slots.size) : frame'.Roomy setting := by
  obtain ⟨f, known, room⟩ := h
  exact ⟨f, function ▸ known, slots ▸ room⟩

theorem of_enters {f pos : Nat} {args : List Value} {key? : Option MemoKey}
    (enters : Machine.Enters setting f args pos key? callee) : callee.Roomy setting := by
  obtain ⟨function, known, -, rfl⟩ := enters
  refine ⟨function, known, ?_⟩
  simp only [Frame.begin, List.size_toArray, List.length_append, List.length_replicate]
  omega

/-- The instruction that a frame has come to touches slots of the frame. -/
theorem touches (h : frame.Roomy setting) (sound : setting.program.WellFormed) {i : Instr}
    (fetched : Machine.fetch setting frame = .ok i) : ∀ v ∈ i.slots, v < frame.slots.size := by
  obtain ⟨f, known, room⟩ := h
  intro v mem
  simp only [Machine.fetch, poolEntry, known, bind, Except.bind] at fetched
  split at fetched
  · next at_ =>
      obtain rfl := Except.pure_eq_ok.1 fetched
      have well := sound.functions _ (Array.mem_of_getElem? known)
      exact Nat.lt_of_lt_of_le ((well.code _ (Array.mem_of_getElem? at_)).slots v mem) room
  · cases fetched

end Frame.Roomy

namespace Machine

/-! ### Steps -/

/-- What every step keeps holds in the end. -/
theorem Leads.keeps {P : Machine → Prop}
    (keeps : ∀ m m', P m → Machine.step setting memoize m = .ok (.running m') → P m') {k : Nat}
    {m m' : Machine} (leads : Leads setting memoize k m m') (h : P m) : P m' := by
  induction leads with
  | refl => exact h
  | step moves _ ih => exact ih (keeps _ _ h moves)

/-- A run comes to a state that stops it or in which it is done, unless it may take no more steps. -/
theorem run_cases (setting : Setting) (memoize : Bool) (fuel : Nat) (m : Machine) :
    (∃ k m', Leads setting memoize k m m' ∧
      ((∃ e, step setting memoize m' = .error e ∧ run setting memoize fuel m = .error e) ∨
        ∃ o n', step setting memoize m' = .ok (.done o n') ∧
          run setting memoize fuel m = .ok (o, n'))) ∨
      run setting memoize fuel m = fault .outOfSteps := by
  induction fuel generalizing m with
  | zero => exact .inr rfl
  | succ fuel ih =>
      rw [run]
      cases moves : step setting memoize m with
      | error e => exact .inl ⟨0, m, .refl m, .inl ⟨e, moves, rfl⟩⟩
      | ok out =>
          cases out with
          | done o n' => exact .inl ⟨0, m, .refl m, .inr ⟨o, n', moves, rfl⟩⟩
          | running m₁ =>
              refine (ih m₁).imp_left ?_
              rintro ⟨k, m', leads, ends⟩
              exact ⟨k + 1, m', .step moves leads, ends⟩

/-- A machine all of whose frames have the slots of their functions. -/
def Roomy (setting : Setting) (m : Machine) : Prop := ∀ frame ∈ m.frames, frame.Roomy setting

theorem Roomy.step {m m' : Machine} (h : m.Roomy setting)
    (moves : Machine.step setting memoize m = .ok (.running m')) : m'.Roomy setting := by
  obtain ⟨frame, rest, frames, transition⟩ := step_transition moves
  have top : frame.Roomy setting := h frame (by simp [frames])
  have others : ∀ frame ∈ rest, frame.Roomy setting := fun frame mem => h frame (by simp [frames, mem])
  cases transition with
  | next _ work moved =>
      exact List.forall_mem_cons.2
        ⟨top.same moved.function ((Instr.execute_slots work).trans rfl), others⟩
  | hit => exact List.forall_mem_cons.2 ⟨top.same rfl rfl, others⟩
  | miss _ _ _ _ enters | call _ _ _ enters =>
      exact List.forall_mem_cons.2
        ⟨.of_enters enters, List.forall_mem_cons.2 ⟨top.same rfl rfl, others⟩⟩
  | ret _ callers =>
      subst callers
      obtain ⟨caller, others⟩ := List.forall_mem_cons.1 others
      exact List.forall_mem_cons.2 ⟨caller.same rfl rfl, others⟩

/-! ### What holds in a state -/

/-- What a step comes back with, from a call at a place: an outcome that is remembered, or that of
the frame on top, which may be the last one. -/
inductive Returns (setting : Setting) (begins : Nat) (m : Machine) : Nat → Outcome → Prop
  | hit {frame : Frame} {rest : List Frame} {i : Instr} {f n : Nat} {o : Outcome}
      (frames : m.frames = frame :: rest) (fetched : fetch setting frame = .ok i)
      (work : i.execute setting frame.next m.identity = .ok (.call frame.next f [], n))
      (known : m.memo[(f, frame.pos)]? = some o) : Returns setting begins m frame.pos o
  | left {frame caller : Frame} {rest : List Frame} (frames : m.frames = frame :: caller :: rest)
      (fetched : fetch setting frame = .ok .ret) :
      Returns setting begins m caller.pos frame.outcome
  | last {frame : Frame} (frames : m.frames = [frame]) (fetched : fetch setting frame = .ok .ret) :
      Returns setting begins m begins frame.outcome

theorem returns_of_done {m : Machine} {o : Outcome}
    (done : step setting memoize m = .ok (.done o n)) : Returns setting begins m begins o := by
  obtain ⟨frame, rest, frames, transition⟩ := step_transition done
  cases transition with
  | done fetched last =>
      subst last
      exact .last frames fetched

/-- What holds in a state of a parse that began at a place. -/
structure Clean (setting : Setting) (may : Permit) (begins : Nat) (m : Machine) : Prop where
  /-- A call comes back with what is owed. -/
  returns : ∀ place o, Returns setting begins m place o → setting.Contract may place o
  /-- The parse is at a place of the input. -/
  inside : ∀ frame ∈ m.frames, frame.pos ≤ setting.bytes.size
  /-- Only slots that are there are read and written. -/
  slots : ∀ frame ∈ m.frames, ∀ i, fetch setting frame = .ok i → ∀ v ∈ i.slots, v < frame.slots.size
  /-- Nothing but host code stops the parse. -/
  stops : ∀ e, step setting true m = .error e → ∃ error, e = .host error

/-- A state with the invariant of a parse is clean. -/
theorem Orderly.clean (h : Orderly setting R begins start frame rest memo)
    (sound : setting.program.WellFormed) (roomy : Roomy setting ⟨frame :: rest, memo, n⟩) :
    Clean setting R.may begins ⟨frame :: rest, memo, n⟩ where
  returns place o returns := by
    cases returns with
    | hit frames _ _ known =>
        obtain ⟨rfl, -⟩ := List.cons.inj frames
        exact h.owes _ o known
    | left frames fetched =>
        obtain ⟨rfl, rfl⟩ := List.cons.inj frames
        have contract := h.leaves fetched
        cases h.below with
        | caller => exact contract
    | last frames fetched =>
        obtain ⟨rfl, rfl⟩ := List.cons.inj frames
        have contract := h.leaves fetched
        cases h.below with
        | bottom => exact contract
  inside := List.forall_mem_cons.2 ⟨h.behaves.within.2, h.below.inside⟩
  slots frame mem i fetched := (roomy frame mem).touches sound fetched
  stops _ stops := h.stops stops

end Machine

/-! ### Parses -/

namespace Parser

variable {options : Options} {natives : Host.Natives} {description : String} {p : Parser}
variable {input : Input} {r : RuleEntry} {args : List Value} {pos : Nat}

/-- What an outcome comes to that keeps the promise of a function. -/
theorem conclude_clean [Text.Display] {may : Permit} {o : Outcome} {full : Bool} {f : Fault}
    (contract : (p.setting input).Contract may pos o) :
    p.conclude input full o n ≠ .error (.internal f) := by
  intro stopped
  cases status : o.status with
  | true =>
      simp only [conclude, status, if_true] at stopped
      split at stopped
      · cases stopped
      · cases stopped
  | false =>
      obtain ⟨entry, known, same⟩ := contract.failure status
      have there : p.program.failures[entry]? = some _ := Array.getElem?_eq_getElem known
      have failed : p.conclude input full ⟨false, .failure entry, o.pos⟩ n = _ :=
        conclude_failed there n
      obtain ⟨b, x, q⟩ := o
      cases status
      cases same
      cases failed.symm.trans stopped

/-- The first frame of a parse has the invariant of all its states. -/
theorem entry_orderly [Regex.Engine] (built : build options natives description n = .ok (p, n'))
    (proper : natives.Proper p.program.permit) (mem : r ∈ p.program.rules)
    (bound : Value.AllProper p.program.permit args) (small : input.size < 2 ^ 63)
    (inside : pos ≤ input.size)
    (enters : Machine.enter (p.setting input) r.function args pos none = .ok frame) :
    Machine.Orderly (p.setting input) (.open p.program) pos pos frame [] ∅ := by
  obtain ⟨_, known, -⟩ := (build_wellFormed built).rules r mem
  refine .entry (serves_open built proper small _ (Array.getElem?_eq_some_iff.1 known).1 args bound
    pos inside none frame enters) ?_
  obtain ⟨_, -, -, rfl⟩ := Machine.enters_of_enter enters
  rfl

/-- The states of a parse are clean. -/
theorem states_clean [Regex.Engine] (built : build options natives description n = .ok (p, n'))
    (proper : natives.Proper p.program.permit) (mem : r ∈ p.program.rules)
    (bound : Value.AllProper p.program.permit args) (small : input.size < 2 ^ 63)
    (inside : pos ≤ input.size)
    (enters : Machine.enter (p.setting input) r.function args pos none = .ok frame) {identity k : Nat}
    {m : Machine} (leads : Machine.Leads (p.setting input) true k ⟨[frame], ∅, identity⟩ m) :
    m.Clean (p.setting input) p.program.permit pos := by
  have sound := build_wellFormed built
  have backs : (p.setting input).Backs (.open p.program) :=
    Setting.backs (serves_open built proper small) fun _ _ h => h
  obtain ⟨start, top, rest, frames, orderly⟩ :=
    (entry_orderly built proper mem bound small inside enters).leads backs sound.leftRecursion leads
  have roomy : m.Roomy (p.setting input) := leads.keeps (fun _ _ h moves => h.step moves)
    (List.forall_mem_singleton.2 (.of_enters (Machine.enters_of_enter enters)))
  obtain ⟨_, memo, identity⟩ := m
  obtain rfl := frames
  exact orderly.clean sound roomy

/-- A run comes to an outcome that is owed, or it is stopped by host code or by the number of its
steps. -/
theorem run_clean [Regex.Engine] (built : build options natives description n = .ok (p, n'))
    (proper : natives.Proper p.program.permit) (mem : r ∈ p.program.rules)
    (bound : Value.AllProper p.program.permit args) (small : input.size < 2 ^ 63)
    (inside : pos ≤ input.size) (identity : Nat) :
    (∃ o m, (p.setting input).run true r.function args pos identity = .ok (o, m) ∧
        (p.setting input).Contract p.program.permit pos o) ∨
      (∃ e, (p.setting input).run true r.function args pos identity = .error (.host e)) ∨
      (p.setting input).run true r.function args pos identity = fault .outOfSteps := by
  obtain ⟨_, known, -⟩ := (build_wellFormed built).rules r mem
  rw [Setting.run_eq, Setting.runFor]
  cases enters : Machine.enter (p.setting input) r.function args pos none with
  | error e =>
      obtain ⟨error, rfl⟩ := Machine.enter_stops (Array.getElem?_eq_some_iff.1 known).1 enters
      exact .inr (.inl ⟨error, rfl⟩)
  | ok frame =>
      change (∃ o m, Machine.run _ _ _ _ = _ ∧ _) ∨ (∃ e, Machine.run _ _ _ _ = _) ∨
        Machine.run _ _ _ _ = _
      rcases Machine.run_cases (p.setting input) true stepLimit ⟨[frame], ∅, identity⟩ with
        ⟨k, last, leads, ends⟩ | exhausted
      · have clean := states_clean built proper mem bound small inside enters leads
        rcases ends with ⟨e, stops, ends⟩ | ⟨o, m, done, ends⟩
        · obtain ⟨error, rfl⟩ := clean.stops e stops
          exact .inr (.inl ⟨error, ends⟩)
        · exact .inl ⟨o, m, ends, clean.returns pos o (Machine.returns_of_done done)⟩
      · exact .inr (.inr exhausted)

/-- **Every state of a parse is clean, and no parse comes to a fault.** The parse begins with a rule at
a place of the input; the values that it is given, and those that functions from outside come to, hold
no marks of failures and no parsers but those of the program. Positions are kept as integers of 64
bits, which are enough for every input that fits into memory. In each state that the parse may come
to, calls come back with what is owed, and slots, constants, labels and the places to go back to are
there. So the parse fails as its report says or in host code, if it does not exceed the number of
steps that it may take. -/
theorem parse_clean [Regex.Engine] [Text.Display]
    (built : build options natives description n = .ok (p, n'))
    (proper : natives.Proper p.program.permit) (mem : r ∈ p.program.rules)
    (bound : Value.AllProper p.program.permit args) (small : input.size < 2 ^ 63)
    (inside : pos ≤ input.size) :
    (∀ frame, Machine.enter (p.setting input) r.function args pos none = .ok frame →
      ∀ identity k m, Machine.Leads (p.setting input) true k ⟨[frame], ∅, identity⟩ m →
        m.Clean (p.setting input) p.program.permit pos) ∧
    ∀ full identity f, p.parseBound r args input pos full identity = .error (.internal f) →
      f = .outOfSteps := by
  refine ⟨fun frame enters identity k m =>
    states_clean built proper mem bound small inside enters, fun full identity f stopped => ?_⟩
  rw [parseBound] at stopped
  split at stopped
  · rw [runFunction, if_neg (Nat.not_lt.2 inside)] at stopped
    rcases run_clean built proper mem bound small inside identity with
      ⟨o, m, run, contract⟩ | ⟨e, run⟩ | run
    · exact absurd ((ok_bind run _).symm.trans stopped) (conclude_clean contract)
    · cases (Except.bind_eq_error.2 (.inr run)).symm.trans stopped
    · cases (Except.bind_eq_error.2 (.inr run)).symm.trans stopped
      rfl
  · cases stopped

theorem pair_enters : (match build {} [] "item = \"a\"\npair(x) = [x, x]" 0 with
    | .ok (p, _) => match p.program.rules with
      | [_, pair] => decide (0 < p.program.functions.size) &&
        (Machine.enter (p.setting (.text "aa")) pair.function [.parser 0 0 [] "item"] 0 none).isOk
      | _ => false
    | .error _ => false) = true := by decide +kernel

/-- A rule that is given another rule of its grammar. -/
theorem parse_clean_pair : ∃ p n item pair frame,
    build {} [] "item = \"a\"\npair(x) = [x, x]" 0 = .ok (p, n) ∧ p.program.rules = [item, pair] ∧
      Machine.enter (p.setting (.text "aa")) pair.function [.parser 0 0 [] "item"] 0 none =
        .ok frame ∧
      (∀ identity k m, Machine.Leads (p.setting (.text "aa")) true k ⟨[frame], ∅, identity⟩ m →
        m.Clean (p.setting (.text "aa")) p.program.permit 0) ∧
      ∀ full identity f, p.parseBound pair [.parser 0 0 [] "item"] (.text "aa") 0 full identity =
        .error (.internal f) → f = .outOfSteps := by
  have enters := pair_enters
  split at enters
  · next p n built =>
      split at enters
      · next item pair rules =>
          obtain ⟨known, enters⟩ := Bool.and_eq_true_iff.1 enters
          cases entered :
              Machine.enter (p.setting (.text "aa")) pair.function [.parser 0 0 [] "item"] 0 none with
          | error e => simp [entered, Except.isOk, Except.toBool] at enters
          | ok frame =>
              have bound : Value.AllProper p.program.permit [.parser 0 0 [] "item"] :=
                .cons (.parser 0 "item" (show 0 < p.program.functions.size from of_decide_eq_true known) .nil)
                  .nil
              have small : (Input.text "aa").size < 2 ^ 63 := by decide
              have clean := parse_clean built (fun _ _ found => by cases found) (r := pair)
                (by simp [rules]) bound small (Nat.zero_le _)
              exact ⟨p, n, item, pair, frame, built, rules, entered, clean.1 frame entered, clean.2⟩
      · cases enters
  · cases enters

end Parser

end Packrat
