import Packrat.Proofs.Conduct.Programs
import Packrat.Proofs.Execution.Activations
import Packrat.Proofs.Execution.Following

/-
**Parses keep the promise.**

In every state of a parse the frame on top behaves, and each frame below it will as soon as it is
given the outcome that it waits for.  What the memo table holds was owed where it was called, and so
is the failure that stands there for a function at work.

Main definitions:

* `Packrat.Setting.Backs` — functions that keep the promise of calls that are accounted for;
* `Packrat.Setting.Awaits` — frames that wait for outcomes;
* `Packrat.Machine.Orderly` — **the invariant of a parse**.

Main results:

* `Packrat.Machine.Orderly.step`, `Packrat.Machine.Orderly.leads` — every step keeps the invariant;
* `Packrat.Machine.Orderly.stops` — a step fails in host code only.
-/

set_option autoImplicit false

namespace Packrat

variable {setting : Setting} {R : Regime} {begins start : Nat} {frame caller callee : Frame}
variable {rest : List Frame} {memo : Std.HashMap MemoKey Outcome} {n n' : Nat}

/-! ### Calls that are accounted for -/

/-- Calls that are accounted for lead to frames that behave. -/
def Setting.Backs (setting : Setting) (R : Regime) : Prop :=
  ∀ f args pos key? callee, R.calls f args → f < setting.program.functions.size →
    pos ≤ setting.bytes.size → Machine.enter setting f args pos key? = .ok callee →
    setting.Behaves R pos callee

theorem Setting.backs (serves : ∀ k < setting.program.functions.size, setting.Serves R k)
    (proper : ∀ f args, R.calls f args → Value.AllProper R.may args) : setting.Backs R :=
  fun f args pos key? callee calls known inside enters =>
    serves f known args (proper f args calls) pos inside key? callee enters

namespace Setting.Behaves

variable {i : Instr} {f : Nat} {args : List Value}

/-- A frame that behaves stands between the place where it was called and the end of the input. -/
theorem within (h : setting.Behaves R start frame) :
    start ≤ frame.pos ∧ frame.pos ≤ setting.bytes.size := by
  cases h with
  | intro fetched forward inside => exact ⟨forward, inside⟩

/-- What a frame that behaves calls behaves as well. -/
theorem called (h : setting.Behaves R start frame) (backs : setting.Backs R)
    (fetched : Machine.fetch setting frame = .ok i)
    (work : i.execute setting frame.next n = .ok (.call frame.next f args, n')) :
    f < setting.program.functions.size ∧ ∀ key? callee,
      Machine.enter setting f args frame.pos key? = .ok callee →
        setting.Behaves R frame.pos callee := by
  cases h with
  | intro fetched' forward inside stops goes known enters =>
      obtain rfl := Except.ok.inj (fetched'.symm.trans fetched)
      have room := known n f args n' work
      refine ⟨room, fun key? callee entered => ?_⟩
      by_cases calls : R.calls f args
      · exact backs f args _ key? callee calls room inside entered
      · exact enters n f args n' key? callee work calls entered

end Setting.Behaves

/-! ### The frames of a parse -/

/-- The frames below one that was called at a place, down to the first one: each behaves once it is
given what it waits for. -/
inductive Setting.Awaits (setting : Setting) (R : Regime) (begins : Nat) :
    Nat → List Frame → Prop
  | bottom : Setting.Awaits setting R begins begins []
  | caller {start : Nat} {caller : Frame} {rest : List Frame}
      (inside : caller.pos ≤ setting.bytes.size)
      (resumes : ∀ o, setting.Contract R.may caller.pos o →
        setting.Behaves R start (caller.resume o))
      (keyed : ∀ key, caller.memoKey? = some key → key.2 = start)
      (below : Setting.Awaits setting R begins start rest) :
      Setting.Awaits setting R begins caller.pos (caller :: rest)

theorem Setting.Awaits.inside (h : setting.Awaits R begins start rest) :
    ∀ frame ∈ rest, frame.pos ≤ setting.bytes.size := by
  induction h with
  | bottom => simp
  | caller inside _ _ _ ih =>
      intro frame mem
      rcases List.mem_cons.1 mem with rfl | mem
      · exact inside
      · exact ih frame mem

namespace Machine

/-- A memo table that holds what is owed. -/
def Owes (setting : Setting) (R : Regime) (memo : Std.HashMap MemoKey Outcome) : Prop :=
  ∀ (key : MemoKey) (o : Outcome), memo[key]? = some o → setting.Contract R.may key.2 o

theorem Owes.insert (h : Owes setting R memo) {key : MemoKey} {o : Outcome}
    (contract : setting.Contract R.may key.2 o) : Owes setting R (memo.insert key o) := by
  intro k o' found
  rw [Std.HashMap.getElem?_insert] at found
  split at found
  · next same =>
      obtain rfl := eq_of_beq same
      obtain rfl := Option.some.inj found
      exact contract
  · exact h k o' found

theorem contract_seed {key : MemoKey} (listed : leftRecursion < setting.program.failures.size)
    (inside : key.2 ≤ setting.bytes.size) : setting.Contract R.may key.2 (seed key) :=
  .of_failure (Nat.le_refl _) inside listed

/-- The invariant of a parse: the frame on top behaves, those below wait, and the memo table holds what
is owed. -/
structure Orderly (setting : Setting) (R : Regime) (begins start : Nat) (frame : Frame)
    (rest : List Frame) (memo : Std.HashMap MemoKey Outcome) : Prop where
  behaves : setting.Behaves R start frame
  keyed : ∀ key, frame.memoKey? = some key → key.2 = start
  below : setting.Awaits R begins start rest
  owes : Owes setting R memo

/-- A function that is there is entered, unless it has been given too many values or too few. -/
theorem enter_stops {f pos : Nat} {args : List Value} {key? : Option MemoKey} {e : Failure}
    (known : f < setting.program.functions.size)
    (stops : enter setting f args pos key? = .error e) : ∃ error, e = .host error := by
  obtain ⟨g, hg⟩ : ∃ g, setting.program.functions[f]? = some g :=
    ⟨_, Array.getElem?_eq_getElem known⟩
  by_cases arity : args.length = g.params.length
  · rw [enter_ok hg arity] at stops
    cases stops
  · rw [enter_arity hg arity] at stops
    exact ⟨_, (Except.error.inj stops).symm⟩

theorem callFrom_stops {f : Nat} {args : List Value} {e : Failure}
    (known : f < setting.program.functions.size)
    (stops : callFrom setting true frame rest memo n f args = .error e) :
    ∃ error, e = .host error := by
  simp only [callFrom] at stops
  split at stops
  · split at stops
    · cases stops
    · obtain ⟨_, -, h⟩ | h := Except.bind_eq_error.1 stops
      · cases h
      · exact enter_stops known h
  · obtain ⟨_, -, h⟩ | h := Except.bind_eq_error.1 stops
    · cases h
    · exact enter_stops known h

/-- Work that fails is a step that fails. -/
theorem step_failed {i : Instr} {e : Failure} (fetched : fetch setting frame = .ok i)
    (work : i.execute setting frame.next n = .error e) :
    step setting true ⟨frame :: rest, memo, n⟩ = .error e := by
  refine (ok_bind fetched _).trans ?_
  change (i.execute setting frame.next n >>= _) = _
  rw [work]
  rfl

namespace Orderly

variable {i : Instr} {f : Nat} {args : List Value} {o : Outcome}

/-- A parse begins with nothing remembered. -/
theorem entry {pos : Nat} (behaves : setting.Behaves R pos frame) (free : frame.memoKey? = none) :
    Orderly setting R pos pos frame [] ∅ where
  behaves := behaves
  keyed key h := by simp [free] at h
  below := .bottom
  owes key o h := by simp at h

/-- A call that is answered from the memo table. -/
theorem hit (h : Orderly setting R begins start frame rest memo)
    (fetched : fetch setting frame = .ok i)
    (work : i.execute setting frame.next n = .ok (.call frame.next f args, n'))
    (known : memo[(f, frame.pos)]? = some o) :
    Orderly setting R begins start (frame.next.resume o) rest memo := by
  refine ⟨?_, h.keyed, h.below, h.owes⟩
  cases h.behaves with
  | intro fetched' _ _ _ _ _ _ resumes =>
      obtain rfl := Except.ok.inj (fetched'.symm.trans fetched)
      exact resumes n f args n' o work (h.owes _ o known)

/-- A frame that is put on top of one that has called it. -/
theorem push (h : Orderly setting R begins start frame rest memo) (backs : setting.Backs R)
    (fetched : fetch setting frame = .ok i)
    (work : i.execute setting frame.next n = .ok (.call frame.next f args, n'))
    {key? : Option MemoKey} (enters : Enters setting f args frame.pos key? callee)
    (keyed : ∀ key, key? = some key → key.2 = frame.pos)
    {memo' : Std.HashMap MemoKey Outcome} (owes : Owes setting R memo') :
    Orderly setting R begins frame.pos callee (frame.next :: rest) memo' := by
  have waits : setting.Awaits R begins frame.next.pos (frame.next :: rest) := by
    refine .caller h.behaves.within.2 (fun o contract => ?_) h.keyed h.below
    cases h.behaves with
    | intro fetched' _ _ _ _ _ _ resumes =>
        obtain rfl := Except.ok.inj (fetched'.symm.trans fetched)
        exact resumes n f args n' o work contract
  refine ⟨(h.behaves.called backs fetched work).2 key? callee enters.enter, ?_, waits, owes⟩
  obtain ⟨g, -, -, rfl⟩ := enters
  exact keyed

/-- What is owed when the frame on top is left. -/
theorem leaves (h : Orderly setting R begins start frame rest memo)
    (fetched : fetch setting frame = .ok .ret) :
    setting.Contract R.may start frame.outcome := by
  cases h.behaves with
  | intro fetched' _ _ _ _ _ _ _ leaves =>
      exact leaves (Except.ok.inj (fetched'.symm.trans fetched))

/-- A return. -/
theorem ret (h : Orderly setting R begins start frame (caller :: rest) memo)
    (fetched : fetch setting frame = .ok .ret) :
    ∃ start', Orderly setting R begins start' (caller.resume frame.outcome) rest
      (remember frame memo) := by
  have contract := h.leaves fetched
  obtain ⟨-, keyed, below, owes⟩ := h
  cases below with
  | @caller start' _ _ inside resumes keyed' below =>
      refine ⟨start', resumes _ contract, keyed', below, ?_⟩
      rw [remember]
      split
      · next key kept =>
          refine owes.insert ?_
          rw [keyed key kept]
          exact contract
      · exact owes

/-- Every step keeps the invariant. -/
theorem step (h : Orderly setting R begins start frame rest memo) (backs : setting.Backs R)
    (listed : leftRecursion < setting.program.failures.size) {m : Machine}
    (moves : Machine.step setting true ⟨frame :: rest, memo, n⟩ = .ok (.running m)) :
    ∃ start' frame' rest', m.frames = frame' :: rest' ∧
      Orderly setting R begins start' frame' rest' m.memo := by
  obtain ⟨_, _, same, transition⟩ := step_transition moves
  obtain ⟨rfl, rfl⟩ := List.cons.inj same
  cases transition with
  | next fetched work moved =>
      refine ⟨start, _, rest, rfl, ?_, ?_, h.below, h.owes⟩
      · cases h.behaves with
        | intro fetched' _ _ _ goes =>
            obtain rfl := Except.ok.inj (fetched'.symm.trans fetched)
            exact goes n _ _ work
      · rw [moved.memoKey?]
        exact h.keyed
  | hit fetched work known => exact ⟨start, _, rest, rfl, h.hit fetched work known⟩
  | miss fetched work _ _ enters =>
      refine ⟨_, _, _, rfl, h.push backs fetched work enters ?_ (h.owes.insert ?_)⟩
      · rintro _ ⟨⟩
        rfl
      · exact contract_seed listed h.behaves.within.2
  | call fetched work _ enters =>
      exact ⟨_, _, _, rfl, h.push backs fetched work enters (by simp) h.owes⟩
  | ret fetched callers =>
      subst callers
      obtain ⟨start', orderly⟩ := h.ret fetched
      exact ⟨start', _, _, rfl, orderly⟩

/-- All states of a parse keep the invariant. -/
theorem leads (h : Orderly setting R begins start frame rest memo) (backs : setting.Backs R)
    (listed : leftRecursion < setting.program.failures.size) {k : Nat} {m : Machine}
    (leads : Leads setting true k ⟨frame :: rest, memo, n⟩ m) :
    ∃ start' frame' rest', m.frames = frame' :: rest' ∧
      Orderly setting R begins start' frame' rest' m.memo := by
  generalize begun : (⟨frame :: rest, memo, n⟩ : Machine) = first at leads
  induction leads generalizing start frame rest memo n with
  | refl =>
      subst begun
      exact ⟨start, frame, rest, rfl, h⟩
  | step moves _ ih =>
      subst begun
      obtain ⟨start', frame', rest', frames, orderly⟩ := h.step backs listed moves
      exact ih orderly (by rw [← frames])

/-- A step fails in host code only. -/
theorem stops (h : Orderly setting R begins start frame rest memo) {e : Failure}
    (stops : Machine.step setting true ⟨frame :: rest, memo, n⟩ = .error e) :
    ∃ error, e = .host error := by
  cases h.behaves with
  | @intro _ _ i fetched _ _ fails _ known =>
      cases work : i.execute setting frame.next n with
      | error e' =>
          refine fails n e ?_
          rw [step_failed fetched work] at stops
          rw [work, Except.error.inj stops]
      | ok p =>
          obtain ⟨action, n'⟩ := p
          rw [step_work fetched work] at stops
          cases Instr.execute_cases work with
          | next | ret => cases stops
          | call f args =>
              cases called : callFrom setting true frame.next rest memo n' f args with
              | ok m => simp [called, Except.map] at stops
              | error e' =>
                  obtain rfl : e' = e := by simpa [called, Except.map] using stops
                  exact callFrom_stops (known n f args n' work) called

end Orderly

end Machine

end Packrat
