import Packrat.Proofs.Execution.Listed
import Packrat.Proofs.Recursion.Histories
import Packrat.Proofs.Simulation.Programs
import Packrat.Regex.Search

/-
**The memo table is transparent.**

A parse that comes to an end without a memo table comes to the same with one, and never calls a
function that is at work.  Host code must not see which of two equal values it is given: a function
that a parse remembers is the same one each time it is asked for, and would be a new one otherwise.

Main definitions:

* `Packrat.Machine.Indifferent` — runs that come to the same with another library;
* `Packrat.Machine.Recurs` — a machine that is about to call a function which is at work.

Main results:

* `Packrat.Setting.ends_remembered` — **runs come to the same with a memo table**.
-/

set_option autoImplicit false

namespace Packrat

open Likeness (contents)

/-! ### Other libraries -/

/-- A setting with another library. -/
def Setting.using (setting : Setting) (lib : Host.Library) : Setting :=
  { setting with library := lib }

namespace Exec

variable {α β : Type} {n : Nat}

theorem lift_error_bind (e : Failure) (k : α → Exec β) (n : Nat) :
    ((liftM (Except.error e : Except Failure α) : Exec α) >>= k) n = .error e := rfl

/-- Work in parts, each of which comes to the same. -/
theorem bind_congr {x y : Exec α} {f g : α → Exec β} (first : x n = y n) (next : ∀ a, f a = g a) :
    (x >>= f) n = (y >>= g) n := by
  obtain rfl : f = g := funext next
  change (x n >>= fun p => f p.1 p.2) = (y n >>= fun p => f p.1 p.2)
  rw [first]

end Exec

theorem Action.turn_using (setting : Setting) (lib : Host.Library) (action : Action) :
    action.turn (setting.using lib) = action.turn setting := by
  cases action <;> rfl

namespace Machine

variable {setting : Setting} {lib : Host.Library} {memoize : Bool} {m m' : Machine}
variable {frame : Frame} {rest : List Frame} {memo : Std.HashMap MemoKey Outcome} {k n : Nat}

/-- The instruction at hand comes to the same with another library. -/
def Unmoved (setting : Setting) (lib : Host.Library) (m : Machine) : Prop :=
  ∀ frame rest i, m.frames = frame :: rest → fetch setting frame = .ok i →
    i.execute (setting.using lib) frame.next m.identity =
      i.execute setting frame.next m.identity

/-- No instruction of a run comes to anything else with another library. -/
def Indifferent (setting : Setting) (lib : Host.Library) (memoize : Bool) (m : Machine) : Prop :=
  ∀ k m', Leads setting memoize k m m' → Unmoved setting lib m'

/-- A machine that is about to call a function which is at work at the same place. -/
def Recurs (setting : Setting) (m : Machine) : Prop :=
  ∃ frame rest caller function callee n, m.frames = frame :: rest ∧
    frame.turn setting m.identity = .ok (.call caller function [] callee, n) ∧
    ∃ f ∈ m.frames, f.memoKey? = some (function, caller.pos)

theorem fetch_using (setting : Setting) (lib : Host.Library) (frame : Frame) :
    fetch (setting.using lib) frame = fetch setting frame := rfl

theorem Unmoved.turn (h : Unmoved setting lib ⟨frame :: rest, memo, n⟩) :
    frame.turn (setting.using lib) n = frame.turn setting n := by
  rw [Frame.turn, Frame.turn, fetch_using]
  cases fetched : fetch setting frame with
  | error e => rw [Exec.lift_error_bind, Exec.lift_error_bind]
  | ok i =>
      have work := h frame rest i rfl fetched
      rw [Exec.lift_bind rfl, Exec.lift_bind rfl]
      exact Exec.bind_congr work (Action.turn_using setting lib)

theorem Unmoved.step (h : Unmoved setting lib m) :
    Machine.step (setting.using lib) memoize m = Machine.step setting memoize m := by
  obtain ⟨_ | ⟨frame, rest⟩, memo, n⟩ := m
  · rfl
  · cases fetched : fetch setting frame with
    | error e =>
        have fetched' : fetch (setting.using lib) frame = .error e := fetched
        simp only [Machine.step, fetched, fetched', bind, Except.bind]
    | ok i =>
        have work := h frame rest i rfl fetched
        have fetched' : fetch (setting.using lib) frame = .ok i := fetched
        simp only [Machine.step, fetched, fetched', bind, Except.bind, StateT.run]
        rw [show i.execute (setting.using lib) { frame with pc := frame.pc + 1 } n = _ from work]
        rfl

namespace Indifferent

/-- Later on, too. -/
theorem after (h : Indifferent setting lib memoize m) (leads : Leads setting memoize k m m') :
    Indifferent setting lib memoize m' := fun l m'' leads' => h (k + l) m'' (leads.trans leads')

theorem leads (h : Indifferent setting lib memoize m) :
    Leads (setting.using lib) memoize k m m' ↔ Leads setting memoize k m m' := by
  constructor
  · intro leads
    induction leads with
    | refl => exact .refl _
    | step hs _ ih =>
        rw [(h 0 _ (.refl _)).step] at hs
        exact .step hs (ih (h.after (.step hs (.refl _))))
  · intro leads
    induction leads with
    | refl => exact .refl _
    | step hs _ ih =>
        refine .step ?_ (ih (h.after (.step hs (.refl _))))
        rw [(h 0 _ (.refl _)).step, hs]

theorem run (h : Indifferent setting lib memoize m) (fuel : Nat) :
    Machine.run (setting.using lib) memoize fuel m = Machine.run setting memoize fuel m := by
  induction fuel generalizing m with
  | zero => rfl
  | succ fuel ih =>
      rw [Machine.run, Machine.run, (h 0 _ (.refl _)).step]
      cases hs : Machine.step setting memoize m with
      | error e => rfl
      | ok p =>
          cases p with
          | done => rfl
          | running m' => exact ih (h.after (.step hs (.refl _)))

end Indifferent

/-- A parse whose first frame comes to an end without a memo table never calls a function that is at
work. -/
theorem not_recurs (respects : contents.Respects lib) {function pos : Nat} {args : List Value}
    {entry : Frame} {l : Nat} {out : Except Host.Error Frame}
    (enters : Enters setting function args pos none entry)
    (same : Indifferent setting lib true ⟨[entry], ∅, n⟩)
    (finishes : entry.Finishes (setting.using lib) l out)
    (leads : Leads setting true k ⟨[entry], ∅, n⟩ m) : ¬ m.Recurs setting := by
  rintro ⟨frame, rest, caller, function, callee, n', frames, turn, f, mem, keeps⟩
  have respects' : contents.Respects (setting.using lib).library := respects
  obtain ⟨_, -, -, free⟩ := enters
  have start : Tracked (setting.using lib) entry entry entry [] ∅ := .entry (by rw [free]; rfl)
  obtain ⟨first, frame', rest', frames', tracked⟩ := start.leads respects' (same.leads.2 leads)
  obtain ⟨rfl, rfl⟩ := List.cons.inj (frames.symm.trans frames')
  have now : Unmoved setting lib ⟨frame :: rest, m.memo, m.identity⟩ := by
    have := same k m leads
    rwa [show m = ⟨frame :: rest, m.memo, m.identity⟩ by rw [← frames]] at this
  rw [← now.turn] at turn
  exact tracked.unread respects' finishes turn f (frames ▸ mem) keeps

/-- A machine that has been led to its last return is done. -/
theorem Leads.run_done {last : Frame} {n' : Nat}
    (leads : Leads setting memoize k m ⟨[last], memo, n'⟩) (returns : last.Returning setting)
    (extra : Nat) :
    Machine.run setting memoize (k + 1 + extra) m = .ok (last.outcome, n') := by
  rw [Nat.add_assoc, leads.run_add, Nat.add_comm, Machine.run,
    step_turn (returns.turn n') fun _ _ _ _ same => by cases same]
  rfl

theorem Leads.run_stop {e : Failure} (leads : Leads setting memoize k m m')
    (stops : Machine.step setting memoize m' = .error e) (extra : Nat) :
    Machine.run setting memoize (k + 1 + extra) m = .error e := by
  rw [Nat.add_assoc, leads.run_add, Nat.add_comm, Machine.run, stops]

end Machine

/-! ### States of a parse -/

/-- A state of a parse with a memo table in which host code does not tell values of the same contents
apart. -/
def Setting.Visits (setting : Setting) (lib : Host.Library) (m : Machine) : Prop :=
  ∃ function args pos n entry k, Machine.enter setting function args pos none = .ok entry ∧
    Machine.Indifferent setting lib true ⟨[entry], ∅, n⟩ ∧
    Machine.Leads setting true k ⟨[entry], ∅, n⟩ m

namespace Setting.Visits

open Machine

variable {setting : Setting} {lib : Host.Library} {frame frame' : Frame} {rest : List Frame}
variable {memo : Std.HashMap MemoKey Outcome} {k n n' : Nat}

theorem indifferent {m : Machine} (h : setting.Visits lib m) : Indifferent setting lib true m := by
  obtain ⟨_, _, _, _, _, _, -, same, leads⟩ := h
  exact same.after leads

theorem unmoved {m : Machine} (h : setting.Visits lib m) : Unmoved setting lib m :=
  h.indifferent 0 m (.refl m)

/-- Whatever the parse, its memo table is right about all that takes fewer steps than the frame at
hand has before it. -/
theorem remembers (respects : contents.Respects lib)
    (h : setting.Visits lib ⟨frame :: rest, memo, n⟩) {goal : Frame → Prop}
    {out : Except Host.Error (Frame × Nat)} (comes : frame.Comes (setting.using lib) goal k n' out) :
    Remembers (setting.using lib) k memo := by
  obtain ⟨_, _, _, _, entry, _, entered, same, leads⟩ := h
  have respects' : contents.Respects (setting.using lib).library := respects
  obtain ⟨_, -, -, free⟩ := enters_of_enter entered
  have start : Tracked (setting.using lib) entry entry entry [] ∅ := .entry (by rw [free]; rfl)
  obtain ⟨_, _, _, frames, tracked⟩ := start.leads respects' (same.leads.2 leads)
  obtain ⟨rfl, rfl⟩ := List.cons.inj frames
  exact tracked.remembers respects' comes

/-- What a frame comes to without a memo table, it comes to in the middle of a parse. -/
theorem comes (respects : contents.Respects lib)
    (h : setting.Visits lib ⟨frame' :: rest, memo, n⟩) {goal : Frame → Prop} {last : Frame}
    {m : Nat} (comes : frame.Comes (setting.using lib) goal k m (.ok (last, n')))
    (same : frame.Like frame') :
    ∃ j last' memo' n'',
      Leads setting true j ⟨frame' :: rest, memo, n⟩ ⟨last' :: rest, memo', n''⟩ ∧
      last.Like last' ∧ last'.memoKey? = frame'.memoKey? := by
  have respects' : contents.Respects (setting.using lib).library := respects
  obtain ⟨_, again, -⟩ :=
    (comes.mono fun _ _ => trivial).like respects' (fun _ _ _ (h : True) => h) same n
  obtain ⟨j, last', memo', n'', -, leads, like, kept, -⟩ :=
    mirrors respects' comes same rest n (Nat.le_refl k) (h.remembers respects again)
  exact ⟨j, last', memo', n'', h.indifferent.leads.1 leads, like, kept⟩

/-- A call is answered with what its function comes to without a memo table. -/
theorem answers (respects : contents.Respects lib)
    (h : setting.Visits lib ⟨frame :: rest, memo, n⟩) {caller callee last : Frame}
    {function m l : Nat} {args : List Value}
    (turn : frame.turn setting n = .ok (.call caller function args callee, m))
    (comes : callee.Comes (setting.using lib) (Frame.Returning (setting.using lib)) l n'
      (.ok (last, k))) :
    ∃ j o memo' n'',
      Leads setting true j ⟨frame :: rest, memo, n⟩ ⟨caller.resume o :: rest, memo', n''⟩ ∧
      last.outcome.Like o := by
  have respects' : contents.Respects (setting.using lib).library := respects
  have turn' : frame.turn (setting.using lib) n = _ := h.unmoved.turn.trans turn
  obtain ⟨_, inner, ⟨same⟩⟩ := comes.like respects' (fun _ _ => Frame.Like.returning) (.refl _) m
  have whole : frame.Comes (setting.using lib) (fun _ => True) (l + 0 + 2) n (.ok (_, _)) :=
    .call turn' inner (.here trivial)
  obtain ⟨j, o, memo', n'', -, leads, like, -⟩ := Machine.answers respects' inner turn' (.refl _)
    rest (Nat.lt_add_of_pos_right (Nat.succ_pos 1)) (h.remembers respects whole)
    fun _ rest m _ _ same le remembers => mirrors respects' inner same rest m le remembers
  exact ⟨j, o, memo', n'', h.indifferent.leads.1 leads, same.outcome.trans like⟩

end Setting.Visits

/-! ### Programs without host code -/

/-- Whether an instruction runs host code. -/
def Instr.runsHost : Instr → Bool
  | .eval _ _ | .apply _ _ | .test _ _ _ => true
  | _ => false

theorem Instr.execute_using {i : Instr} (h : i.runsHost = false) (setting : Setting)
    (lib : Host.Library) (frame : Frame) :
    i.execute (setting.using lib) frame = i.execute setting frame := by
  cases i with
  | eval | apply | test => cases h
  | call callee => cases callee <;> rfl
  | _ => rfl

/-- What is fetched is an instruction of the program. -/
theorem Machine.mem_of_fetch {setting : Setting} {frame : Frame} {i : Instr}
    (h : fetch setting frame = .ok i) : ∃ f ∈ setting.program.functions, i ∈ f.code := by
  simp only [fetch, poolEntry, bind, Except.bind] at h
  cases hf : setting.program.functions[frame.function]? with
  | none => simp [hf, fault] at h
  | some f =>
      simp only [hf] at h
      cases hi : f.code[frame.pc]? with
      | none => simp [hi, fault] at h
      | some j =>
          obtain rfl : j = i := by simpa [hi, pure, Except.pure] using h
          exact ⟨f, Array.mem_of_getElem? hf, Array.mem_of_getElem? hi⟩

/-- A program without host code comes to the same with any library. -/
theorem Machine.indifferent_of_hostless {setting : Setting}
    (h : ∀ f ∈ setting.program.functions, ∀ i ∈ f.code, i.runsHost = false) (lib : Host.Library)
    (memoize : Bool) (m : Machine) : Indifferent setting lib memoize m := by
  intro k m' _ frame rest i _ fetched
  obtain ⟨f, hf, hi⟩ := mem_of_fetch fetched
  rw [Instr.execute_using (h f hf i hi)]

/-- A library with nothing in it, for which all comparisons fail. -/
def Host.Library.blind : Host.Library := ⟨[], fun _ _ _ => .ok false⟩

theorem Host.Library.respects_blind {L : Likeness} : L.Respects .blind where
  compare _ _ _ _ _ _ _ := rfl
  natives _ _ h := nomatch h

/-! ### Runs -/

namespace Setting

variable {setting : Setting} {lib : Host.Library} {function pos n : Nat} {args : List Value}

/-- A run whose first frame comes to an end without a memo table. -/
theorem finishes_of_ends {r : Except Failure (Outcome × Nat)} {entry : Frame}
    (entered : Machine.enter setting function args pos none = .ok entry)
    (h : setting.Ends false function args pos n r)
    (same : Machine.Indifferent setting lib false ⟨[entry], ∅, n⟩)
    (ended : (∃ out, r = .ok out) ∨ ∃ e, r = .error (.host e)) :
    ∃ l out, entry.Comes (setting.using lib) (Frame.Returning (setting.using lib)) l n out ∧
      r = match out with
        | .ok (last, n') => .ok (last.outcome, n')
        | .error e => .error (.host e) := by
  obtain ⟨fuel, h⟩ := h
  have run := h 0
  rw [runFor, entered] at run
  change Machine.run setting false fuel ⟨[entry], ∅, n⟩ = r at run
  rw [← same.run] at run
  rcases Machine.comes_of_run run ended with
    ⟨l, e, comes, -, rfl⟩ | ⟨l, j, last, n', -, comes, rfl⟩
  · exact ⟨l, .error e, comes, rfl⟩
  · exact ⟨l, .ok (last, n'), comes, rfl⟩

/-- Where a first frame comes to an end without a memo table, the run with one does as well. -/
theorem ends_of_comes (respects : contents.Respects lib) {entry : Frame} {l : Nat}
    {out : Except Host.Error (Frame × Nat)}
    (entered : Machine.enter setting function args pos none = .ok entry)
    (same : Machine.Indifferent setting lib true ⟨[entry], ∅, n⟩)
    (comes : entry.Comes (setting.using lib) (Frame.Returning (setting.using lib)) l n out) :
    match out with
    | .ok (last, _) => ∃ o n', setting.Ends true function args pos n (.ok (o, n')) ∧
        last.outcome.Like o
    | .error e => setting.Ends true function args pos n (.error (.host e)) := by
  have begins (fuel : Nat) : setting.runFor true fuel function args pos n =
      Machine.run setting true fuel ⟨[entry], ∅, n⟩ := by
    rw [runFor, entered]
    rfl
  have respects' : contents.Respects (setting.using lib).library := respects
  have nothing : Machine.Remembers (setting.using lib) l ∅ := .empty
  have mirrors := Machine.mirrors respects' comes (.refl _) [] n (Nat.le_refl l) nothing
  cases out with
  | ok p =>
      obtain ⟨last, _⟩ := p
      obtain ⟨j, last', memo, n', -, leads, like, -, -⟩ := mirrors
      have returns : last'.Returning setting := like.returning comes.reached
      refine ⟨last'.outcome, n', ⟨j + 1, fun extra => ?_⟩, like.outcome⟩
      rw [begins, (same.leads.1 leads).run_done returns]
  | error e =>
      obtain ⟨j, m, -, leads, stops⟩ := mirrors
      have leads' := same.leads.1 leads
      refine ⟨j + 1, fun extra => ?_⟩
      rw [begins, leads'.run_stop ((same j m leads').step.symm.trans stops)]

/-- **The memo table is transparent.** If host code does not tell values of the same contents apart
during a run, and the run comes to an outcome without a memo table or is stopped by an error of host
code, then with a memo table it comes to an outcome with the same status, at the same place and with
a value of the same contents, or is stopped by the same error.  On the way no function is called
that is at work at the same place, so what the memo table holds for such functions is never read. -/
theorem ends_remembered (respects : contents.Respects lib)
    (same : ∀ memoize entry, Machine.enter setting function args pos none = .ok entry →
      Machine.Indifferent setting lib memoize ⟨[entry], ∅, n⟩) :
    (∀ o n', setting.Ends false function args pos n (.ok (o, n')) →
      ∃ o' n'', setting.Ends true function args pos n (.ok (o', n'')) ∧ o.Like o') ∧
    (∀ e, setting.Ends false function args pos n (.error (.host e)) →
      setting.Ends true function args pos n (.error (.host e))) ∧
    ∀ r, setting.Ends false function args pos n r →
      ((∃ out, r = .ok out) ∨ ∃ e, r = .error (.host e)) →
      ∀ entry k m, Machine.enter setting function args pos none = .ok entry →
        Machine.Leads setting true k ⟨[entry], ∅, n⟩ m → ¬ m.Recurs setting := by
  cases entered : Machine.enter setting function args pos none with
  | error e =>
      have refuses (memoize : Bool) (fuel : Nat) :
          setting.runFor memoize fuel function args pos n = .error e := by
        rw [runFor, entered]
        rfl
      refine ⟨fun o n' ends => ?_, fun e' ends => ⟨0, fun extra => ?_⟩, fun _ _ _ _ _ _ h => ?_⟩
      · obtain ⟨fuel, h⟩ := ends
        cases (refuses false (fuel + 0)).symm.trans (h 0)
      · obtain ⟨fuel, h⟩ := ends
        rw [refuses, ← h 0, refuses]
      · cases h
  | ok entry =>
      refine ⟨fun o n' ends => ?_, fun e ends => ?_, fun r ends ended _ k m begun leads => ?_⟩
      · obtain ⟨l, out, comes, shape⟩ :=
          finishes_of_ends entered ends (same false entry entered) (.inl ⟨_, rfl⟩)
        have remembered := ends_of_comes respects entered (same true entry entered) comes
        cases out with
        | ok p =>
            obtain rfl : o = p.1.outcome := (Prod.mk.inj (Except.ok.inj shape)).1
            exact remembered
        | error e => cases shape
      · obtain ⟨l, out, comes, shape⟩ :=
          finishes_of_ends entered ends (same false entry entered) (.inr ⟨_, rfl⟩)
        have remembered := ends_of_comes respects entered (same true entry entered) comes
        cases out with
        | ok p => cases shape
        | error e' =>
            obtain rfl : e = e' := by simpa using shape
            exact remembered
      · obtain rfl := Except.ok.inj begun
        obtain ⟨l, out, comes, -⟩ := finishes_of_ends entered ends (same false entry entered) ended
        exact Machine.not_recurs respects (Machine.enters_of_enter entered)
          (same true entry entered) (.of_comes respects comes (.refl entry)) leads

end Setting

/-! ### Runs that can be evaluated -/

/-- A program that is given some bytes to read. -/
def Program.given (program : Program) (bytes : ByteArray) : Setting :=
  ⟨program, ⟨[], Host.compareOp⟩, [], bytes, false⟩

namespace Setting

variable {setting : Setting} {memoize : Bool} {fuel function pos n : Nat} {args : List Value}

theorem Ends.of_runFor {out : Outcome × Nat}
    (h : setting.runFor memoize fuel function args pos n = .ok out) :
    setting.Ends memoize function args pos n (.ok out) := by
  refine ⟨fuel, fun extra => ?_⟩
  rw [runFor] at h ⊢
  cases entered : Machine.enter setting function args pos none with
  | error e =>
      rw [entered] at h
      cases h
  | ok entry =>
      rw [entered] at h
      exact Machine.run_more h extra

/-- A run with a memo table that is a list. -/
def runListed (setting : Setting) (fuel function : Nat) (args : List Value) (pos n : Nat) :
    Except Failure (Outcome × Nat) := do
  let entry ← Machine.enter setting function args pos none
  Machine.Listed.run setting fuel ⟨[entry], [], n⟩

theorem Ends.of_runListed {out : Outcome × Nat}
    (h : setting.runListed fuel function args pos n = .ok out) :
    setting.Ends true function args pos n (.ok out) := by
  refine .of_runFor (show setting.runFor true fuel function args pos n = .ok out from ?_)
  rw [runFor]
  rw [runListed] at h
  cases entered : Machine.enter setting function args pos none with
  | error e =>
      rw [entered] at h
      cases h
  | ok entry =>
      rw [entered] at h
      exact Machine.run_of_listed .empty h

/-- Whether a run has come to an outcome of a certain kind. -/
def comesTo (test : Outcome → Bool) : Except Failure (Outcome × Nat) → Bool
  | .ok (o, _) => test o
  | .error _ => false

theorem eq_ok_of_comesTo {test : Outcome → Bool} {r : Except Failure (Outcome × Nat)}
    (h : comesTo test r = true) : ∃ o n, r = .ok (o, n) ∧ test o = true := by
  match r, h with
  | .ok (o, n), h => exact ⟨o, n, rfl, h⟩

end Setting

/-- A grammar whose second rule reads its first one twice at the same place. -/
def Grammar.peeking : Grammar where
  definitions := [
    { name := "a", params := none
      body := .opt ⟨1, .nowhere⟩ (.str ⟨2, .nowhere⟩ [120] ⟨false, false, false⟩)
      ignored := false, fields := none, synthetic := false, source := "", span := .nowhere },
    { name := "start", params := none
      body := .seq ⟨3, .nowhere⟩
        [.expect ⟨4, .nowhere⟩ (.ref ⟨5, .nowhere⟩ "a" (.rule (ruleFunction "a"))),
          .ref ⟨6, .nowhere⟩ "a" (.rule (ruleFunction "a"))] none
      ignored := false, fields := none, synthetic := false, source := "", span := .nowhere }]
  sections := []

/-- The second reading is answered from the memo table, and makes no difference. -/
theorem Setting.ends_remembered_peeking :
    ∃ program n o o' n₁ n₂, Grammar.peeking.compile 2 0 = .ok (program, n) ∧
      (program.given ⟨#[120]⟩).Ends false 1 [] 0 n (.ok (o, n₁)) ∧
      (program.given ⟨#[120]⟩).Ends true 1 [] 0 n (.ok (o', n₂)) ∧ o.Like o' ∧
      (o.status && o.pos == 1) = true := by
  have evaluated : (match Grammar.peeking.compile 2 0 with
      | .error _ => false
      | .ok (program, n) =>
        comesTo (fun o => o.status && o.pos == 1)
          ((program.given ⟨#[120]⟩).runFor false 60 1 [] 0 n) &&
        program.functions.all fun f => f.code.all fun i => !i.runsHost) = true := by decide +kernel
  cases compiled : Grammar.peeking.compile 2 0 with
  | error e =>
      rw [compiled] at evaluated
      cases evaluated
  | ok p =>
      obtain ⟨program, n⟩ := p
      rw [compiled, Bool.and_eq_true] at evaluated
      obtain ⟨succeeds, hostless⟩ := evaluated
      obtain ⟨o, n₁, run, shape⟩ := eq_ok_of_comesTo succeeds
      have ends := Ends.of_runFor run
      have hostless' : ∀ f ∈ program.functions, ∀ i ∈ f.code, i.runsHost = false := by
        intro f hf i hi
        have code := Array.all_eq_true_iff_forall_mem.1 hostless f hf
        simpa using Array.all_eq_true_iff_forall_mem.1 code i hi
      obtain ⟨o', n₂, ends', like⟩ := (ends_remembered Host.Library.respects_blind
        fun memoize entry _ => Machine.indifferent_of_hostless hostless' _ _ _).1 o n₁ ends
      exact ⟨program, n, o, o', n₁, n₂, rfl, ends, ends', like, shape⟩

/-- A grammar whose first rule is worth a function, and whose second rule compares two of them. -/
def Grammar.comparing : Grammar where
  definitions := [
    { name := "f", params := none
      body := .host ⟨1, .nowhere⟩ ⟨"lambda x: x", .lambda ["x"] (.name "x"), []⟩
      ignored := false, fields := none, synthetic := false, source := "", span := .nowhere },
    { name := "start", params := none
      body := .apply ⟨2, .nowhere⟩
        (.seq ⟨3, .nowhere⟩ [.ref ⟨4, .nowhere⟩ "f" (.rule (ruleFunction "f")),
          .ref ⟨5, .nowhere⟩ "f" (.rule (ruleFunction "f"))] none)
        (.host ⟨6, .nowhere⟩ ⟨"lambda p: p[0] == p[1]", .lambda ["p"]
          (.compare (.index (.name "p") (.literal (.int 0)))
            [(.eq, .index (.name "p") (.literal (.int 1)))]), []⟩) false
      ignored := false, fields := none, synthetic := false, source := "", span := .nowhere }]
  sections := []

/-- Whether an outcome is a success with a truth value. -/
def Outcome.isTruth (b : Bool) : Outcome → Bool
  | ⟨true, .bool b', _⟩ => b == b'
  | _ => false

theorem Outcome.eq_of_isTruth {b : Bool} {o : Outcome} (h : o.isTruth b = true) :
    o.result = .bool b := by
  unfold isTruth at h
  split at h
  · exact congrArg Value.bool (eq_of_beq h).symm
  · cases h

/-- A function that is made anew is not equal to the one before, and a function that is remembered
equals itself.  No identity operator has a part in this, and no number. -/
theorem Setting.ends_otherwise_comparing :
    ∃ program n o o' n₁ n₂, Grammar.comparing.compile 2 0 = .ok (program, n) ∧
      (program.given ⟨#[]⟩).Ends false 1 [] 0 n (.ok (o, n₁)) ∧
      (program.given ⟨#[]⟩).Ends true 1 [] 0 n (.ok (o', n₂)) ∧
      o.result = .bool false ∧ o'.result = .bool true ∧ ¬ o.Like o' := by
  have evaluated : (match Grammar.comparing.compile 2 0 with
      | .error _ => false
      | .ok (program, n) =>
        comesTo (Outcome.isTruth false) ((program.given ⟨#[]⟩).runFor false 60 1 [] 0 n) &&
        comesTo (Outcome.isTruth true) ((program.given ⟨#[]⟩).runListed 60 1 [] 0 n)) = true := by
    decide +kernel
  cases compiled : Grammar.comparing.compile 2 0 with
  | error e =>
      rw [compiled] at evaluated
      cases evaluated
  | ok p =>
      obtain ⟨program, n⟩ := p
      rw [compiled, Bool.and_eq_true] at evaluated
      obtain ⟨o, n₁, run, shape⟩ := eq_ok_of_comesTo evaluated.1
      obtain ⟨o', n₂, run', shape'⟩ := eq_ok_of_comesTo evaluated.2
      have result := Outcome.eq_of_isTruth shape
      have result' := Outcome.eq_of_isTruth shape'
      refine ⟨program, n, o, o', n₁, n₂, rfl, .of_runFor run, .of_runListed run', result, result',
        ?_⟩
      intro like
      have same := like.result
      rw [result, result'] at same
      cases same

end Packrat
