import Packrat.Program.Compile
import Packrat.Proofs.Execution.Transitions
import Packrat.Regex.Search

/-
**Functions that are called again while they are at work.**

A call without arguments puts a failure into the memo table before its frame begins, so a function
that calls itself at the place where it was called fails there.  The frame that a parse enters by is
put on the stack without this, and its function may begin once more at the first place.

Main definitions:

* `Packrat.Machine.activations` — the functions without parameters at work, with their places;
* `Packrat.Machine.Reaches` — the states of a parse, with what remembered functions came back with;
* `Packrat.Machine.Guarded` — the invariant that links stack, memo table and history.

Main results:

* `Packrat.Machine.Guarded.step` — every step keeps the invariant;
* `Packrat.Machine.reentry_fails` — **a function at work fails where it is called again**.
-/

set_option autoImplicit false

namespace Packrat

/-- Whether a function of the program takes no arguments. -/
def Setting.takesNothing (setting : Setting) (f : Nat) : Bool :=
  (setting.program.functions[f]?).any (·.params.isEmpty)

namespace Machine

/-! ### Functions at work -/

/-- The functions without parameters at work above the frame that a parse entered by, with the
places where they were called: a frame that has called keeps the place of the call until it is
resumed. -/
def activations (setting : Setting) : List Frame → List MemoKey
  | callee :: caller :: rest =>
    if setting.takesNothing callee.function then
      (callee.function, caller.pos) :: activations setting (caller :: rest)
    else activations setting (caller :: rest)
  | _ => []

/-- Of the innermost frame only the function matters. -/
theorem activations_congr {setting : Setting} {frame frame' : Frame} {rest : List Frame}
    (same : frame'.function = frame.function) :
    activations setting (frame' :: rest) = activations setting (frame :: rest) := by
  cases rest with
  | nil => rfl
  | cons caller rest => simp only [activations, same]

/-- Frames above the one that a parse entered by: each knows the place of its call exactly if its
function takes no arguments. -/
inductive Stacked (setting : Setting) (function : Nat) : List Frame → Prop
  | entry {frame : Frame} (entered : frame.function = function) (free : frame.memoKey? = none) :
      Stacked setting function [frame]
  | called {callee caller : Frame} {rest : List Frame}
      (key : callee.memoKey? =
        if setting.takesNothing callee.function then some (callee.function, caller.pos) else none)
      (below : Stacked setting function (caller :: rest)) :
      Stacked setting function (callee :: caller :: rest)

namespace Stacked

variable {setting : Setting} {function : Nat} {frame frame' : Frame} {rest : List Frame}

/-- The innermost frame may change its registers and slots. -/
theorem moved (h : Stacked setting function (frame :: rest)) (moved : frame.Moved frame') :
    Stacked setting function (frame' :: rest) := by
  cases h with
  | entry entered free => exact .entry (moved.function.trans entered) (moved.memoKey?.trans free)
  | called key below =>
      refine .called ?_ below
      rw [moved.memoKey?, moved.function]
      exact key

/-- The outermost frame is that of the function which the parse entered by. -/
theorem last {frames : List Frame} (h : Stacked setting function frames) :
    frames.getLast?.map (·.function) = some function := by
  induction h with
  | entry entered => simp [entered]
  | called _ _ ih => simpa using ih

end Stacked

theorem moved_next (frame : Frame) : frame.Moved frame.next := ⟨rfl, rfl⟩

theorem moved_resume (frame : Frame) (o : Outcome) : frame.Moved (frame.resume o) := ⟨rfl, rfl⟩

/-- A function that is called without arguments takes none. -/
theorem takesNothing_of_enters {setting : Setting} {f pos : Nat} {args : List Value}
    {memoKey? : Option MemoKey} {callee : Frame}
    (h : Enters setting f args pos memoKey? callee) :
    setting.takesNothing f = args.isEmpty ∧ callee.function = f ∧ callee.memoKey? = memoKey? := by
  obtain ⟨g, hf, same, rfl⟩ := h
  refine ⟨?_, rfl, rfl⟩
  rw [Setting.takesNothing, hf, Option.any_some, Bool.eq_iff_iff,
    List.isEmpty_iff_length_eq_zero, List.isEmpty_iff_length_eq_zero, same]

/-! ### The states of a parse -/

/-- What the next step remembers, if it leaves a frame whose outcome is to be kept. -/
def leaving (setting : Setting) (m : Machine) : List (MemoKey × Outcome) :=
  match m.frames with
  | [] => []
  | frame :: _ =>
    match fetch setting frame with
    | .ok .ret => frame.memoKey?.toList.map (·, frame.outcome)
    | _ => []

theorem leaving_ret {setting : Setting} {frame : Frame} {rest : List Frame}
    {memo : Std.HashMap MemoKey Outcome} {identity : Nat}
    (fetched : fetch setting frame = .ok .ret) :
    leaving setting ⟨frame :: rest, memo, identity⟩ =
      frame.memoKey?.toList.map (·, frame.outcome) := by
  simp only [leaving, fetched]

/-- Only returns remember anything. -/
theorem leaving_work {setting : Setting} {frame moved : Frame} {rest : List Frame}
    {memo : Std.HashMap MemoKey Outcome} {identity n : Nat} {i : Instr} {action : Action}
    (fetched : fetch setting frame = .ok i)
    (work : i.execute setting moved identity = .ok (action, n)) (stays : ∀ f, action ≠ .ret f) :
    leaving setting ⟨frame :: rest, memo, identity⟩ = [] := by
  rw [leaving]
  simp only [fetched]
  split
  · next returns =>
      obtain rfl : i = .ret := by simpa using returns
      obtain ⟨rfl, -⟩ := Exec.pure_eq_ok work
      exact absurd rfl (stays _)
  · rfl

/-- The states of a parse that begins in one of them, with the functions that were left on the way
and are remembered, and what they came back with. -/
inductive Reaches (setting : Setting) (begins : Machine) : List (MemoKey × Outcome) → Machine → Prop
  | start : Reaches setting begins [] begins
  | step {log : List (MemoKey × Outcome)} {m m' : Machine} (before : Reaches setting begins log m)
      (moves : Machine.step setting true m = .ok (.running m')) :
      Reaches setting begins (leaving setting m ++ log) m'

/-! ### The invariant -/

/-- What links stack, memo table and history: no function without parameters is begun twice at one
place, one that is at work counts as a failure, and one that has come back as what it came back
with. -/
structure Guarded (setting : Setting) (function : Nat) (log : List (MemoKey × Outcome))
    (m : Machine) : Prop where
  stacked : Stacked setting function m.frames
  once : (activations setting m.frames ++ log.map (·.1)).Nodup
  seeded : ∀ key ∈ activations setting m.frames, m.memo[key]? = some (seed key)
  kept : ∀ entry ∈ log, m.memo[entry.1]? = some entry.2
  known : ∀ key o, m.memo[key]? = some o →
    key ∈ activations setting m.frames ∨ (key, o) ∈ log

namespace Guarded

variable {setting : Setting} {function : Nat} {log : List (MemoKey × Outcome)}
variable {frame frame' : Frame} {rest : List Frame} {memo : Std.HashMap MemoKey Outcome}
variable {identity n : Nat}

/-- A parse begins with nothing remembered. -/
theorem entry {args : List Value} {pos : Nat}
    (enters : Enters setting function args pos none frame) :
    Guarded setting function [] ⟨[frame], ∅, identity⟩ where
  stacked := by
    obtain ⟨-, same, free⟩ := takesNothing_of_enters enters
    exact .entry same free
  once := by simp [activations]
  seeded key mem := by simp [activations] at mem
  kept entry mem := by simp at mem
  known key o h := by simp at h

/-- The innermost frame goes on. -/
theorem moved (h : Guarded setting function log ⟨frame :: rest, memo, identity⟩)
    (moved : frame.Moved frame') : Guarded setting function log ⟨frame' :: rest, memo, n⟩ := by
  have same : activations setting (frame' :: rest) = activations setting (frame :: rest) :=
    activations_congr moved.function
  refine ⟨h.stacked.moved moved, ?_, ?_, h.kept, ?_⟩
  · rw [same]
    exact h.once
  · rw [same]
    exact h.seeded
  · rw [same]
    exact h.known

/-- A call that has not been made at this place before. -/
theorem miss {f : Nat} {callee : Frame}
    (h : Guarded setting function log ⟨frame :: rest, memo, identity⟩)
    (unknown : memo[(f, frame.pos)]? = none)
    (enters : Enters setting f [] frame.pos (some (f, frame.pos)) callee) :
    Guarded setting function log
      ⟨callee :: frame.next :: rest, memo.insert (f, frame.pos) (seed (f, frame.pos)), n⟩ := by
  obtain ⟨nothing, same, key⟩ := takesNothing_of_enters enters
  rw [← same, List.isEmpty_nil] at nothing
  have active : activations setting (callee :: frame.next :: rest) =
      (f, frame.pos) :: activations setting (frame :: rest) := by
    rw [activations, nothing, if_pos rfl, same, activations_congr (moved_next frame).function]
    rfl
  -- What is at work or has come back is in the table already.
  have idle : (f, frame.pos) ∉ activations setting (frame :: rest) := fun mem => by
    have := h.seeded _ mem
    rw [unknown] at this
    simp at this
  have fresh : ∀ entry ∈ log, (f, frame.pos) ≠ entry.1 := fun entry mem same => by
    have := h.kept entry mem
    rw [← same, unknown] at this
    simp at this
  refine ⟨.called ?_ (h.stacked.moved (moved_next frame)), ?_, fun k mem => ?_, fun entry mem => ?_,
    fun k o known => ?_⟩
  · rw [nothing, if_pos rfl, key, same]
    rfl
  · rw [active, List.cons_append, List.nodup_cons]
    refine ⟨fun mem => ?_, h.once⟩
    rcases List.mem_append.1 mem with mem | mem
    · exact idle mem
    · obtain ⟨entry, listed, same⟩ := List.mem_map.1 mem
      exact fresh entry listed same.symm
  · rw [active] at mem
    rw [Std.HashMap.getElem?_insert]
    rcases List.mem_cons.1 mem with rfl | mem
    · simp
    · have other : (f, frame.pos) ≠ k := fun same => idle (same ▸ mem)
      rw [if_neg (by simpa using other)]
      exact h.seeded k mem
  · rw [Std.HashMap.getElem?_insert, if_neg (by simpa using fresh entry mem)]
    exact h.kept entry mem
  · rw [Std.HashMap.getElem?_insert] at known
    rw [active]
    split at known
    · next same =>
        exact .inl (List.mem_cons.2 (.inl (eq_of_beq same).symm))
    · exact (h.known k o known).imp_left (List.mem_cons_of_mem _)

/-- A call that is not remembered. -/
theorem call {f : Nat} {args : List Value} {callee : Frame}
    (h : Guarded setting function log ⟨frame :: rest, memo, identity⟩)
    (some_ : args.isEmpty = false) (enters : Enters setting f args frame.pos none callee) :
    Guarded setting function log ⟨callee :: frame.next :: rest, memo, n⟩ := by
  obtain ⟨nothing, same, key⟩ := takesNothing_of_enters enters
  rw [← same, some_] at nothing
  have active : activations setting (callee :: frame.next :: rest) =
      activations setting (frame :: rest) := by
    rw [activations, nothing, if_neg (by simp), activations_congr (moved_next frame).function]
  refine ⟨.called (by rw [nothing, key]; rfl) (h.stacked.moved (moved_next frame)), ?_, ?_, h.kept,
    ?_⟩
  · rw [active]
    exact h.once
  · rw [active]
    exact h.seeded
  · rw [active]
    exact h.known

/-- A return. -/
theorem ret {caller : Frame}
    (h : Guarded setting function log ⟨frame :: caller :: rest, memo, identity⟩) :
    Guarded setting function (frame.memoKey?.toList.map (·, frame.outcome) ++ log)
      ⟨caller.resume frame.outcome :: rest, remember frame memo, identity⟩ := by
  obtain ⟨stacked, once, seeded, kept, known⟩ := h
  have same : activations setting (caller.resume frame.outcome :: rest) =
      activations setting (caller :: rest) := activations_congr rfl
  cases stacked with
  | called key below =>
      have below' := below.moved (moved_resume caller frame.outcome)
      cases nothing : setting.takesNothing frame.function with
      | false =>
          have active : activations setting (frame :: caller :: rest) =
              activations setting (caller :: rest) := by rw [activations, nothing]; rfl
          rw [nothing, if_neg (by simp)] at key
          simp only [active] at once seeded known
          simp only [key, remember, Option.toList_none, List.map_nil, List.nil_append]
          exact ⟨below', by rw [same]; exact once, by rw [same]; exact seeded, kept,
            by rw [same]; exact known⟩
      | true =>
          have active : activations setting (frame :: caller :: rest) =
              (frame.function, caller.pos) :: activations setting (caller :: rest) := by
            rw [activations, nothing]; rfl
          rw [nothing, if_pos rfl] at key
          simp only [active, List.cons_append, List.nodup_cons, List.mem_append, not_or] at once
          simp only [active, List.mem_cons] at seeded known
          simp only [key, remember, Option.toList_some, List.map_cons, List.map_nil,
            List.cons_append, List.nil_append]
          obtain ⟨⟨idle, fresh⟩, once⟩ := once
          refine ⟨below', ?_, fun k mem => ?_, fun entry mem => ?_, fun k o found => ?_⟩
          · rw [same, List.map_cons, List.perm_middle.nodup_iff, List.nodup_cons]
            exact ⟨fun mem => (List.mem_append.1 mem).elim idle fresh, once⟩
          · rw [same] at mem
            have other : (frame.function, caller.pos) ≠ k := fun eq => idle (eq ▸ mem)
            rw [Std.HashMap.getElem?_insert, if_neg (by simpa using other)]
            exact seeded k (.inr mem)
          · rcases List.mem_cons.1 mem with rfl | mem
            · simp
            · have other : (frame.function, caller.pos) ≠ entry.1 := fun eq =>
                fresh (eq ▸ List.mem_map.2 ⟨entry, mem, rfl⟩)
              rw [Std.HashMap.getElem?_insert, if_neg (by simpa using other)]
              exact kept entry mem
          · rw [Std.HashMap.getElem?_insert] at found
            rw [same]
            split at found
            · next eq =>
                obtain rfl := eq_of_beq eq
                obtain rfl : frame.outcome = o := by simpa using found
                exact .inr (List.mem_cons_self ..)
            · next other =>
                rcases known k o found with (rfl | mem) | mem
                · simp at other
                · exact .inl mem
                · exact .inr (List.mem_cons_of_mem _ mem)

/-- Every step keeps the invariant. -/
theorem step {m m' : Machine} (h : Guarded setting function log m)
    (moves : Machine.step setting true m = .ok (.running m')) :
    Guarded setting function (leaving setting m ++ log) m' := by
  obtain ⟨frames, memo, identity⟩ := m
  obtain ⟨frame, rest, shape, transition⟩ := step_transition moves
  obtain rfl : frames = frame :: rest := shape
  cases transition with
  | next fetched work moved =>
      rw [leaving_work fetched work (by simp)]
      exact h.moved moved
  | hit fetched work known =>
      rw [leaving_work fetched work (by simp)]
      exact h.moved ⟨rfl, rfl⟩
  | miss fetched work unknown _ enters =>
      rw [leaving_work fetched work (by simp)]
      exact h.miss unknown enters
  | call fetched work off enters =>
      rw [leaving_work fetched work (by simp)]
      exact h.call (by simpa using off) enters
  | ret fetched callers =>
      subst callers
      rw [leaving_ret fetched]
      exact h.ret

end Guarded

/-- Every state of a parse keeps the invariant. -/
theorem Reaches.guarded {setting : Setting} {function : Nat} {begins m : Machine}
    {log : List (MemoKey × Outcome)} (reached : Reaches setting begins log m)
    (start : Guarded setting function [] begins) : Guarded setting function log m := by
  induction reached with
  | start => exact start
  | step _ moves ih => exact ih.step moves

/-- What a call without arguments does while its function is at work at the same place. -/
theorem Guarded.step_active {setting : Setting} {function identity f n : Nat}
    {log : List (MemoKey × Outcome)} {frame : Frame} {rest : List Frame}
    {memo : Std.HashMap MemoKey Outcome} {i : Instr}
    (h : Guarded setting function log ⟨frame :: rest, memo, identity⟩)
    (active : (f, frame.pos) ∈ activations setting (frame :: rest))
    (fetched : fetch setting frame = .ok i)
    (work : i.execute setting frame.next identity = .ok (.call frame.next f [], n)) :
    Machine.step setting true ⟨frame :: rest, memo, identity⟩ =
      .ok (.running ⟨frame.next.resume (seed (f, frame.pos)) :: rest, memo, n⟩) := by
  have found : memo[(f, frame.pos)]? = some (seed (f, frame.pos)) := h.seeded _ active
  have called : callFrom setting true frame.next rest memo n f [] =
      .ok ⟨frame.next.resume (seed (f, frame.pos)) :: rest, memo, n⟩ := by
    simp [callFrom, found]
  rw [Frame.next] at work
  simp only [Machine.step, fetched, bind, Except.bind, StateT.run, work]
  rw [← Frame.next, called]
  rfl

/-- The outermost frame of a parse is that of the function it entered by.  Above it no function
without parameters is at work twice at one place, nor once more where it has come back from;
a call of one that is at work fails as left recursion; and the memo table holds that failure for
those at work, what they came back with for the others, and nothing else. -/
theorem reentry_fails {setting : Setting} {function pos identity : Nat} {args : List Value}
    {entry : Frame} {log : List (MemoKey × Outcome)} {m : Machine}
    (enters : enter setting function args pos none = .ok entry)
    (reached : Reaches setting ⟨[entry], ∅, identity⟩ log m) :
    m.frames.getLast?.map (·.function) = some function ∧
    (activations setting m.frames ++ log.map (·.1)).Nodup ∧
    (∀ frame rest i f n, m.frames = frame :: rest → fetch setting frame = .ok i →
      i.execute setting frame.next m.identity = .ok (.call frame.next f [], n) →
      (f, frame.pos) ∈ activations setting m.frames →
      Machine.step setting true m =
        .ok (.running ⟨frame.next.resume (seed (f, frame.pos)) :: rest, m.memo, n⟩)) ∧
    ∀ key o, m.memo[key]? = some o ↔
      (key ∈ activations setting m.frames ∧ o = seed key) ∨ (key, o) ∈ log := by
  have guarded := reached.guarded (.entry (enters_of_enter enters))
  refine ⟨guarded.stacked.last, guarded.once, ?_, fun key o => ⟨fun found => ?_, ?_⟩⟩
  · rintro frame rest i f n shape fetched work active
    obtain ⟨frames, memo, now⟩ := m
    obtain rfl : frames = frame :: rest := shape
    exact guarded.step_active active fetched work
  · rcases guarded.known key o found with active | left
    · have := guarded.seeded key active
      exact .inl ⟨active, by simpa [found] using this⟩
    · exact .inr left
  · rintro (⟨active, rfl⟩ | left)
    · exact guarded.seeded key active
    · exact guarded.kept _ left

end Machine

/-- A grammar whose only rule is itself. -/
def Grammar.circular : Grammar where
  definitions := [{
    name := "start", params := none
    body := .ref ⟨1, .nowhere⟩ "start" (.rule (ruleFunction "start"))
    ignored := false, fields := none, synthetic := false, source := "", span := .nowhere }]
  sections := []

/-- What the circular grammar is compiled to. -/
def Program.circular : Program where
  functions := #[⟨"_try_start", [], 0, #[.call (.function 0) [], .ret], #[]⟩]
  literals := #[]
  regexes := #[]
  hosts := #[]
  classes := #[]
  failures := #[⟨"", "", .leftRecursion⟩]
  rules := [⟨"start", 0, none, "", false, false, false⟩]
  sections := []

/-- The rule of the circular grammar begins once more above the frame that a parse enters by, and
fails where that one calls it. -/
theorem Machine.reentry_fails_circular :
    Grammar.circular.compile 2 0 = .ok (.circular, 0) ∧
      ∃ entry again m, let setting := Setting.mk .circular ⟨[], Host.compareOp⟩ [] ⟨#[]⟩ false
        enter setting 0 [] 0 none = .ok entry ∧ Reaches setting ⟨[entry], ∅, 0⟩ [] m ∧
        m.frames = [again, entry.next] ∧ activations setting m.frames = [(0, 0)] ∧
        Machine.step setting true m =
          .ok (.running ⟨[again.next.resume (seed (0, 0)), entry.next], m.memo, 0⟩) := by
  let entry : Frame := ⟨0, 0, false, .none, 0, #[], none⟩
  let again : Frame := ⟨0, 0, false, .none, 0, #[], some (0, 0)⟩
  let m : Machine := ⟨[again, entry.next], (∅ : Std.HashMap _ _).insert (0, 0) (seed (0, 0)), 0⟩
  let setting := Setting.mk .circular ⟨[], Host.compareOp⟩ [] ⟨#[]⟩ false
  have enters : enter setting 0 [] 0 none = .ok entry := rfl
  have called : callFrom setting true entry.next [] ∅ 0 0 [] = .ok m := by
    simp only [callFrom, Std.HashMap.getElem?_empty]
    rfl
  have moves : Machine.step setting true ⟨[entry], ∅, 0⟩ = .ok (.running m) := by
    change (callFrom setting true entry.next [] ∅ 0 0 [] >>= _) = _
    rw [called]
    rfl
  have reached : Reaches setting ⟨[entry], ∅, 0⟩ [] m := .step .start moves
  refine ⟨rfl, entry, again, m, enters, reached, rfl, rfl, ?_⟩
  exact (reentry_fails enters reached).2.2.1 again [entry.next] (.call (.function 0) []) 0 0 rfl rfl
    rfl (List.mem_cons_self ..)

end Packrat
