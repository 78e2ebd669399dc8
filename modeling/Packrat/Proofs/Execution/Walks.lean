import Packrat.Proofs.Execution.Site
import Packrat.Proofs.Execution.Transitions

/-
**The walk of a frame.**

Between its first instruction and its last a frame is on top of the stack, or waits for a function
that it has called.  Leaving out the waiting, its states form a walk: each move is an instruction, or
a whole call together with its answer.  A call is answered by what the called function comes back
with at the end of its own walk, or, if that function is at work at the same place, by the mark of a
failure.

What code guarantees is said of walks: a frame ensures something at an instruction if no walk comes
there without it.  Nothing is asked of walks that do not come there, so code may be stopped by host
code, run forever, or be given values that it cannot work with.

Main definitions:

* `Packrat.Frame.Walks`, `Packrat.Frame.Moves` — walks of frames, and single moves;
* `Packrat.Aim`, `Packrat.Frame.Ensures` — what is to hold where, and frames that ensure it;
* `Packrat.Machine.Trail` — stacks whose frames have all come where they are by walks;
* `Packrat.Site.Arrives` — the machine comes to an instruction of a function at work;
* `Packrat.Site.Strides` — it does so without a call.

Main results:

* `Packrat.Machine.Trail.step` — every step of the machine keeps a trail;
* `Packrat.Site.Arrives.goal` — **what frames ensure of walks holds of runs of the machine**.
-/

set_option autoImplicit false

namespace Packrat

open Machine (Enters seed fetch)

/-! ### Walks -/

/-- The states of a frame, one after the other, with the calls that it makes answered. A call of a
function at work may be answered by a failure if `may` says so of the function. -/
inductive Frame.Walks (setting : Setting) (may : Nat → Prop) : Frame → Frame → Prop
  | refl (frame : Frame) : Frame.Walks setting may frame frame
  | next {i : Instr} {frame frame₁ frame₂ : Frame} {n n' : Nat}
      (fetched : fetch setting frame = .ok i)
      (work : i.execute setting frame.next n = .ok (.next frame₁, n'))
      (rest : Frame.Walks setting may frame₁ frame₂) : Frame.Walks setting may frame frame₂
  | call {i : Instr} {frame callee leaf frame₂ : Frame} {f n n' : Nat} {args : List Value}
      {key? : Option MemoKey} (fetched : fetch setting frame = .ok i)
      (work : i.execute setting frame.next n = .ok (.call frame.next f args, n'))
      (enters : Enters setting f args frame.pos key? callee)
      (inner : Frame.Walks setting may callee leaf) (leaves : fetch setting leaf = .ok .ret)
      (rest : Frame.Walks setting may (frame.next.resume leaf.outcome) frame₂) :
      Frame.Walks setting may frame frame₂
  | circular {i : Instr} {frame frame₂ : Frame} {f n n' : Nat} (allowed : may f)
      (fetched : fetch setting frame = .ok i)
      (work : i.execute setting frame.next n = .ok (.call frame.next f [], n'))
      (rest : Frame.Walks setting may (frame.next.resume (seed (f, frame.pos))) frame₂) :
      Frame.Walks setting may frame frame₂

/-- What a function that is called with arguments at a place comes back with. -/
def Setting.Replies (setting : Setting) (may : Nat → Prop) (f : Nat) (args : List Value)
    (pos : Nat) (o : Outcome) : Prop :=
  ∃ key? callee leaf, Enters setting f args pos key? callee ∧ callee.Walks setting may leaf ∧
    fetch setting leaf = .ok .ret ∧ o = leaf.outcome

/-- What a call is answered with. -/
inductive Setting.Answers (setting : Setting) (may : Nat → Prop) (f : Nat) (pos : Nat) :
    List Value → Outcome → Prop
  | returned {args : List Value} {o : Outcome} (h : setting.Replies may f args pos o) :
      Setting.Answers setting may f pos args o
  | circular (allowed : may f) : Setting.Answers setting may f pos [] (seed (f, pos))

/-- One move of a frame. -/
inductive Frame.Moves (setting : Setting) (may : Nat → Prop) (frame : Frame) : Frame → Prop
  | next {i : Instr} {frame' : Frame} {n n' : Nat} (fetched : fetch setting frame = .ok i)
      (work : i.execute setting frame.next n = .ok (.next frame', n')) :
      Frame.Moves setting may frame frame'
  | call {i : Instr} {f n n' : Nat} {args : List Value} {o : Outcome}
      (fetched : fetch setting frame = .ok i)
      (work : i.execute setting frame.next n = .ok (.call frame.next f args, n'))
      (answered : setting.Answers may f frame.pos args o) :
      Frame.Moves setting may frame (frame.next.resume o)

namespace Frame

variable {setting : Setting} {may : Nat → Prop} {frame frame₁ frame₂ : Frame}

theorem Moves.walks (h : frame.Moves setting may frame₁) (rest : frame₁.Walks setting may frame₂) :
    frame.Walks setting may frame₂ := by
  cases h with
  | next fetched work => exact .next fetched work rest
  | call fetched work answered =>
      cases answered with
      | returned h =>
          obtain ⟨key?, callee, leaf, enters, inner, leaves, rfl⟩ := h
          exact .call fetched work enters inner leaves rest
      | circular allowed => exact .circular allowed fetched work rest

theorem Walks.move (h : frame.Walks setting may frame₁) (last : frame₁.Moves setting may frame₂) :
    frame.Walks setting may frame₂ := by
  induction h with
  | refl => exact last.walks (.refl _)
  | next fetched work _ ih => exact .next fetched work (ih last)
  | call fetched work enters inner leaves _ _ ih =>
      exact .call fetched work enters inner leaves (ih last)
  | circular allowed fetched work _ ih => exact .circular allowed fetched work (ih last)

/-- A walk stays in the frame of its function. -/
theorem Walks.moved (h : frame.Walks setting may frame₁) : frame.Moved frame₁ := by
  induction h with
  | refl => exact .refl _
  | next _ work _ ih =>
      cases Instr.execute_cases work with
      | next moved => exact ⟨ih.function.trans moved.function, ih.memoKey?.trans moved.memoKey?⟩
  | call _ _ _ _ _ _ _ ih => exact ⟨ih.function, ih.memoKey?⟩
  | circular _ _ _ _ ih => exact ⟨ih.function, ih.memoKey?⟩

theorem Moves.moved (h : frame.Moves setting may frame₁) : frame.Moved frame₁ :=
  (h.walks (.refl _)).moved

/-- A frame that is about to be left does not move. -/
theorem Moves.stays (h : frame.Moves setting may frame₁) : fetch setting frame ≠ .ok .ret := by
  intro leaves
  cases h with
  | next fetched work | call fetched work =>
      cases fetched.symm.trans leaves
      cases work

end Frame

/-! ### What frames ensure -/

/-- What is to hold where a function comes to one of its instructions, and which functions at work
may have to answer calls until then. -/
structure Aim where
  may : Nat → Prop
  stop : Nat
  goal : Frame → Prop

/-- Frames of which no walk of so many moves comes to the instruction of an aim without its goal, or
to the end of its function without having come there. -/
def Frame.Ensures (setting : Setting) (aim : Aim) : Nat → Frame → Prop
  | 0, _ => True
  | n + 1, frame =>
    (frame.pc = aim.stop → aim.goal frame) ∧
      (frame.pc ≠ aim.stop → fetch setting frame ≠ .ok .ret ∧
        ∀ frame', frame.Moves setting aim.may frame' → Frame.Ensures setting aim n frame')

namespace Frame

variable {setting : Setting} {aim : Aim} {frame frame' : Frame} {n m : Nat}

theorem Ensures.mono (h : frame.Ensures setting aim n) (le : m ≤ n) :
    frame.Ensures setting aim m := by
  induction n generalizing m frame with
  | zero =>
      obtain rfl : m = 0 := by omega
      trivial
  | succ n ih =>
      cases m with
      | zero => trivial
      | succ m =>
          refine ⟨h.1, fun away => ⟨(h.2 away).1, fun frame' moves => ?_⟩⟩
          exact ih ((h.2 away).2 frame' moves) (Nat.le_of_succ_le_succ le)

/-- What a frame ensures after any number of moves it ensures after one of them. -/
theorem Ensures.move (h : ∀ n, frame.Ensures setting aim n) (away : frame.pc ≠ aim.stop)
    (moves : frame.Moves setting aim.may frame') (n : Nat) : frame'.Ensures setting aim n :=
  ((h (n + 1)).2 away).2 frame' moves

/-- A frame before an aim is not at the end of its function. -/
theorem Ensures.stays (h : ∀ n, frame.Ensures setting aim n) (away : frame.pc ≠ aim.stop) :
    fetch setting frame ≠ .ok .ret := ((h 1).2 away).1

/-- A function all of whose states at the instruction of an aim are at its end keeps ensuring the
aim, wherever it moves. -/
theorem Ensures.onward (h : ∀ n, frame.Ensures setting aim n)
    (last : ∀ leaf : Frame, leaf.function = frame.function → leaf.pc = aim.stop →
      fetch setting leaf = .ok .ret) (moves : frame.Moves setting aim.may frame') :
    (∀ n, frame'.Ensures setting aim n) ∧ ∀ leaf : Frame, leaf.function = frame'.function →
      leaf.pc = aim.stop → fetch setting leaf = .ok .ret := by
  have away : frame.pc ≠ aim.stop := fun arrived => moves.stays (last _ rfl arrived)
  rw [moves.moved.function]
  exact ⟨Ensures.move h away moves, last⟩

/-- A walk to the end of a function ends with what its first frame ensures there. -/
theorem Ensures.returned (h : ∀ n, frame.Ensures setting aim n)
    (last : ∀ leaf : Frame, leaf.function = frame.function → leaf.pc = aim.stop →
      fetch setting leaf = .ok .ret)
    (walk : frame.Walks setting aim.may frame') (leaves : fetch setting frame' = .ok .ret) :
    aim.goal frame' := by
  induction walk with
  | refl frame =>
      by_cases arrived : frame.pc = aim.stop
      · exact (h 1).1 arrived
      · exact absurd leaves (Ensures.stays h arrived)
  | next fetched work _ ih =>
      obtain ⟨h', last'⟩ := Ensures.onward h last (.next fetched work)
      exact ih h' last' leaves
  | call fetched work enters inner leaves' _ _ ih =>
      obtain ⟨h', last'⟩ := Ensures.onward h last
        (.call fetched work (.returned ⟨_, _, _, enters, inner, leaves', rfl⟩))
      exact ih h' last' leaves
  | circular allowed fetched work _ ih =>
      obtain ⟨h', last'⟩ := Ensures.onward h last (.call fetched work (.circular allowed))
      exact ih h' last' leaves

end Frame

/-! ### Runs of the machine -/

namespace Machine

variable {setting : Setting} {may : Nat → Prop} {memoize : Bool} {m m' : Machine}
variable {base away : Frame → Prop} {rest : List Frame}

/-- The machine is about to answer a call of a function by the mark that it is at work. -/
def Reenters (setting : Setting) (m : Machine) (f : Nat) : Prop :=
  ∃ frame below i n, m.frames = frame :: below ∧ fetch setting frame = .ok i ∧
    i.execute setting frame.next m.identity = .ok (.call frame.next f [], n) ∧
    m.memo[(f, frame.pos)]? = some (seed (f, frame.pos))

/-- A table that holds nothing but the marks of functions at work and what functions came back
with. -/
def Recorded (setting : Setting) (may : Nat → Prop) (memo : Std.HashMap MemoKey Outcome) : Prop :=
  ∀ f pos o, memo[(f, pos)]? = some o → o = seed (f, pos) ∨ setting.Replies may f [] pos o

theorem Recorded.insert {memo : Std.HashMap MemoKey Outcome} {key : MemoKey} {o : Outcome}
    (h : Recorded setting may memo)
    (new : o = seed key ∨ setting.Replies may key.1 [] key.2 o) :
    Recorded setting may (memo.insert key o) := by
  intro f pos o' found
  rw [Std.HashMap.getElem?_insert] at found
  split at found
  · next same =>
      obtain rfl : key = (f, pos) := by simpa using same
      obtain rfl : o = o' := by simpa using found
      exact new
  · exact h f pos o' found

/-- Frames on top of others that are not looked at: the lowest is in a state of its own, and each of
those above it has come where it is by a walk since the one below it called. -/
inductive Trail (setting : Setting) (may : Nat → Prop) (base away : Frame → Prop)
    (rest : List Frame) : List Frame → Prop
  | base {frame : Frame} (h : base frame) : Trail setting may base away rest (frame :: rest)
  | above {caller callee frame : Frame} {below : List Frame} {i : Instr} {f n n' : Nat}
      {args : List Value} {key? : Option MemoKey}
      (h : Trail setting may base away rest (caller :: below)) (far : below = rest → away caller)
      (fetched : fetch setting caller = .ok i)
      (work : i.execute setting caller.next n = .ok (.call caller.next f args, n'))
      (enters : Enters setting f args caller.pos key? callee)
      (keyed : ∀ key, key? = some key → args = [] ∧ key = (f, caller.pos))
      (inner : callee.Walks setting may frame) :
      Trail setting may base away rest (frame :: caller.next :: below)

/-- States of the lowest frame that are kept as long as it is away from where it is going; there it
is not left, unless there is nothing below. -/
structure Stable (setting : Setting) (may : Nat → Prop) (base away : Frame → Prop)
    (rest : List Frame) : Prop where
  moves : ∀ frame frame', base frame → away frame → frame.Moves setting may frame' → base frame'
  stays : ∀ frame, base frame → away frame → fetch setting frame = .ok .ret → rest = []

namespace Trail

variable {frame frame' : Frame} {below : List Frame}

theorem lt_length {frames : List Frame} (h : Trail setting may base away rest frames) :
    rest.length < frames.length := by
  induction h with
  | base => simp
  | above _ _ _ _ _ _ _ ih =>
      simp only [List.length_cons] at ih ⊢
      omega

/-- The lowest frame of a trail. -/
theorem lowest (h : Trail setting may base away rest (frame :: rest)) : base frame := by
  cases h with
  | base h => exact h
  | above h =>
      have := h.lt_length
      simp only [List.length_cons] at this
      omega

/-- The frame on top of a trail may move. -/
theorem moves (stable : Stable setting may base away rest)
    (h : Trail setting may base away rest (frame :: below)) (far : below = rest → away frame)
    (moves : frame.Moves setting may frame') :
    Trail setting may base away rest (frame' :: below) := by
  cases h with
  | base h => exact .base (stable.moves _ _ h (far rfl) moves)
  | above h far' fetched work enters keyed inner =>
      exact .above h far' fetched work enters keyed (inner.move moves)

/-- What the frame on top of a trail comes back with is what its caller is answered with, and what
is remembered of it. -/
theorem returns (stable : Stable setting may base away rest) {caller : Frame}
    {memo : Std.HashMap MemoKey Outcome}
    (h : Trail setting may base away rest (frame :: caller :: below))
    (far : caller :: below = rest → away frame) (leaves : fetch setting frame = .ok .ret)
    (recorded : Recorded setting may memo) :
    Trail setting may base away rest (caller.resume frame.outcome :: below) ∧
      Recorded setting may (remember frame memo) := by
  cases h with
  | base h => cases stable.stays _ h (far rfl) leaves
  | above h far' fetched work enters keyed inner =>
      refine ⟨h.moves stable far' (.call fetched work
        (.returned ⟨_, _, _, enters, inner, leaves, rfl⟩)), ?_⟩
      rw [remember, inner.moved.memoKey?]
      obtain ⟨g, known, arity, rfl⟩ := id enters
      simp only [Frame.begin]
      split
      · next key =>
          obtain ⟨rfl, rfl⟩ := keyed _ rfl
          exact recorded.insert (.inr ⟨_, _, _, enters, inner, leaves, rfl⟩)
      · exact recorded

/-- Every step of the machine keeps a trail. -/
theorem step (stable : Stable setting may base away rest)
    (h : Trail setting may base away rest m.frames) (recorded : Recorded setting may m.memo)
    (far : ∀ frame, m.frames = frame :: rest → away frame)
    (straight : memoize = true → ∀ f, m.Reenters setting f → may f)
    (hs : Machine.step setting memoize m = .ok (.running m')) :
    Trail setting may base away rest m'.frames ∧ Recorded setting may m'.memo := by
  obtain ⟨frame, below, hf, transition⟩ := step_transition hs
  rw [hf] at h
  have far' : below = rest → away frame := fun same => far frame (same ▸ hf)
  generalize progress : Progress.running m' = out at transition
  cases transition with
  | next fetched work =>
      cases progress
      exact ⟨h.moves stable far' (.next fetched work), recorded⟩
  | @hit i f n o fetched work known on =>
      cases progress
      refine ⟨h.moves stable far' (.call fetched work ?_), recorded⟩
      rcases recorded f frame.pos o known with rfl | returned
      · exact .circular (straight on f ⟨frame, below, i, n, hf, fetched, work, known⟩)
      · exact .returned returned
  | miss fetched work unknown on enters =>
      cases progress
      refine ⟨.above h far' fetched work enters (fun key hk => ⟨rfl, ?_⟩) (.refl _),
        recorded.insert (.inl rfl)⟩
      exact (Option.some.inj hk).symm
  | call fetched work off enters =>
      cases progress
      exact ⟨.above h far' fetched work enters (fun _ hk => by cases hk) (.refl _), recorded⟩
  | ret fetched callers =>
      cases progress
      subst callers
      exact h.returns stable far' fetched recorded
  | done => cases progress

/-- A trail along a run. -/
theorem leads (stable : Stable setting may base away rest) {k : Nat}
    (run : Leads setting memoize k m m') (h : Trail setting may base away rest m.frames)
    (recorded : Recorded setting may m.memo)
    (far : ∀ j < k, ∀ m₁, Leads setting memoize j m m₁ → ∀ frame, m₁.frames = frame :: rest →
      away frame)
    (straight : memoize = true → ∀ j < k, ∀ m₁, Leads setting memoize j m m₁ →
      ∀ f, m₁.Reenters setting f → may f) :
    Trail setting may base away rest m'.frames ∧ Recorded setting may m'.memo := by
  induction run with
  | refl => exact ⟨h, recorded⟩
  | step hs _ ih =>
      obtain ⟨h', recorded'⟩ := h.step stable recorded (far 0 (Nat.succ_pos _) _ (.refl _))
        (fun on => straight on 0 (Nat.succ_pos _) _ (.refl _)) hs
      refine ih h' recorded' (fun j hj m₁ run => ?_) fun on j hj m₁ run => ?_
      · exact far (j + 1) (Nat.succ_lt_succ hj) m₁ (.step hs run)
      · exact straight on (j + 1) (Nat.succ_lt_succ hj) m₁ (.step hs run)

end Trail

end Machine

/-! ### Arriving at an instruction -/

namespace Site

variable {site : Site} {pc : Nat} {σ σ' : Moment}

/-- A parse has come to an instruction of a function and then, as soon as it could, to another one;
on the way calls of functions at work were answered by a failure only where `may` says so. -/
inductive Arrives (site : Site) (may : Nat → Prop) (pc stop : Nat) (σ σ' : Moment) : Prop
  | intro {first : Frame} {identity before within : Nat}
      (begins : Machine.Leads site.setting site.memoize before ⟨[first], ∅, identity⟩
        (site.machine pc σ))
      (comes : Machine.Leads site.setting site.memoize within (site.machine pc σ)
        (site.machine stop σ'))
      (soonest : ∀ j < within, ∀ m,
        Machine.Leads site.setting site.memoize j (site.machine pc σ) m →
        ∀ frame, m.frames = frame :: site.rest → frame.pc ≠ stop)
      (circular : site.memoize = true → ∀ j < before + within, ∀ m,
        Machine.Leads site.setting site.memoize j ⟨[first], ∅, identity⟩ m →
        ∀ f, m.Reenters site.setting f → may f) :
      Site.Arrives site may pc stop σ σ'

/-- What a frame ensures of walks holds of runs of the machine. -/
theorem Arrives.goal {aim : Aim} (h : site.Arrives aim.may pc aim.stop σ σ')
    (ensured : ∀ n, (site.frame pc σ).Ensures site.setting aim n) :
    aim.goal (site.frame aim.stop σ') := by
  obtain ⟨begins, comes, soonest, circular⟩ := h
  have loose : Machine.Stable site.setting aim.may (fun _ => True) (fun _ => True) [] :=
    ⟨fun _ _ _ _ _ => trivial, fun _ _ _ _ => rfl⟩
  obtain ⟨-, recorded⟩ := Machine.Trail.leads loose begins (.base trivial)
    (fun f pos o found => by simp at found) (fun _ _ _ _ _ _ => trivial)
    fun on j hj => circular on j (Nat.lt_add_right _ hj)
  have stable : Machine.Stable site.setting aim.may
      (fun frame => ∀ n, frame.Ensures site.setting aim n) (fun frame => frame.pc ≠ aim.stop)
      site.rest :=
    ⟨fun _ _ h away moves => Frame.Ensures.move h away moves,
      fun _ h away leaves => absurd leaves (Frame.Ensures.stays h away)⟩
  obtain ⟨trail, -⟩ := Machine.Trail.leads stable comes (.base ensured) recorded soonest
    fun on j hj m run => circular on _ (Nat.add_lt_add_left hj _) m (begins.trans run)
  exact (trail.lowest 1).1 rfl

/-! ### Runs without calls -/

/-- The machine comes to an instruction of a function in so many steps, all of them its own, and has
nothing in its table on the way. -/
inductive Strides (site : Site) (stop : Nat) : Nat → Nat → Moment → Moment → Prop
  | refl (σ : Moment) : Strides site stop 0 stop σ σ
  | step {k pc pc₁ pos identity : Nat} {status : Bool} {result : Value} {slots : Array Value}
      {σ σ' : Moment} (away : pc ≠ stop) (fresh : σ.memo = ∅)
      (hs : Machine.step site.setting site.memoize (site.machine pc σ) =
        .ok (.running (site.machine pc₁ ⟨status, result, pos, slots, ∅, identity⟩)))
      (rest : Strides site stop k pc₁ ⟨status, result, pos, slots, ∅, identity⟩ σ') :
      Strides site stop (k + 1) pc σ σ'

variable {k stop : Nat}

theorem Strides.leads (h : site.Strides stop k pc σ σ') :
    Machine.Leads site.setting site.memoize k (site.machine pc σ) (site.machine stop σ') := by
  induction h with
  | refl => exact .refl _
  | step _ _ hs _ ih => exact .step hs ih

theorem Strides.passes (h : site.Strides stop k pc σ σ') {j : Nat} (hj : j < k) {m : Machine}
    (run : Machine.Leads site.setting site.memoize j (site.machine pc σ) m) :
    m.memo = ∅ ∧ ∀ frame, m.frames = frame :: site.rest → frame.pc ≠ stop := by
  induction h generalizing j with
  | refl => exact absurd hj (Nat.not_lt_zero _)
  | step away fresh hs _ ih =>
      cases run with
      | refl =>
          refine ⟨fresh, fun frame top => ?_⟩
          obtain ⟨rfl, -⟩ := List.cons.inj top
          exact away
      | step hs' rest =>
          cases hs.symm.trans hs'
          exact ih (Nat.lt_of_succ_lt_succ hj) rest

/-- A run of the first function that makes no calls. -/
theorem Strides.arrives (h : site.Strides stop k pc σ σ') (first : site.rest = [])
    (fresh : σ.memo = ∅) (may : Nat → Prop) : site.Arrives may pc stop σ σ' := by
  have begins : site.machine pc σ = ⟨[site.frame pc σ], ∅, σ.identity⟩ := by
    rw [machine, first, fresh]
  have starts : Machine.Leads site.setting site.memoize 0 ⟨[site.frame pc σ], ∅, σ.identity⟩
      (site.machine pc σ) := begins ▸ .refl _
  refine .intro starts h.leads (fun j hj m run => (h.passes hj run).2)
    fun on j hj m run f reenters => ?_
  rw [← begins] at run
  obtain ⟨_, _, _, _, -, -, -, known⟩ := reenters
  rw [(h.passes (by omega) run).1] at known
  simp at known

end Site

end Packrat
