import Packrat.Proofs.Recursion.Memory

/-
**What the memo table holds during a parse.**

Whatever a parse does, with functions that call themselves at one place or without, its memo table is
right: a function that has been left is remembered with what it comes to without a memo table,
provided that it comes to anything.  The reason is that frames keep to the way that they take without
a memo table, as long as there is one that ends: they leave it only where a function at work is
called again, and then there is none.

Main definitions:

* `Packrat.Frame.Keeps`, `Packrat.Frame.Awaits` — frames that keep to the way they began;
* `Packrat.Machine.Tracked` — **the invariant of a parse**.

Main results:

* `Packrat.Machine.Tracked.step` — every step keeps the invariant;
* `Packrat.Machine.Tracked.remembers` — **the memo table is right about all functions that take fewer
  steps than the frame at hand**;
* `Packrat.Machine.Tracked.unread` — a parse that comes to an end without a memo table never calls a
  function that is at work.
-/

set_option autoImplicit false

namespace Packrat

open Likeness (Agree AlikeAll contents)

variable {setting : Setting} {base first frame frame' caller callee : Frame}
variable {l n n' function : Nat} {args : List Value} {rest : List Frame}
variable {out : Except Host.Error Frame}

/-! ### Frames that keep to their way -/

namespace Frame

/-- A frame that keeps to the way of the frame it began as, if that one comes to an end. -/
def Keeps (setting : Setting) (first frame : Frame) : Prop :=
  ∀ l out, first.Finishes setting l out → ∃ l' ≤ l, frame.Finishes setting l' out

/-- A frame that will keep to its way once it is given the outcome of the one it has called. -/
def Awaits (setting : Setting) (first caller callee : Frame) : Prop :=
  ∀ l out, first.Finishes setting l out → ∃ l₁ < l, ∃ end_, callee.Finishes setting l₁ end_ ∧
    ∀ last, end_ = .ok last → ∃ l₂ ≤ l, (caller.resume last.outcome).Finishes setting l₂ out

theorem Keeps.refl (frame : Frame) : Keeps setting frame frame :=
  fun l _ h => ⟨l, Nat.le_refl l, h⟩

theorem Keeps.like (respects : contents.Respects setting.library) (h : Keeps setting first frame)
    (same : frame.Like frame') : Keeps setting first frame' := fun l out finishes => by
  obtain ⟨l', le, h'⟩ := h l out finishes
  exact ⟨l', le, h'.like respects same⟩

theorem Keeps.next (respects : contents.Respects setting.library) (h : Keeps setting first frame)
    (turn : frame.turn setting n = .ok (.next frame', n')) : Keeps setting first frame' :=
  fun l out finishes => by
    obtain ⟨l', le, h'⟩ := h l out finishes
    obtain ⟨l'', lt, h''⟩ := h'.next respects turn
    exact ⟨l'', by omega, h''⟩

theorem Keeps.awaits (respects : contents.Respects setting.library) (h : Keeps setting first frame)
    (turn : frame.turn setting n = .ok (.call caller function args callee, n')) :
    Awaits setting first caller callee := fun l out finishes => by
  obtain ⟨l', le, h'⟩ := h l out finishes
  obtain ⟨l₁, lt, end_, inner, behind⟩ := h'.call respects turn
  refine ⟨l₁, by omega, end_, inner, fun last ends => ?_⟩
  obtain ⟨l₂, lt', h''⟩ := behind last ends
  exact ⟨l₂, by omega, h''⟩

/-- Back from a call whose function has kept to its way. -/
theorem Awaits.resume (respects : contents.Respects setting.library)
    (h : Awaits setting first caller callee) (way : Keeps setting callee frame)
    (returns : frame.Returning setting) :
    Keeps setting first (caller.resume frame.outcome) := fun l out finishes => by
  obtain ⟨l₁, -, end_, inner, behind⟩ := h l out finishes
  obtain ⟨l₁', -, now⟩ := way l₁ end_ inner
  obtain ⟨last, rfl, like⟩ := now.returning respects returns
  obtain ⟨l₂, le, h'⟩ := behind last rfl
  exact ⟨l₂, le, h'.like respects ((Like.refl caller).resume like.symm.outcome)⟩

end Frame

/-! ### The frames of a parse -/

namespace Machine

/-- What a frame began as, if its outcome is to be kept. -/
def Keyed (setting : Setting) (first frame : Frame) : Prop :=
  ∀ key, frame.memoKey? = some key → enter setting key.1 [] key.2 none = .ok first

/-- The frames below one that began as the one given, down to the first frame of the parse. -/
inductive Below (setting : Setting) (base : Frame) : Frame → List Frame → Prop
  | bottom : Below setting base base []
  | caller {first callee caller : Frame} {rest : List Frame}
      (awaits : Frame.Awaits setting first caller callee) (keyed : Keyed setting first caller)
      (below : Below setting base first rest) : Below setting base callee (caller :: rest)

/-- If the first frame of a parse comes to an end, so do those above. -/
theorem Below.finishes (h : Below setting base first rest) (finishes : base.Finishes setting l out) :
    ∃ l' out', first.Finishes setting l' out' := by
  induction h with
  | bottom => exact ⟨l, out, finishes⟩
  | caller awaits _ _ ih =>
      obtain ⟨l', out', before⟩ := ih
      obtain ⟨l₁, -, end_, inner, -⟩ := awaits l' out' before
      exact ⟨l₁, end_, inner⟩

/-- Frames above a function at work take fewer steps than it does. -/
theorem Below.shorter {key : MemoKey} (h : Below setting base first rest) (mem : frame ∈ rest)
    (keeps : frame.memoKey? = some key) (entered : enter setting key.1 [] key.2 none = .ok callee)
    (finishes : callee.Finishes setting l out) :
    ∃ l' < l, ∃ out', first.Finishes setting l' out' := by
  induction h with
  | bottom => cases mem
  | caller awaits keyed _ ih =>
      rcases List.mem_cons.1 mem with rfl | mem
      · obtain rfl := Except.ok.inj ((keyed key keeps).symm.trans entered)
        obtain ⟨l₁, lt, end_, inner, -⟩ := awaits l out finishes
        exact ⟨l₁, lt, end_, inner⟩
      · obtain ⟨l', lt, out', before⟩ := ih mem
        obtain ⟨l₁, lt', end_, inner, -⟩ := awaits l' out' before
        exact ⟨l₁, by omega, end_, inner⟩

/-- The invariant of a parse with a memo table: frames keep to their way, and what is remembered is
right, but for functions at work. -/
structure Tracked (setting : Setting) (base first frame : Frame) (rest : List Frame)
    (memo : Std.HashMap MemoKey Outcome) : Prop where
  way : Frame.Keeps setting first frame
  keyed : Keyed setting first frame
  below : Below setting base first rest
  known : ∀ (key : MemoKey) (o : Outcome), memo[key]? = some o →
    (∃ f ∈ frame :: rest, f.memoKey? = some key) ∨ ∀ bound, Vouched setting bound key o

namespace Tracked

variable {memo : Std.HashMap MemoKey Outcome}

/-- A parse begins with nothing remembered. -/
theorem entry (free : base.memoKey? = none) : Tracked setting base base base [] ∅ where
  way := .refl base
  keyed key h := by simp [free] at h
  below := .bottom
  known key o h := by simp at h

/-- The function of a frame at work can be entered. -/
theorem entered {key : MemoKey} (h : Tracked setting base first frame rest memo)
    (work : ∃ f ∈ frame :: rest, f.memoKey? = some key) :
    ∃ callee, enter setting key.1 [] key.2 none = .ok callee := by
  obtain ⟨f, mem, keeps⟩ := work
  rcases List.mem_cons.1 mem with rfl | mem
  · exact ⟨first, h.keyed key keeps⟩
  · have below := h.below
    clear h
    induction below with
    | bottom => cases mem
    | caller _ keyed _ ih =>
        rcases List.mem_cons.1 mem with rfl | mem
        · exact ⟨_, keyed key keeps⟩
        · exact ih (.tail _ mem) mem

/-- Functions that are remembered can be entered. -/
theorem real (h : Tracked setting base first frame rest memo) (key : MemoKey) (o : Outcome)
    (known : memo[key]? = some o) : ∃ callee, enter setting key.1 [] key.2 none = .ok callee := by
  rcases h.known key o known with work | right
  · exact h.entered work
  · obtain ⟨callee, entered, -⟩ := right 0
    exact ⟨callee, entered⟩

/-- The frame on top takes no more steps than any function at work. -/
theorem shorter {key : MemoKey} (h : Tracked setting base first frame rest memo)
    (work : ∃ f ∈ frame :: rest, f.memoKey? = some key)
    (entered : enter setting key.1 [] key.2 none = .ok callee)
    (finishes : callee.Finishes setting l out) :
    ∃ l' ≤ l, ∃ out', frame.Finishes setting l' out' := by
  obtain ⟨f, mem, keeps⟩ := work
  rcases List.mem_cons.1 mem with rfl | mem
  · obtain rfl := Except.ok.inj ((h.keyed key keeps).symm.trans entered)
    obtain ⟨l', le, now⟩ := h.way l out finishes
    exact ⟨l', le, out, now⟩
  · obtain ⟨l₁, lt, out', began⟩ := h.below.shorter mem keeps entered finishes
    obtain ⟨l', le, now⟩ := h.way l₁ out' began
    exact ⟨l', by omega, out', now⟩

/-- The memo table is right about all functions that take fewer steps than the frame at hand has
before it, whatever it comes to. -/
theorem remembers (respects : contents.Respects setting.library)
    (h : Tracked setting base first frame rest memo) {goal : Frame → Prop} {k : Nat}
    {end_ : Except Host.Error (Frame × Nat)} (comes : frame.Comes setting goal k n end_) :
    Remembers setting k memo := fun key o known => by
  rcases h.known key o known with work | right
  · obtain ⟨callee, entered⟩ := h.entered work
    refine ⟨callee, entered, fun l out lt finishes => ?_⟩
    -- The function at work would be done with fewer steps than the frame on top of it.
    obtain ⟨l', le, out', now⟩ := h.shorter work entered finishes
    have := now.le respects comes
    omega
  · exact right k

/-- A frame that calls a function at work comes to no end. -/
theorem endless (respects : contents.Respects setting.library)
    (h : Tracked setting base first frame rest memo)
    (turn : frame.turn setting n = .ok (.call caller function [] callee, n'))
    (work : ∃ f ∈ frame :: rest, f.memoKey? = some (function, caller.pos)) :
    ¬ frame.Finishes setting l out := fun finishes => by
  obtain ⟨l₁, lt, end_, inner, -⟩ := finishes.call respects turn
  obtain ⟨-, enters⟩ := Frame.enters_of_turn turn
  obtain ⟨l', le, out', now⟩ := h.shorter work enters.enter inner
  obtain ⟨rfl, -⟩ := finishes.unique respects now
  omega

/-- A parse that comes to an end without a memo table never calls a function that is at work. -/
theorem unread (respects : contents.Respects setting.library)
    (h : Tracked setting base first frame rest memo) (finishes : base.Finishes setting l out)
    (turn : frame.turn setting n = .ok (.call caller function [] callee, n')) :
    ∀ f ∈ frame :: rest, f.memoKey? ≠ some (function, caller.pos) := fun f mem keeps => by
  obtain ⟨l', out', began⟩ := h.below.finishes finishes
  obtain ⟨l'', -, now⟩ := h.way l' out' began
  exact h.endless respects turn ⟨f, mem, keeps⟩ now

/-! ### Steps -/

/-- The frame on top goes on. -/
theorem moved (h : Tracked setting base first frame rest memo) (moved : frame.Moved frame')
    (way : Frame.Keeps setting first frame') : Tracked setting base first frame' rest memo where
  way := way
  keyed key keeps := h.keyed key (moved.memoKey?.symm.trans keeps)
  below := h.below
  known key o known := (h.known key o known).imp_left fun ⟨f, mem, keeps⟩ => by
    rcases List.mem_cons.1 mem with rfl | mem
    · exact ⟨frame', .head _, moved.memoKey?.trans keeps⟩
    · exact ⟨f, .tail _ mem, keeps⟩

/-- A call that is answered from the memo table. -/
theorem hit (respects : contents.Respects setting.library)
    (h : Tracked setting base first frame rest memo) {o : Outcome}
    (turn : frame.turn setting n = .ok (.call caller function [] callee, n'))
    (known : memo[(function, caller.pos)]? = some o) :
    Tracked setting base first (caller.resume o) rest memo := by
  obtain ⟨rfl, enters⟩ := Frame.enters_of_turn turn
  refine h.moved ⟨rfl, rfl⟩ fun l out finishes => ?_
  obtain ⟨l', le, now⟩ := h.way l out finishes
  rcases h.known _ o known with work | right
  · exact absurd now (h.endless respects turn work)
  · obtain ⟨l₁, lt, end_, inner, behind⟩ := now.call respects turn
    obtain ⟨_, entered, right⟩ := right (l₁ + 1)
    obtain rfl := Except.ok.inj (enters.enter.symm.trans entered)
    obtain ⟨last, rfl, like⟩ := right l₁ end_ (Nat.lt_succ_self l₁) inner
    obtain ⟨l₂, lt', now'⟩ := behind last rfl
    exact ⟨l₂, by omega, now'.like respects ((Frame.Like.refl _).resume like)⟩

/-- A call whose function begins. -/
theorem call (respects : contents.Respects setting.library)
    (h : Tracked setting base first frame rest memo)
    (turn : frame.turn setting n = .ok (.call caller function args callee, n')) {begun : Frame}
    (like : callee.Like begun)
    (keyed : ∀ key, begun.memoKey? = some key → args = [] ∧ key = (function, caller.pos))
    {memo' : Std.HashMap MemoKey Outcome} (known : ∀ (key : MemoKey) (o : Outcome),
      memo'[key]? = some o → begun.memoKey? = some key ∨ memo[key]? = some o) :
    Tracked setting base callee begun (caller :: rest) memo' := by
  obtain ⟨rfl, enters⟩ := Frame.enters_of_turn turn
  refine ⟨(Frame.Keeps.refl callee).like respects like, fun key keeps => ?_,
    .caller (h.way.awaits respects turn) h.keyed h.below, fun key o found => ?_⟩
  · obtain ⟨rfl, rfl⟩ := keyed key keeps
    exact enters.enter
  · rcases known key o found with keeps | before
    · exact .inl ⟨begun, .head _, keeps⟩
    · refine (h.known key o before).imp_left fun ⟨f, mem, keeps⟩ => ?_
      rcases List.mem_cons.1 mem with rfl | mem
      · exact ⟨_, .tail _ (.head _), keeps⟩
      · exact ⟨f, .tail _ (.tail _ mem), keeps⟩

/-- A return. -/
theorem ret (respects : contents.Respects setting.library)
    (h : Tracked setting base first frame (caller :: rest) memo)
    (returns : frame.Returning setting) :
    ∃ first', Tracked setting base first' (caller.resume frame.outcome) rest (remember frame memo) := by
  obtain ⟨way, keyed, below, known⟩ := h
  cases below with
  | @caller first' _ _ _ awaits keyed' below =>
      refine ⟨first', awaits.resume respects way returns, keyed', below, fun key o found => ?_⟩
      have others : memo[key]? = some o → frame.memoKey? ≠ some key →
          (∃ f ∈ caller.resume frame.outcome :: rest, f.memoKey? = some key) ∨
            ∀ bound, Vouched setting bound key o := fun before other => by
        refine (known key o before).imp_left fun ⟨f, mem, keeps⟩ => ?_
        rcases List.mem_cons.1 mem with rfl | mem
        · exact absurd keeps other
        · rcases List.mem_cons.1 mem with rfl | mem
          · exact ⟨_, .head _, keeps⟩
          · exact ⟨f, .tail _ mem, keeps⟩
      rw [remember] at found
      split at found
      · next key' kept =>
          rw [Std.HashMap.getElem?_insert] at found
          split at found
          · next same =>
              obtain rfl := eq_of_beq same
              obtain rfl := Option.some.inj found
              refine .inr fun bound => ⟨first, keyed _ kept, fun l out _ finishes => ?_⟩
              obtain ⟨l', -, now⟩ := way l out finishes
              obtain ⟨last, rfl, like⟩ := now.returning respects returns
              exact ⟨last, rfl, like.symm.outcome⟩
          · next other => exact others found fun same => other (by simp_all)
      · next free => exact others found (by simp [free])

/-- Every step keeps the invariant. -/
theorem step (respects : contents.Respects setting.library)
    (h : Tracked setting base first frame rest memo) {m : Machine}
    (moves : Machine.step setting true ⟨frame :: rest, memo, n⟩ = .ok (.running m)) :
    ∃ first' frame' rest', m.frames = frame' :: rest' ∧
      Tracked setting base first' frame' rest' m.memo := by
  cases turn : frame.turn setting n with
  | error e =>
      rw [step_stop turn fun _ => h.real] at moves
      cases moves
  | ok p =>
      obtain ⟨t, n'⟩ := p
      cases t with
      | next frame' =>
          rw [step_turn turn fun _ _ _ _ same => nomatch same] at moves
          obtain rfl := Progress.running.inj (Except.ok.inj moves)
          exact ⟨first, frame', rest, rfl, h.moved (Frame.moved_of_turn turn) (h.way.next respects turn)⟩
      | call caller function args callee =>
          cases args with
          | cons arg args =>
              rw [step_turn turn fun _ _ _ _ same => nomatch same] at moves
              obtain rfl := Progress.running.inj (Except.ok.inj moves)
              obtain ⟨-, _, -, -, rfl⟩ := Frame.enters_of_turn turn
              exact ⟨_, _, _, rfl, h.call respects turn (.refl _) (fun _ keeps => nomatch keeps)
                fun _ _ => .inr⟩
          | nil =>
              cases known : memo[(function, caller.pos)]? with
              | some o =>
                  rw [step_hit turn known] at moves
                  obtain rfl := Progress.running.inj (Except.ok.inj moves)
                  exact ⟨first, _, rest, rfl, h.hit respects turn known⟩
              | none =>
                  rw [step_miss turn known] at moves
                  obtain rfl := Progress.running.inj (Except.ok.inj moves)
                  refine ⟨callee, _, _, rfl, h.call respects turn ((Frame.Like.refl callee).rekey _)
                    (fun key same => ⟨rfl, (Option.some.inj same).symm⟩) fun key o found => ?_⟩
                  rw [Std.HashMap.getElem?_insert] at found
                  split at found
                  · next same => exact .inl (congrArg some (eq_of_beq same))
                  · exact .inr found
      | ret =>
          obtain ⟨returns, rfl⟩ := Frame.returning_of_turn turn
          cases rest with
          | nil =>
              rw [step_turn turn fun _ _ _ _ same => nomatch same] at moves
              cases moves
          | cons caller rest =>
              rw [step_return turn] at moves
              obtain rfl := Progress.running.inj (Except.ok.inj moves)
              obtain ⟨first', tracked⟩ := h.ret respects returns
              exact ⟨first', _, rest, rfl, tracked⟩

/-- All states of a parse keep the invariant. -/
theorem leads (respects : contents.Respects setting.library)
    (h : Tracked setting base first frame rest memo) {k : Nat} {m : Machine}
    (leads : Leads setting true k ⟨frame :: rest, memo, n⟩ m) :
    ∃ first' frame' rest', m.frames = frame' :: rest' ∧
      Tracked setting base first' frame' rest' m.memo := by
  generalize begins : (⟨frame :: rest, memo, n⟩ : Machine) = start at leads
  induction leads generalizing first frame rest memo n with
  | refl =>
      subst begins
      exact ⟨first, frame, rest, rfl, h⟩
  | step moves _ ih =>
      subst begins
      obtain ⟨first', frame', rest', frames, tracked⟩ := h.step respects moves
      exact ih tracked (by rw [← frames])

end Tracked

end Machine

end Packrat
