import Packrat.Proofs.Evaluation.Contents
import Packrat.Proofs.Execution.Transitions

/-
**Instructions do not tell apart what has the same contents.**

Two frames that have come to the same instruction at the same place, with values of the same contents
in their registers and slots, work alike: an instruction fails in both with the same error, or leaves
frames that are alike again, or calls the same function with arguments of the same contents.  This
takes a library that looks at contents only.

Main definitions:

* `Packrat.Frame.Like`, `Packrat.Outcome.Like`, `Packrat.Action.Like` — what is alike;
* `Packrat.Exec.Agrees` — work that comes to the same.

Main results:

* `Packrat.Instr.execute_like` — **an instruction works alike in frames that are alike**.
-/

set_option autoImplicit false

namespace Packrat

open Likeness

/-- Frames at the same instruction and place, with values of the same contents. -/
structure Frame.Like (frame frame' : Frame) : Prop where
  function : frame'.function = frame.function
  pc : frame'.pc = frame.pc
  status : frame'.status = frame.status
  result : Alike contents frame.result frame'.result
  pos : frame'.pos = frame.pos
  slots : AlikeAll contents frame.slots.toList frame'.slots.toList

/-- Outcomes at the same place, with values of the same contents. -/
structure Outcome.Like (o o' : Outcome) : Prop where
  status : o'.status = o.status
  result : Alike contents o.result o'.result
  pos : o'.pos = o.pos

theorem Outcome.Like.trans {o o' o'' : Outcome} (h : o.Like o') (h' : o'.Like o'') : o.Like o'' :=
  ⟨h'.status.trans h.status, contents.trans h.result h'.result, h'.pos.trans h.pos⟩

/-- Actions of the same kind, with values of the same contents. -/
inductive Action.Like : Action → Action → Prop
  | next {frame frame' : Frame} (like : frame.Like frame') : Action.Like (.next frame) (.next frame')
  | call {frame frame' : Frame} (like : frame.Like frame') (function : Nat) {args args' : List Value}
      (values : AlikeAll contents args args') :
      Action.Like (.call frame function args) (.call frame' function args')
  | ret {frame frame' : Frame} (like : frame.Like frame') : Action.Like (.ret frame) (.ret frame')

/-! ### Work in parts -/

namespace Exec

variable {α β γ δ : Type} {R : α → β → Prop} {Q : γ → δ → Prop}

/-- Work that fails with the same error, or comes to what goes together. -/
def Agrees (R : α → β → Prop) (x : Exec α) (y : Exec β) : Prop :=
  ∀ n m, Agree (fun p q => R p.1 q.1) (x n) (y m)

namespace Agrees

theorem pure {a : α} {b : β} (h : R a b) : Agrees R (Pure.pure a) (Pure.pure b) :=
  fun _ _ => .ok h

theorem bind {x : Exec α} {y : Exec β} {f : α → Exec γ} {g : β → Exec δ} (h : Agrees R x y)
    (next : ∀ a b, R a b → Agrees Q (f a) (g b)) : Agrees Q (x >>= f) (y >>= g) :=
  fun n m => (h n m).bind fun p q both => next _ _ both p.2 q.2

theorem lift {x : Except Failure α} {y : Except Failure β} (h : Agree R x y) :
    Agrees R (liftM x) (liftM y) := fun n m => by
  cases h with
  | ok h => exact .ok h
  | error e => exact .error e

theorem host {e : Host.Eval α} {e' : Host.Eval β} (h : AgreeOn contents R e e') :
    Agrees R (Exec.host e) (Exec.host e') := fun n m => by
  have both := h n m trivial
  rw [Exec.host, Exec.host]
  change Agree _ (e.run n) (e'.run m) at both
  match e.run n, e'.run m, both with
  | .error _, .error _, .error e => exact .error _
  | .ok (a, _), .ok (b, _), .ok both => exact .ok both.1

theorem fresh : Agrees (fun _ _ => True) Packrat.fresh Packrat.fresh := fun _ _ => .ok trivial

theorem newList {xs ys : List Value} (h : AlikeAll contents xs ys) :
    Agrees (Alike contents) (Value.newList xs) (Value.newList ys) :=
  .bind fresh fun _ _ _ => .pure (.list trivial h)

theorem newNode (cls : NodeClass) {xs ys : List Value} (h : AlikeAll contents xs ys) :
    Agrees (Alike contents) (Value.newNode cls xs) (Value.newNode cls ys) :=
  .bind fresh fun _ _ _ => .pure (.node trivial cls h none)

end Agrees

end Exec

/-- What is the same in both and does not depend on values. -/
theorem Likeness.Agree.same {ε α : Type} (x : Except ε α) : Agree (fun a b => a = b) x x :=
  .of_eq rfl

/-- Values that are alike one by one, one of them replaced. -/
theorem Likeness.AlikeAll.set {L : Likeness} {xs ys : List Value} (h : AlikeAll L xs ys) (i : Nat)
    {x y : Value} (same : Alike L x y) : AlikeAll L (xs.set i x) (ys.set i y) := by
  induction i generalizing xs ys with
  | zero =>
      cases h with
      | nil => exact .nil
      | cons _ tail => exact .cons same tail
  | succ i ih =>
      cases h with
      | nil => exact .nil
      | cons head tail => exact .cons head (ih tail)

/-! ### Registers and slots -/

namespace Frame.Like

variable {frame frame' : Frame}

/-- A slot of one frame and the same of the other. -/
theorem slot (h : frame.Like frame') (v : Nat) :
    Agree (Alike contents) (frame.slot v) (frame'.slot v) := by
  have item := h.slots.getElem? v
  rw [Array.getElem?_toList, Array.getElem?_toList] at item
  rw [Frame.slot, Frame.slot, poolEntry, poolEntry]
  generalize frame.slots[v]? = x at item ⊢
  generalize frame'.slots[v]? = y at item ⊢
  cases item with
  | none => exact .error _
  | some same => exact .ok same

theorem slotList (h : frame.Like frame') (vs : List Nat) :
    Agree (AlikeAll contents) (frame.slotList vs) (frame'.slotList vs) := by
  induction vs with
  | nil => exact .ok .nil
  | cons v vs ih =>
      rw [Frame.slotList, Frame.slotList]
      exact (h.slot v).bind fun _ _ head => ih.bind fun _ _ tail => .ok (.cons head tail)

theorem listAt (h : frame.Like frame') (v : Nat) :
    Agree (fun a b => AlikeAll contents a.2 b.2) (frame.listAt v) (frame'.listAt v) := by
  rw [Frame.listAt, Frame.listAt]
  refine (h.slot v).bind fun x y same => ?_
  cases same with
  | list _ items => exact .ok items
  | _ => exact .error _

theorem savedPosition (h : frame.Like frame') (v : Nat) :
    Agree (fun a b => a = b) (frame.savedPosition v) (frame'.savedPosition v) := by
  rw [Frame.savedPosition, Frame.savedPosition]
  refine (h.slot v).bind fun x y same => ?_
  cases same with
  | int n => exact .same _
  | _ => exact .error _

theorem savedNumber (h : frame.Like frame') (v : Nat) :
    Agree (fun a b => a = b) (frame.savedNumber v) (frame'.savedNumber v) := by
  rw [Frame.savedNumber, Frame.savedNumber]
  refine (h.slot v).bind fun x y same => ?_
  rw [same.asInt?_eq]
  exact .ok rfl

theorem read (h : frame.Like frame') (value : Operand) :
    Agree (Alike contents) (frame.read value) (frame'.read value) := by
  cases value with
  | result => exact .ok h.result
  | position =>
      rw [Frame.read, Frame.read, h.pos]
      exact .ok (.int _)
  | slot v => exact h.slot v
  | const value => exact .ok (contents.reflexive.alike value)

theorem limit? (h : frame.Like frame') (limit : Limit) :
    Agree (fun a b => a = b) (frame.limit? limit) (frame'.limit? limit) := by
  cases limit with
  | const n => exact .ok rfl
  | slot v =>
      rw [Frame.limit?, Frame.limit?]
      refine (h.slot v).bind fun x y same => ?_
      cases same with
      | list | node | func | parser => exact .error _
      | _ => exact .same _

theorem lengthHolds (h : frame.Like frame') (v : Nat) (limit : Limit) (wanted : Int → Int → Bool) :
    Agree (fun a b => a = b) (frame.lengthHolds v limit wanted)
      (frame'.lengthHolds v limit wanted) := by
  rw [Frame.lengthHolds, Frame.lengthHolds]
  refine (h.limit? limit).bind fun n? _ same => ?_
  subst same
  cases n? with
  | none => exact .ok rfl
  | some n =>
      refine (h.listAt v).bind ?_
      rintro ⟨_, xs⟩ ⟨_, ys⟩ items
      exact .ok (by rw [show xs.length = ys.length from items.length_eq])

theorem positionHolds (h : frame.Like frame') (v : Nat) (wanted : Int → Int → Bool) :
    Agree (fun a b => a = b) (frame.positionHolds v wanted) (frame'.positionHolds v wanted) := by
  rw [Frame.positionHolds, Frame.positionHolds, h.pos]
  refine (h.savedNumber v).bind fun n _ same => ?_
  subst same
  exact .ok rfl

theorem holds (h : frame.Like frame') (condition : Condition) :
    Agree (fun a b => a = b) (frame.holds condition) (frame'.holds condition) := by
  cases condition with
  | status | notStatus =>
      rw [Frame.holds, Frame.holds, h.status]
      exact .ok rfl
  | lenLt v limit | lenGe v limit =>
      rw [Frame.holds, Frame.holds]
      exact h.lengthHolds v limit _
  | posEq v | posNe v | posGe v | posGt v | posLt v | posLe v =>
      rw [Frame.holds, Frame.holds]
      exact h.positionHolds v _

/-! ### Frames that have moved on -/

theorem goto (h : frame.Like frame') (setting : Setting) (label : Nat) :
    Agree Frame.Like (frame.goto setting label) (frame'.goto setting label) := by
  rw [Frame.goto, Frame.goto, h.function]
  refine (Agree.same _).bind fun f _ same => ?_
  subst same
  cases f.labels[label]? with
  | none => exact .error _
  | some pc => exact .ok ⟨rfl, rfl, h.status, h.result, h.pos, h.slots⟩

theorem next (h : frame.Like frame') : frame.next.Like frame'.next :=
  { h with pc := congrArg Nat.succ h.pc }

theorem yield (h : frame.Like frame') {x y : Value} (same : Alike contents x y) :
    (frame.yield x).Like (frame'.yield y) := { h with status := rfl, result := same }

theorem fail (h : frame.Like frame') (entry : Nat) : (frame.fail entry).Like (frame'.fail entry) :=
  { h with status := rfl, result := .failure entry trivial }

theorem load (h : frame.Like frame') {x y : Value} (same : Alike contents x y) :
    Frame.Like { frame with result := x } { frame' with result := y } := { h with result := same }

theorem setSlot (h : frame.Like frame') (v : Nat) {x y : Value} (same : Alike contents x y) :
    (frame.setSlot v x).Like (frame'.setSlot v y) := by
  refine { h with slots := ?_ }
  change AlikeAll contents (frame.slots.setIfInBounds v x).toList (frame'.slots.setIfInBounds v y).toList
  rw [Array.toList_setIfInBounds, Array.toList_setIfInBounds]
  exact h.slots.set v same

theorem matched (h : frame.Like frame') (setting : Setting) (entry : Nat) (stop? : Option Nat) :
    (frame.matched setting entry stop?).Like (frame'.matched setting entry stop?) := by
  cases stop? with
  | none => exact h.fail entry
  | some stop =>
      refine { h with status := rfl, pos := rfl, result := ?_ }
      change Alike contents (Input.excise setting.isBinary setting.bytes frame.pos stop)
        (Input.excise setting.isBinary setting.bytes frame'.pos stop)
      rw [h.pos]
      exact contents.reflexive.alike _

theorem resume (h : frame.Like frame') {o o' : Outcome} (same : o.Like o') :
    (frame.resume o).Like (frame'.resume o') :=
  { h with status := same.status, result := same.result, pos := same.pos }

theorem outcome (h : frame.Like frame') : frame.outcome.Like frame'.outcome :=
  ⟨h.status, h.result, h.pos⟩

/-- What will be remembered of a frame does not matter to what it is like. -/
theorem rekey (h : frame.Like frame') (key? : Option MemoKey) :
    frame.Like { frame' with memoKey? := key? } :=
  ⟨h.function, h.pc, h.status, h.result, h.pos, h.slots⟩

theorem refl (frame : Frame) : frame.Like frame :=
  ⟨rfl, rfl, rfl, contents.reflexive.alike _, rfl, contents.reflexive.alikeAll _⟩

/-- Frames that are like a third one are alike. -/
theorem join {frame'' : Frame} (h : frame.Like frame') (h' : frame.Like frame'') :
    frame'.Like frame'' where
  function := h'.function.trans h.function.symm
  pc := h'.pc.trans h.pc.symm
  status := h'.status.trans h.status.symm
  result := contents.euclidean.join h.result h'.result
  pos := h'.pos.trans h.pos.symm
  slots := contents.euclidean.join_all h.slots h'.slots

theorem callSlot (h : frame.Like frame') {x y : Value} (same : Alike contents x y)
    {args args' : List Value} (values : AlikeAll contents args args') :
    (frame.callSlot x args).Like (frame'.callSlot y args') := by
  cases same with
  | parser _ functions captures _ =>
      obtain rfl : _ = _ := functions
      exact .call h _ (captures.append values)
  | none => exact .next (h.yield .none)
  | bool b => exact .next (h.yield (.bool b))
  | int n => exact .next (h.yield (.int n))
  | float x => exact .next (h.yield (.float x))
  | str s => exact .next (h.yield (.str s))
  | bytes bs => exact .next (h.yield (.bytes bs))
  | list ids items => exact .next (h.yield (.list ids items))
  | node ids cls items extent? => exact .next (h.yield (.node ids cls items extent?))
  | func ids f => exact .next (h.yield (.func ids f))
  | failure entry marks => exact .next (h.yield (.failure entry marks))

/-- Frames of the same function, called with arguments of the same contents. -/
theorem start (function : Nat) (f : Function) {args args' : List Value} (pos : Nat)
    (key? key?' : Option MemoKey) (values : AlikeAll contents args args') :
    (Frame.begin function f args pos key?).Like (Frame.begin function f args' pos key?') := by
  refine ⟨rfl, rfl, rfl, .none, rfl, ?_⟩
  simp only [Frame.begin, values.length_eq]
  exact values.append (contents.reflexive.alikeAll _)

theorem symm (h : frame.Like frame') : frame'.Like frame := h.join (.refl frame)

theorem trans {frame'' : Frame} (h : frame.Like frame') (h' : frame'.Like frame'') :
    frame.Like frame'' := h.symm.join h'

end Frame.Like

/-! ### Operators -/

open Exec (Agrees)

theorem foldPrefixes_like {v w : Value} (h : Alike contents v w) {ops ops' : List Value}
    (same : AlikeAll contents ops ops') :
    Agrees (Alike contents) (foldPrefixes v ops) (foldPrefixes w ops') := by
  induction ops generalizing ops' with
  | nil =>
      cases same
      exact .pure h
  | cons op ops ih =>
      cases same with
      | cons head tail =>
          exact .bind (ih tail) fun _ _ right => .newNode _ (.cons head (.cons right .nil))

theorem foldSpine_like : {xs ys : List Value} → AlikeAll contents xs ys →
    Agrees (Alike contents) (foldSpine xs) (foldSpine ys)
  | _, _, .nil => fun _ _ => .error _
  | _, _, .cons last .nil => .pure last
  | _, _, .cons _ (.cons _ .nil) => fun _ _ => .error _
  | _, _, .cons left (.cons op (.cons next rest)) => by
      rw [foldSpine, foldSpine]
      · exact .bind (foldSpine_like (.cons next rest)) fun _ _ right =>
          .newNode _ (.cons left (.cons op (.cons right .nil)))
      all_goals simp

/-! ### Instructions -/

/-- The environment of a snippet whose captures have the same contents. -/
theorem Setting.scope_like (setting : Setting) (names : List String) {values values' : List Value}
    (same : AlikeAll contents values values') :
    AlikeEnv contents (setting.scope names values) (setting.scope names values') :=
  (contents.reflexive.alikeEnv setting.globals).bindAll names same

/-- An instruction works alike in frames that are alike. -/
theorem Instr.execute_like {setting : Setting} (respects : contents.Respects setting.library)
    {frame frame' : Frame} (h : frame.Like frame') (i : Instr) :
    Agrees Action.Like (i.execute setting frame) (i.execute setting frame') := by
  cases i with
  | matchLiteral literal entry =>
      refine .bind (.lift (.same _)) fun bytes _ same => ?_
      subst same
      rw [h.pos]
      exact .pure (.next (h.matched setting entry _))
  | matchRegex regex entry =>
      refine .bind (.lift (.same _)) fun e _ same => ?_
      subst same
      rw [h.pos]
      exact .pure (.next (h.matched setting entry _))
  | setStatus b => exact .pure (.next { h with status := rfl })
  | load value => exact .bind (.lift (h.read value)) fun _ _ same => .pure (.next (h.load same))
  | store v value =>
      exact .bind (.lift (h.read value)) fun _ _ same => .pure (.next (h.setSlot v same))
  | restore v =>
      refine .bind (.lift (h.savedPosition v)) fun pos _ same => ?_
      subst same
      exact .pure (.next { h with pos := rfl })
  | fail entry => exact .pure (.next (h.fail entry))
  | jump label => exact .bind (.lift (h.goto setting label)) fun _ _ like => .pure (.next like)
  | branch condition label =>
      refine .bind (.lift (h.holds condition)) fun b _ same => ?_
      subst same
      cases b with
      | false => exact .pure (.next h)
      | true => exact .bind (.lift (h.goto setting label)) fun _ _ like => .pure (.next like)
  | newList v => exact .bind (.newList .nil) fun _ _ list => .pure (.next (h.setSlot v list))
  | push v value =>
      refine .bind (.lift (h.read value)) fun x y same => .bind (.lift (h.listAt v)) ?_
      intro a b items
      exact .pure (.next (h.setSlot v (.list trivial (items.append (.cons same .nil)))))
  | pop v =>
      refine .bind (.lift (h.listAt v)) fun a b items => ?_
      refine .pure (.next (h.setSlot v (.list trivial ?_)))
      rw [List.dropLast_eq_take, List.dropLast_eq_take, items.length_eq]
      exact .of_forall₂ (List.forall₂_take _ items.forall₂)
  | call callee args =>
      cases callee with
      | function f =>
          exact .bind (.lift (h.slotList args)) fun _ _ values => .pure (.call h f values)
      | slot v =>
          exact .bind (.lift (h.slotList args)) fun _ _ values => .bind (.lift (h.slot v))
            fun _ _ same => .pure (h.callSlot same values)
  | eval host captures =>
      refine .bind (.lift (.same _)) fun s _ same => ?_
      subst same
      exact .bind (.lift (h.slotList captures)) fun _ _ values =>
        .bind (.host (respects.evalIn (.inl (setting.scope_like s.locals values))))
          fun _ _ same => .pure (.next (h.yield same))
  | apply func arg =>
      exact .bind (.lift (h.slot func)) fun _ _ f => .bind (.lift (h.slot arg)) fun _ _ x =>
        .bind (.host (respects.callIn f (.cons x .nil))) fun _ _ same => .pure (.next (h.yield same))
  | test func arg entry =>
      refine .bind (.lift (h.slot func)) fun _ _ f => .bind (.lift (h.slot arg)) fun _ _ x =>
        .bind (.host (respects.callIn f (.cons x .nil))) fun v w same => ?_
      rw [same.truthy_eq]
      split
      · exact .pure (.next (h.yield x))
      · exact .pure (.next (h.fail entry))
  | makeList items =>
      exact .bind (.lift (h.slotList items)) fun _ _ values => .bind (.newList values)
        fun _ _ same => .pure (.next (h.load same))
  | makeNode cls fields start =>
      refine .bind (.lift (.same _)) fun c _ same => ?_
      subst same
      refine .bind (.lift (h.slotList fields)) fun _ _ values =>
        .bind (.lift (h.savedPosition start)) fun from_ _ same => ?_
      subst same
      refine .bind .fresh fun _ _ _ => .pure (.next ?_)
      simp only [h.pos]
      exact { h with result := .node trivial c values _, pos := rfl }
  | makeInfix left operator =>
      exact .bind (.lift (h.slot left)) fun _ _ a => .bind (.lift (h.slot operator)) fun _ _ op =>
        .bind (.newNode _ (.cons a (.cons op (.cons h.result .nil)))) fun _ _ same =>
          .pure (.next (h.load same))
  | makePostfix left =>
      exact .bind (.lift (h.slot left)) fun _ _ a =>
        .bind (.newNode _ (.cons a (.cons h.result .nil))) fun _ _ same =>
          .pure (.next (h.load same))
  | foldPrefix ops =>
      exact .bind (.lift (h.listAt ops)) fun _ _ items =>
        .bind (foldPrefixes_like h.result items) fun _ _ same => .pure (.next (h.load same))
  | foldRight spine =>
      exact .bind (.lift (h.listAt spine)) fun _ _ items =>
        .bind (foldSpine_like items) fun _ _ same => .pure (.next (h.load same))
  | makeParser function captures =>
      refine .bind (.lift (.same _)) fun f _ same => ?_
      subst same
      exact .bind (.lift (h.slotList captures)) fun _ _ values => .bind .fresh fun _ _ _ =>
        .pure (.next (h.load (Alike.parser (L := contents) trivial rfl values _)))
  | ret => exact .pure (.ret h)

end Packrat
