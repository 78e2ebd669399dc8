import Mathlib.Algebra.Group.Nat.Defs
import Mathlib.Data.List.Forall2
import Packrat.Proofs.Emission.Hosting
import Packrat.Proofs.Execution.Following

/-
**A function at work.**

The machine is looked at from inside of one function: what stays the same while it works is its
site, what changes is a moment.  Each instruction that has been written into the function leads from
one moment to the next; the lemmas below say so in the form in which readings are followed, from the
draft before the instruction to the draft behind it.

Main definitions:

* `Packrat.Site`, `Packrat.Moment` — a function at work, and what it has at hand;
* `Packrat.Site.machine` — the machine at an instruction of the function.

Main results:

* `Packrat.Site.follow_store`, `Packrat.Site.follow_branch`, … — one instruction each.
-/

set_option autoImplicit false

namespace Packrat

/-! ### Sites and moments -/

/-- A function at work: the parse around it, and the frames below it. -/
structure Site where
  setting : Setting
  memoize : Bool
  number : Nat
  function : Function
  known : setting.program.functions[number]? = some function
  /-- Where the outcome of the function is kept, if it is. -/
  key? : Option MemoKey
  rest : List Frame

/-- What a function at work has at hand. -/
structure Moment where
  status : Bool
  result : Value
  pos : Nat
  slots : Array Value
  memo : Std.HashMap MemoKey Outcome
  identity : Nat

/-- The registers of a moment. -/
def Moment.outcome (σ : Moment) : Outcome := ⟨σ.status, σ.result, σ.pos⟩

/-- A moment with another value in a slot. -/
def Moment.set (σ : Moment) (v : Nat) (x : Value) : Moment :=
  { σ with slots := σ.slots.setIfInBounds v x }

/-- A moment behind a success. -/
def Moment.yield (σ : Moment) (x : Value) : Moment := { σ with status := true, result := x }

/-- A moment behind a failure. -/
def Moment.fail (σ : Moment) (entry : Nat) : Moment :=
  { σ with status := false, result := .failure entry }

/-- A place as it is kept in a slot. -/
def Value.ofPos (pos : Nat) : Value := .int (Int64.ofNat pos)

namespace Site

variable (site : Site)

/-- The frame of the function at a moment. -/
def frame (pc : Nat) (σ : Moment) : Frame :=
  ⟨site.number, pc, σ.status, σ.result, σ.pos, σ.slots, site.key?⟩

/-- The machine at an instruction of the function. -/
def machine (pc : Nat) (σ : Moment) : Machine := ⟨site.frame pc σ :: site.rest, σ.memo, σ.identity⟩

/-- Following a reading from an instruction of the function. -/
def Follows (n pc : Nat) (σ : Moment) {α : Type} (r : Option (Except Stop (α × Store)))
    (post : α → Store → Machine → Prop) : Prop :=
  Machine.Follows site.setting site.memoize n (site.machine pc σ) r post

end Site

/-! ### Parts of instructions -/

theorem ok_bind {α β : Type} {x : Except Failure α} {a : α} (h : x = .ok a)
    (k : α → Except Failure β) : (x >>= k) = k a := by
  subst h
  rfl

theorem Exec.lift_bind {α β : Type} {x : Except Failure α} {a : α} (h : x = .ok a)
    (k : α → Exec β) (n : Nat) : (liftM x >>= k : Exec β) n = k a n := by
  subst h
  rfl

theorem poolEntry_ok {α : Type} {name : String} {pool : Array α} {n : Nat} {x : α}
    (h : pool[n]? = some x) : poolEntry name pool n = .ok x := by
  rw [poolEntry, h]

namespace Site

variable {site : Site} {pc n v l : Nat} {σ σ' : Moment} {i : Instr} {x : Value} {d : Draft}
variable {α : Type} {r : Option (Except Stop (α × Store))} {post : α → Store → Machine → Prop}

theorem frame_slot (h : σ.slots[v]? = some x) : (site.frame pc σ).slot v = .ok x := poolEntry_ok h

theorem frame_slotList {vs : List Nat} {xs : List Value}
    (h : List.Forall₂ (fun v x => σ.slots[v]? = some x) vs xs) :
    (site.frame pc σ).slotList vs = .ok xs := by
  induction h with
  | nil => rfl
  | cons hv _ ih =>
      rw [Frame.slotList, frame_slot hv, ih]
      rfl

theorem frame_listAt {id : Nat} {items : List Value} (h : σ.slots[v]? = some (.list id items)) :
    (site.frame pc σ).listAt v = .ok (id, items) := by
  rw [Frame.listAt, frame_slot h]
  rfl

theorem frame_savedPosition {p : Nat} (h : σ.slots[v]? = some (.ofPos p)) (small : p < 2 ^ 63) :
    (site.frame pc σ).savedPosition v = .ok p := by
  rw [Frame.savedPosition, frame_slot h]
  have number : (Int64.ofNat p).toInt = (p : Int) := Int64.toInt_ofNat_of_lt small
  simp only [Value.ofPos, bind, Except.bind, number]
  simp [pure, Except.pure]

theorem frame_savedNumber {p : Nat} (h : σ.slots[v]? = some (.ofPos p)) (small : p < 2 ^ 63) :
    (site.frame pc σ).savedNumber v = .ok (p : Int) := by
  rw [Frame.savedNumber, frame_slot h]
  have number : (Int64.ofNat p).toInt = (p : Int) := Int64.toInt_ofNat_of_lt small
  simp only [bind, Except.bind, pure, Except.pure, Value.ofPos, Value.asInt?, Option.map_some,
    Option.getD_some, number]

theorem frame_positionHolds {z : Int} {wanted : Int → Int → Bool}
    (h : (site.frame pc σ).savedNumber v = .ok z) :
    (site.frame pc σ).positionHolds v wanted = .ok (wanted σ.pos z) := ok_bind h _

theorem frame_posNe {p : Nat} (h : σ.slots[v]? = some (.ofPos p)) (small : p < 2 ^ 63) :
    (site.frame pc σ).holds (.posNe v) = .ok (decide (σ.pos ≠ p)) := by
  change (site.frame pc σ).positionHolds v (fun pos n => pos != n) = _
  rw [frame_positionHolds (frame_savedNumber h small), Except.ok.injEq, Bool.eq_iff_iff]
  simp only [bne_iff_ne, decide_eq_true_eq]
  omega

theorem frame_posEq {p : Nat} (h : σ.slots[v]? = some (.ofPos p)) (small : p < 2 ^ 63) :
    (site.frame pc σ).holds (.posEq v) = .ok (decide (σ.pos = p)) := by
  change (site.frame pc σ).positionHolds v (fun pos n => pos == n) = _
  rw [frame_positionHolds (frame_savedNumber h small), Except.ok.injEq, Bool.eq_iff_iff]
  simp only [beq_iff_eq, decide_eq_true_eq]
  omega

/-! ### Steps -/

theorem fetch_frame (hi : site.function.code[pc]? = some i) :
    Machine.fetch site.setting (site.frame pc σ) = .ok i := by
  refine (ok_bind (poolEntry_ok site.known) _).trans ?_
  simp only [frame, hi]
  rfl

/-- The function goes on with its next instruction. -/
theorem step_next {pc' : Nat} (hi : site.function.code[pc]? = some i)
    (work : i.execute site.setting (site.frame (pc + 1) σ) σ.identity =
      .ok (.next (site.frame pc' σ'), σ'.identity)) (memo : σ'.memo = σ.memo) :
    Machine.step site.setting site.memoize (site.machine pc σ) = .ok (.running (site.machine pc' σ')) := by
  refine (ok_bind (fetch_frame hi) _).trans ((ok_bind work _).trans ?_)
  rw [← memo]
  rfl

/-- The function stops with an error of host code. -/
theorem step_error {e : Host.Error} (hi : site.function.code[pc]? = some i)
    (work : i.execute site.setting (site.frame (pc + 1) σ) σ.identity = .error (.host e)) :
    Machine.step site.setting site.memoize (site.machine pc σ) = .error (.host e) := by
  refine (ok_bind (fetch_frame hi) _).trans ?_
  change (i.execute site.setting (site.frame (pc + 1) σ) σ.identity >>= _) = _
  rw [work]
  rfl

/-! ### Instructions -/

theorem size_add (d : Draft) (i : Instr) : (d.add i).code.size = d.code.size + 1 := by
  simp [Draft.add]

theorem follow_next (h : site.function.Hosts (d.add i))
    (next : site.Follows n (d.add i).code.size σ' r post)
    (work : i.execute site.setting (site.frame (d.code.size + 1) σ) σ.identity =
      .ok (.next (site.frame (d.code.size + 1) σ'), σ'.identity)) (memo : σ'.memo = σ.memo) :
    site.Follows n d.code.size σ r post := by
  rw [size_add] at next
  exact .step (step_next h.instr work memo) next

theorem follow_setStatus {b : Bool} (h : site.function.Hosts (d.add (.setStatus b)))
    (next : site.Follows n (d.add (.setStatus b)).code.size { σ with status := b } r post) :
    site.Follows n d.code.size σ r post := follow_next h next rfl rfl

theorem follow_load {value : Operand} (h : site.function.Hosts (d.add (.load value)))
    (hx : (site.frame (d.code.size + 1) σ).read value = .ok x)
    (next : site.Follows n (d.add (.load value)).code.size { σ with result := x } r post) :
    site.Follows n d.code.size σ r post :=
  follow_next h next (Exec.lift_bind hx _ _) rfl

theorem step_store {value : Operand} (h : site.function.Hosts (d.add (.store v value)))
    (hx : (site.frame (d.code.size + 1) σ).read value = .ok x) :
    Machine.step site.setting site.memoize (site.machine d.code.size σ) =
      .ok (.running (site.machine (d.add (.store v value)).code.size (σ.set v x))) := by
  rw [size_add]
  exact step_next h.instr (Exec.lift_bind hx _ _) rfl

theorem follow_store {value : Operand} (h : site.function.Hosts (d.add (.store v value)))
    (hx : (site.frame (d.code.size + 1) σ).read value = .ok x)
    (next : site.Follows n (d.add (.store v value)).code.size (σ.set v x) r post) :
    site.Follows n d.code.size σ r post :=
  follow_next h next (Exec.lift_bind hx _ _) rfl

theorem follow_restore {p : Nat} (h : site.function.Hosts (d.add (.restore v)))
    (hp : σ.slots[v]? = some (.ofPos p)) (small : p < 2 ^ 63)
    (next : site.Follows n (d.add (.restore v)).code.size { σ with pos := p } r post) :
    site.Follows n d.code.size σ r post :=
  follow_next h next (Exec.lift_bind (frame_savedPosition hp small) _ _) rfl

theorem follow_fail {entry : Nat} (h : site.function.Hosts (d.add (.fail entry)))
    (next : site.Follows n (d.add (.fail entry)).code.size (σ.fail entry) r post) :
    site.Follows n d.code.size σ r post := follow_next h next rfl rfl

theorem frame_goto {target : Nat} (hl : site.function.labels[l]? = some target) :
    (site.frame pc σ).goto site.setting l = .ok (site.frame target σ) := by
  refine (ok_bind (poolEntry_ok site.known) _).trans ?_
  simp only [hl]
  rfl

theorem step_jump {target : Nat} (h : site.function.Hosts (d.add (.jump l)))
    (hl : site.function.labels[l]? = some target) :
    Machine.step site.setting site.memoize (site.machine d.code.size σ) =
      .ok (.running (site.machine target σ)) :=
  step_next h.instr (Exec.lift_bind (frame_goto hl) _ _) rfl

theorem step_branch {c : Condition} {target : Nat}
    (h : site.function.Hosts (d.add (.branch c l)))
    (hc : (site.frame (d.code.size + 1) σ).holds c = .ok true)
    (hl : site.function.labels[l]? = some target) :
    Machine.step site.setting site.memoize (site.machine d.code.size σ) =
      .ok (.running (site.machine target σ)) :=
  step_next h.instr ((Exec.lift_bind hc _ _).trans (Exec.lift_bind (frame_goto hl) _ _)) rfl

theorem follow_jump {target : Nat} (h : site.function.Hosts (d.add (.jump l)))
    (hl : site.function.labels[l]? = some target) (next : site.Follows n target σ r post) :
    site.Follows n d.code.size σ r post := .step (step_jump h hl) next

theorem follow_branch {c : Condition} {target : Nat}
    (h : site.function.Hosts (d.add (.branch c l)))
    (hc : (site.frame (d.code.size + 1) σ).holds c = .ok true)
    (hl : site.function.labels[l]? = some target) (next : site.Follows n target σ r post) :
    site.Follows n d.code.size σ r post := .step (step_branch h hc hl) next

theorem follow_pass {c : Condition} (h : site.function.Hosts (d.add (.branch c l)))
    (hc : (site.frame (d.code.size + 1) σ).holds c = .ok false)
    (next : site.Follows n (d.add (.branch c l)).code.size σ r post) :
    site.Follows n d.code.size σ r post :=
  follow_next h next (Exec.lift_bind hc _ _) rfl

/-! ### Lists -/

theorem follow_newList (h : site.function.Hosts (d.add (.newList v)))
    (next : site.Follows n (d.add (.newList v)).code.size
      { σ.set v (.list σ.identity []) with identity := σ.identity + 1 } r post) :
    site.Follows n d.code.size σ r post := follow_next h next rfl rfl

theorem follow_push {value : Operand} {id : Nat} {items : List Value}
    (h : site.function.Hosts (d.add (.push v value)))
    (hx : (site.frame (d.code.size + 1) σ).read value = .ok x)
    (hl : σ.slots[v]? = some (.list id items))
    (next : site.Follows n (d.add (.push v value)).code.size
      (σ.set v (.list id (items ++ [x]))) r post) :
    site.Follows n d.code.size σ r post :=
  follow_next h next ((Exec.lift_bind hx _ _).trans (Exec.lift_bind (frame_listAt hl) _ _)) rfl

theorem follow_pop {id : Nat} {items : List Value} (h : site.function.Hosts (d.add (.pop v)))
    (hl : σ.slots[v]? = some (.list id items))
    (next : site.Follows n (d.add (.pop v)).code.size (σ.set v (.list id items.dropLast)) r post) :
    site.Follows n d.code.size σ r post :=
  follow_next h next (Exec.lift_bind (frame_listAt hl) _ _) rfl

theorem follow_makeList {vs : List Nat} {xs : List Value}
    (h : site.function.Hosts (d.add (.makeList vs)))
    (hs : List.Forall₂ (fun v x => σ.slots[v]? = some x) vs xs)
    (next : site.Follows n (d.add (.makeList vs)).code.size
      { σ with result := .list σ.identity xs, identity := σ.identity + 1 } r post) :
    site.Follows n d.code.size σ r post :=
  follow_next h next (Exec.lift_bind (frame_slotList hs) _ _) rfl

/-! ### Nodes and parsers -/

theorem follow_makeNode {cls start p : Nat} {c : NodeClass} {vs : List Nat} {xs : List Value}
    (h : site.function.Hosts (d.add (.makeNode cls vs start)))
    (hc : site.setting.program.classes[cls]? = some c)
    (hs : List.Forall₂ (fun v x => σ.slots[v]? = some x) vs xs)
    (hp : σ.slots[start]? = some (.ofPos p)) (small : p < 2 ^ 63)
    (next : site.Follows n (d.add (.makeNode cls vs start)).code.size
      { σ with
        result := .node σ.identity c xs (some ⟨.unresolved p, .unresolved σ.pos⟩)
        identity := σ.identity + 1 } r post) :
    site.Follows n d.code.size σ r post :=
  follow_next h next ((Exec.lift_bind (poolEntry_ok hc) _ _).trans
    ((Exec.lift_bind (frame_slotList hs) _ _).trans
      (Exec.lift_bind (frame_savedPosition hp small) _ _))) rfl

theorem follow_makeInfix {left operator : Nat} {a op : Value}
    (h : site.function.Hosts (d.add (.makeInfix left operator)))
    (ha : σ.slots[left]? = some a) (ho : σ.slots[operator]? = some op)
    (next : site.Follows n (d.add (.makeInfix left operator)).code.size
      { σ with
        result := .node σ.identity .infixOp [a, op, σ.result] none
        identity := σ.identity + 1 } r post) :
    site.Follows n d.code.size σ r post :=
  follow_next h next
    ((Exec.lift_bind (frame_slot ha) _ _).trans (Exec.lift_bind (frame_slot ho) _ _)) rfl

theorem follow_makePostfix {left : Nat} {a : Value}
    (h : site.function.Hosts (d.add (.makePostfix left))) (ha : σ.slots[left]? = some a)
    (next : site.Follows n (d.add (.makePostfix left)).code.size
      { σ with
        result := .node σ.identity .postfixOp [a, σ.result] none
        identity := σ.identity + 1 } r post) :
    site.Follows n d.code.size σ r post :=
  follow_next h next (Exec.lift_bind (frame_slot ha) _ _) rfl

theorem follow_foldPrefix {ops id next' : Nat} {items : List Value}
    (h : site.function.Hosts (d.add (.foldPrefix ops)))
    (hl : σ.slots[ops]? = some (.list id items))
    (hf : foldPrefixes σ.result items σ.identity = .ok (x, next'))
    (next : site.Follows n (d.add (.foldPrefix ops)).code.size
      { σ with result := x, identity := next' } r post) :
    site.Follows n d.code.size σ r post := by
  refine follow_next h next ((Exec.lift_bind (frame_listAt hl) _ _).trans ?_) rfl
  exact (ok_bind hf _).trans rfl

theorem follow_foldRight {spine id next' : Nat} {items : List Value}
    (h : site.function.Hosts (d.add (.foldRight spine)))
    (hl : σ.slots[spine]? = some (.list id items))
    (hf : foldSpine items σ.identity = .ok (x, next'))
    (next : site.Follows n (d.add (.foldRight spine)).code.size
      { σ with result := x, identity := next' } r post) :
    site.Follows n d.code.size σ r post := by
  refine follow_next h next ((Exec.lift_bind (frame_listAt hl) _ _).trans ?_) rfl
  exact (ok_bind hf _).trans rfl

theorem follow_makeParser {number : Nat} {f : Function} {vs : List Nat} {xs : List Value}
    (h : site.function.Hosts (d.add (.makeParser number vs)))
    (hf : site.setting.program.functions[number]? = some f)
    (hs : List.Forall₂ (fun v x => σ.slots[v]? = some x) vs xs)
    (next : site.Follows n (d.add (.makeParser number vs)).code.size
      { σ with
        result := .parser σ.identity number xs f.name
        identity := σ.identity + 1 } r post) :
    site.Follows n d.code.size σ r post :=
  follow_next h next ((Exec.lift_bind (poolEntry_ok hf) _ _).trans
    (Exec.lift_bind (frame_slotList hs) _ _)) rfl

/-! ### Matches and host code -/

theorem follow_match {entry : Nat} {stop? : Option Nat} (h : site.function.Hosts (d.add i))
    (work : i.execute site.setting (site.frame (d.code.size + 1) σ) σ.identity =
      .ok (.next ((site.frame (d.code.size + 1) σ).matched site.setting entry stop?), σ.identity))
    (found : ∀ stop, stop? = some stop → site.Follows n (d.add i).code.size
      { σ with
        status := true
        result := Input.excise site.setting.isBinary site.setting.bytes σ.pos stop
        pos := stop } r post)
    (missed : stop? = none → site.Follows n (d.add i).code.size (σ.fail entry) r post) :
    site.Follows n d.code.size σ r post := by
  cases stop? with
  | none => exact follow_next h (missed rfl) work rfl
  | some stop => exact follow_next h (found stop rfl) work rfl

/-- Host code within an instruction follows host code within a reading. -/
theorem follow_host {β : Type} {e : Host.Eval β} {s : Store}
    {post : β → Store → Machine → Prop} (after : β → Moment) (h : site.function.Hosts (d.add i))
    (work : i.execute site.setting (site.frame (d.code.size + 1) σ) =
      (Exec.host e >>= fun y => pure (.next (site.frame (d.code.size + 1) (after y)))))
    (memo : ∀ y, (after y).memo = σ.memo) (agree : σ.identity = s.identity)
    (next : ∀ y s', s'.memo = s.memo → post y s' (site.machine (d.add i).code.size
      { after y with identity := s'.identity })) :
    site.Follows n d.code.size σ (Reading.host e s) post := by
  rw [Reading.host]
  cases he : e.run s.identity with
  | error error =>
      refine .fail (step_error h.instr ?_)
      rw [work]
      change (Exec.host e σ.identity >>= _) = _
      rw [Exec.host, agree, he]
      rfl
  | ok out =>
      obtain ⟨y, identity⟩ := out
      refine follow_next h ⟨0, _, .refl _, next y { s with identity } rfl⟩ ?_ (memo y)
      rw [work]
      change (Exec.host e σ.identity >>= _) = _
      rw [Exec.host, agree, he]
      rfl

end Site

/-! ### Programs of one function -/

/-- A program whose only function is written with pools that hold no others. -/
def Pools.alone (p : Pools) (f : Function) : Program :=
  ⟨#[f], p.literals, p.regexes, p.hosts, p.classes, p.failures, [], []⟩

theorem Pools.alone_hosts {p : Pools} (f : Function) (none : p.functions = #[]) :
    (p.alone f).Hosts p where
  literals := .refl _
  regexes := .refl _
  hosts := .refl _
  classes := .refl _
  failures := .refl _
  functions n g hn := by simp [none] at hn

/-- The only function of a program, called for one letter. -/
def Pools.site (p : Pools) (f : Function) : Site :=
  ⟨⟨p.alone f, ⟨[], Host.compareOp⟩, [], ⟨#[97]⟩, false⟩, true, 0, f, rfl, none, []⟩

end Packrat
