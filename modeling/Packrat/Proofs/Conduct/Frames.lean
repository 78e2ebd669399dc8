import Packrat.Proofs.Evaluation.Proper
import Packrat.Proofs.Execution.Site
import Packrat.Proofs.Execution.Transitions

/-
**Frames that behave.**

A function that was called at a place owes its caller three things: it does not go back behind that
place, it leaves a proper value where it succeeds, and the mark of a failure of the program where it
does not.  A frame behaves if it keeps this promise after finitely many instructions of its own,
whatever the functions that it calls do within theirs; on the way it may be stopped by host code, but
never by a fault.

Main definitions:

* `Packrat.Setting.Contract` — what a function owes its caller;
* `Packrat.Regime` — what values may hold, and which calls are accounted for elsewhere;
* `Packrat.Setting.Behaves` — **frames that keep their promise**;
* `Packrat.Setting.Serves` — functions whose frames behave, wherever they are called.

Main results:

* `Packrat.Site.behaves_next` — a frame behaves if it does after its next instruction;
* `Packrat.Site.behaves_loop` — rounds each of which begins further on come to an end.
-/

set_option autoImplicit false

namespace Packrat

/-! ### What is owed -/

/-- What a function owes its caller that was called at a place. -/
structure Setting.Contract (setting : Setting) (may : Permit) (start : Nat) (o : Outcome) :
    Prop where
  forward : start ≤ o.pos
  inside : o.pos ≤ setting.bytes.size
  success : o.status = true → o.result.Proper may
  failure : o.status = false →
    ∃ entry, entry < setting.program.failures.size ∧ o.result = .failure entry

/-- What frames may rely on: what values hold, and which calls are accounted for elsewhere. -/
structure Regime where
  may : Permit
  calls : Nat → List Value → Prop

/-- Frames that keep the promise of a function called at a place. A call has to be accounted for
elsewhere, or lead to a frame that behaves as well. -/
inductive Setting.Behaves (setting : Setting) (R : Regime) : Nat → Frame → Prop
  | intro {start : Nat} {frame : Frame} {i : Instr}
      (fetched : Machine.fetch setting frame = .ok i)
      (forward : start ≤ frame.pos) (inside : frame.pos ≤ setting.bytes.size)
      (stops : ∀ n e, i.execute setting frame.next n = .error e → ∃ h, e = .host h)
      (goes : ∀ n frame' n', i.execute setting frame.next n = .ok (.next frame', n') →
        Setting.Behaves setting R start frame')
      (known : ∀ n f args n', i.execute setting frame.next n = .ok (.call frame.next f args, n') →
        f < setting.program.functions.size)
      (enters : ∀ n f args n' key? callee,
        i.execute setting frame.next n = .ok (.call frame.next f args, n') → ¬ R.calls f args →
        Machine.enter setting f args frame.pos key? = .ok callee →
        Setting.Behaves setting R frame.pos callee)
      (resumes : ∀ n f args n' o,
        i.execute setting frame.next n = .ok (.call frame.next f args, n') →
        setting.Contract R.may frame.pos o → Setting.Behaves setting R start (frame.next.resume o))
      (leaves : i = .ret → setting.Contract R.may start frame.outcome) :
      Setting.Behaves setting R start frame

/-- A function whose frames behave, wherever it is called with proper values. -/
def Setting.Serves (setting : Setting) (R : Regime) (f : Nat) : Prop :=
  ∀ args, Value.AllProper R.may args → ∀ pos ≤ setting.bytes.size, ∀ key? callee,
    Machine.enter setting f args pos key? = .ok callee → setting.Behaves R pos callee

namespace Site

/-- A function at work that has come to an instruction and behaves. -/
def Behaves (site : Site) (R : Regime) (start pc : Nat) (σ : Moment) : Prop :=
  site.setting.Behaves R start (site.frame pc σ)

/-- A moment between the place where a function was called and the end of the input. -/
structure Within (site : Site) (start : Nat) (σ : Moment) : Prop where
  forward : start ≤ σ.pos
  inside : σ.pos ≤ site.setting.bytes.size

variable {site : Site} {R : Regime} {start pc v l : Nat} {d : Draft} {i : Instr} {σ : Moment}
variable {x : Value}

/-! ### One instruction -/

/-- A frame behaves that goes on with its next instruction, if it behaves there. -/
theorem behaves_goes (fetched : site.function.code[pc]? = some i) (here : site.Within start σ)
    (work : ∀ n, (∃ e, i.execute site.setting (site.frame (pc + 1) σ) n = .error (.host e)) ∨
      ∃ pc' σ' n', i.execute site.setting (site.frame (pc + 1) σ) n =
        .ok (.next (site.frame pc' σ'), n') ∧ site.Behaves R start pc' σ') :
    site.Behaves R start pc σ := by
  have noCall (n f args n') : i.execute site.setting (site.frame (pc + 1) σ) n ≠
      .ok (.call (site.frame (pc + 1) σ) f args, n') := by
    intro hc
    rcases work n with ⟨e, he⟩ | ⟨pc', σ', m, ho, -⟩
    · cases he.symm.trans hc
    · cases ho.symm.trans hc
  refine .intro (fetch_frame fetched) here.forward here.inside (fun n e he => ?_)
    (fun n frame' n' ho => ?_) (fun n f args n' hc => absurd hc (noCall n f args n'))
    (fun n f args n' _ _ hc => absurd hc (noCall n f args n'))
    (fun n f args n' _ hc => absurd hc (noCall n f args n')) (fun leaves => ?_)
  · rcases work n with ⟨e', he'⟩ | ⟨pc', σ', m, ho, -⟩
    · exact ⟨e', (Except.error.inj (he'.symm.trans he)).symm⟩
    · cases ho.symm.trans he
  · rcases work n with ⟨e, he⟩ | ⟨pc', σ', m, ho', next⟩
    · cases he.symm.trans ho
    · cases ho'.symm.trans ho
      exact next
  · subst leaves
    rcases work 0 with ⟨e, he⟩ | ⟨pc', σ', m, ho, -⟩
    · cases he
    · cases ho

/-- An instruction that leads to one moment. -/
theorem behaves_next {σ' : Moment} (h : site.function.Hosts (d.add i)) (here : site.Within start σ)
    (work : ∀ n, ∃ n', i.execute site.setting (site.frame (d.code.size + 1) σ) n =
      .ok (.next (site.frame (d.code.size + 1) σ'), n'))
    (next : site.Behaves R start (d.add i).code.size σ') : site.Behaves R start d.code.size σ := by
  refine behaves_goes h.instr here fun n => .inr ?_
  obtain ⟨n', ho⟩ := work n
  rw [size_add] at next
  exact ⟨_, σ', n', ho, next⟩

/-- An instruction that host code may stop, or that leads to one of several moments. -/
theorem behaves_some {P : Moment → Prop} (h : site.function.Hosts (d.add i))
    (here : site.Within start σ)
    (work : ∀ n, (∃ e, i.execute site.setting (site.frame (d.code.size + 1) σ) n =
        .error (.host e)) ∨
      ∃ σ' n', i.execute site.setting (site.frame (d.code.size + 1) σ) n =
        .ok (.next (site.frame (d.code.size + 1) σ'), n') ∧ P σ')
    (next : ∀ σ', P σ' → site.Behaves R start (d.add i).code.size σ') :
    site.Behaves R start d.code.size σ := by
  refine behaves_goes h.instr here fun n => ?_
  rw [size_add] at next
  rcases work n with stopped | ⟨σ', n', ho, hp⟩
  · exact .inl stopped
  · exact .inr ⟨_, σ', n', ho, next σ' hp⟩

/-! ### Registers and slots -/

theorem behaves_setStatus {b : Bool} (h : site.function.Hosts (d.add (.setStatus b)))
    (here : site.Within start σ)
    (next : site.Behaves R start (d.add (.setStatus b)).code.size { σ with status := b }) :
    site.Behaves R start d.code.size σ := behaves_next h here (fun n => ⟨n, rfl⟩) next

theorem behaves_load {value : Operand} (h : site.function.Hosts (d.add (.load value)))
    (here : site.Within start σ) (hx : (site.frame (d.code.size + 1) σ).read value = .ok x)
    (next : site.Behaves R start (d.add (.load value)).code.size { σ with result := x }) :
    site.Behaves R start d.code.size σ :=
  behaves_next h here (fun n => ⟨n, Exec.lift_bind hx _ _⟩) next

theorem behaves_store {value : Operand} (h : site.function.Hosts (d.add (.store v value)))
    (here : site.Within start σ) (hx : (site.frame (d.code.size + 1) σ).read value = .ok x)
    (next : site.Behaves R start (d.add (.store v value)).code.size (σ.set v x)) :
    site.Behaves R start d.code.size σ :=
  behaves_next h here (fun n => ⟨n, Exec.lift_bind hx _ _⟩) next

theorem behaves_restore {p : Nat} (h : site.function.Hosts (d.add (.restore v)))
    (here : site.Within start σ) (hp : σ.slots[v]? = some (.ofPos p)) (small : p < 2 ^ 63)
    (next : site.Behaves R start (d.add (.restore v)).code.size { σ with pos := p }) :
    site.Behaves R start d.code.size σ :=
  behaves_next h here (fun n => ⟨n, Exec.lift_bind (frame_savedPosition hp small) _ _⟩) next

theorem behaves_fail {entry : Nat} (h : site.function.Hosts (d.add (.fail entry)))
    (here : site.Within start σ)
    (next : site.Behaves R start (d.add (.fail entry)).code.size (σ.fail entry)) :
    site.Behaves R start d.code.size σ := behaves_next h here (fun n => ⟨n, rfl⟩) next

theorem behaves_succeedWith {value : Operand}
    (h : site.function.Hosts ((d.add (.load value)).add (.setStatus true)))
    (here : site.Within start σ) (hx : (site.frame (d.code.size + 1) σ).read value = .ok x)
    (next : site.Behaves R start ((d.add (.load value)).add (.setStatus true)).code.size
      (σ.yield x)) : site.Behaves R start d.code.size σ :=
  behaves_load h.add here hx (behaves_setStatus h ⟨here.forward, here.inside⟩ next)

/-! ### Jumps -/

theorem behaves_jump {target : Nat} (h : site.function.Hosts (d.add (.jump l)))
    (here : site.Within start σ) (hl : site.function.labels[l]? = some target)
    (next : site.Behaves R start target σ) : site.Behaves R start d.code.size σ :=
  behaves_goes h.instr here fun n =>
    .inr ⟨target, σ, n, Exec.lift_bind (frame_goto hl) _ _, next⟩

/-- A branch either goes on or jumps, or host code stops it. -/
theorem behaves_either {c : Condition} {target : Nat} (h : site.function.Hosts (d.add (.branch c l)))
    (here : site.Within start σ) (hl : site.function.labels[l]? = some target)
    (decided : (∃ e, (site.frame (d.code.size + 1) σ).holds c = .error (.host e)) ∨
      ∃ b, (site.frame (d.code.size + 1) σ).holds c = .ok b)
    (taken : (site.frame (d.code.size + 1) σ).holds c = .ok true → site.Behaves R start target σ)
    (passed : (site.frame (d.code.size + 1) σ).holds c = .ok false →
      site.Behaves R start (d.add (.branch c l)).code.size σ) :
    site.Behaves R start d.code.size σ := by
  refine behaves_goes h.instr here fun n => ?_
  rcases decided with ⟨e, he⟩ | ⟨b, hb⟩
  · refine .inl ⟨e, ?_⟩
    change ((liftM ((site.frame (d.code.size + 1) σ).holds c) >>= _ : Exec Action) n) = _
    rw [he]
    rfl
  · cases b with
    | true =>
        exact .inr ⟨target, σ, n, (Exec.lift_bind hb _ _).trans (Exec.lift_bind (frame_goto hl) _ _),
          taken hb⟩
    | false =>
        rw [size_add] at passed
        exact .inr ⟨_, σ, n, Exec.lift_bind hb _ _, passed hb⟩

theorem behaves_branch {c : Condition} {target : Nat} {b : Bool}
    (h : site.function.Hosts (d.add (.branch c l))) (here : site.Within start σ)
    (hl : site.function.labels[l]? = some target)
    (hb : (site.frame (d.code.size + 1) σ).holds c = .ok b)
    (taken : b = true → site.Behaves R start target σ)
    (passed : b = false → site.Behaves R start (d.add (.branch c l)).code.size σ) :
    site.Behaves R start d.code.size σ := by
  refine behaves_either h here hl (.inr ⟨b, hb⟩) (fun ht => taken ?_) fun hf => passed ?_
  · exact Except.ok.inj (hb.symm.trans ht)
  · exact Except.ok.inj (hb.symm.trans hf)

/-- A branch on success. -/
theorem behaves_status {target : Nat} (h : site.function.Hosts (d.add (.branch .status l)))
    (here : site.Within start σ) (hl : site.function.labels[l]? = some target)
    (success : σ.status = true → site.Behaves R start target σ)
    (failure : σ.status = false → site.Behaves R start (d.add (.branch .status l)).code.size σ) :
    site.Behaves R start d.code.size σ := behaves_branch h here hl rfl success failure

/-- A branch on failure. -/
theorem behaves_notStatus {target : Nat} (h : site.function.Hosts (d.add (.branch .notStatus l)))
    (here : site.Within start σ) (hl : site.function.labels[l]? = some target)
    (success : σ.status = true → site.Behaves R start (d.add (.branch .notStatus l)).code.size σ)
    (failure : σ.status = false → site.Behaves R start target σ) :
    site.Behaves R start d.code.size σ := by
  refine behaves_branch (b := !σ.status) h here hl rfl (fun hf => failure ?_) fun hs => success ?_
  · simpa using hf
  · simpa using hs

/-- After a failure the code goes back to a place and leaves. -/
theorem behaves_retreat [Regex.Engine] {p p' : Pools} {u : Unit} {d' : Draft}
    {back exit target q : Nat} (w : (Emit.retreatOnFailure back exit).Writes d p u d' p')
    (h : site.function.Hosts d') (here : site.Within start σ)
    (hl : site.function.labels[exit]? = some target) (hq : σ.slots[back]? = some (.ofPos q))
    (small : q < 2 ^ 63) (forward : start ≤ q) (inside : q ≤ site.setting.bytes.size)
    (stay : σ.status = true → site.Behaves R start d'.code.size σ)
    (leave : σ.status = false → site.Behaves R start target { σ with pos := q }) :
    site.Behaves R start d.code.size σ := by
  obtain ⟨d₁, w₁, size, hosts⟩ :=
    Emit.hosts_ifThen ((Emit.Tame.emit _).bind fun _ => .emit _) w
  obtain ⟨rfl, rfl⟩ := Emit.writes_emit_emit.1 w₁
  obtain ⟨body, branch, placed⟩ := hosts _ h
  refine behaves_status (d := d.addLabel) branch here placed (fun hs => ?_) fun hs => ?_
  · rw [← size]
    exact stay hs
  · exact behaves_restore (d := Emit.entered _) body.add here hq small
      (behaves_jump body ⟨forward, inside⟩ hl (leave hs))

/-! ### New objects -/

theorem behaves_newList (h : site.function.Hosts (d.add (.newList v))) (here : site.Within start σ)
    (next : ∀ id, site.Behaves R start (d.add (.newList v)).code.size (σ.set v (.list id []))) :
    site.Behaves R start d.code.size σ :=
  behaves_some (P := fun σ' => ∃ id, σ' = σ.set v (.list id [])) h here
    (fun n => .inr ⟨_, _, rfl, n, rfl⟩) fun _ ⟨id, e⟩ => e ▸ next id

theorem behaves_push {value : Operand} {id : Nat} {items : List Value}
    (h : site.function.Hosts (d.add (.push v value))) (here : site.Within start σ)
    (hx : (site.frame (d.code.size + 1) σ).read value = .ok x)
    (hl : σ.slots[v]? = some (.list id items))
    (next : site.Behaves R start (d.add (.push v value)).code.size
      (σ.set v (.list id (items ++ [x])))) : site.Behaves R start d.code.size σ :=
  behaves_next h here
    (fun n => ⟨n, (Exec.lift_bind hx _ _).trans (Exec.lift_bind (frame_listAt hl) _ _)⟩) next

theorem behaves_pop {id : Nat} {items : List Value} (h : site.function.Hosts (d.add (.pop v)))
    (here : site.Within start σ) (hl : σ.slots[v]? = some (.list id items))
    (next : site.Behaves R start (d.add (.pop v)).code.size (σ.set v (.list id items.dropLast))) :
    site.Behaves R start d.code.size σ :=
  behaves_next h here (fun n => ⟨n, Exec.lift_bind (frame_listAt hl) _ _⟩) next

theorem behaves_makeList {vs : List Nat} {xs : List Value}
    (h : site.function.Hosts (d.add (.makeList vs))) (here : site.Within start σ)
    (hs : List.Forall₂ (fun v x => σ.slots[v]? = some x) vs xs)
    (next : ∀ id, site.Behaves R start (d.add (.makeList vs)).code.size
      { σ with result := .list id xs }) : site.Behaves R start d.code.size σ :=
  behaves_some (P := fun σ' => ∃ id, σ' = { σ with result := .list id xs }) h here
    (fun n => .inr ⟨{ σ with result := .list n xs }, n + 1, Exec.lift_bind (frame_slotList hs) _ _,
      n, rfl⟩) fun _ ⟨id, e⟩ => e ▸ next id

theorem behaves_makeNode {cls from_ p : Nat} {c : NodeClass} {vs : List Nat} {xs : List Value}
    (h : site.function.Hosts (d.add (.makeNode cls vs from_))) (here : site.Within start σ)
    (hc : site.setting.program.classes[cls]? = some c)
    (hs : List.Forall₂ (fun v x => σ.slots[v]? = some x) vs xs)
    (hp : σ.slots[from_]? = some (.ofPos p)) (small : p < 2 ^ 63)
    (next : ∀ id, site.Behaves R start (d.add (.makeNode cls vs from_)).code.size
      { σ with result := .node id c xs (some ⟨.unresolved p, .unresolved σ.pos⟩) }) :
    site.Behaves R start d.code.size σ :=
  behaves_some (P := fun σ' => ∃ id, σ' =
      { σ with result := .node id c xs (some ⟨.unresolved p, .unresolved σ.pos⟩) }) h here
    (fun n => .inr ⟨{ σ with result := .node n c xs (some ⟨.unresolved p, .unresolved σ.pos⟩) },
      n + 1, (Exec.lift_bind (poolEntry_ok hc) _ _).trans
        ((Exec.lift_bind (frame_slotList hs) _ _).trans
          (Exec.lift_bind (frame_savedPosition hp small) _ _)), n, rfl⟩)
    fun _ ⟨id, e⟩ => e ▸ next id

theorem behaves_makeInfix {left operator : Nat} {a op : Value}
    (h : site.function.Hosts (d.add (.makeInfix left operator))) (here : site.Within start σ)
    (ha : σ.slots[left]? = some a) (ho : σ.slots[operator]? = some op)
    (next : ∀ id, site.Behaves R start (d.add (.makeInfix left operator)).code.size
      { σ with result := .node id .infixOp [a, op, σ.result] none }) :
    site.Behaves R start d.code.size σ :=
  behaves_some (P := fun σ' => ∃ id, σ' =
      { σ with result := .node id .infixOp [a, op, σ.result] none }) h here
    (fun n => .inr ⟨{ σ with result := .node n .infixOp [a, op, σ.result] none }, n + 1,
      (Exec.lift_bind (frame_slot ha) _ _).trans (Exec.lift_bind (frame_slot ho) _ _), n, rfl⟩)
    fun _ ⟨id, e⟩ => e ▸ next id

theorem behaves_makePostfix {left : Nat} {a : Value}
    (h : site.function.Hosts (d.add (.makePostfix left))) (here : site.Within start σ)
    (ha : σ.slots[left]? = some a)
    (next : ∀ id, site.Behaves R start (d.add (.makePostfix left)).code.size
      { σ with result := .node id .postfixOp [a, σ.result] none }) :
    site.Behaves R start d.code.size σ :=
  behaves_some (P := fun σ' => ∃ id, σ' =
      { σ with result := .node id .postfixOp [a, σ.result] none }) h here
    (fun n => .inr ⟨{ σ with result := .node n .postfixOp [a, σ.result] none }, n + 1,
      Exec.lift_bind (frame_slot ha) _ _, n, rfl⟩) fun _ ⟨id, e⟩ => e ▸ next id

theorem behaves_makeParser {number : Nat} {f : Function} {vs : List Nat} {xs : List Value}
    (h : site.function.Hosts (d.add (.makeParser number vs))) (here : site.Within start σ)
    (hf : site.setting.program.functions[number]? = some f)
    (hs : List.Forall₂ (fun v x => σ.slots[v]? = some x) vs xs)
    (next : ∀ id, site.Behaves R start (d.add (.makeParser number vs)).code.size
      { σ with result := .parser id number xs f.name }) : site.Behaves R start d.code.size σ :=
  behaves_some (P := fun σ' => ∃ id, σ' = { σ with result := .parser id number xs f.name }) h here
    (fun n => .inr ⟨{ σ with result := .parser n number xs f.name }, n + 1,
      (Exec.lift_bind (poolEntry_ok hf) _ _).trans (Exec.lift_bind (frame_slotList hs) _ _), n,
      rfl⟩) fun _ ⟨id, e⟩ => e ▸ next id

/-! ### Operators -/

theorem foldPrefixes_proper {may : Permit} {operand : Value} {ops : List Value}
    (h : operand.Proper may) (hs : Value.AllProper may ops) (n : Nat) :
    ∃ out n', foldPrefixes operand ops n = .ok (out, n') ∧ out.Proper may := by
  induction ops with
  | nil => exact ⟨operand, n, rfl, h⟩
  | cons op ops ih =>
      cases hs with
      | cons head tail =>
          obtain ⟨right, n', hr, proper⟩ := ih tail
          exact ⟨_, _, ok_bind hr _, .node n' _ _ (.cons head (.cons proper .nil))⟩

/-- An odd number of operands and operators can be folded. -/
theorem foldSpine_proper {may : Permit} : ∀ {items : List Value}, Value.AllProper may items →
    items.length % 2 = 1 → ∀ n, ∃ out n', foldSpine items n = .ok (out, n') ∧ out.Proper may
  | [], _, odd, _ => by simp at odd
  | [last], .cons proper _, _, n => ⟨last, n, rfl, proper⟩
  | [_, _], _, odd, _ => by simp at odd
  | left :: op :: next :: rest, .cons hl (.cons ho hrest), odd, n => by
      obtain ⟨right, n', hr, proper⟩ := foldSpine_proper hrest (by
        simp only [List.length_cons] at odd ⊢
        omega) n
      exact ⟨_, _, ok_bind hr _, .node n' _ _ (.cons hl (.cons ho (.cons proper .nil)))⟩

theorem behaves_foldPrefix {ops id : Nat} {items : List Value}
    (h : site.function.Hosts (d.add (.foldPrefix ops))) (here : site.Within start σ)
    (hl : σ.slots[ops]? = some (.list id items)) (proper : Value.AllProper R.may items)
    (result : σ.result.Proper R.may)
    (next : ∀ x, x.Proper R.may →
      site.Behaves R start (d.add (.foldPrefix ops)).code.size { σ with result := x }) :
    site.Behaves R start d.code.size σ := by
  refine behaves_some (P := fun σ' => ∃ x, x.Proper R.may ∧ σ' = { σ with result := x }) h here
    (fun n => .inr ?_) fun _ ⟨x, hx, e⟩ => e ▸ next x hx
  obtain ⟨x, n', hf, hx⟩ := foldPrefixes_proper result proper n
  exact ⟨{ σ with result := x }, n', (Exec.lift_bind (frame_listAt hl) _ _).trans (ok_bind hf _), x,
    hx, rfl⟩

theorem behaves_foldRight {spine id : Nat} {items : List Value}
    (h : site.function.Hosts (d.add (.foldRight spine))) (here : site.Within start σ)
    (hl : σ.slots[spine]? = some (.list id items)) (proper : Value.AllProper R.may items)
    (odd : items.length % 2 = 1)
    (next : ∀ x, x.Proper R.may →
      site.Behaves R start (d.add (.foldRight spine)).code.size { σ with result := x }) :
    site.Behaves R start d.code.size σ := by
  refine behaves_some (P := fun σ' => ∃ x, x.Proper R.may ∧ σ' = { σ with result := x }) h here
    (fun n => .inr ?_) fun _ ⟨x, hx, e⟩ => e ▸ next x hx
  obtain ⟨x, n', hf, hx⟩ := foldSpine_proper proper odd n
  exact ⟨{ σ with result := x }, n', (Exec.lift_bind (frame_listAt hl) _ _).trans (ok_bind hf _), x,
    hx, rfl⟩

/-! ### Host code -/

/-- Host code within an instruction: it stops the frame, or comes to a proper value. -/
theorem behaves_host (e : Host.Eval Value) (after : Value → Moment)
    (h : site.function.Hosts (d.add i)) (here : site.Within start σ)
    (work : ∀ n, i.execute site.setting (site.frame (d.code.size + 1) σ) n =
      (Exec.host e >>= fun y => pure (.next (site.frame (d.code.size + 1) (after y)))) n)
    (proper : ∀ n x n', e n = .ok (x, n') → x.Proper R.may)
    (next : ∀ x, x.Proper R.may → site.Behaves R start (d.add i).code.size (after x)) :
    site.Behaves R start d.code.size σ := by
  refine behaves_some (P := fun σ' => ∃ x, x.Proper R.may ∧ σ' = after x) h here (fun n => ?_)
    fun _ ⟨x, hx, e⟩ => e ▸ next x hx
  rw [work]
  change (∃ e', (Exec.host e n >>= _) = _) ∨ ∃ σ' n', (Exec.host e n >>= _) = _ ∧ _
  rw [Exec.host]
  cases he : e.run n with
  | error e => exact .inl ⟨e, rfl⟩
  | ok out => exact .inr ⟨after out.1, out.2, rfl, out.1, proper n _ _ he, rfl⟩

/-! ### Calls and returns -/

/-- A frame behaves that calls, if the call is accounted for and the frame behaves when it is
resumed. -/
theorem behaves_calls {f : Nat} {args : List Value} (fetched : site.function.code[pc]? = some i)
    (here : site.Within start σ)
    (work : ∀ n, i.execute site.setting (site.frame (pc + 1) σ) n =
      .ok (.call (site.frame (pc + 1) σ) f args, n))
    (known : f < site.setting.program.functions.size)
    (accounted : R.calls f args ∨ ∀ key? callee,
      Machine.enter site.setting f args σ.pos key? = .ok callee →
        site.setting.Behaves R σ.pos callee)
    (next : ∀ o, site.setting.Contract R.may σ.pos o →
      site.Behaves R start (pc + 1) { σ with status := o.status, result := o.result, pos := o.pos }) :
    site.Behaves R start pc σ := by
  refine .intro (fetch_frame fetched) here.forward here.inside (fun n e he => ?_)
    (fun n frame' n' ho => ?_) (fun n g xs n' hc => ?_) (fun n g xs n' key? callee hc off => ?_)
    (fun n g xs n' o hc contract => next o contract) fun leaves => ?_
  · cases (work n).symm.trans he
  · cases (work n).symm.trans ho
  · cases (work n).symm.trans hc
    exact known
  · cases (work n).symm.trans hc
    exact accounted.resolve_left off key? callee
  · subst leaves
    cases work 0

/-- The end of a function. -/
theorem behaves_ret (fetched : site.function.code[pc]? = some .ret)
    (contract : site.setting.Contract R.may start σ.outcome) :
    site.Behaves R start pc σ :=
  .intro (fetch_frame fetched) contract.forward contract.inside (fun _ _ h => by cases h)
    (fun _ _ _ h => by cases h) (fun _ _ _ _ h => by cases h) (fun _ _ _ _ _ _ h => by cases h)
    (fun _ _ _ _ _ h => by cases h) fun _ => contract

/-! ### Rounds -/

/-- Rounds each of which begins further on than the one before it come to an end. -/
theorem behaves_loop (inv : Moment → Prop)
    (inside : ∀ σ, inv σ → σ.pos ≤ site.setting.bytes.size)
    (round : ∀ σ, inv σ → (∀ σ', inv σ' → σ.pos < σ'.pos → site.Behaves R start pc σ') →
      site.Behaves R start pc σ) (h : inv σ) : site.Behaves R start pc σ := by
  generalize left : site.setting.bytes.size - σ.pos = k
  induction k using Nat.strongRecOn generalizing σ with
  | _ k ih =>
      refine round σ h fun σ' h' further => ih _ ?_ h' rfl
      have := inside σ' h'
      omega

end Site

end Packrat
