import Packrat.Proofs.Execution.Walks
import Packrat.Proofs.Simulation.Performing

/-
**What single instructions ensure.**

A function that has come to an instruction ensures an aim if it does behind that instruction, for
every state that the instruction may leave.  Where an instruction cannot work, for instance because
a slot does not hold what it should, there is no such state and nothing to ensure.

Main definitions:

* `Packrat.Site.top` — the frame of a function at one of its instructions;
* `Packrat.Site.part` — the code of a function before an instruction;
* `Packrat.Site.Ensures` — **functions that have come to an instruction and ensure an aim**.

Main results:

* `Packrat.Site.ensures_next`, `Packrat.Site.ensures_call` — one instruction, and one call;
* `Packrat.Site.ensures_loop` — rounds that keep an invariant.
-/

set_option autoImplicit false

namespace Packrat

/-! ### Instructions that change registers only -/

/-- Instructions that change registers only, and are followed by the next one. -/
def Instr.isPlain : Instr → Bool
  | .store _ _ | .jump _ | .branch _ _ | .newList _ | .push _ _ | .pop _ | .call _ _ | .ret => false
  | _ => true

theorem Instr.execute_plain {setting : Setting} {i : Instr} {frame : Frame} {action : Action}
    {n n' : Nat} (plain : i.isPlain = true)
    (h : i.execute setting frame n = .ok (action, n')) :
    ∃ frame', action = .next frame' ∧ frame.Moved frame' ∧ frame'.pc = frame.pc ∧
      frame'.slots = frame.slots := by
  cases i with
  | store | jump | branch | newList | push | pop | call | ret => cases plain
  | setStatus | fail =>
      obtain ⟨rfl, -⟩ := Exec.pure_eq_ok h
      exact ⟨_, rfl, ⟨rfl, rfl⟩, rfl, rfl⟩
  | matchLiteral | matchRegex =>
      obtain ⟨_, _, -, h⟩ := Exec.bind_eq_ok h
      obtain ⟨rfl, -⟩ := Exec.pure_eq_ok h
      refine ⟨_, rfl, Frame.moved_matched _ _, ?_, ?_⟩ <;> unfold Frame.matched <;> split <;> rfl
  | load | restore =>
      obtain ⟨_, _, -, h⟩ := Exec.bind_eq_ok h
      obtain ⟨rfl, -⟩ := Exec.pure_eq_ok h
      exact ⟨_, rfl, ⟨rfl, rfl⟩, rfl, rfl⟩
  | makeList | makePostfix | foldPrefix | foldRight =>
      obtain ⟨_, _, -, h⟩ := Exec.bind_eq_ok h
      obtain ⟨_, _, -, h⟩ := Exec.bind_eq_ok h
      obtain ⟨rfl, -⟩ := Exec.pure_eq_ok h
      exact ⟨_, rfl, ⟨rfl, rfl⟩, rfl, rfl⟩
  | eval | apply | makeInfix | makeParser =>
      obtain ⟨_, _, -, h⟩ := Exec.bind_eq_ok h
      obtain ⟨_, _, -, h⟩ := Exec.bind_eq_ok h
      obtain ⟨_, _, -, h⟩ := Exec.bind_eq_ok h
      obtain ⟨rfl, -⟩ := Exec.pure_eq_ok h
      exact ⟨_, rfl, ⟨rfl, rfl⟩, rfl, rfl⟩
  | test =>
      obtain ⟨_, _, -, h⟩ := Exec.bind_eq_ok h
      obtain ⟨_, _, -, h⟩ := Exec.bind_eq_ok h
      obtain ⟨verdict, _, -, h⟩ := Exec.bind_eq_ok h
      obtain ⟨rfl, -⟩ := Exec.pure_eq_ok h
      split <;> exact ⟨_, rfl, ⟨rfl, rfl⟩, rfl, rfl⟩
  | makeNode =>
      obtain ⟨_, _, -, h⟩ := Exec.bind_eq_ok h
      obtain ⟨_, _, -, h⟩ := Exec.bind_eq_ok h
      obtain ⟨_, _, -, h⟩ := Exec.bind_eq_ok h
      obtain ⟨_, _, -, h⟩ := Exec.bind_eq_ok h
      obtain ⟨rfl, -⟩ := Exec.pure_eq_ok h
      exact ⟨_, rfl, ⟨rfl, rfl⟩, rfl, rfl⟩

/-! ### Functions at an instruction -/

namespace Site

/-- The frame of the function at one of its instructions, with the registers and slots of another
frame. -/
def top (site : Site) (pc : Nat) (r : Frame) : Frame := { r with function := site.number, pc }

/-- The function without its code from an instruction on. -/
def part (site : Site) (stop : Nat) : Function :=
  { site.function with code := site.function.code.extract 0 stop }

/-- The function has come to an instruction and ensures an aim. -/
def Ensures (site : Site) (aim : Aim) (n pc : Nat) (r : Frame) : Prop :=
  (site.top pc r).Ensures site.setting aim n

variable {site : Site} {aim : Aim} {d d' : Draft} {i : Instr} {r : Frame} {n m v l pc : Nat}

theorem Ensures.mono (h : site.Ensures aim n pc r) (le : m ≤ n) : site.Ensures aim m pc r :=
  Frame.Ensures.mono h le

/-- A function at an aim ensures it if its goal holds. -/
theorem ensures_goal (h : aim.goal (site.top aim.stop r)) : site.Ensures aim n aim.stop r := by
  cases n with
  | zero => trivial
  | succ n => exact ⟨fun _ => h, fun away => absurd rfl away⟩

/-- An instruction before an aim. -/
theorem part_instr (h : (site.part aim.stop).Hosts (d.add i)) :
    d.code.size < aim.stop ∧ site.function.code[d.code.size]? = some i := by
  have found : (site.function.code.extract 0 aim.stop)[d.code.size]? = some i := h.instr
  rw [Array.getElem?_extract] at found
  split at found
  · next lt => exact ⟨by omega, by simpa using found⟩
  · cases found

theorem fetch_top (fetched : site.function.code[pc]? = some i) :
    Machine.fetch site.setting (site.top pc r) = .ok i := by
  refine (ok_bind (poolEntry_ok site.known) _).trans ?_
  simp only [top, fetched]
  rfl

/-- A function ensures an aim if it does after each move. -/
theorem ensures_moves (h : (site.part aim.stop).Hosts (d.add i)) (stays : i ≠ .ret)
    (go : ∀ m < n, ∀ frame, (site.top d.code.size r).Moves site.setting aim.may frame →
      frame.Ensures site.setting aim m) : site.Ensures aim n d.code.size r := by
  obtain ⟨early, fetched⟩ := part_instr h
  cases n with
  | zero => trivial
  | succ n =>
      refine ⟨fun arrived => absurd arrived (Nat.ne_of_lt early), fun _ => ⟨fun leaves => ?_, ?_⟩⟩
      · rw [fetch_top fetched] at leaves
        exact stays (Except.ok.inj leaves)
      · exact fun frame moves => go n (Nat.lt_succ_self n) frame moves

/-- An instruction that leads to one of several states. -/
theorem ensures_goes (P : Nat → Frame → Prop) (h : (site.part aim.stop).Hosts (d.add i))
    (work : ∀ k out, i.execute site.setting (site.top (d.code.size + 1) r) k = .ok out →
      ∃ pc r' k', out = (.next (site.top pc r'), k') ∧ P pc r')
    (next : ∀ m < n, ∀ pc r', P pc r' → site.Ensures aim m pc r') :
    site.Ensures aim n d.code.size r := by
  have fetched := fetch_top (r := r) (part_instr h).2
  refine ensures_moves h (fun leaves => ?_) fun m lt frame moves => ?_
  · subst leaves
    obtain ⟨_, _, _, hout, -⟩ := work 0 _ rfl
    cases hout
  · cases moves with
    | next fetched' work' =>
        cases fetched.symm.trans fetched'
        obtain ⟨pc, r', k', hout, hp⟩ := work _ _ work'
        cases hout
        exact next m lt pc r' hp
    | call fetched' work' =>
        cases fetched.symm.trans fetched'
        obtain ⟨_, _, _, hout, -⟩ := work _ _ work'
        cases hout

/-- An instruction that is followed by the next one. -/
theorem ensures_next (P : Frame → Prop) (h : (site.part aim.stop).Hosts (d.add i))
    (work : ∀ k out, i.execute site.setting (site.top (d.code.size + 1) r) k = .ok out →
      ∃ r' k', out = (.next (site.top (d.code.size + 1) r'), k') ∧ P r')
    (next : ∀ r', P r' → site.Ensures aim n (d.add i).code.size r') :
    site.Ensures aim n d.code.size r := by
  refine ensures_goes (fun pc r' => pc = d.code.size + 1 ∧ P r') h (fun k out ho => ?_) ?_
  · obtain ⟨r', k', hout, hp⟩ := work k out ho
    exact ⟨_, r', k', hout, rfl, hp⟩
  · rintro m lt _ r' ⟨rfl, hp⟩
    rw [size_add] at next
    exact (next r' hp).mono (Nat.le_of_lt lt)

/-! ### Parts of instructions -/

theorem read_top (value : Operand) : (site.top pc r).read value = r.read value := by
  cases value <;> rfl

theorem slotList_top (vs : List Nat) : (site.top pc r).slotList vs = r.slotList vs := by
  induction vs with
  | nil => rfl
  | cons v vs ih =>
      rw [Frame.slotList, Frame.slotList, ih]
      rfl

/-- What is read from a slot is what it holds. -/
theorem slot_eq_ok {x : Value} : r.slot v = .ok x ↔ r.slots[v]? = some x := by
  rw [Frame.slot, poolEntry]
  cases r.slots[v]? with
  | none => simp [fault]
  | some y => simp

theorem listAt_eq_ok {id : Nat} {items : List Value} (h : r.listAt v = .ok (id, items)) :
    r.slots[v]? = some (.list id items) := by
  simp only [Frame.listAt, bind, Except.bind] at h
  split at h
  · cases h
  · next x found =>
      split at h
      · cases h
        exact slot_eq_ok.1 found
      · cases h

/-! ### Registers and slots -/

theorem ensures_setStatus {b : Bool} (h : (site.part aim.stop).Hosts (d.add (.setStatus b)))
    (next : site.Ensures aim n (d.add (.setStatus b)).code.size { r with status := b }) :
    site.Ensures aim n d.code.size r := by
  refine ensures_next (· = { r with status := b }) h (fun k out ho => ?_) fun r' e => e ▸ next
  obtain ⟨action, k'⟩ := out
  obtain ⟨rfl, rfl⟩ := Exec.pure_eq_ok ho
  exact ⟨_, _, rfl, rfl⟩

theorem ensures_load {value : Operand} (h : (site.part aim.stop).Hosts (d.add (.load value)))
    (next : ∀ x, r.read value = .ok x →
      site.Ensures aim n (d.add (.load value)).code.size { r with result := x }) :
    site.Ensures aim n d.code.size r := by
  refine ensures_next (fun r' => ∃ x, r.read value = .ok x ∧ r' = { r with result := x }) h
    (fun k out ho => ?_) fun r' ⟨x, hx, e⟩ => e ▸ next x hx
  obtain ⟨x, hx, hout⟩ := Exec.lift_bind_eq_ok ho
  obtain ⟨action, k'⟩ := out
  obtain ⟨rfl, rfl⟩ := Exec.pure_eq_ok hout
  rw [read_top] at hx
  exact ⟨_, _, rfl, x, hx, rfl⟩

theorem ensures_store {value : Operand} (h : (site.part aim.stop).Hosts (d.add (.store v value)))
    (next : ∀ x, r.read value = .ok x →
      site.Ensures aim n (d.add (.store v value)).code.size (r.setSlot v x)) :
    site.Ensures aim n d.code.size r := by
  refine ensures_next (fun r' => ∃ x, r.read value = .ok x ∧ r' = r.setSlot v x) h
    (fun k out ho => ?_) fun r' ⟨x, hx, e⟩ => e ▸ next x hx
  obtain ⟨x, hx, hout⟩ := Exec.lift_bind_eq_ok ho
  obtain ⟨action, k'⟩ := out
  obtain ⟨rfl, rfl⟩ := Exec.pure_eq_ok hout
  rw [read_top] at hx
  exact ⟨_, _, rfl, x, hx, rfl⟩

theorem ensures_restore (h : (site.part aim.stop).Hosts (d.add (.restore v)))
    (next : ∀ pos, site.Ensures aim n (d.add (.restore v)).code.size { r with pos }) :
    site.Ensures aim n d.code.size r := by
  refine ensures_next (fun r' => ∃ pos, r' = { r with pos }) h (fun k out ho => ?_)
    fun r' ⟨pos, e⟩ => e ▸ next pos
  obtain ⟨pos, -, hout⟩ := Exec.lift_bind_eq_ok ho
  obtain ⟨action, k'⟩ := out
  obtain ⟨rfl, rfl⟩ := Exec.pure_eq_ok hout
  exact ⟨_, _, rfl, pos, rfl⟩

theorem ensures_fail {entry : Nat} (h : (site.part aim.stop).Hosts (d.add (.fail entry)))
    (next : site.Ensures aim n (d.add (.fail entry)).code.size (r.fail entry)) :
    site.Ensures aim n d.code.size r := by
  refine ensures_next (· = r.fail entry) h (fun k out ho => ?_) fun r' e => e ▸ next
  obtain ⟨action, k'⟩ := out
  obtain ⟨rfl, rfl⟩ := Exec.pure_eq_ok ho
  exact ⟨_, _, rfl, rfl⟩

theorem ensures_succeedWith {value : Operand}
    (h : (site.part aim.stop).Hosts ((d.add (.load value)).add (.setStatus true)))
    (next : ∀ x, r.read value = .ok x →
      site.Ensures aim n ((d.add (.load value)).add (.setStatus true)).code.size (r.yield x)) :
    site.Ensures aim n d.code.size r :=
  ensures_load h.add fun x hx => ensures_setStatus h (next x hx)

/-! ### Lists in slots -/

theorem ensures_newList (h : (site.part aim.stop).Hosts (d.add (.newList v)))
    (next : ∀ id, site.Ensures aim n (d.add (.newList v)).code.size
      (r.setSlot v (.list id []))) : site.Ensures aim n d.code.size r := by
  refine ensures_next (fun r' => ∃ id, r' = r.setSlot v (.list id [])) h (fun k out ho => ?_)
    fun r' ⟨id, e⟩ => e ▸ next id
  obtain ⟨action, k'⟩ := out
  cases ho
  exact ⟨r.setSlot v (.list k []), _, rfl, k, rfl⟩

theorem ensures_push {value : Operand} (h : (site.part aim.stop).Hosts (d.add (.push v value)))
    (next : ∀ x id items, r.read value = .ok x → r.slots[v]? = some (.list id items) →
      site.Ensures aim n (d.add (.push v value)).code.size
        (r.setSlot v (.list id (items ++ [x])))) : site.Ensures aim n d.code.size r := by
  refine ensures_next (fun r' => ∃ x id items, r.read value = .ok x ∧
      r.slots[v]? = some (.list id items) ∧ r' = r.setSlot v (.list id (items ++ [x]))) h
    (fun k out ho => ?_) fun r' ⟨x, id, items, hx, hl, e⟩ => e ▸ next x id items hx hl
  obtain ⟨x, hx, ho⟩ := Exec.lift_bind_eq_ok ho
  obtain ⟨⟨id, items⟩, hl, hout⟩ := Exec.lift_bind_eq_ok ho
  obtain ⟨action, k'⟩ := out
  obtain ⟨rfl, rfl⟩ := Exec.pure_eq_ok hout
  rw [read_top] at hx
  exact ⟨_, _, rfl, x, id, items, hx, listAt_eq_ok (r := site.top _ r) hl, rfl⟩

theorem ensures_pop (h : (site.part aim.stop).Hosts (d.add (.pop v)))
    (next : ∀ id items, r.slots[v]? = some (.list id items) →
      site.Ensures aim n (d.add (.pop v)).code.size (r.setSlot v (.list id items.dropLast))) :
    site.Ensures aim n d.code.size r := by
  refine ensures_next (fun r' => ∃ id items, r.slots[v]? = some (.list id items) ∧
      r' = r.setSlot v (.list id items.dropLast)) h
    (fun k out ho => ?_) fun r' ⟨id, items, hl, e⟩ => e ▸ next id items hl
  obtain ⟨⟨id, items⟩, hl, hout⟩ := Exec.lift_bind_eq_ok ho
  obtain ⟨action, k'⟩ := out
  obtain ⟨rfl, rfl⟩ := Exec.pure_eq_ok hout
  exact ⟨_, _, rfl, id, items, listAt_eq_ok (r := site.top _ r) hl, rfl⟩

/-! ### Jumps -/

theorem goto_top {target : Nat} {frame : Frame} (hl : site.function.labels[l]? = some target)
    (h : (site.top pc r).goto site.setting l = .ok frame) : frame = site.top target r := by
  have goes : (site.top pc r).goto site.setting l = .ok (site.top target r) := by
    refine (ok_bind (poolEntry_ok site.known) _).trans ?_
    simp only [hl]
    rfl
  exact (Except.ok.inj (goes.symm.trans h)).symm

/-- A jump; it counts as a move, so what follows may be ensured for one move less. -/
theorem ensures_jump {target : Nat} (h : (site.part aim.stop).Hosts (d.add (.jump l)))
    (hl : site.function.labels[l]? = some target)
    (next : ∀ m < n, site.Ensures aim m target r) : site.Ensures aim n d.code.size r := by
  refine ensures_goes (fun pc r' => pc = target ∧ r' = r) h (fun k out ho => ?_) ?_
  · obtain ⟨frame, hg, hout⟩ := Exec.lift_bind_eq_ok ho
    obtain ⟨action, k'⟩ := out
    obtain ⟨rfl, rfl⟩ := Exec.pure_eq_ok hout
    exact ⟨target, r, _, by rw [goto_top hl hg], rfl, rfl⟩
  · rintro m lt _ _ ⟨rfl, rfl⟩
    exact next m lt

/-- A branch either jumps or goes on. -/
theorem ensures_branch {c : Condition} {target : Nat}
    (h : (site.part aim.stop).Hosts (d.add (.branch c l)))
    (hl : site.function.labels[l]? = some target)
    (taken : (site.top (d.code.size + 1) r).holds c = .ok true →
      ∀ m < n, site.Ensures aim m target r)
    (passed : (site.top (d.code.size + 1) r).holds c = .ok false →
      site.Ensures aim n (d.add (.branch c l)).code.size r) :
    site.Ensures aim n d.code.size r := by
  refine ensures_goes (fun pc r' => r' = r ∧
    ((pc = target ∧ (site.top (d.code.size + 1) r).holds c = .ok true) ∨
      (pc = d.code.size + 1 ∧ (site.top (d.code.size + 1) r).holds c = .ok false))) h
    (fun k out ho => ?_) ?_
  · obtain ⟨b, hb, ho⟩ := Exec.lift_bind_eq_ok ho
    obtain ⟨action, k'⟩ := out
    cases b with
    | true =>
        obtain ⟨frame, hg, hout⟩ := Exec.lift_bind_eq_ok ho
        obtain ⟨rfl, rfl⟩ := Exec.pure_eq_ok hout
        exact ⟨target, r, _, by rw [goto_top hl hg], rfl, .inl ⟨rfl, hb⟩⟩
    | false =>
        obtain ⟨rfl, rfl⟩ := Exec.pure_eq_ok ho
        exact ⟨_, r, _, rfl, rfl, .inr ⟨rfl, hb⟩⟩
  · rintro m lt _ _ ⟨rfl, ⟨rfl, hb⟩ | ⟨rfl, hb⟩⟩
    · exact taken hb m lt
    · rw [size_add] at passed
      exact (passed hb).mono (Nat.le_of_lt lt)

/-- A branch on success. -/
theorem ensures_status {target : Nat} (h : (site.part aim.stop).Hosts (d.add (.branch .status l)))
    (hl : site.function.labels[l]? = some target)
    (success : r.status = true → ∀ m < n, site.Ensures aim m target r)
    (failure : r.status = false → site.Ensures aim n (d.add (.branch .status l)).code.size r) :
    site.Ensures aim n d.code.size r :=
  ensures_branch h hl (fun hb => success (Except.ok.inj hb)) fun hb => failure (Except.ok.inj hb)

/-- A branch on failure. -/
theorem ensures_notStatus {target : Nat}
    (h : (site.part aim.stop).Hosts (d.add (.branch .notStatus l)))
    (hl : site.function.labels[l]? = some target)
    (success : r.status = true → site.Ensures aim n (d.add (.branch .notStatus l)).code.size r)
    (failure : r.status = false → ∀ m < n, site.Ensures aim m target r) :
    site.Ensures aim n d.code.size r := by
  refine ensures_branch h hl (fun hb => failure ?_) fun hb => success ?_
  · simpa using (Except.ok.inj hb : (!r.status) = true)
  · simpa using (Except.ok.inj hb : (!r.status) = false)

/-! ### Calls -/

/-- Calls, wherever their arguments come from, leave the slots alone. -/
theorem ensures_call {callee : Callee} {vs : List Nat}
    (h : (site.part aim.stop).Hosts (d.add (.call callee vs)))
    (next : ∀ r', r'.slots = r.slots → (∀ f, callee = .function f → ∃ args,
        r.slotList vs = .ok args ∧ ∃ o, site.setting.Answers aim.may f r.pos args o ∧
          r'.status = o.status ∧ r'.result = o.result ∧ r'.pos = o.pos) →
      site.Ensures aim n (d.add (.call callee vs)).code.size r') :
    site.Ensures aim n d.code.size r := by
  have fetched := fetch_top (r := r) (part_instr h).2
  rw [size_add] at next
  refine ensures_moves h (by simp) fun m lt frame moves => ?_
  cases callee with
  | function f =>
      cases moves with
      | next fetched' work =>
          cases fetched.symm.trans fetched'
          obtain ⟨args, -, hout⟩ := Exec.lift_bind_eq_ok work
          cases hout
      | call fetched' work answered =>
          cases fetched.symm.trans fetched'
          obtain ⟨args, ha, hout⟩ := Exec.lift_bind_eq_ok work
          cases hout
          refine (next (r.resume _) rfl fun g hg => ?_).mono (Nat.le_of_lt lt)
          cases hg
          exact ⟨_, (slotList_top vs).symm.trans ha, _, answered, rfl, rfl, rfl⟩
  | slot v =>
      cases moves with
      | next fetched' work =>
          cases fetched.symm.trans fetched'
          obtain ⟨args, ha, work⟩ := Exec.lift_bind_eq_ok work
          obtain ⟨x, hx, hout⟩ := Exec.lift_bind_eq_ok work
          obtain ⟨called, -⟩ := Exec.pure_eq_ok hout
          have same : frame = site.top (d.code.size + 1) (r.yield x) := by
            cases x <;> cases called <;> rfl
          subst same
          exact (next (r.yield x) rfl fun g hg => by cases hg).mono (Nat.le_of_lt lt)
      | call fetched' work answered =>
          exact (next (r.resume _) rfl fun g hg => by cases hg).mono (Nat.le_of_lt lt)

/-! ### Instructions that change registers only -/

theorem ensures_plain (h : (site.part aim.stop).Hosts (d.add i)) (plain : i.isPlain = true)
    (next : ∀ r', r'.slots = r.slots →
      (∃ k k', i.execute site.setting (site.top (d.code.size + 1) r) k =
        .ok (.next (site.top (d.code.size + 1) r'), k')) →
      site.Ensures aim n (d.add i).code.size r') :
    site.Ensures aim n d.code.size r := by
  refine ensures_next (fun r' => r'.slots = r.slots ∧ ∃ k k', i.execute site.setting
    (site.top (d.code.size + 1) r) k = .ok (.next (site.top (d.code.size + 1) r'), k')) h
    (fun k out ho => ?_) fun r' hr => next r' hr.1 hr.2
  obtain ⟨action, k'⟩ := out
  obtain ⟨frame', rfl, moved, pc, slots⟩ := Instr.execute_plain plain ho
  have same : frame' = site.top (d.code.size + 1) frame' := by
    obtain ⟨function, pc', _, _, _, _, _⟩ := frame'
    obtain rfl : pc' = _ := pc
    obtain rfl : function = _ := moved.function
    rfl
  exact ⟨frame', k', by rw [← same], slots, k, k', by rw [← same, ho]⟩

/-- Host code as an expression succeeds. -/
theorem ensures_eval {host : Nat} {vs : List Nat}
    (h : (site.part aim.stop).Hosts (d.add (.eval host vs)))
    (next : ∀ x, site.Ensures aim n (d.add (.eval host vs)).code.size (r.yield x)) :
    site.Ensures aim n d.code.size r := by
  refine ensures_next (fun r' => ∃ x, r' = r.yield x) h (fun k out ho => ?_)
    fun r' ⟨x, e⟩ => e ▸ next x
  obtain ⟨s, -, ho⟩ := Exec.lift_bind_eq_ok ho
  obtain ⟨values, -, ho⟩ := Exec.lift_bind_eq_ok ho
  obtain ⟨x, k₁, -, hout⟩ := Exec.bind_eq_ok ho
  obtain ⟨action, k'⟩ := out
  obtain ⟨rfl, rfl⟩ := Exec.pure_eq_ok hout
  exact ⟨_, _, rfl, x, rfl⟩

/-! ### Control flow -/

variable {p p' : Pools} {u : Unit}

/-- After a failure the code goes back to a place and leaves. -/
theorem ensures_retreat [Regex.Engine] {back exit target : Nat}
    (w : (Emit.retreatOnFailure back exit).Writes d p u d' p') (h : (site.part aim.stop).Hosts d')
    (hl : site.function.labels[exit]? = some target)
    (stay : r.status = true → site.Ensures aim n d'.code.size r)
    (leave : r.status = false → ∀ pos, site.Ensures aim n target { r with pos }) :
    site.Ensures aim n d.code.size r := by
  obtain ⟨d₁, w₁, size, hosts⟩ :=
    Emit.hosts_ifThen ((Emit.Tame.emit _).bind fun _ => .emit _) w
  obtain ⟨rfl, rfl⟩ := Emit.writes_emit_emit.1 w₁
  obtain ⟨body, branch, placed⟩ := hosts _ h
  refine ensures_branch (d := d.addLabel) branch placed (fun hb m lt => ?_) fun hb => ?_
  · rw [← size]
    exact (stay (Except.ok.inj hb)).mono (Nat.le_of_lt lt)
  · refine ensures_restore (d := Emit.entered _) body.add fun pos => ensures_jump body hl ?_
    exact fun m lt => (leave (Except.ok.inj hb) pos).mono (Nat.le_of_lt lt)

/-- Rounds that keep an invariant. That a round is followed by another one takes moves, so the other
one has fewer of them to answer for. -/
theorem ensures_loop [Regex.Engine] {body : Nat → Nat → Emit Unit} (inv : Frame → Prop)
    (tame : ∀ top exit, (body top exit).Tame) (w : (Emit.loop body).Writes d p u d' p')
    (code : (site.part aim.stop).Hosts d')
    (round : ∀ d₁ d₂ topAt, (body d.labels.size (d.labels.size + 1)).Writes d₁ p () d₂ p' →
      d₁.slots = d.slots → (site.part aim.stop).Hosts (d₂.add (.jump d.labels.size)) →
      site.function.labels[d.labels.size]? = some topAt →
      site.function.labels[d.labels.size + 1]? = some d'.code.size →
      ∀ m ≤ n, (∀ k < m, ∀ r, inv r → site.Ensures aim k topAt r) →
        ∀ r, inv r → site.Ensures aim m d₁.code.size r)
    (h : inv r) : site.Ensures aim n d.code.size r := by
  obtain ⟨d₁, d₂, -, slots, begins, -, w₁, hosts⟩ := Emit.hosts_loop tame w
  obtain ⟨inner, tops, exits⟩ := hosts _ code
  suffices rounds : ∀ m ≤ n, ∀ r, inv r → site.Ensures aim m d₁.code.size r by
    rw [← begins]
    exact rounds n (Nat.le_refl n) r h
  intro m
  induction m using Nat.strongRecOn with
  | _ m ih =>
      intro le
      refine round d₁ d₂ _ w₁ slots inner tops exits m le fun k lt r h => ?_
      rw [← begins]
      exact ih k lt (by omega) r h

end Site

end Packrat
