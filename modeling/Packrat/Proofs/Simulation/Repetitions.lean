import Packrat.Proofs.Simulation.Rounds

/-
**Repetitions.**

The values of a repetition are collected in a list that a slot holds.  Each round keeps the place
where it began; a round that fails goes back there, and one that has read nothing is the last.

Main definitions:

* `Packrat.Site.Bounds` — a bound of a repetition as the code has it;
* `Packrat.Site.Collects` — slots between two rounds of a repetition.

Main results:

* `Packrat.Expr.Embeds.list` — the code of a repetition realizes its meaning if that of its item
  does.
-/

set_option autoImplicit false

namespace Packrat

theorem Exec.lift_bind_error {α β : Type} {x : Except Failure α} {e : Failure} (h : x = .error e)
    (k : α → Exec β) (n : Nat) : (liftM x >>= k : Exec β) n = .error e := by
  subst h
  rfl

namespace Site

variable {site : Site} {n v pc : Nat} {d d' : Draft} {p p' : Pools} {σ : Moment} {s : Store}
variable {scene : Scene} {env : Env}

/-! ### Bounds -/

/-- A bound of a repetition as the code has it: a constant, or a value kept in a slot out of a
range. -/
def Bounds (low high : Nat) (slots : Array Value) : Option Limit → Option Value → Prop
  | none, none => True
  | some (.const n), some x => x = .int (Int64.ofNat n)
  | some (.slot v), some x => low ≤ v ∧ v < high ∧ slots[v]? = some x
  | _, _ => False

theorem Bounds.kept {low high low' high' : Nat} {xs ys : Array Value} {limit? : Option Limit}
    {value? : Option Value} (h : Bounds low high xs limit? value?) (below : low' ≤ low)
    (above : high ≤ high') (same : ∀ v, low ≤ v → v < high → ys[v]? = xs[v]?) :
    Bounds low' high' ys limit? value? := by
  match limit?, value?, h with
  | none, none, _ => trivial
  | some (.const _), some _, h => exact h
  | some (.slot v), some _, ⟨hl, hh, hx⟩ =>
      exact ⟨Nat.le_trans below hl, Nat.lt_of_lt_of_le hh above, (same v hl hh).trans hx⟩

/-- What a frame reads of a bound. -/
theorem frame_limit {low high : Nat} {limit : Limit} {x : Value}
    (h : Bounds low high σ.slots (some limit) (some x)) :
    (site.frame pc σ).limit? limit =
      match x with
      | .none => .ok none
      | x =>
        match x.asInt? with
        | some n => .ok (some n.toInt)
        | none => .error (.host (.boundType x.typeName)) := by
  cases limit with
  | const n =>
      obtain rfl : x = .int (Int64.ofNat n) := h
      rfl
  | slot v =>
      rw [Frame.limit?, frame_slot h.2.2]
      cases x <;> rfl

/-- The code compares the items to a bound. -/
theorem follow_reaches {α : Type} {low high target id l : Nat} {limit : Limit}
    {x : Value}
    {items : List Value} {k : Bool → Reading α} {post : α → Store → Machine → Prop}
    (h : site.function.Hosts (d.add (.branch (.lenGe v limit) l)))
    (hl : site.function.labels[l]? = some target)
    (bounds : Bounds low high σ.slots (some limit) (some x))
    (list : σ.slots[v]? = some (.list id items))
    (reached : site.Follows n target σ (k true s) post)
    (below : site.Follows n (d.add (.branch (.lenGe v limit) l)).code.size σ (k false s) post) :
    site.Follows n d.code.size σ ((Scene.reaches items.length x >>= k) s) post := by
  have read : (site.frame (d.code.size + 1) σ).limit? limit = _ := frame_limit bounds
  have holds (z? : Option Int)
      (hz : (site.frame (d.code.size + 1) σ).limit? limit = .ok z?) :
      (site.frame (d.code.size + 1) σ).holds (.lenGe v limit) =
        .ok (z?.any fun z => decide (z ≤ (items.length : Int))) := by
    rw [Frame.holds, Frame.lengthHolds, hz]
    cases z? with
    | none => rfl
    | some z => exact ok_bind (frame_listAt list) _
  have decided (b : Bool) (hb : (site.frame (d.code.size + 1) σ).holds (.lenGe v limit) = .ok b) :
      site.Follows n d.code.size σ ((pure b >>= k) s) post := by
    cases b with
    | true => exact follow_branch h hb hl reached
    | false => exact follow_pass h hb below
  by_cases open_ : x = .none
  · subst open_
    exact decided false (holds none read)
  · cases hx : x.asInt? with
    | some z =>
        have same : Scene.reaches items.length x = pure (decide (z.toInt ≤ items.length)) := by
          cases x <;> simp_all [Scene.reaches]
        rw [same]
        exact decided _ (holds (some z.toInt) (read.trans (by cases x <;> simp_all)))
    | none =>
        have same : Scene.reaches items.length x = throw (.host (.boundType x.typeName)) := by
          cases x <;> simp_all [Scene.reaches]
        rw [same]
        have fails : (site.frame (d.code.size + 1) σ).holds (.lenGe v limit) =
            .error (.host (.boundType x.typeName)) := by
          rw [Frame.holds, Frame.lengthHolds, read]
          cases x <;> simp_all [bind, Except.bind]
        exact Machine.Follows.fail (step_error h.instr (Exec.lift_bind_error fails _ _))

/-- The code evaluates a bound once, before the first item. -/
theorem follow_limit [Regex.Engine] {β : Type} {bound? : Option Bound} {limit? : Option Limit}
    {k : Option Value → Reading β} {post : β → Store → Machine → Prop}
    (w : (Emit.limit? bound?).Writes d p limit? d' p') (code : site.function.Hosts d')
    (pools : site.setting.program.Hosts p')
    (fits : scene.Fits site.setting site.memoize p.ruleFunctions p.rule)
    (ready : site.Ready d env σ s)
    (next : ∀ x? σ' s', site.Behind d.slots σ.slots σ' s' → σ'.pos = σ.pos →
      Bounds d.slots d'.slots σ'.slots limit? x? → site.Follows n d'.code.size σ' (k x? s') post) :
    site.Follows n d.code.size σ ((scene.boundOf env bound? >>= k) s) post := by
  match bound? with
  | none =>
      obtain ⟨rfl, rfl, rfl⟩ := Emit.writes_pure.1 w
      exact next none σ s ready.behind rfl trivial
  | some (.const c) =>
      obtain ⟨rfl, rfl, rfl⟩ := Emit.writes_pure.1 w
      exact next (some _) σ s ready.behind rfl rfl
  | some (.host sn) =>
      obtain ⟨_, d₁, p₁, w₁, w₂⟩ := Emit.writes_bind.1 w
      obtain ⟨v, d₂, p₂, w₃, w₄⟩ := Emit.writes_bind.1 w₂
      obtain ⟨rfl, rfl, rfl⟩ := Emit.writes_storeResult.1 w₃
      obtain ⟨rfl, rfl, rfl⟩ := Emit.writes_pure.1 w₄
      obtain ⟨-, -, slots, -, follow⟩ :=
        @follow_snippet _ _ _ _ _ env σ s scene site n _ w₁
      refine .bind (.bind ((follow code.add.addSlot pools fits ready).mono ?_))
      rintro x s' _ ⟨memo, rfl⟩
      have room : d₁.slots < σ.slots.size := by
        rw [ready.size]
        exact code.add.slots
      refine .pure (follow_store (d := d₁.addSlot) code rfl (next (some x) _ s' ?_ rfl ?_))
      · exact ⟨ready.inside, .set _ (Nat.le_of_eq slots.symm) _, rfl, memo ▸ ready.agrees.memo⟩
      · exact ⟨Nat.le_of_eq slots.symm, Nat.lt_succ_self _, getElem?_set_self room _⟩

/-! ### Rounds -/

/-- Slots between two rounds of a repetition: the values so far, and the failure to report if they
are too few. Slots below and above these are left alone. -/
structure Collects (site : Site) (low high staging err errPos id : Nat) (start : Array Value)
    (σ : Moment) (s : Store) (items : List Value) (far : FailureEntry × Nat) : Prop where
  behind : site.Behind low start σ s
  above : ∀ v, errPos < v → v < high → σ.slots[v]? = start[v]?
  list : σ.slots[staging]? = some (.list id items)
  report : ∃ mark, σ.slots[err]? = some (.failure mark) ∧
    site.setting.program.failures[mark]? = some far.1
  place : σ.slots[errPos]? = some (.ofPos far.2)
  inside : far.2 ≤ site.setting.bytes.size

namespace Collects

variable {low high staging err errPos id : Nat} {start : Array Value} {σ' : Moment} {s' : Store}
variable {items : List Value} {far : FailureEntry × Nat}

/-- The slots are in order. -/
def Order (low high staging err errPos : Nat) : Prop :=
  low ≤ staging ∧ staging < err ∧ err < errPos ∧ errPos < high

/-- What a part between two rounds does to the slots. -/
theorem part (h : site.Collects low high staging err errPos id start σ s items far)
    (order : Order low high staging err errPos) (behind : site.Behind high σ.slots σ' s') :
    site.Collects low high staging err errPos id start σ' s' items far := by
  obtain ⟨first, second, third, fourth⟩ := order
  obtain ⟨mark, held, known⟩ := h.report
  exact {
    behind := h.behind.trans (behind.mono (by omega))
    above := fun v hl hh => (behind.keeps.same v hh).trans (h.above v hl hh)
    list := behind.kept (by omega) h.list
    report := ⟨mark, behind.kept (by omega) held, known⟩
    place := behind.kept fourth h.place
    inside := h.inside }

/-- One more value. -/
theorem push (h : site.Collects low high staging err errPos id start σ s items far)
    (order : Order low high staging err errPos) (room : staging < σ.slots.size) (x : Value) :
    site.Collects low high staging err errPos id start
      (σ.set staging (.list id (items ++ [x]))) s (items ++ [x]) far := by
  obtain ⟨first, second, third, fourth⟩ := order
  obtain ⟨mark, held, known⟩ := h.report
  exact {
    behind := h.behind.set first _
    above := fun v hl hh => (getElem?_set_ne (by omega) _).trans (h.above v hl hh)
    list := getElem?_set_self room _
    report := ⟨mark, (getElem?_set_ne (by omega) _).trans held, known⟩
    place := (getElem?_set_ne (by omega) _).trans h.place
    inside := h.inside }

/-- An item has failed, and the code has gone back. -/
theorem fail {mark place back : Nat} {entry : FailureEntry}
    (h : site.Collects low high staging err errPos id start σ s items far)
    (order : Order low high staging err errPos) (room : errPos < σ.slots.size)
    (known : site.setting.program.failures[mark]? = some entry)
    (inside : place ≤ site.setting.bytes.size) (behind : back ≤ site.setting.bytes.size) :
    site.Collects low high staging err errPos id start
      { (σ.set err (.failure mark)).set errPos (.ofPos place) with pos := back } s items
      (entry, place) := by
  obtain ⟨first, second, third, fourth⟩ := order
  exact {
    behind := ((h.behind.set (by omega) _).set (by omega) _).registers rfl rfl rfl behind
    above := fun v hl hh => (getElem?_set_ne (by omega) _).trans
      ((getElem?_set_ne (by omega) _).trans (h.above v hl hh))
    list := (getElem?_set_ne (by omega) _).trans ((getElem?_set_ne (by omega) _).trans h.list)
    report := ⟨mark, (getElem?_set_ne (by omega) _).trans
      (getElem?_set_self (by omega) _), known⟩
    place := getElem?_set_self (by simpa [Moment.set] using room) _
    inside := inside }

end Collects

/-- The end of a repetition: its items, or the failure to report if they are too few. -/
theorem follow_enough [Regex.Engine] {site : Site} {scene : Scene}
    {n low high staging err errPos id : Nat} {start : Array Value} {d d' : Draft} {p p' : Pools}
    {σ : Moment} {s : Store} {items : List Value} {far : FailureEntry × Nat} {least? : Option Limit}
    {x? : Option Value} (w : (Emit.enough staging err errPos least?).Writes d p () d' p')
    (settled : scene.leastNone? ≠ some true)
    (code : site.function.Hosts d') (small : site.setting.bytes.size < 2 ^ 63)
    (bounds : Bounds (errPos + 1) high σ.slots least? x?)
    (h : site.Collects low high staging err errPos id start σ s items far) :
    site.Follows n d.code.size σ
      ((scene.enough items.length x? >>= fun enough =>
        if enough then pure (.success (.list id items) σ.pos)
        else pure (.failure far.1 far.2) : Reading (Verdict Value)) s)
      (site.Done low d'.code.size start) := by
  cases least? with
  | none =>
      obtain ⟨rfl, rfl⟩ := Emit.writes_succeedWith.1 w
      cases x? with
      | some x => exact bounds.elim
      | none =>
          exact follow_succeedWith code (frame_slot h.list)
            (.pure (.success rfl (h.behind.registers rfl rfl rfl h.behind.inside)))
  | some least =>
      obtain ⟨d₁, p₁, d₂, w₁, w₂, size, hosts⟩ := Emit.hosts_ifElse
        ((Emit.Tame.emit _).bind fun _ => (Emit.Tame.emit _).bind fun _ => .emit _)
        (.succeedWith _) w
      rw [Emit.writes_emit_bind, Emit.writes_emit_emit] at w₁
      obtain ⟨rfl, rfl⟩ := w₁
      obtain ⟨rfl, rfl⟩ := Emit.writes_succeedWith.1 w₂
      obtain ⟨enough, jump, branch, otherwise', behindBoth⟩ := hosts _ code
      rw [← size] at behindBoth
      obtain ⟨mark, held, known⟩ := h.report
      cases x? with
      | none => cases least <;> exact bounds.elim
      | some x =>
          rcases Scene.enough_some settled items.length x with same | same
          rotate_left
          · rw [same]
            trivial
          rw [same]
          refine follow_reaches (d := Draft.addLabel (Draft.addLabel _)) branch otherwise' bounds
            h.list ?_ ?_
          · refine follow_succeedWith (d := Draft.place _ _) enough (frame_slot h.list) ?_
            rw [← size]
            exact .pure (.success rfl (h.behind.registers rfl rfl rfl h.behind.inside))
          · exact follow_restore (d := Emit.entered _) jump.add.add.add h.place
              (Nat.lt_of_le_of_lt h.inside small)
              (follow_load jump.add.add (frame_slot held) (follow_setStatus jump.add
                (follow_jump jump behindBoth (.pure (.failure rfl rfl known
                  (h.behind.registers rfl rfl rfl h.inside))))))

end Site

/-- The loop of a repetition begins with the test of its bound. -/
theorem Emit.hosts_repetition [Regex.Engine] {item : Emit Unit} (tame : item.Tame)
    {staging err errPos : Nat} {most? : Option Limit} {d d' : Draft} {p p' : Pools}
    (w : (Emit.repetition item staging err errPos most?).Writes d p () d' p') :
    ∃ d₁ d₂, (Emit.attempt item staging err errPos (d.labels.size + 1)).Writes d₁ p () d₂ p' ∧
      d₁.scope = d.scope ∧ d₁.slots = d.slots ∧ d₁.stage p = (d.stage p).entered ∧
      ∀ site : Site, site.function.Hosts d' →
        site.function.Hosts (d₂.add (.jump d.labels.size)) ∧
        site.function.labels[d.labels.size]? = some d.code.size ∧
        site.function.labels[d.labels.size + 1]? = some d'.code.size ∧
        ∀ (n low high id : Nat) (σ : Moment) (s : Store) (items : List Value)
          (x? : Option Value) {β : Type} (k : Bool → Reading β)
          (post : β → Store → Machine → Prop), Site.Bounds low high σ.slots most? x? →
          σ.slots[staging]? = some (.list id items) →
          site.Follows n d'.code.size σ (k true s) post →
          site.Follows n d₁.code.size σ (k false s) post →
          site.Follows n d.code.size σ ((Scene.full items.length x? >>= k) s) post := by
  have round (exit : Nat) := Emit.Tame.attempt tame staging err errPos exit
  cases most? with
  | none =>
      change (Emit.loop fun _ exit => Emit.attempt item staging err errPos exit).Writes _ _ _ _ _ at w
      obtain ⟨d₁, d₂, scope, slots, begins, entered, w₁, hosts⟩ :=
        Emit.hosts_loop (fun _ exit => round exit) w
      refine ⟨d₁, d₂, w₁, scope, slots, entered, fun site code => ?_⟩
      obtain ⟨body, top, exit⟩ := hosts _ code
      refine ⟨body, top, exit, fun n low high id σ s items x? β k post bounds list reached below => ?_⟩
      rw [← begins]
      cases x? with
      | none => exact below
      | some x => exact bounds.elim
  | some most =>
      change (Emit.loop fun _ exit => do
        Emit.emit (.branch (.lenGe staging most) exit)
        Emit.attempt item staging err errPos exit).Writes _ _ _ _ _ at w
      have tested (_ exit : Nat) : Emit.Tame (do
          Emit.emit (.branch (.lenGe staging most) exit)
          Emit.attempt item staging err errPos exit) :=
        (Emit.Tame.emit _).bind fun _ => round exit
      obtain ⟨d₁, d₂, scope, slots, begins, entered, w₁, hosts⟩ := Emit.hosts_loop tested w
      have w₂ := Emit.writes_emit_bind.1 w₁
      refine ⟨_, d₂, w₂, scope, slots, entered, fun site code => ?_⟩
      obtain ⟨body, top, exit⟩ := hosts _ code
      refine ⟨body, top, exit, fun n low high id σ s items x? β k post bounds list reached below => ?_⟩
      rw [← begins]
      cases x? with
      | none => cases most <;> exact bounds.elim
      | some x =>
          have start := body.add.back ((round _).draft w₂)
          exact Site.follow_reaches start exit bounds list reached below

/-- Items as often as they succeed. -/
theorem Expr.Embeds.repetition [Regex.Engine] {item : Expr} (ih : item.Embeds)
    {staging err errPos : Nat} {most? : Option Limit} {d d' : Draft} {p p' : Pools}
    (w : (Emit.repetition (Emit.within item item.emit) staging err errPos most?).Writes d p ()
      d' p') :
    let l := item.layoutWithin (d.stage p).entered
    Closes p p' (item.closures p.rule l) ∧
      ∀ (site : Site) (scene : Scene) (env : Env), site.function.Hosts d' →
        site.setting.program.Hosts p' →
        scene.Fits site.setting site.memoize p.ruleFunctions p.rule →
        ∀ (d₀ : Draft) (σ : Moment) (s : Store) (id : Nat) (x? : Option Value)
          (far : FailureEntry × Nat), d.scope = d₀.scope →
          Site.Collects.Order d₀.slots d.slots staging err errPos → site.Ready d₀ env σ s →
          Site.Bounds (errPos + 1) d.slots σ.slots most? x? →
          site.Collects d₀.slots d.slots staging err errPos id σ.slots σ s [] far →
          site.Follows scene.rounds d.code.size σ
            (Reading.repeatFrom (Scene.anotherItem x? fun pos =>
              l.read scene item.freeLocals pos (item.meaning scene env l pos))
              scene.rounds ([], far, σ.pos) s)
            fun out s' m => ∃ σ', m = site.machine d'.code.size σ' ∧ σ'.pos = out.2.2 ∧
              site.Collects d₀.slots d.slots staging err errPos id σ.slots σ' s' out.1
                out.2.1 := by
  have tame := Emit.Tame.within item item.emit_tame
  -- The writer is taken apart from the front; every part leaves a draft and pools behind.
  obtain ⟨d₁, d₂, w₁, scope, slots, entered, hosts⟩ := Emit.hosts_repetition tame w
  obtain ⟨back, d₃, p₃, w₂, wa⟩ := Emit.writes_bind.1 w₁
  obtain ⟨rfl, rfl, rfl⟩ := Emit.writes_checkpoint.1 w₂
  obtain ⟨_, d₄, p₄, w₃, wb⟩ := Emit.writes_bind.1 wa
  obtain ⟨_, d₅, p₅, w₄, w₅⟩ := Emit.writes_bind.1 wb
  obtain ⟨d₆, w₆, size', hosts'⟩ := Emit.hosts_ifThen ((Emit.Tame.emit _).bind fun _ =>
    (Emit.Tame.emit _).bind fun _ => (Emit.Tame.emit _).bind fun _ => .emit _) w₄
  rw [Emit.writes_emit_bind, Emit.writes_emit_bind, Emit.writes_emit_emit] at w₆
  obtain ⟨rfl, rfl⟩ := w₆
  obtain ⟨rfl, rfl⟩ := Emit.writes_emit_emit.1 w₅
  have realizes := ih _ _ _ _ w₃
  rw [← entered]
  refine ⟨realizes.closes, fun site scene env code pools fits d₀ σ s id x? far same order ready
    bounds begun => ?_⟩
  obtain ⟨body, top, exit, test⟩ := hosts site code
  obtain ⟨failed, branch, passed⟩ := hosts' _ body.add.add.add
  have part := branch.add.addLabel
  have start := part.back (tame.draft w₃)
  -- Before each round the machine stands at the top of the loop with the values so far in its slot.
  refine (Machine.Follows.repeatFrom (fun a s' m => ∃ σ', m = site.machine d.code.size σ' ∧
    σ'.pos = a.2.2 ∧ site.Collects d₀.slots d.slots staging err errPos id σ.slots σ' s' a.1
      a.2.1) ?_ ⟨σ, rfl, rfl, begun⟩)
  rintro ⟨items, far, _⟩ s' _ ⟨σ', rfl, rfl, collects⟩
  have size₁ : σ'.slots.size = site.function.slots := collects.behind.keeps.size.trans ready.size
  have above : d.slots < site.function.slots := by
    have := start.slots
    simp only [Draft.add, Draft.addSlot, slots] at this
    omega
  have small := Nat.lt_of_le_of_lt collects.behind.inside fits.small
  have ordered := order
  obtain ⟨first, second, third, fourth⟩ := ordered
  rw [Scene.anotherItem]
  refine test _ _ _ _ _ _ _ _ _ _ (bounds.kept (Nat.le_refl _) (Nat.le_refl _) collects.above)
    collects.list (.pure ⟨σ', rfl, rfl, collects⟩) ?_
  have ready₁ : site.Ready d₁ env σ' s' := ready.next collects.behind (scope.trans same)
    (by omega)
  obtain ⟨ready₂, saved⟩ := ready₁.store start (.ofPos σ'.pos)
  refine Site.follow_store (d := d₁.addSlot) start rfl (Site.follow_part
    (realizes.performs site scene env part pools fits) ready₂ ?_ ?_)
  -- The item has been read: its value is added, and a round that has moved begins again.
  · intro σ₁ s₁ behind status
    have full : σ₁.slots.size = site.function.slots :=
      (behind.keeps.size.trans (by simp [Moment.set])).trans size₁
    have collects₁ := collects.part order (slots ▸ behind.after)
    have pushed := collects₁.push order (by omega) σ₁.result
    have kept := (getElem?_set_ne (by omega : staging ≠ d₁.slots)
      (.list id (items ++ [σ₁.result]))).trans (behind.kept (Nat.lt_succ_self _) saved)
    refine Site.follow_ifThen_success (d := Draft.addLabel _) branch passed status ?_
    rw [← size']
    exact Site.follow_push body.add.add rfl collects₁.list
      (Site.follow_again body top exit kept small ⟨_, rfl, rfl, pushed⟩ ⟨_, rfl, rfl, pushed⟩)
  -- The item has failed: what is reported is kept, and the code goes back and leaves the loop.
  · intro σ₁ s₁ mark entry behind status result known
    have full : σ₁.slots.size = site.function.slots :=
      (behind.keeps.size.trans (by simp [Moment.set])).trans size₁
    have collects₁ := collects.part order (slots ▸ behind.after)
    have failing := collects₁.fail order (by omega) known behind.inside collects.behind.inside
    have kept := (getElem?_set_ne (by omega : errPos ≠ d₁.slots) (.ofPos σ₁.pos)).trans
      ((getElem?_set_ne (by omega : err ≠ d₁.slots) (.failure mark)).trans
        (behind.kept (Nat.lt_succ_self _) saved))
    exact Site.follow_ifThen_failure (d := Draft.addLabel _) branch status
      (Site.follow_store (d := Emit.entered _) failed.add.add.add (congrArg Except.ok result)
        (Site.follow_store failed.add.add rfl
          (Site.follow_restore failed.add kept small
            (Site.follow_jump failed exit (.pure ⟨_, rfl, rfl, failing⟩)))))

theorem Expr.Embeds.list [Regex.Engine] {item : Expr} (ih : item.Embeds) (tag : Tag)
    (least most : Option Bound) : (Expr.list tag item least most).Compiles := by
  intro d p d' p' w k
  rw [Expr.emit, Emit.listOf] at w
  have tame := Emit.Tame.within item item.emit_tame
  obtain ⟨_, d₁, p₁, w₁, wa⟩ := Emit.writes_bind.1 w
  obtain ⟨rfl, rfl, rfl⟩ := Emit.writes_slot.1 w₁
  rw [Emit.writes_emit_bind] at wa
  obtain ⟨unexpected, d₂, p₂, w₂, wb⟩ := Emit.writes_bind.1 wa
  obtain ⟨wf, rfl⟩ := Emit.writes_lift.1 w₂
  obtain ⟨grownf, noted⟩ := Build.adds_failure wf
  obtain ⟨_, d₃, p₃, w₃, wc⟩ := Emit.writes_bind.1 wb
  obtain ⟨rfl, rfl, rfl⟩ := Emit.writes_slot.1 w₃
  rw [Emit.writes_emit_bind] at wc
  obtain ⟨_, d₄, p₄, w₄, wd⟩ := Emit.writes_bind.1 wc
  obtain ⟨rfl, rfl, rfl⟩ := Emit.writes_checkpoint.1 w₄
  obtain ⟨least?, d₅, p₅, w₅, we⟩ := Emit.writes_bind.1 wd
  obtain ⟨most?, d₆, p₆, w₆, wg⟩ := Emit.writes_bind.1 we
  obtain ⟨_, d₇, p₇, w₇, w₈⟩ := Emit.writes_bind.1 wg
  obtain ⟨closes, follow⟩ := ih.repetition w₇
  have tameLeast := Emit.Tame.limit? least
  have tameMost := Emit.Tame.limit? most
  have tameLoop := Emit.Tame.repetition tame d.slots (d.slots + 1) (d.slots + 2) most?
  have w₉ : (Emit.enough d.slots (d.slots + 1) (d.slots + 2) least?).Writes d₇ p₇ () d' p' := w₈
  have tameEnd := Emit.Tame.enough d.slots (d.slots + 1) (d.slots + 2) least?
  have grownLeast := tameLeast.draft w₅
  have grownMost := tameMost.draft w₆
  have before := (grownf.trans (tameLeast.pools w₅)).trans (tameMost.pools w₆)
  rw [before.rule] at closes
  have moved : d₆.stage p₆ = d.stage p₁ := by
    rw [(Emit.Moves.limit? most).stage w₆, id_eq, (Emit.Moves.limit? least).stage w₅, id_eq]
    exact (Build.Moves.failure _ _).stage wf d
  rw [Expr.layout, ← moved]
  refine ⟨fun site scene env code pools fits σ s ready => ?_,
    closes.widen before (tameEnd.pools w₉)⟩
  -- The code and the pools of each part, read off from those of the whole.
  have code₇ := code.back (tameEnd.draft w₉)
  have code₆ := code₇.back (tameLoop.draft w₇)
  have third := (code₆.back grownMost).back grownLeast
  have second := third.add.addSlot
  have pools₇ := pools.back (tameEnd.pools w₉)
  have pools₆ := pools₇.back (tameLoop.pools w₇)
  have pools₅ := pools₆.back (tameMost.pools w₆)
  have room : d.slots + 2 < d₅.slots := grownLeast.slots
  have room' : d₅.slots ≤ d₆.slots := grownMost.slots
  obtain ⟨begins, empty⟩ := ready.newList second.add.addSlot.add.slots
  have ready₁ : site.Ready (d.addSlot.add (.newList d.slots)) env
      { σ.set d.slots (.list σ.identity []) with identity := σ.identity + 1 }
      { s with identity := s.identity + 1 } := ready.next begins rfl (Nat.le_succ _)
  obtain ⟨ready₂, held⟩ := ready₁.store second (.failure unexpected)
  obtain ⟨ready₃, saved⟩ := ready₂.store third (.ofPos σ.pos)
  rw [Expr.meaning, Reading.fresh_bind]
  refine Site.follow_newList (d := d.addSlot) second.add.addSlot (Site.follow_store
    (d := Draft.addSlot _) second rfl (Site.follow_store (d := Draft.addSlot _) third rfl
      (Site.follow_limit w₅ (code₆.back grownMost) pools₅ (fits.grow grownf) ready₃
        fun low σ₄ s₄ behind₄ pos₄ bounds₄ => ?_)))
  have ready₄ := ready₃.next behind₄ grownLeast.scope grownLeast.slots
  refine Site.follow_limit w₆ code₆ pools₆ (fits.grow (grownf.trans (tameLeast.pools w₅))) ready₄
    fun high σ₅ s₅ behind₅ pos₅ bounds₅ => ?_
  have ready₅ := ready₄.next behind₅ grownMost.scope grownMost.slots
  have pos : σ₅.pos = σ.pos := pos₅.trans pos₄
  -- Evaluating the bounds leaves the three slots of the repetition alone.
  have keep (v : Nat) (x : Value) (le : v ≤ d.slots + 2)
      (h : ((({ σ.set d.slots (.list σ.identity []) with identity := σ.identity + 1 } :
        Moment).set (d.slots + 1) (.failure unexpected)).set (d.slots + 2)
          (.ofPos σ.pos)).slots[v]? = some x) : σ₅.slots[v]? = some x :=
    behind₅.kept (by omega) (behind₄.kept (Nat.lt_succ_of_le le) h)
  have list : σ₅.slots[d.slots]? = some (.list s.identity []) :=
    keep _ _ (by omega) ((getElem?_set_ne (by omega) _).trans
      ((getElem?_set_ne (by omega) _).trans empty))
  have report : σ₅.slots[d.slots + 1]? = some (.failure unexpected) :=
    keep _ _ (by omega) ((getElem?_set_ne (by omega) _).trans held)
  have place : σ₅.slots[d.slots + 2]? = some (.ofPos σ.pos) := keep _ _ (Nat.le_refl _) saved
  have known : site.setting.program.failures[unexpected]? =
      some ⟨scene.rule, Expr.text (.list tag item least most), .unexpected⟩ := by
    rw [fits.rule]
    exact ((pools₅.back (tameLeast.pools w₅)).failures _ _ noted)
  have begun : site.Collects d.slots d₆.slots d.slots (d.slots + 1) (d.slots + 2) s.identity
      σ₅.slots σ₅ s₅ [] (⟨scene.rule, Expr.text (.list tag item least most), .unexpected⟩, σ.pos) :=
    ⟨⟨behind₅.inside, .refl _ _, behind₅.agrees⟩, fun _ _ _ => rfl, list,
      ⟨unexpected, report, known⟩, place, ready.inside⟩
  have keeps : Keeps d.slots σ.slots σ₅.slots :=
    (((Keeps.set _ (Nat.le_refl _) _).trans (.set _ (Nat.le_succ _) _)).trans
      (.set _ (Nat.le_add_right _ 2) _)).trans
        ((behind₄.keeps.mono (Nat.le_add_right _ 3)).trans (behind₅.keeps.mono (by omega)))
  have ready₀ : site.Ready d env σ₅ s₅ :=
    ready.next ⟨behind₅.inside, keeps, behind₅.agrees⟩ rfl (Nat.le_refl _)
  have order : Site.Collects.Order d.slots d₆.slots d.slots (d.slots + 1) (d.slots + 2) :=
    ⟨Nat.le_refl _, Nat.lt_succ_self _, Nat.lt_succ_self _, by omega⟩
  -- The rounds start from the empty list and the failure noted in advance.
  have loop := follow site scene env code₇ pools₇ (fits.grow before) d σ₅ s₅ s.identity high _
    (grownMost.scope.trans grownLeast.scope) order ready₀
    (bounds₅.kept room (Nat.le_refl _) fun _ _ _ => rfl) begun
  rw [pos] at loop
  refine .bind (loop.mono ?_)
  rintro ⟨items, far, stop⟩ s₆ _ ⟨σ₆, rfl, rfl, collects⟩
  have least := bounds₄.kept (Nat.le_refl _) room' (fun v _ hv => behind₅.keeps.same v hv)
  refine (Site.follow_enough w₉ fits.leastNone code fits.small (least.kept (Nat.le_refl _) (Nat.le_refl _)
    collects.above) collects).mono ?_
  rintro v s' _ ⟨σ', rfl, leaves, behind⟩
  exact ⟨σ', rfl, leaves, behind.inside, keeps.trans behind.keeps, behind.agrees⟩

/-! ### Separators -/

/-- A draft with one more instruction under a condition. -/
def Draft.addIf (d : Draft) (b : Bool) (i : Instr) : Draft := if b then d.add i else d

@[simp] theorem Draft.addIf_slots (d : Draft) (b : Bool) (i : Instr) :
    (d.addIf b i).slots = d.slots := by cases b <;> rfl

@[simp] theorem Draft.stage_addIf (d : Draft) (b : Bool) (i : Instr) (p : Pools) :
    (d.addIf b i).stage p = d.stage p := by cases b <;> rfl

@[simp] theorem Draft.addIf_scope (d : Draft) (b : Bool) (i : Instr) :
    (d.addIf b i).scope = d.scope := by cases b <;> rfl

theorem Emit.writes_emitIf {b : Bool} {i : Instr} {d d' : Draft} {p p' : Pools} {u : Unit} :
    (Emit.emitIf b i).Writes d p u d' p' ↔ d' = d.addIf b i ∧ p' = p := by
  cases b with
  | false => simp [emitIf, Draft.addIf, writes_pure]
  | true => exact writes_emit

namespace Site

variable {site : Site} {n low high staging id back : Nat} {start : Array Value} {d : Draft}
variable {σ σ' : Moment} {s s' : Store} {items : List Value}

theorem hosts_addIf {f : Function} {b : Bool} {i : Instr} (h : f.Hosts (d.addIf b i)) :
    f.Hosts d := by
  cases b with
  | false => exact h
  | true => exact h.add

variable {α : Type} {r : Option (Except Stop (α × Store))} {post : α → Store → Machine → Prop}

/-- A separator is kept or dropped. -/
theorem follow_pushIf {b : Bool} (h : site.function.Hosts (d.addIf b (.push staging .result)))
    (holds : site.Holds low staging start σ s (.list id items)) (le : low ≤ staging)
    (room : staging < σ.slots.size)
    (next : ∀ σ' : Moment, σ'.pos = σ.pos → σ'.slots.size = σ.slots.size →
      (∀ v, v ≠ staging → σ'.slots[v]? = σ.slots[v]?) →
      site.Holds low staging start σ' s (.list id (if b then items ++ [σ.result] else items)) →
      site.Follows n (d.addIf b (.push staging .result)).code.size σ' r post) :
    site.Follows n d.code.size σ r post := by
  cases b with
  | false => exact next σ rfl rfl (fun _ _ => rfl) holds
  | true =>
      exact follow_push h rfl holds.held (next _ rfl (by simp [Moment.set])
        (fun v hv => getElem?_set_ne (Ne.symm hv) _) (holds.update le room _))

/-- A separator is given back. -/
theorem follow_popIf {b : Bool} (h : site.function.Hosts (d.addIf b (.pop staging)))
    (holds : site.Holds low staging start σ s (.list id items)) (le : low ≤ staging)
    (room : staging < σ.slots.size)
    (next : ∀ σ' : Moment, (∀ v, v ≠ staging → σ'.slots[v]? = σ.slots[v]?) →
      site.Holds low staging start σ' s (.list id (if b then items.dropLast else items)) →
      site.Follows n (d.addIf b (.pop staging)).code.size σ' r post) :
    site.Follows n d.code.size σ r post := by
  cases b with
  | false => exact next σ (fun _ _ => rfl) holds
  | true =>
      exact follow_pop h holds.held (next _
        (fun v hv => getElem?_set_ne (Ne.symm hv) _) (holds.update le room _))

/-- A trailer is not given back. -/
theorem follow_saveIf {b : Bool} {place : Nat}
    (h : site.function.Hosts (d.addIf b (.store back .position)))
    (holds : site.Holds low staging start σ s (.list id items)) (le : low ≤ back)
    (other : back ≠ staging) (room : back < σ.slots.size)
    (saved : σ.slots[back]? = some (.ofPos place))
    (next : ∀ σ' : Moment, σ'.pos = σ.pos → σ'.slots.size = σ.slots.size →
      site.Holds low staging start σ' s (.list id items) →
      σ'.slots[back]? = some (.ofPos (if b then σ.pos else place)) →
      site.Follows n (d.addIf b (.store back .position)).code.size σ' r post) :
    site.Follows n d.code.size σ r post := by
  cases b with
  | false => exact next σ rfl rfl holds saved
  | true =>
      exact follow_store h rfl (next _ rfl (by simp [Moment.set])
        ⟨holds.behind.set le _, (getElem?_set_ne other _).trans holds.held⟩
          (getElem?_set_self room _))

/-- A list whose first item has failed is empty, if it may be. -/
theorem follow_noItems [Regex.Engine] {allowEmpty : Bool} {start out : Nat} {d' : Draft}
    {p p' : Pools} (w : (Emit.noItems allowEmpty start out).Writes d p () d' p') :
    ∀ (site : Site) (n target place : Nat) (σ : Moment) {α : Type}
      (r : Option (Except Stop (α × Store))) (post : α → Store → Machine → Prop),
      site.function.Hosts d' → site.function.labels[out]? = some target →
      σ.slots[start]? = some (.ofPos place) → place < 2 ^ 63 →
      site.Follows n target (if allowEmpty then
        { σ with status := true, result := .list p.identity [], pos := place } else σ) r post →
      site.Follows n d.code.size σ r post := by
  cases allowEmpty with
  | false =>
      obtain ⟨rfl, rfl⟩ := Emit.writes_emit.1 (w : (Emit.emit (.jump out)).Writes d p () d' p')
      intro site n target place σ _ r post code hl _ _ next
      exact follow_jump code hl next
  | true =>
      have w' : (do
          Emit.emit (.restore start)
          let empty ← Build.emptyList
          Emit.succeedWith (.const empty)
          Emit.emit (.jump out) : Emit Unit).Writes d p () d' p' := w
      rw [Emit.writes_emit_bind] at w'
      obtain ⟨v, d₁, p₁, w₁, w₂⟩ := Emit.writes_bind.1 w'
      obtain ⟨w₃, rfl⟩ := Emit.writes_lift.1 w₁
      obtain ⟨-, rfl⟩ := Build.adds_emptyList w₃
      obtain ⟨_, d₂, p₂, w₄, w₅⟩ := Emit.writes_bind.1 w₂
      obtain ⟨rfl, rfl⟩ := Emit.writes_succeedWith.1 w₄
      obtain ⟨rfl, rfl⟩ := Emit.writes_emit.1 w₅
      intro site n target place σ _ r post code hl saved small next
      exact follow_restore code.add.add.add saved small
        (follow_succeedWith code.add rfl (follow_jump code hl next))

end Site

/-- Separators and items as often as both succeed. -/
theorem Expr.Embeds.separated [Regex.Engine] {item separator : Expr} (ih : item.Embeds)
    (ih' : separator.Embeds) {flags : SepFlags} {staging : Nat} {d d' : Draft} {p p' : Pools}
    (w : (Emit.separated (Emit.within item item.emit) (Emit.within separator separator.emit) flags
      staging).Writes d p () d' p') :
    let between := separator.layoutWithin (d.stage p).entered
    let later := item.layoutWithin
      (.tested (.inside separator.behind separator (d.stage p).entered))
    Closes p p' (separator.closures p.rule between ++ item.closures p.rule later) ∧
      ∀ (site : Site) (scene : Scene) (env : Env), site.function.Hosts d' →
        site.setting.program.Hosts p' →
        scene.Fits site.setting site.memoize p.ruleFunctions p.rule →
        ∀ (d₀ : Draft) (σ : Moment) (s : Store) (id : Nat) (items : List Value),
          d.scope = d₀.scope → d₀.slots ≤ staging → staging < d.slots → site.Ready d₀ env σ s →
          site.Holds d₀.slots staging σ.slots σ s (.list id items) →
          site.Follows scene.rounds d.code.size σ
            (Reading.repeatFrom (Scene.anotherPair flags
              (fun pos => later.read scene item.freeLocals pos (item.meaning scene env later pos))
              (fun pos => between.read scene separator.freeLocals pos
                (separator.meaning scene env between pos)))
              scene.rounds (items, σ.pos) s)
            fun out s' m => ∃ σ', m = site.machine d'.code.size σ' ∧ σ'.pos = out.2 ∧
              site.Holds d₀.slots staging σ.slots σ' s' (.list id out.1) := by
  have tame := Emit.Tame.within item item.emit_tame
  have tame' := Emit.Tame.within separator separator.emit_tame
  rw [Emit.separated_eq] at w
  obtain ⟨e, d₁, scope, slots, begins, entered, w₁, hosts⟩ :=
    Emit.hosts_loop (fun _ exit => Emit.Tame.attemptPair tame tame' flags staging exit) w
  obtain ⟨back, d₂, p₂, w₂, wa⟩ := Emit.writes_bind.1 w₁
  obtain ⟨rfl, rfl, rfl⟩ := Emit.writes_checkpoint.1 w₂
  obtain ⟨_, d₃, p₃, w₃, wb⟩ := Emit.writes_bind.1 wa
  obtain ⟨_, d₄, p₄, w₄, wc⟩ := Emit.writes_bind.1 wb
  obtain ⟨retreat, rfl⟩ := Site.writes_retreat w₄
  obtain ⟨_, d₅, p₅, w₅, wd⟩ := Emit.writes_bind.1 wc
  obtain ⟨rfl, rfl⟩ := Emit.writes_emitIf.1 w₅
  obtain ⟨_, d₆, p₆, w₆, we⟩ := Emit.writes_bind.1 wd
  obtain ⟨rfl, rfl⟩ := Emit.writes_emitIf.1 w₆
  obtain ⟨_, d₇, p₇, w₇, wf⟩ := Emit.writes_bind.1 we
  obtain ⟨_, d₈, p₈, w₈, w₉⟩ := Emit.writes_bind.1 wf
  obtain ⟨rfl, rfl⟩ := Emit.writes_emit_emit.1 w₉
  obtain ⟨d₉, wg, size', hosts'⟩ := Emit.hosts_ifThen ((Emit.Tame.emitIf _ _).bind fun _ =>
    (Emit.Tame.emit _).bind fun _ => .emit _) w₈
  obtain ⟨_, d₁₀, p₁₀, wh, wi⟩ := Emit.writes_bind.1 wg
  obtain ⟨rfl, rfl⟩ := Emit.writes_emitIf.1 wh
  obtain ⟨rfl, rfl⟩ := Emit.writes_emit_emit.1 wi
  have realizes := ih' _ _ _ _ w₃
  have realizes' := ih _ _ _ _ w₇
  have pgrown := tame'.pools w₃
  rw [pgrown.rule, Draft.stage_addIf, Draft.stage_addIf, (Emit.Moves.retreatOnFailure _ _).stage w₄,
    separator.within_moves.stage w₃] at realizes'
  rw [← entered]
  refine ⟨realizes.closes.append realizes'.closes pgrown (tame.pools w₇),
    fun site scene env code pools fits d₀ σ s id items same low lt ready begun => ?_⟩
  obtain ⟨body, top, exit⟩ := hosts _ code
  rw [← begins] at top ⊢
  obtain ⟨failed, branch, passed⟩ := hosts' _ body.add.add.add
  have second := branch.add.addLabel
  have saving := second.back (tame.draft w₇)
  have keeping := Site.hosts_addIf saving
  have retreating := Site.hosts_addIf keeping
  have first := retreating.back retreat
  have start := first.back (tame'.draft w₃)
  -- Before each round the machine stands at the top of the loop, with the items so far in their
  -- slot.
  refine (Machine.Follows.repeatFrom (fun a s' m => ∃ σ', m = site.machine e.code.size σ' ∧
    σ'.pos = a.2 ∧ site.Holds d₀.slots staging σ.slots σ' s' (.list id a.1)) ?_ ⟨σ, rfl, rfl, begun⟩)
  rintro ⟨items, _⟩ s' _ ⟨σ', rfl, rfl, holds⟩
  have full : σ'.slots.size = site.function.slots := holds.behind.keeps.size.trans ready.size
  have above : e.slots < site.function.slots := start.add.slots
  have inside := holds.behind.inside
  have lower : d₀.slots ≤ e.slots := by omega
  have ready₁ : site.Ready e env σ' s' := ready.next holds.behind (scope.trans same) lower
  rw [Scene.anotherPair]
  refine Site.follow_tried (realizes.performs site scene env first (pools.back (tame.pools w₇))
    fits) (tame'.draft w₃) w₄ retreating exit fits.small ready₁ ?_ ?_
  -- The separator has been read. Whether it is kept, and whether it may trail, is settled while the
  -- code is written, so both are followed through the instructions that may be there.
  · intro σ₁ s₁ behind₁ kept₁ _
    have holds₁ := holds.part behind₁ lower (by omega)
    have full₁ : σ₁.slots.size = site.function.slots := behind₁.keeps.size.trans full
    refine Site.follow_pushIf keeping holds₁ low (by omega)
      fun σ₂ pos₂ size₂ others₂ holds₂ => ?_
    refine Site.follow_saveIf saving holds₂ (by omega) (by omega) (by omega)
      ((others₂ _ (by omega)).trans kept₁) fun σ₃ pos₃ size₃ holds₃ saved₃ => ?_
    have grown := (tame'.draft w₃).trans retreat
    have scope' : d₄.scope = d₀.scope := grown.scope.trans (scope.trans same)
    have room : e.slots + 1 ≤ d₄.slots := grown.slots
    have ready₃ : site.Ready ((d₄.addIf (!flags.discardSeparators) (.push staging .result)).addIf
        flags.allowTrailer (.store e.slots .position)) env σ₃ s₁ :=
      ready.next holds₃.behind (by simpa using scope') (by simp; omega)
    have there : σ₃.pos = σ₁.pos := pos₃.trans pos₂
    -- The items with the separator, unless it is dropped; without a trailer it is given back.
    obtain ⟨kept, pushed, meant, popped⟩ : ∃ kept : List Value,
        (if (!flags.discardSeparators) = true then items ++ [σ₁.result] else items) = kept ∧
        (if flags.discardSeparators = true then items else items ++ [σ₁.result]) = kept ∧
        (if (!flags.discardSeparators && !flags.allowTrailer) = true then kept.dropLast
          else kept) = if flags.allowTrailer = true then kept else items := by
      refine ⟨_, rfl, ?_, ?_⟩ <;> cases flags.discardSeparators <;> cases flags.allowTrailer <;>
        simp
    have inside₁ := behind₁.inside
    rw [pushed] at holds₃
    rw [pos₂] at saved₃
    dsimp only
    rw [meant, ← there]
    rw [← there] at saved₃ inside₁
    have insideBack : (if flags.allowTrailer = true then σ₃.pos else σ'.pos) ≤
        site.setting.bytes.size := by split <;> assumption
    -- From here on only the place to go back to counts, not why it is this one.
    generalize (if flags.allowTrailer = true then σ₃.pos else σ'.pos) = place
      at saved₃ insideBack ⊢
    have smallBack := Nat.lt_of_le_of_lt insideBack fits.small
    refine Site.follow_part (realizes'.performs site scene env second pools (fits.grow pgrown))
      ready₃ ?_ ?_
    -- The item has been read, too.
    · intro σ₄ s₄ behind₄ status₄
      have full₄ : σ₄.slots.size = site.function.slots := behind₄.keeps.size.trans (by omega)
      have holds₄ := holds₃.part behind₄ (by simp; omega) (by simp; omega)
      have saved₄ := (getElem?_set_ne (by omega : staging ≠ e.slots)
        (.list id (kept ++ [σ₄.result]))).trans (behind₄.kept (by simp; omega) saved₃)
      have holds₅ := holds₄.update low (by omega)
        (.list id (kept ++ [σ₄.result]))
      refine Site.follow_ifThen_success (d := Draft.addLabel _) branch passed status₄ ?_
      rw [← size']
      exact Site.follow_push body.add.add rfl holds₄.held
        (Site.follow_again body top exit saved₄ smallBack ⟨_, rfl, rfl, holds₅⟩
          ⟨_, rfl, rfl, holds₅⟩)
    -- The item has failed: the separator is given back, unless it may trail.
    · intro σ₄ s₄ mark entry behind₄ status₄ _ _
      have full₄ : σ₄.slots.size = site.function.slots := behind₄.keeps.size.trans (by omega)
      have holds₄ := holds₃.part behind₄ (by simp; omega) (by simp; omega)
      have saved₄ := behind₄.kept (by simp; omega) saved₃
      refine Site.follow_ifThen_failure (d := Draft.addLabel _) branch status₄
        (Site.follow_popIf (d := Emit.entered _) failed.add.add holds₄ low (by omega)
          fun σ₅ others₅ holds₅ => ?_)
      rw [popped] at holds₅
      exact Site.follow_restore failed.add ((others₅ _ (by omega)).trans saved₄) smallBack
        (Site.follow_jump failed exit (.pure ⟨_, rfl, rfl, holds₅.moved insideBack⟩))
  -- The separator has failed, so the rounds are over.
  · intro σ₁ s₁ entry place behind₁ pos₁
    exact .pure ⟨_, rfl, pos₁, holds.part behind₁ lower (by omega)⟩

theorem Expr.Embeds.sep [Regex.Engine] {item separator : Expr} (ih : item.Embeds)
    (ih' : separator.Embeds) (tag : Tag) (flags : SepFlags) :
    (Expr.sep tag item separator flags).Compiles := by
  intro d p d' p' w k
  rw [Expr.emit, Emit.sepOf] at w
  have tame := Emit.Tame.within item item.emit_tame
  have tame' := Emit.Tame.within separator separator.emit_tame
  obtain ⟨_, d₁, p₁, w₁, wa⟩ := Emit.writes_bind.1 w
  obtain ⟨rfl, rfl, rfl⟩ := Emit.writes_slot.1 w₁
  rw [Emit.writes_emit_bind] at wa
  have tames (out : Nat) : Emit.Tame (do
      let start ← Emit.checkpoint
      Emit.within item item.emit
      Emit.ifThen .notStatus (Emit.noItems flags.allowEmpty start out)
      Emit.emit (.push d.slots .result)
      Emit.separated (Emit.within item item.emit) (Emit.within separator separator.emit) flags
        d.slots
      Emit.succeedWith (.slot d.slots)) :=
    Emit.Tame.checkpoint.bind fun _ => tame.bind fun _ => (Emit.Tame.ifThen _ (.noItems _ _ _)).bind
      fun _ => (Emit.Tame.emit _).bind fun _ => (Emit.Tame.separated tame tame' _ _).bind
        fun _ => .succeedWith _
  obtain ⟨d₂, w₂, size, hosts⟩ := Emit.hosts_block tames wa
  obtain ⟨_, d₃, p₃, w₃, wb⟩ := Emit.writes_bind.1 w₂
  obtain ⟨rfl, rfl, rfl⟩ := Emit.writes_checkpoint.1 w₃
  obtain ⟨_, d₄, p₄, w₄, wc⟩ := Emit.writes_bind.1 wb
  obtain ⟨_, d₅, p₅, w₅, wd⟩ := Emit.writes_bind.1 wc
  rw [Emit.writes_emit_bind] at wd
  obtain ⟨_, d₆, p₆, w₆, w₇⟩ := Emit.writes_bind.1 wd
  obtain ⟨rfl, rfl⟩ := Emit.writes_succeedWith.1 w₇
  obtain ⟨d₇, w₈, size', hosts'⟩ := Emit.hosts_ifThen (.noItems _ _ _) w₅
  have follow := Site.follow_noItems w₈
  have realizes := ih _ _ _ _ w₄
  obtain ⟨closes, loop⟩ := ih.separated ih' w₆
  have pgrown := (tame.pools w₄).trans ((Emit.Tame.noItems _ _ _).pools w₈)
  have tameLoop := Emit.Tame.separated tame tame' flags d.slots
  rw [pgrown.rule] at closes
  have found : d₄.stage p₄ = .inside item.behind item (d.stage p₃).entered :=
    item.within_moves.stage w₄
  have behind := (Emit.Moves.ifThen .notStatus (.noItems _ _ _)).stage w₅
  rw [Expr.layout, ← found, ← behind]
  refine ⟨fun site scene env code pools fits σ s ready => ?_, ?_⟩
  · obtain ⟨body, exit⟩ := hosts _ code
    rw [← size] at exit
    have pushing := body.add.add.back (tameLoop.draft w₆)
    obtain ⟨none, branch, passed⟩ := hosts' _ pushing.add
    have part := branch.add.addLabel
    have start := part.back (tame.draft w₄)
    have pools₅ := pools.back (tameLoop.pools w₆)
    have pools₄ := pools₅.back ((Emit.Tame.noItems _ _ _).pools w₈)
    obtain ⟨begins, held⟩ := ready.newList start.add.addSlot.entered.addLabel.add.slots
    have ready₁ : site.Ready (Emit.entered (d.addSlot.add (.newList d.slots)).addLabel) env
        { σ.set d.slots (.list σ.identity []) with identity := σ.identity + 1 }
        { s with identity := s.identity + 1 } := ready.next begins rfl (Nat.le_succ _)
    obtain ⟨ready₂, saved⟩ := ready₁.store start (.ofPos σ.pos)
    have small := ready.small fits.small
    have grown : d.slots + 2 ≤ d₄.slots := (tame.draft w₄).slots
    have grown' := (Emit.Tame.ifThen .notStatus (.noItems _ _ _)).draft w₅
    rw [Expr.meaning, Reading.fresh_bind]
    refine Site.follow_newList (d := d.addSlot) start.add.addSlot.entered.addLabel
      (Site.follow_store (d := Draft.addSlot (Emit.entered (Draft.addLabel _))) start rfl
        (Site.follow_part (realizes.performs site scene env part pools₄ fits) ready₂ ?_ ?_))
    · intro σ₁ s₁ behind status
      have list : σ₁.slots[d.slots]? = some (.list s.identity []) :=
        behind.kept (Nat.lt_succ_of_lt (Nat.lt_succ_self _))
          ((getElem?_set_ne (Nat.succ_ne_self _) _).trans held)
      have before := behind.after.mono (Nat.le_succ d.slots)
      have keeps : Keeps d.slots σ.slots (σ₁.set d.slots (.list s.identity [σ₁.result])).slots :=
        ((Keeps.set _ (Nat.le_refl _) _).trans before.keeps).trans (.set _ (Nat.le_refl _) _)
      have room : d.slots < σ₁.slots.size := (Array.getElem?_eq_some_iff.1 list).1
      have ready₃ : site.Ready d env (σ₁.set d.slots (.list s.identity [σ₁.result])) s₁ :=
        ready.next ⟨behind.inside, keeps, ⟨behind.agrees.identity, behind.agrees.memo⟩⟩ rfl
          (Nat.le_refl _)
      refine Site.follow_ifThen_success (d := Draft.addLabel _) branch passed status ?_
      rw [← size']
      refine Site.follow_push pushing rfl list (.bind ((loop site scene env body.add.add pools
        (fits.grow pgrown) d _ s₁ s.identity [σ₁.result]
        (grown'.scope.trans (tame.draft w₄).scope) (Nat.le_refl _) ?_ ready₃
        ⟨ready₃.behind, getElem?_set_self room _⟩).mono ?_))
      · exact Nat.lt_of_lt_of_le (Nat.lt_of_succ_lt grown) grown'.slots
      · rintro ⟨items, stop⟩ s₂ _ ⟨σ₂, rfl, rfl, holds⟩
        refine Site.follow_succeedWith body (Site.frame_slot holds.held) ?_
        rw [← size]
        exact .pure (.success rfl ⟨holds.behind.inside, keeps.trans holds.behind.keeps,
          ⟨holds.behind.agrees.identity, holds.behind.agrees.memo⟩⟩)
    · intro σ₁ s₁ mark entry behind status result known
      have before := behind.after.mono (Nat.le_succ d.slots)
      have behind' : site.Behind d.slots σ.slots σ₁ s₁ :=
        ⟨behind.inside, (Keeps.set _ (Nat.le_refl _) _).trans before.keeps, behind.agrees⟩
      refine Site.follow_ifThen_failure (d := Draft.addLabel _) branch status
        (follow site scene.rounds _ σ.pos σ₁ _ _ none exit
          (behind.kept (Nat.lt_succ_self _) saved) small ?_)
      cases flags.allowEmpty with
      | true =>
          exact .pure (.success rfl (behind'.registers rfl rfl rfl ready.inside))
      | false => exact .pure (.failure status result known behind')
  · rw [Expr.closures, List.append_assoc]
    exact (realizes.closes.widen (.refl _) ((Emit.Tame.noItems _ _ _).pools w₈)).append closes
      pgrown (tameLoop.pools w₆)

end Packrat
