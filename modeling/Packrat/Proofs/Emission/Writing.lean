import Packrat.Program.Compile

/-
**What writers do.**

A writer adds instructions to the draft of a function and constants to pools.  Whether a writer
goes through, and what it leaves, is said by one relation; every part that writers are made of has
a lemma that turns the relation for the whole into that for its parts.

Main definitions:

* `Packrat.Build.Adds`, `Packrat.Emit.Writes` — what a writer leaves;
* `Packrat.Draft.add`, `Packrat.Draft.place` — a draft with one more instruction, and with a label
  put before the next one.

Main results:

* `Packrat.Emit.writes_bind`, `Packrat.Emit.writes_lift` — a writer after another, and a writer of
  constants;
* `Packrat.Emit.writes_ifThen`, `Packrat.Emit.writes_loop`, `Packrat.Emit.writes_block` — control
  flow.
-/

set_option autoImplicit false

namespace Packrat

/-- A draft with one more instruction. -/
def Draft.add (d : Draft) (i : Instr) : Draft := { d with code := d.code.push i }

/-- A draft with one more slot. -/
def Draft.addSlot (d : Draft) : Draft := { d with slots := d.slots + 1 }

/-- A draft with one more label, which has no place yet. -/
def Draft.addLabel (d : Draft) : Draft := { d with labels := d.labels.push none }

/-- A draft with a label before the next instruction. -/
def Draft.place (d : Draft) (label : Nat) : Draft :=
  { d with labels := d.labels.setIfInBounds label (some d.code.size) }

namespace Build

variable {α β : Type}

/-- A writer of constants goes through and leaves the given pools. -/
def Adds (x : Build α) (p : Pools) (a : α) (p' : Pools) : Prop := x p = .ok (a, p')

theorem adds_pure {a b : α} {p p' : Pools} :
    (pure a : Build α).Adds p b p' ↔ b = a ∧ p' = p := by
  change Except.ok (a, p) = _ ↔ _
  simp only [Except.ok.injEq, Prod.mk.injEq, eq_comm]

theorem adds_bind {x : Build α} {f : α → Build β} {p p' : Pools} {b : β} :
    (x >>= f).Adds p b p' ↔ ∃ a p₁, x.Adds p a p₁ ∧ (f a).Adds p₁ b p' := by
  unfold Adds
  change (x p >>= fun r => f r.1 r.2) = _ ↔ _
  cases x p with
  | error e => simp [bind, Except.bind]
  | ok r =>
      constructor
      · intro h
        exact ⟨r.1, r.2, rfl, h⟩
      · rintro ⟨a, p₁, ⟨⟩, h⟩
        exact h

theorem adds_mapM_cons {γ : Type} {f : γ → Build α} {x : γ} {xs : List γ} {p p' : Pools} {as : List α} :
    ((x :: xs).mapM f).Adds p as p' ↔
      ∃ a p₁ rest, (f x).Adds p a p₁ ∧ (xs.mapM f).Adds p₁ rest p' ∧ as = a :: rest := by
  rw [List.mapM_cons]
  constructor
  · intro h
    obtain ⟨a, p₁, first, h⟩ := adds_bind.1 h
    obtain ⟨rest, p₂, others, h⟩ := adds_bind.1 h
    obtain ⟨rfl, rfl⟩ := adds_pure.1 h
    exact ⟨a, p₁, rest, first, others, rfl⟩
  · rintro ⟨a, p₁, rest, first, others, rfl⟩
    exact adds_bind.2 ⟨a, p₁, first, adds_bind.2 ⟨rest, p', others, adds_pure.2 ⟨rfl, rfl⟩⟩⟩

theorem adds_get_bind {f : Pools → Build β} {p p' : Pools} {b : β} :
    (get >>= f : Build β).Adds p b p' ↔ (f p).Adds p b p' := Iff.rfl

theorem adds_set_bind {q : Pools} {f : PUnit → Build β} {p p' : Pools} {b : β} :
    (set q >>= f : Build β).Adds p b p' ↔ (f ⟨⟩).Adds q b p' := Iff.rfl

theorem adds_modify {f : Pools → Pools} {p p' : Pools} {a : PUnit} :
    (modify f : Build PUnit).Adds p a p' ↔ p' = f p := by
  change Except.ok (PUnit.unit, f p) = _ ↔ _
  simp only [Except.ok.injEq, Prod.mk.injEq, eq_comm, true_and]

theorem adds_lift {x : Except Failure α} {p p' : Pools} {a : α} :
    (liftM x : Build α).Adds p a p' ↔ x = .ok a ∧ p' = p := by
  unfold Adds
  change (x >>= fun b => Except.ok (b, p)) = _ ↔ _
  cases x with
  | error e => simp [bind, Except.bind]
  | ok b => simp [bind, Except.bind, eq_comm]

theorem not_adds_fault {f : Fault} {p p' : Pools} {a : α} :
    ¬ (liftM (fault f : Except Failure α) : Build α).Adds p a p' := by
  rw [adds_lift]
  simp [fault]

end Build

namespace Emit

variable {α β : Type}

/-- A writer goes through and leaves the given draft and pools. -/
def Writes (x : Emit α) (d : Draft) (p : Pools) (a : α) (d' : Draft) (p' : Pools) : Prop :=
  x d p = .ok ((a, d'), p')

variable {d d' : Draft} {p p' : Pools}

theorem writes_pure {a b : α} :
    (pure a : Emit α).Writes d p b d' p' ↔ b = a ∧ d' = d ∧ p' = p := by
  change Except.ok ((a, d), p) = _ ↔ _
  simp only [Except.ok.injEq, Prod.mk.injEq, eq_comm, and_assoc]

theorem writes_bind {x : Emit α} {f : α → Emit β} {b : β} :
    (x >>= f).Writes d p b d' p' ↔
      ∃ a d₁ p₁, x.Writes d p a d₁ p₁ ∧ (f a).Writes d₁ p₁ b d' p' := by
  unfold Writes
  change (x d p >>= fun r => f r.1.1 r.1.2 r.2) = _ ↔ _
  cases x d p with
  | error e => simp [bind, Except.bind]
  | ok r =>
      constructor
      · intro h
        exact ⟨r.1.1, r.1.2, r.2, rfl, h⟩
      · rintro ⟨a, d₁, p₁, ⟨⟩, h⟩
        exact h

theorem writes_get_bind {f : Draft → Emit β} {b : β} :
    (get >>= f : Emit β).Writes d p b d' p' ↔ (f d).Writes d p b d' p' := Iff.rfl

theorem writes_modify {f : Draft → Draft} {a : PUnit} :
    (modify f : Emit PUnit).Writes d p a d' p' ↔ d' = f d ∧ p' = p := by
  change Except.ok ((PUnit.unit, f d), p) = _ ↔ _
  simp only [Except.ok.injEq, Prod.mk.injEq, eq_comm, true_and]

theorem writes_lift {x : Build α} {a : α} :
    (liftM x : Emit α).Writes d p a d' p' ↔ x.Adds p a p' ∧ d' = d := by
  unfold Writes Build.Adds
  change (x p >>= fun r => Except.ok ((r.1, d), r.2)) = _ ↔ _
  cases x p with
  | error e => simp [bind, Except.bind]
  | ok r =>
      obtain ⟨b, p₁⟩ := r
      simp only [bind, Except.bind, Except.ok.injEq, Prod.mk.injEq]
      constructor
      · rintro ⟨⟨rfl, rfl⟩, rfl⟩
        exact ⟨⟨rfl, rfl⟩, rfl⟩
      · rintro ⟨⟨rfl, rfl⟩, rfl⟩
        exact ⟨⟨rfl, rfl⟩, rfl⟩

theorem not_writes_fault {f : Fault} {a : α} :
    ¬ (liftM (fault f : Except Failure α) : Emit α).Writes d p a d' p' := by
  change ¬ (liftM (liftM (fault f : Except Failure α) : Build α) : Emit α).Writes d p a d' p'
  rw [writes_lift]
  exact fun h => Build.not_adds_fault h.1

/-! ### Instructions, slots, labels and names -/

theorem writes_emit {i : Instr} {u : Unit} :
    (emit i).Writes d p u d' p' ↔ d' = d.add i ∧ p' = p := writes_modify

theorem writes_slot {v : Nat} :
    slot.Writes d p v d' p' ↔ v = d.slots ∧ d' = d.addSlot ∧ p' = p := by
  change Except.ok ((d.slots, d.addSlot), p) = _ ↔ _
  simp only [Except.ok.injEq, Prod.mk.injEq, eq_comm, and_assoc]

theorem writes_label {l : Nat} :
    label.Writes d p l d' p' ↔ l = d.labels.size ∧ d' = d.addLabel ∧ p' = p := by
  change Except.ok ((d.labels.size, d.addLabel), p) = _ ↔ _
  simp only [Except.ok.injEq, Prod.mk.injEq, eq_comm, and_assoc]

theorem writes_mark {l : Nat} {u : Unit} :
    (mark l).Writes d p u d' p' ↔ d' = d.place l ∧ p' = p := writes_modify

theorem writes_lookup {name : String} {v : Nat} :
    (lookup name).Writes d p v d' p' ↔ d.scope.lookup name = some v ∧ d' = d ∧ p' = p := by
  simp only [lookup, writes_get_bind]
  cases d.scope.lookup name with
  | none => simp [not_writes_fault]
  | some w => simp [writes_pure, eq_comm]

theorem writes_lookupAll {names : List String} {vs : List Nat} :
    (lookupAll names).Writes d p vs d' p' ↔
      names.mapM (fun n => d.scope.lookup n) = some vs ∧ d' = d ∧ p' = p := by
  induction names generalizing vs d d' p p' with
  | nil =>
      simp only [lookupAll, writes_pure, List.mapM_nil]
      constructor
      · rintro ⟨rfl, h⟩
        exact ⟨rfl, h⟩
      · rintro ⟨h, hd⟩
        exact ⟨(Option.some.inj h).symm, hd⟩
  | cons n names ih =>
      simp only [lookupAll, writes_bind, writes_lookup, ih, writes_pure, List.mapM_cons,
        Option.bind_eq_bind, Option.bind_eq_some_iff, Option.pure_def, Option.some.injEq]
      constructor
      · rintro ⟨v, _, _, ⟨hv, rfl, rfl⟩, vs, _, _, ⟨hvs, rfl, rfl⟩, rfl, rfl, rfl⟩
        exact ⟨⟨v, hv, vs, hvs, rfl⟩, rfl, rfl⟩
      · rintro ⟨⟨v, hv, vs, hvs, rfl⟩, rfl, rfl⟩
        exact ⟨v, _, _, ⟨hv, rfl, rfl⟩, vs, _, _, ⟨hvs, rfl, rfl⟩, rfl, rfl, rfl⟩

theorem writes_bindName {name : String} {v : Nat} {u : Unit} :
    (bindName name v).Writes d p u d' p' ↔
      d' = { d with scope := (name, v) :: d.scope } ∧ p' = p := writes_modify

theorem writes_inScope {body : Emit α} {a : α} :
    (inScope body).Writes d p a d' p' ↔
      ∃ d₁, body.Writes d p a d₁ p' ∧ d' = { d₁ with scope := d.scope } := by
  rw [inScope, writes_get_bind]
  simp only [writes_bind, writes_modify, writes_pure]
  constructor
  · rintro ⟨x, d₁, p₁, hx, _, _, _, ⟨rfl, rfl⟩, rfl, rfl, rfl⟩
    exact ⟨d₁, hx, rfl⟩
  · rintro ⟨d₁, hx, rfl⟩
    exact ⟨a, d₁, _, hx, (), _, _, ⟨rfl, rfl⟩, rfl, rfl, rfl⟩

/-! ### Control flow -/

/-- A draft inside of a block. -/
def entered (d : Draft) : Draft := { d with blocksLeft := d.blocksLeft - 1 }

/-- A draft behind a block. -/
def left (d : Draft) : Draft := { d with blocksLeft := d.blocksLeft + 1 }

theorem writes_nested {body : Emit α} {a : α} :
    (nested body).Writes d p a d' p' ↔
      ∃ d₁, body.Writes (entered d) p a d₁ p' ∧ d' = left d₁ := by
  simp only [nested, writes_bind, writes_modify, writes_pure]
  constructor
  · rintro ⟨_, _, _, ⟨rfl, rfl⟩, x, d₁, p₁, hx, _, _, _, ⟨rfl, rfl⟩, rfl, rfl, rfl⟩
    exact ⟨d₁, hx, rfl⟩
  · rintro ⟨d₁, hx, rfl⟩
    exact ⟨(), _, _, ⟨rfl, rfl⟩, a, d₁, _, hx, (), _, _, ⟨rfl, rfl⟩, rfl, rfl, rfl⟩

theorem writes_ifThen {c : Condition} {body : Emit Unit} {u : Unit} :
    (ifThen c body).Writes d p u d' p' ↔
      ∃ d₁, body.Writes (entered (d.addLabel.add (.branch c.negate d.labels.size))) p () d₁ p' ∧
        d' = (left d₁).place d.labels.size := by
  simp only [ifThen, writes_bind, writes_label, writes_emit, writes_nested, writes_mark]
  constructor
  · rintro ⟨_, _, _, ⟨rfl, rfl, rfl⟩, _, _, _, ⟨rfl, rfl⟩, _, _, _, ⟨d₁, h, rfl⟩, rfl, rfl⟩
    exact ⟨d₁, h, rfl⟩
  · rintro ⟨d₁, h, rfl⟩
    exact ⟨_, _, _, ⟨rfl, rfl, rfl⟩, (), _, _, ⟨rfl, rfl⟩, (), _, _, ⟨d₁, h, rfl⟩, rfl, rfl⟩

theorem writes_ifElse {c : Condition} {thenPart elsePart : Emit Unit} {u : Unit} :
    (ifElse c thenPart elsePart).Writes d p u d' p' ↔
      ∃ d₁ p₁ d₂,
        thenPart.Writes (entered (d.addLabel.addLabel.add (.branch c.negate d.labels.size))) p ()
          d₁ p₁ ∧
        elsePart.Writes ((d₁.add (.jump (d.labels.size + 1))).place d.labels.size) p₁ () d₂ p' ∧
        d' = (left d₂).place (d.labels.size + 1) := by
  have size : d.addLabel.labels.size = d.labels.size + 1 := by simp [Draft.addLabel]
  simp only [ifElse, writes_bind, writes_label, writes_emit, writes_nested, writes_mark]
  constructor
  · rintro ⟨_, _, _, ⟨rfl, rfl, rfl⟩, _, _, _, ⟨rfl, rfl, rfl⟩, _, _, _, ⟨rfl, rfl⟩, _, _, _,
      ⟨d₂, ⟨_, d₁, p₁, h₁, _, _, _, ⟨rfl, rfl⟩, _, _, _, ⟨rfl, rfl⟩, h₂⟩, rfl⟩, rfl, rfl⟩
    rw [size] at h₂
    exact ⟨d₁, _, d₂, h₁, h₂, by rw [size]⟩
  · rintro ⟨d₁, p₁, d₂, h₁, h₂, rfl⟩
    rw [← size] at h₂
    exact ⟨_, _, _, ⟨rfl, rfl, rfl⟩, _, _, _, ⟨rfl, rfl, rfl⟩, (), _, _, ⟨rfl, rfl⟩, (), _, _,
      ⟨d₂, ⟨(), d₁, p₁, h₁, (), _, _, ⟨rfl, rfl⟩, (), _, _, ⟨rfl, rfl⟩, h₂⟩, rfl⟩,
      by rw [size], rfl⟩

theorem writes_loop {body : Nat → Nat → Emit Unit} {u : Unit} :
    (loop body).Writes d p u d' p' ↔
      ∃ d₁, (body d.labels.size (d.labels.size + 1)).Writes
          (entered (d.addLabel.addLabel.place d.labels.size)) p () d₁ p' ∧
        d' = ((left d₁).add (.jump d.labels.size)).place (d.labels.size + 1) := by
  have size : d.addLabel.labels.size = d.labels.size + 1 := by simp [Draft.addLabel]
  simp only [loop, writes_bind, writes_label, writes_emit, writes_nested, writes_mark]
  constructor
  · rintro ⟨_, _, _, ⟨rfl, rfl, rfl⟩, _, _, _, ⟨rfl, rfl, rfl⟩, _, _, _, ⟨rfl, rfl⟩, _, _, _,
      ⟨d₁, h, rfl⟩, _, _, _, ⟨rfl, rfl⟩, rfl, rfl⟩
    rw [size] at h
    exact ⟨d₁, h, by rw [size]⟩
  · rintro ⟨d₁, h, rfl⟩
    rw [← size] at h
    exact ⟨_, _, _, ⟨rfl, rfl, rfl⟩, _, _, _, ⟨rfl, rfl, rfl⟩, (), _, _, ⟨rfl, rfl⟩, (), _, _,
      ⟨d₁, h, rfl⟩, (), _, _, ⟨rfl, rfl⟩, by rw [size], rfl⟩

theorem writes_block {body : Nat → Emit Unit} {u : Unit} :
    (block body).Writes d p u d' p' ↔
      ∃ d₁, (body d.labels.size).Writes (entered d.addLabel) p () d₁ p' ∧
        d' = (left d₁).place d.labels.size := by
  simp only [block, writes_bind, writes_label, writes_nested, writes_mark]
  constructor
  · rintro ⟨_, _, _, ⟨rfl, rfl, rfl⟩, _, _, _, ⟨d₁, h, rfl⟩, rfl, rfl⟩
    exact ⟨d₁, h, rfl⟩
  · rintro ⟨d₁, h, rfl⟩
    exact ⟨_, _, _, ⟨rfl, rfl, rfl⟩, (), _, _, ⟨d₁, h, rfl⟩, rfl, rfl⟩

/-! ### Small parts -/

theorem writes_storeResult {v : Nat} :
    storeResult.Writes d p v d' p' ↔
      v = d.slots ∧ d' = d.addSlot.add (.store d.slots .result) ∧ p' = p := by
  simp only [storeResult, writes_bind, writes_slot, writes_emit, writes_pure]
  constructor
  · rintro ⟨_, _, _, ⟨rfl, rfl, rfl⟩, _, _, _, ⟨rfl, rfl⟩, rfl, rfl, rfl⟩
    exact ⟨rfl, rfl, rfl⟩
  · rintro ⟨rfl, rfl, rfl⟩
    exact ⟨_, _, _, ⟨rfl, rfl, rfl⟩, (), _, _, ⟨rfl, rfl⟩, rfl, rfl, rfl⟩

theorem writes_checkpoint {v : Nat} :
    checkpoint.Writes d p v d' p' ↔
      v = d.slots ∧ d' = d.addSlot.add (.store d.slots .position) ∧ p' = p := by
  simp only [checkpoint, writes_bind, writes_slot, writes_emit, writes_pure]
  constructor
  · rintro ⟨_, _, _, ⟨rfl, rfl, rfl⟩, _, _, _, ⟨rfl, rfl⟩, rfl, rfl, rfl⟩
    exact ⟨rfl, rfl, rfl⟩
  · rintro ⟨rfl, rfl, rfl⟩
    exact ⟨_, _, _, ⟨rfl, rfl, rfl⟩, (), _, _, ⟨rfl, rfl⟩, rfl, rfl, rfl⟩

/-- Two instructions. -/
theorem writes_emit_emit {i j : Instr} {u : Unit} :
    (do emit i; emit j : Emit Unit).Writes d p u d' p' ↔ d' = (d.add i).add j ∧ p' = p := by
  simp only [writes_bind, writes_emit]
  constructor
  · rintro ⟨_, _, _, ⟨rfl, rfl⟩, rfl, rfl⟩
    exact ⟨rfl, rfl⟩
  · rintro ⟨rfl, rfl⟩
    exact ⟨(), _, _, ⟨rfl, rfl⟩, rfl, rfl⟩

/-- An instruction before something else. -/
theorem writes_emit_bind {i : Instr} {k : Unit → Emit α} {a : α} :
    (emit i >>= k).Writes d p a d' p' ↔ (k ()).Writes (d.add i) p a d' p' := by
  rw [writes_bind]
  constructor
  · rintro ⟨_, _, _, h, h'⟩
    obtain ⟨rfl, rfl⟩ := writes_emit.1 h
    exact h'
  · exact fun h => ⟨(), _, _, writes_emit.2 ⟨rfl, rfl⟩, h⟩

theorem writes_succeedWith {value : Operand} {u : Unit} :
    (succeedWith value).Writes d p u d' p' ↔
      d' = (d.add (.load value)).add (.setStatus true) ∧ p' = p := writes_emit_emit

theorem writes_leaveOnFailure {exit : Nat} {u : Unit} :
    (leaveOnFailure exit).Writes d p u d' p' ↔ d' = d.add (.branch .notStatus exit) ∧ p' = p :=
  writes_emit

/-! ### Alternatives -/

variable [Regex.Engine]

/-- An alternative and those behind it, from the place where they begin on. -/
def tried (back farPos farErr exit : Nat) (e : Expr) (es : List Expr) : Emit Unit := do
  within e e.emit
  if e.alwaysSucceeds then emit (.jump exit)
  else do
    emit (.branch .status exit)
    keepFarthest e.isFail farPos farErr
    emitAlternatives back farPos farErr exit false es

variable {back farPos farErr exit : Nat} {e : Expr} {es : List Expr}

theorem alternatives_first :
    emitAlternatives back farPos farErr exit true (e :: es) = tried back farPos farErr exit e es := by
  rw [emitAlternatives]
  rfl

/-- Behind the first alternative the code goes back before it tries the next one. -/
theorem alternatives_next : emitAlternatives back farPos farErr exit false (e :: es) =
    (emit (.restore back) >>= fun _ => tried back farPos farErr exit e es) := by
  rw [emitAlternatives]
  rfl

/-- Behind an alternative that always succeeds nothing is written. -/
theorem writes_tried_always {u : Unit} (always : e.alwaysSucceeds = true) :
    (tried back farPos farErr exit e es).Writes d p u d' p' ↔
      ∃ d₁, (within e e.emit).Writes d p () d₁ p' ∧ d' = d₁.add (.jump exit) := by
  simp only [tried, always, if_true, writes_bind, writes_emit]
  constructor
  · rintro ⟨_, d₁, _, h, rfl, rfl⟩
    exact ⟨d₁, h, rfl⟩
  · rintro ⟨d₁, h, rfl⟩
    exact ⟨(), d₁, _, h, rfl, rfl⟩

theorem writes_tried {u : Unit} (may : ¬e.alwaysSucceeds = true) :
    (tried back farPos farErr exit e es).Writes d p u d' p' ↔
      ∃ d₁ p₁ d₂ p₂, (within e e.emit).Writes d p () d₁ p₁ ∧
        (keepFarthest e.isFail farPos farErr).Writes (d₁.add (.branch .status exit)) p₁ () d₂ p₂ ∧
        (emitAlternatives back farPos farErr exit false es).Writes d₂ p₂ u d' p' := by
  rw [tried, if_neg may, writes_bind]
  constructor
  · rintro ⟨_, d₁, p₁, h, rest⟩
    obtain ⟨_, d₂, p₂, h', rest⟩ := writes_bind.1 (writes_emit_bind.1 rest)
    exact ⟨d₁, p₁, d₂, p₂, h, h', rest⟩
  · rintro ⟨d₁, p₁, d₂, p₂, h, h', rest⟩
    exact ⟨(), d₁, p₁, h, writes_emit_bind.2 (writes_bind.2 ⟨(), d₂, p₂, h', rest⟩)⟩

end Emit

end Packrat
