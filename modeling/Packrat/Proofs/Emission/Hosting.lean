import Packrat.Proofs.Emission.Stages

/-
**Where drafts and pools end up.**

A finished function contains the draft that it was made from, and with it every draft that this one
has grown from; likewise a program and pools.  So what is known of the finished function can be
traced back through its writers, and a writer of control flow is taken apart into its body and the
places of its labels.

Main definitions:

* `Packrat.Function.Hosts` — a finished function that contains a draft;
* `Packrat.Program.Hosts` — a program that contains pools.

Main results:

* `Packrat.Function.Hosts.back`, `Packrat.Program.Hosts.back` — what contains a draft, or pools,
  contains what they have grown from;
* `Packrat.Emit.hosts_ifThen`, `Packrat.Emit.hosts_loop`, `Packrat.Emit.hosts_block` — control flow
  in a finished function.
-/

set_option autoImplicit false

namespace Packrat

/-! ### Functions that contain drafts -/

/-- A finished function that contains a draft: its code, its slots, and the labels placed in it. -/
structure Function.Hosts (f : Function) (d : Draft) : Prop where
  code : Extends d.code f.code
  slots : d.slots ≤ f.slots
  labels : ∀ (l pc : Nat), d.labels[l]? = some (some pc) → f.labels[l]? = some pc

namespace Function.Hosts

variable {f : Function} {d d' : Draft}

theorem back (h : f.Hosts d') (grown : d.Grows d') : f.Hosts d where
  code := grown.code.trans h.code
  slots := Nat.le_trans grown.slots h.slots
  labels l pc hl := by
    obtain ⟨hlt, -⟩ := Array.getElem?_eq_some_iff.1 hl
    exact h.labels l pc ((grown.placed l hlt).trans hl)

/-- The scope and the budget of a draft do not show in the function. -/
theorem congr (h : f.Hosts d') (code : d'.code = d.code) (slots : d'.slots = d.slots)
    (labels : d'.labels = d.labels) : f.Hosts d where
  code := code ▸ h.code
  slots := slots ▸ h.slots
  labels := labels ▸ h.labels

/-- Growth up to the scope is enough to go back. -/
theorem backLoose (h : f.Hosts d') (grown : d.Grows { d' with scope := d.scope }) :
    f.Hosts d := by
  have same : f.Hosts { d' with scope := d.scope } := h.congr rfl rfl rfl
  exact same.back grown

theorem left (h : f.Hosts (Emit.left d)) : f.Hosts d := h.congr rfl rfl rfl

theorem entered (h : f.Hosts (Emit.entered d)) : f.Hosts d := h.congr rfl rfl rfl

theorem instr {i : Instr} (h : f.Hosts (d.add i)) : f.code[d.code.size]? = some i := h.code.of_push

theorem add {i : Instr} (h : f.Hosts (d.add i)) : f.Hosts d := h.back (d.grows_add i)

theorem addSlot (h : f.Hosts d.addSlot) : f.Hosts d := h.back d.grows_addSlot

theorem addLabel (h : f.Hosts d.addLabel) : f.Hosts d := h.back d.grows_addLabel

/-- A label without a place may be placed. -/
theorem unplace {l : Nat} (h : f.Hosts (d.place l)) (unplaced : d.labels[l]? = some none) :
    f.Hosts d ∧ f.labels[l]? = some d.code.size := by
  obtain ⟨hlt, -⟩ := Array.getElem?_eq_some_iff.1 unplaced
  refine ⟨⟨h.code, h.slots, fun k pc hk => h.labels k pc ?_⟩, h.labels l _ ?_⟩
  · have : l ≠ k := by
      rintro rfl
      rw [unplaced] at hk
      simp at hk
    simp only [Draft.place, Array.getElem?_setIfInBounds]
    rw [if_neg this, hk]
  · simp [Draft.place, hlt]

end Function.Hosts

/-! ### Finished functions -/

theorem getElem?_placed {name : String} {k l pc : Nat} {places : List (Option Nat)}
    {out : List Nat} (h : placed name k places = .ok out) (hl : places[l]? = some (some pc)) :
    out[l]? = some pc := by
  induction places generalizing k l out with
  | nil => simp at hl
  | cons place places ih =>
      cases place with
      | none => simp [placed, fault] at h
      | some place =>
          simp only [placed, bind, Except.bind] at h
          split at h
          · simp at h
          · next rest hr =>
              obtain rfl : place :: rest = out := by simpa [pure, Except.pure] using h
              cases l with
              | zero => simpa using hl
              | succ l => simpa using ih hr (by simpa using hl)

namespace Draft

variable {d : Draft} {f : Packrat.Function}

theorem function_eq_ok (h : d.function = .ok f) :
    f.Hosts d ∧ f.name = d.name ∧ f.params = d.params ∧ f.slots = d.slots ∧
      f.code[d.code.size]? = some .ret := by
  simp only [Draft.function, bind, Except.bind] at h
  split at h
  · simp at h
  · next labels hl =>
      obtain rfl : _ = f := by simpa [pure, Except.pure] using h
      refine ⟨⟨.push _ _, Nat.le_refl _, fun l pc hp => ?_⟩, rfl, rfl, rfl, by simp⟩
      simpa using getElem?_placed hl (by simpa using hp)

end Draft

/-! ### Control flow -/

namespace Emit

variable {d d' : Draft} {p p' : Pools} {u : Unit}

/-- A label that is new when a draft begins to grow has no place yet. -/
theorem unplaced_of_grows {l : Nat} (grown : d.Grows d') (hl : d.labels[l]? = some none) :
    d'.labels[l]? = some none := by
  obtain ⟨hlt, -⟩ := Array.getElem?_eq_some_iff.1 hl
  exact (grown.placed l hlt).trans hl

theorem newest_unplaced (d : Draft) : d.addLabel.labels[d.labels.size]? = some none := by
  simp [Draft.addLabel]

theorem second_unplaced (d : Draft) :
    d.addLabel.addLabel.labels[d.labels.size + 1]? = some none := by
  rw [← d.size_labels_addLabel]
  exact newest_unplaced d.addLabel

theorem first_unplaced (d : Draft) : d.addLabel.addLabel.labels[d.labels.size]? = some none :=
  unplaced_of_grows d.addLabel.grows_addLabel (newest_unplaced d)

theorem hosts_ifThen [Regex.Engine] {c : Condition} {body : Emit Unit} (tame : body.Tame)
    (w : (ifThen c body).Writes d p u d' p') :
    ∃ d₁, body.Writes (entered (d.addLabel.add (.branch c.negate d.labels.size))) p () d₁ p' ∧
      d'.code.size = d₁.code.size ∧ ∀ f : Function, f.Hosts d' →
        f.Hosts d₁ ∧ f.Hosts (d.addLabel.add (.branch c.negate d.labels.size)) ∧
          f.labels[d.labels.size]? = some d₁.code.size := by
  obtain ⟨d₁, w₁, rfl⟩ := writes_ifThen.1 w
  have unplaced : d₁.labels[d.labels.size]? = some none :=
    unplaced_of_grows (tame.draft w₁) (newest_unplaced d)
  refine ⟨d₁, w₁, rfl, fun f h => ?_⟩
  obtain ⟨hosts, placed⟩ := h.unplace unplaced
  exact ⟨hosts.left, (hosts.left.back (tame.draft w₁)).entered, placed⟩

theorem hosts_ifElse [Regex.Engine] {c : Condition} {thenPart elsePart : Emit Unit}
    (tame : thenPart.Tame) (tame' : elsePart.Tame)
    (w : (ifElse c thenPart elsePart).Writes d p u d' p') : ∃ d₁ p₁ d₂,
      thenPart.Writes (entered (d.addLabel.addLabel.add (.branch c.negate d.labels.size))) p ()
        d₁ p₁ ∧
      elsePart.Writes ((d₁.add (.jump (d.labels.size + 1))).place d.labels.size) p₁ () d₂ p' ∧
      d'.code.size = d₂.code.size ∧ ∀ f : Function, f.Hosts d' →
        f.Hosts d₂ ∧ f.Hosts (d₁.add (.jump (d.labels.size + 1))) ∧
          f.Hosts (d.addLabel.addLabel.add (.branch c.negate d.labels.size)) ∧
          f.labels[d.labels.size]? = some (d₁.add (.jump (d.labels.size + 1))).code.size ∧
          f.labels[d.labels.size + 1]? = some d₂.code.size := by
  obtain ⟨d₁, p₁, d₂, w₁, w₂, rfl⟩ := writes_ifElse.1 w
  have first : d₁.labels[d.labels.size]? = some none :=
    unplaced_of_grows (tame.draft w₁) (first_unplaced d)
  have second : d₁.labels[d.labels.size + 1]? = some none :=
    unplaced_of_grows (tame.draft w₁) (second_unplaced d)
  have behind : ((d₁.add (.jump (d.labels.size + 1))).place d.labels.size).labels[
      d.labels.size + 1]? = some none := by
    simpa [Draft.place, Array.getElem?_setIfInBounds] using second
  have exit : d₂.labels[d.labels.size + 1]? = some none :=
    unplaced_of_grows (tame'.draft w₂) behind
  refine ⟨d₁, p₁, d₂, w₁, w₂, rfl, fun f h => ?_⟩
  obtain ⟨hosts, placed⟩ := h.unplace exit
  obtain ⟨hosts', placed'⟩ := (hosts.left.back (tame'.draft w₂)).unplace first
  exact ⟨hosts.left, hosts', (hosts'.add.back (tame.draft w₁)).entered, placed', placed⟩

/-- The body of a loop begins in a draft that differs in its labels and its budget only. -/
theorem hosts_loop [Regex.Engine] {body : Nat → Nat → Emit Unit}
    (tame : ∀ top exit, (body top exit).Tame) (w : (loop body).Writes d p u d' p') :
    ∃ d₁ d₂, d₁.scope = d.scope ∧ d₁.slots = d.slots ∧ d₁.code.size = d.code.size ∧
      d₁.stage p = (d.stage p).entered ∧
      (body d.labels.size (d.labels.size + 1)).Writes d₁ p () d₂ p' ∧ ∀ f : Function, f.Hosts d' →
        f.Hosts (d₂.add (.jump d.labels.size)) ∧ f.labels[d.labels.size]? = some d.code.size ∧
          f.labels[d.labels.size + 1]? = some d'.code.size := by
  obtain ⟨d₁, w₁, rfl⟩ := writes_loop.1 w
  have start : (d.addLabel.addLabel.place d.labels.size).labels[d.labels.size + 1]? =
      some none := by
    simpa [Draft.place, Array.getElem?_setIfInBounds] using second_unplaced d
  have top : (d.addLabel.addLabel.place d.labels.size).labels[d.labels.size]? =
      some (some d.code.size) := by
    have := (Array.getElem?_eq_some_iff.1 (first_unplaced d)).1
    simp only [Draft.place, Array.getElem?_setIfInBounds, if_pos this, if_true]
    rfl
  have exit : d₁.labels[d.labels.size + 1]? = some none :=
    unplaced_of_grows ((tame _ _).draft w₁) start
  refine ⟨entered (d.addLabel.addLabel.place d.labels.size), d₁, rfl, rfl, rfl, rfl, w₁,
    fun f h => ?_⟩
  obtain ⟨hosts, placed⟩ := h.unplace exit
  exact ⟨hosts.congr rfl rfl rfl,
    ((hosts.add (d := left d₁)).left.back ((tame _ _).draft w₁)).labels _ _ top, placed⟩

theorem hosts_block [Regex.Engine] {body : Nat → Emit Unit} (tame : ∀ exit, (body exit).Tame)
    (w : (block body).Writes d p u d' p') :
    ∃ d₁, (body d.labels.size).Writes (entered d.addLabel) p () d₁ p' ∧
      d'.code.size = d₁.code.size ∧ ∀ f : Function, f.Hosts d' →
        f.Hosts d₁ ∧ f.labels[d.labels.size]? = some d₁.code.size := by
  obtain ⟨d₁, w₁, rfl⟩ := writes_block.1 w
  have exit : d₁.labels[d.labels.size]? = some none :=
    unplaced_of_grows ((tame _).draft w₁) (newest_unplaced d)
  refine ⟨d₁, w₁, rfl, fun f h => ?_⟩
  obtain ⟨hosts, placed⟩ := h.unplace exit
  exact ⟨hosts.left, placed⟩

theorem hosts_inScope {α : Type} {body : Emit α} {a : α} (w : (inScope body).Writes d p a d' p') :
    ∃ d₁, body.Writes d p a d₁ p' ∧ d'.code.size = d₁.code.size ∧
      ∀ f : Function, f.Hosts d' → f.Hosts d₁ := by
  obtain ⟨d₁, w₁, rfl⟩ := writes_inScope.1 w
  exact ⟨d₁, w₁, rfl, fun f h => h.congr rfl rfl rfl⟩

end Emit

/-! ### Programs that contain pools -/

/-- A program that contains pools; functions that have not been written yet say nothing. -/
structure Program.Hosts (program : Program) (p : Pools) : Prop where
  literals : Extends p.literals program.literals
  regexes : Extends p.regexes program.regexes
  hosts : Extends p.hosts program.hosts
  classes : Extends p.classes program.classes
  failures : Extends p.failures program.failures
  functions : ∀ (n : Nat) (f : Function), p.functions[n]? = some (some f) →
    program.functions[n]? = some f

namespace Program.Hosts

variable {program : Program} {p p' : Pools}

theorem back [Regex.Engine] (h : program.Hosts p') (grown : p.Grows p') : program.Hosts p where
  literals := grown.literals.trans h.literals
  regexes := grown.regexes.trans h.regexes
  hosts := grown.hosts.trans h.hosts
  classes := grown.classes.trans h.classes
  failures := grown.failures.trans h.failures
  functions n f hn := by
    obtain ⟨hlt, -⟩ := Array.getElem?_eq_some_iff.1 hn
    exact h.functions n f ((grown.written n hlt).trans hn)

end Program.Hosts

theorem Pools.grows_reserve [Regex.Engine] (p : Pools) : p.Grows
    { p with functions := p.functions.push none } :=
  { Pools.Grows.refl p with
    functions := by simp
    written := fun f hf => by simp [Array.getElem?_push, Nat.ne_of_lt hf] }

/-- A function that was still to be written when pools were contained may be written. -/
theorem Program.Hosts.unwrite {program : Program} {p : Pools} {n : Nat} {f : Function}
    (h : program.Hosts { p with functions := p.functions.setIfInBounds n (some f) })
    (reserved : p.functions[n]? = some none) :
    program.Hosts p ∧ program.functions[n]? = some f := by
  obtain ⟨room, -⟩ := Array.getElem?_eq_some_iff.1 reserved
  refine ⟨{ h with functions := fun k g hk => ?_ }, h.functions _ f (by simp [room])⟩
  have other : n ≠ k := by
    rintro rfl
    rw [reserved] at hk
    simp at hk
  refine h.functions k g ?_
  rw [Array.getElem?_setIfInBounds, if_neg other, hk]

/-- Where a new function ends up, and what has been written within it. -/
theorem Emit.hosts_defineNew [Regex.Engine] {name : String} {params : List String}
    {body : Emit Unit} {p p' : Pools} {n : Nat} (tame : body.Tame)
    (w : (Build.defineNew name params body).Adds p n p') :
    n = p.functions.size ∧ ∃ draft p₁ f,
      body.Writes (Draft.begin name params p.maxBlocks)
        { p with functions := p.functions.push none } () draft p₁ ∧
      draft.function = .ok f ∧ p'.functions.size = p₁.functions.size ∧
      ∀ program : Program, program.Hosts p' →
        program.Hosts p₁ ∧ program.functions[n]? = some f := by
  obtain ⟨rfl, draft, p₁, f, w₁, done, rfl⟩ := adds_defineNew w
  have grown := tame.pools w₁
  have reserved : p₁.functions[p.functions.size]? = some none :=
    (grown.written _ (by simp)).trans (by simp)
  exact ⟨rfl, draft, p₁, f, w₁, done, by simp, fun program h => h.unwrite reserved⟩

end Packrat
