import Packrat.Proofs.Emission.Writing

/-
**Drafts and pools only grow.**

A writer never changes what has been written: instructions come behind those that are there, labels
that were made before it keep their places, names in scope stay what they were, and no entry of a
pool moves.  So what holds of a piece of code when it is written holds of it in the finished
program.

Main definitions:

* `Packrat.Extends` — an array whose entries another one keeps;
* `Packrat.Draft.Grows`, `Packrat.Pools.Grows` — what writers do to drafts and pools.

Main results:

* `Packrat.Build.adds_literal`, `Packrat.Build.adds_regex`, `Packrat.Build.adds_cls` — an entry of a
  pool is found under the number that its writer gives.
-/

set_option autoImplicit false

namespace Packrat

/-! ### Arrays that extend others -/

/-- An array keeps all entries of another one at their numbers. -/
def Extends {α : Type} (xs ys : Array α) : Prop := ∀ (i : Nat) (x : α), xs[i]? = some x → ys[i]? = some x

namespace Extends

variable {α : Type} {xs ys zs : Array α}

theorem refl (xs : Array α) : Extends xs xs := fun _ _ h => h

theorem trans (h : Extends xs ys) (h' : Extends ys zs) : Extends xs zs :=
  fun i x hx => h' i x (h i x hx)

theorem push (xs : Array α) (x : α) : Extends xs (xs.push x) := by
  intro i y hy
  obtain ⟨hi, -⟩ := Array.getElem?_eq_some_iff.1 hy
  rw [Array.getElem?_push_lt hi, ← hy, Array.getElem?_eq_getElem hi]

theorem of_push {x : α} (h : Extends (xs.push x) ys) : ys[xs.size]? = some x :=
  h xs.size x (by simp)

/-- What is found first stays what is found first. -/
theorem find? {test : α → Bool} {x : α} (h : Extends xs ys)
    (hx : xs.toList.find? test = some x) : ys.toList.find? test = some x := by
  rw [List.find?_eq_some_iff_getElem] at hx ⊢
  obtain ⟨holds, i, hi, rfl, before⟩ := hx
  have keep : ∀ (j : Nat) (hj : j < xs.size), ∃ hj' : j < ys.size, ys[j] = xs[j] := fun j hj =>
    Array.getElem?_eq_some_iff.1 (h j xs[j] (Array.getElem?_eq_getElem hj))
  obtain ⟨hi', same⟩ := keep i (by simpa using hi)
  refine ⟨holds, i, by simpa using hi', by simpa using same, fun j hj => ?_⟩
  obtain ⟨_, same⟩ := keep j (by simp at hi; omega)
  have := before j hj
  simp only [Array.getElem_toList] at this ⊢
  rw [same]
  exact this

end Extends

/-! ### Drafts -/

/-- A draft that has grown into another one: behind its code, with its labels in their places. -/
structure Draft.Grows (d d' : Draft) : Prop where
  code : Extends d.code d'.code
  slots : d.slots ≤ d'.slots
  labels : d.labels.size ≤ d'.labels.size
  placed : ∀ l < d.labels.size, d'.labels[l]? = d.labels[l]?
  scope : d'.scope = d.scope
  name : d'.name = d.name
  params : d'.params = d.params

namespace Draft

variable {d d' d'' : Draft}

theorem Grows.refl (d : Draft) : d.Grows d :=
  ⟨.refl _, Nat.le_refl _, Nat.le_refl _, fun _ _ => rfl, rfl, rfl, rfl⟩

theorem Grows.trans (h : d.Grows d') (h' : d'.Grows d'') : d.Grows d'' where
  code := h.code.trans h'.code
  slots := Nat.le_trans h.slots h'.slots
  labels := Nat.le_trans h.labels h'.labels
  placed l hl := (h'.placed l (Nat.lt_of_lt_of_le hl h.labels)).trans (h.placed l hl)
  scope := h'.scope.trans h.scope
  name := h'.name.trans h.name
  params := h'.params.trans h.params

/-- Growth is indifferent to the names in scope. -/
theorem Grows.withScope {scope : List (String × Nat)} (h : d.Grows d') :
    { d with scope }.Grows { d' with scope } where
  code := h.code
  slots := h.slots
  labels := h.labels
  placed := h.placed
  scope := rfl
  name := h.name
  params := h.params

theorem grows_add (d : Draft) (i : Instr) : d.Grows (d.add i) :=
  ⟨.push _ _, Nat.le_refl _, Nat.le_refl _, fun _ _ => rfl, rfl, rfl, rfl⟩

theorem grows_addSlot (d : Draft) : d.Grows d.addSlot :=
  ⟨.refl _, Nat.le_succ _, Nat.le_refl _, fun _ _ => rfl, rfl, rfl, rfl⟩

theorem grows_addLabel (d : Draft) : d.Grows d.addLabel where
  code := .refl _
  slots := Nat.le_refl _
  labels := by simp [addLabel]
  placed l hl := by rw [addLabel, Array.getElem?_push_lt hl, Array.getElem?_eq_getElem hl]
  scope := rfl
  name := rfl
  params := rfl

theorem grows_entered (d : Draft) : d.Grows (Emit.entered d) :=
  ⟨.refl _, Nat.le_refl _, Nat.le_refl _, fun _ _ => rfl, rfl, rfl, rfl⟩

theorem grows_left (d : Draft) : d.Grows (Emit.left d) :=
  ⟨.refl _, Nat.le_refl _, Nat.le_refl _, fun _ _ => rfl, rfl, rfl, rfl⟩

/-- A label that is younger than a draft may be placed without the draft noticing. -/
theorem Grows.place (h : d.Grows d') {l : Nat} (hl : d.labels.size ≤ l) : d.Grows (d'.place l) where
  code := h.code
  slots := h.slots
  labels := by simpa [Draft.place] using h.labels
  placed k hk := by
    rw [← h.placed k hk]
    simp only [Draft.place, Array.getElem?_setIfInBounds]
    rw [if_neg (by omega)]
  scope := h.scope
  name := h.name
  params := h.params

@[simp] theorem size_labels_addLabel (d : Draft) : d.addLabel.labels.size = d.labels.size + 1 := by
  simp [addLabel]

@[simp] theorem labels_add (d : Draft) (i : Instr) : (d.add i).labels = d.labels := rfl

@[simp] theorem labels_entered (d : Draft) : (Emit.entered d).labels = d.labels := rfl

@[simp] theorem labels_left (d : Draft) : (Emit.left d).labels = d.labels := rfl

@[simp] theorem size_labels_place (d : Draft) (l : Nat) :
    (d.place l).labels.size = d.labels.size := by simp [Draft.place]

end Draft

/-! ### Pools -/

variable [Regex.Engine]

/-- The automaton of an entry is that of its pattern. -/
def RegexEntry.Sound (e : RegexEntry) : Prop :=
  Regex.compile e.pattern e.ignoreCase e.binary = .ok e.regex

/-- Pools that have grown into others. -/
structure Pools.Grows (p p' : Pools) : Prop where
  literals : Extends p.literals p'.literals
  regexes : Extends p.regexes p'.regexes
  hosts : Extends p.hosts p'.hosts
  classes : Extends p.classes p'.classes
  failures : Extends p.failures p'.failures
  functions : p.functions.size ≤ p'.functions.size
  written : ∀ f < p.functions.size, p'.functions[f]? = p.functions[f]?
  rules : p'.ruleFunctions = p.ruleFunctions
  rule : p'.rule = p.rule
  budget : p'.maxBlocks = p.maxBlocks
  sound : (∀ e ∈ p.regexes, e.Sound) → ∀ e ∈ p'.regexes, e.Sound

namespace Pools

variable {p p' p'' : Pools}

theorem Grows.refl (p : Pools) : p.Grows p where
  literals := .refl _
  regexes := .refl _
  hosts := .refl _
  classes := .refl _
  failures := .refl _
  functions := Nat.le_refl _
  written _ _ := rfl
  rules := rfl
  rule := rfl
  budget := rfl
  sound h := h

theorem Grows.trans (h : p.Grows p') (h' : p'.Grows p'') : p.Grows p'' where
  literals := h.literals.trans h'.literals
  regexes := h.regexes.trans h'.regexes
  hosts := h.hosts.trans h'.hosts
  classes := h.classes.trans h'.classes
  failures := h.failures.trans h'.failures
  functions := Nat.le_trans h.functions h'.functions
  written f hf := (h'.written f (Nat.lt_of_lt_of_le hf h.functions)).trans (h.written f hf)
  rules := h'.rules.trans h.rules
  rule := h'.rule.trans h.rule
  budget := h'.budget.trans h.budget
  sound hs := h'.sound (h.sound hs)

end Pools

/-! ### Writers of constants -/

namespace Build

theorem adds_literal {bytes : List UInt8} {p p' : Pools} {n : Nat}
    (h : (literal bytes).Adds p n p') : p.Grows p' ∧ p'.literals[n]? = some bytes := by
  simp only [literal, pooled, adds_get_bind] at h
  split at h
  · next k hk =>
      obtain ⟨rfl, rfl⟩ := adds_pure.1 h
      obtain ⟨hn, he, -⟩ := Array.findIdx?_eq_some_iff_getElem.1 hk
      refine ⟨.refl _, ?_⟩
      rw [Array.getElem?_eq_getElem hn, eq_of_beq he]
  · simp only [adds_set_bind] at h
    obtain ⟨rfl, rfl⟩ := adds_pure.1 h
    exact ⟨{ Pools.Grows.refl _ with literals := .push _ _ }, by simp⟩

theorem adds_cls {c : NodeClass} {p p' : Pools} {n : Nat} (h : (cls c).Adds p n p') :
    p.Grows p' ∧ ∃ known, p'.classes[n]? = some known ∧
      (p'.classes.toList.find? (·.name == c.name)) = some known := by
  simp only [cls, pooled, adds_get_bind] at h
  split at h
  · next k hk =>
      obtain ⟨rfl, rfl⟩ := adds_pure.1 h
      obtain ⟨hn, he, before⟩ := Array.findIdx?_eq_some_iff_getElem.1 hk
      refine ⟨.refl _, _, Array.getElem?_eq_getElem hn, ?_⟩
      rw [List.find?_eq_some_iff_getElem]
      refine ⟨he, n, by simpa using hn, by simp, ?_⟩
      intro j hj
      simpa using before j hj
  · next hk =>
      obtain ⟨rfl, rfl⟩ := adds_pure.1 h
      refine ⟨{ Pools.Grows.refl _ with classes := .push _ _ }, c, by simp, ?_⟩
      have none : p.classes.toList.find? (·.name == c.name) = none := by
        rw [List.find?_eq_none]
        intro x hx
        have := Array.findIdx?_eq_none_iff.1 hk x (Array.mem_toList_iff.1 hx)
        simpa using this
      simp [List.find?_append, none]

theorem compileRegex_eq_ok {pattern : String} {ignoreCase binary : Bool} {r : Regex}
    (h : compileRegex pattern ignoreCase binary = .ok r) :
    Regex.compile pattern ignoreCase binary = .ok r := by
  simp only [compileRegex] at h
  split at h
  · next r' hr =>
      rw [hr]
      simpa using h
  · simp at h
  · simp at h

theorem adds_regex {pattern : String} {ignoreCase binary : Bool} {p p' : Pools} {n : Nat}
    (h : (regex pattern ignoreCase binary).Adds p n p') :
    p.Grows p' ∧ ∃ e, p'.regexes[n]? = some e ∧
      e.pattern = pattern ∧ e.ignoreCase = ignoreCase ∧ e.binary = binary := by
  simp only [regex, adds_get_bind] at h
  split at h
  · next k hk =>
      obtain ⟨rfl, rfl⟩ := adds_pure.1 h
      obtain ⟨hn, he, -⟩ := Array.findIdx?_eq_some_iff_getElem.1 hk
      simp only [Bool.and_eq_true, beq_iff_eq] at he
      exact ⟨.refl _, _, Array.getElem?_eq_getElem hn, he.1.1, he.1.2, he.2⟩
  · obtain ⟨r, _, h₁, h₂⟩ := adds_bind.1 h
    obtain ⟨hr, rfl⟩ := adds_lift.1 h₁
    simp only [adds_set_bind] at h₂
    obtain ⟨rfl, rfl⟩ := adds_pure.1 h₂
    refine ⟨{ Pools.Grows.refl _ with regexes := .push _ _, sound := ?_ },
      ⟨pattern, ignoreCase, binary, r⟩, by simp, rfl, rfl, rfl⟩
    intro hs e he
    rcases Array.mem_push.1 he with he | rfl
    · exact hs e he
    · exact compileRegex_eq_ok hr

theorem adds_host {s : Snippet} {p p' : Pools} {n : Nat} (h : (host s).Adds p n p') :
    p.Grows p' ∧ p'.hosts[n]? = some s := by
  simp only [host, adds_get_bind, adds_set_bind] at h
  obtain ⟨rfl, rfl⟩ := adds_pure.1 h
  exact ⟨{ Pools.Grows.refl _ with hosts := .push _ _ }, by simp⟩

theorem adds_failure {expr : String} {expectation : Expectation} {p p' : Pools} {n : Nat}
    (h : (failure expr expectation).Adds p n p') :
    p.Grows p' ∧ p'.failures[n]? = some ⟨p.rule, expr, expectation⟩ := by
  simp only [failure, adds_get_bind, adds_set_bind] at h
  obtain ⟨rfl, rfl⟩ := adds_pure.1 h
  exact ⟨{ Pools.Grows.refl _ with failures := .push _ _ }, by simp⟩

theorem adds_emptyList {p p' : Pools} {v : Value} (h : emptyList.Adds p v p') :
    p.Grows p' ∧ v = .list p.identity [] := by
  simp only [emptyList, adds_get_bind, adds_set_bind] at h
  obtain ⟨rfl, rfl⟩ := adds_pure.1 h
  exact ⟨{ Pools.Grows.refl _ with }, rfl⟩

omit [Regex.Engine] in
theorem adds_ruleFunction {name : String} {p p' : Pools} {f : Nat}
    (h : (ruleFunction name).Adds p f p') : p' = p ∧ p.ruleFunctions.lookup name = some f := by
  simp only [ruleFunction, adds_get_bind] at h
  split at h
  · next k hk =>
      obtain ⟨rfl, rfl⟩ := adds_pure.1 h
      exact ⟨rfl, hk⟩
  · exact absurd h not_adds_fault

end Build

end Packrat
