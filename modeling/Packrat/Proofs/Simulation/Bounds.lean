import Packrat.Proofs.Simulation.Calls
import Packrat.Regex.Search

/-
**Numbers that host code computes.**

The numbers of a repetition may be host code, which is evaluated once, before the first item.  Then
the repetition reads what it would read with the numbers that the values amount to; the two differ
in the identity of the list and in the text that is reported of the repetition itself.  A greatest
number of none leaves its side open.  A least number of none does not: the code refuses any number
of items.

Main definitions:

* `Packrat.Bound.Amounts` — the number that a value amounts to;
* `Packrat.Reading.Twins`, `Packrat.Verdict.Twin` — readings that come to related ends;
* `Packrat.Scene.repeated` — a repetition whose numbers have been evaluated.

Main results:

* `Packrat.Expr.host_bounds_agree` — **a repetition with numbers of host code and one with the
  numbers that these amount to**;
* `Packrat.Expr.least_none_refuses` — a least number of none.
-/

set_option autoImplicit false

namespace Packrat

/-- The number that the value of a bound amounts to: a bound that is not there stays so, and a value
of none leaves the bound out. -/
inductive Bound.Amounts : Option Value → Option Bound → Prop
  | absent : Amounts none none
  | omitted : Amounts (some .none) none
  | number {z : Int64} {k : Nat} (h : z.toInt = k) : Amounts (some (.int z)) (some (.const k))

/-! ### Readings that come to related ends -/

namespace Reading

variable {α β γ δ : Type}

/-- Two readings that give up together, are stopped by the same, or come to related ends with the
same store. -/
def Twins (R : α → β → Prop) (x : Option (Except Stop (α × Store)))
    (y : Option (Except Stop (β × Store))) : Prop :=
  match x, y with
  | none, none => True
  | some (.error e), some (.error e') => e = e'
  | some (.ok (a, s)), some (.ok (b, t)) => R a b ∧ s = t
  | _, _ => False

namespace Twins

variable {R : α → β → Prop} {Q : γ → δ → Prop}

theorem of_eq {x y : Option (Except Stop (α × Store))} (h : x = y) : Twins Eq x y := by
  subst h
  match x with
  | none => trivial
  | some (.error _) => rfl
  | some (.ok _) => exact ⟨rfl, rfl⟩

theorem bind {r : Reading α} {r' : Reading β} {k : α → Reading γ} {k' : β → Reading δ}
    {s s' : Store} (h : Twins R (r s) (r' s'))
    (next : ∀ a b t, R a b → Twins Q (k a t) (k' b t)) :
    Twins Q ((r >>= k) s) ((r' >>= k') s') := by
  rw [bind_apply, bind_apply]
  match r s, r' s', h with
  | none, none, _ => trivial
  | some (.error _), some (.error _), same => exact same
  | some (.ok (a, t)), some (.ok (b, _)), ⟨related, rfl⟩ => exact next a b t related

/-- What is alike to an end has come to one as well. -/
theorem exists_ok {x : Option (Except Stop (α × Store))} {y : Option (Except Stop (β × Store))}
    (h : Twins R x y) {a : α} {s : Store} (ends : x = some (.ok (a, s))) :
    ∃ b, y = some (.ok (b, s)) ∧ R a b := by
  subst ends
  match y, h with
  | some (.ok (b, _)), ⟨related, rfl⟩ => exact ⟨b, rfl, related⟩

theorem repeatFrom {part : α → Reading (α ⊕ γ)} {part' : β → Reading (β ⊕ δ)}
    (round : ∀ a b s, R a b → Twins (Sum.LiftRel R Q) (part a s) (part' b s)) (n : Nat) {a : α}
    {b : β} (s : Store) (h : R a b) :
    Twins Q (Reading.repeatFrom part n a s) (Reading.repeatFrom part' n b s) := by
  induction n generalizing a b s with
  | zero => trivial
  | succ n ih =>
      refine bind (round a b s h) ?_
      rintro _ _ t (related | related)
      · exact ih t related
      · exact ⟨related, rfl⟩

end Twins

end Reading

/-- Verdicts of two repetitions: lists of the same values, or the same failure but for those of the
repetitions themselves. -/
inductive Verdict.Twin (own own' : FailureEntry) : Verdict Value → Verdict Value → Prop
  | success (id id' : Nat) (items : List Value) (stop : Nat) :
      Twin own own' (.success (.list id items) stop) (.success (.list id' items) stop)
  | same (entry : FailureEntry) (place : Nat) :
      Twin own own' (.failure entry place) (.failure entry place)
  | own (place : Nat) : Twin own own' (.failure own place) (.failure own' place)

/-! ### Repetitions whose numbers have been evaluated -/

namespace Scene

/-- A repetition whose numbers have been evaluated, and what is reported of it. -/
def repeated (scene : Scene) (low high : Option Value) (own : FailureEntry)
    (part : Nat → Reading (Verdict Value)) (id pos : Nat) : Reading (Verdict Value) := do
  let (items, far, stop) ←
    Reading.repeatFrom (anotherItem high part) scene.rounds ([], (own, pos), pos)
  if ← scene.enough items.length low then pure (.success (.list id items) stop)
  else pure (.failure far.1 far.2)

/-- The numbers of a repetition, evaluated behind the identity of its list. -/
def bounds (scene : Scene) (env : Env) (least most : Option Bound) :
    Reading (Option Value × Option Value) := do
  let low ← scene.boundOf env least
  let high ← scene.boundOf env most
  pure (low, high)

/-- What is read of the number that a value amounts to. -/
theorem boundOf_amounts {x? : Option Value} {bound? : Option Bound}
    (h : Bound.Amounts x? bound?) (scene : Scene) (env : Env) :
    ∃ y?, scene.boundOf env bound? = pure y? ∧ (y? = x? ∨ x? = some .none ∧ y? = none) := by
  cases h with
  | absent => exact ⟨none, rfl, .inl rfl⟩
  | omitted => exact ⟨none, rfl, .inr ⟨rfl, rfl⟩⟩
  | @number z k h =>
      have same : Int64.ofNat k = z := by
        rw [← Int64.toInt_inj, ← Int64.ofInt_eq_ofNat, ← h, Int64.ofInt_toInt]
      exact ⟨_, rfl, .inl (by rw [same])⟩

/-- Whether there are enough items is the same wherever the least number is not none. -/
theorem enough_of_ne_none {scene scene' : Scene} {low : Option Value} (ne : low ≠ some .none)
    (n : Nat) : scene.enough n low = scene'.enough n low := by
  cases low with
  | none => rfl
  | some v => cases v with
    | none => exact absurd rfl ne
    | _ => rfl

/-- The failure to report: the same in both repetitions, or that of each of them. -/
def Reports (own own' : FailureEntry) (far far' : FailureEntry × Nat) : Prop :=
  far = far' ∨ ∃ place, far = (own, place) ∧ far' = (own', place)

/-- Two repetitions between two rounds. -/
structure Rounds (own own' : FailureEntry) (a b : List Value × (FailureEntry × Nat) × Nat) :
    Prop where
  items : a.1 = b.1
  far : Reports own own' a.2.1 b.2.1
  pos : a.2.2 = b.2.2

variable {own own' : FailureEntry} {part part' : Nat → Reading (Verdict Value)}

/-- A round of two repetitions whose items are read alike. -/
theorem anotherItem_twins {high high' : Option Value} (same : ∀ n, full n high = full n high')
    (alike : ∀ pos t, part pos t = part' pos t) (a b : List Value × (FailureEntry × Nat) × Nat)
    (s : Store) (h : Rounds own own' a b) :
    Reading.Twins (Sum.LiftRel (Rounds own own') (Rounds own own')) (anotherItem high part a s)
      (anotherItem high' part' b s) := by
  obtain ⟨items, far, pos⟩ := a
  obtain ⟨_, far', _⟩ := b
  obtain ⟨rfl, reports, rfl⟩ := h
  refine .bind (.of_eq (by rw [same])) ?_
  rintro isFull _ t rfl
  cases isFull with
  | true => exact ⟨.inr ⟨rfl, reports, rfl⟩, rfl⟩
  | false =>
      refine .bind (.of_eq (alike pos t)) ?_
      rintro verdict _ t rfl
      cases verdict with
      | failure entry place => exact ⟨.inr ⟨rfl, .inl rfl, rfl⟩, rfl⟩
      | success v stop =>
          change Reading.Twins _ ((if stop = pos then _ else _ : Reading _) t)
            ((if stop = pos then _ else _ : Reading _) t)
          split
          · exact ⟨.inr ⟨rfl, reports, rfl⟩, rfl⟩
          · exact ⟨.inl ⟨rfl, reports, rfl⟩, rfl⟩

theorem repeated_twins {scene scene' : Scene} {low low' high high' : Option Value}
    (rounds : scene.rounds = scene'.rounds)
    (least : ∀ n, scene.enough n low = scene'.enough n low')
    (most : ∀ n, full n high = full n high') (alike : ∀ pos t, part pos t = part' pos t)
    (id id' pos : Nat) (s : Store) :
    Reading.Twins (Verdict.Twin own own') (scene.repeated low high own part id pos s)
      (scene'.repeated low' high' own' part' id' pos s) := by
  have begun : Rounds own own' ([], (own, pos), pos) ([], (own', pos), pos) :=
    ⟨rfl, .inr ⟨pos, rfl, rfl⟩, rfl⟩
  rw [repeated, repeated, ← rounds]
  refine .bind (.repeatFrom (anotherItem_twins most alike) scene.rounds s begun) ?_
  rintro ⟨items, far, stop⟩ ⟨_, far', _⟩ t ⟨rfl, reports, rfl⟩
  refine .bind (.of_eq (by rw [least])) ?_
  rintro isEnough _ t rfl
  cases isEnough with
  | true => exact ⟨.success id id' items stop, rfl⟩
  | false =>
      rcases reports with rfl | ⟨place, rfl, rfl⟩
      · exact ⟨.same far.1 far.2, rfl⟩
      · exact ⟨.own place, rfl⟩

end Scene

/-! ### Repetitions -/

namespace Expr

variable [Regex.Engine]

/-- The item of a repetition, read under its layout. -/
def itemReads (item : Expr) (scene : Scene) (env : Env) (l : Layout) (pos : Nat) :
    Reading (Verdict Value) :=
  (l.part 0).read scene item.freeLocals pos (item.meaning scene env (l.part 0) pos)

/-- What is reported of a repetition itself. -/
def ownFailure (rule : String) (e : Expr) : FailureEntry := ⟨rule, e.text, .unexpected⟩

variable {tag tag' : Tag} {item : Expr} {least most least' most' : Option Bound}

theorem meaning_list (scene : Scene) (env : Env) (l : Layout) (pos : Nat) :
    (Expr.list tag item least most).meaning scene env l pos = (do
      let id ← Reading.host fresh
      let (low, high) ← scene.bounds env least most
      scene.repeated low high (ownFailure scene.rule (.list tag item least most))
        (item.itemReads scene env l) id pos) := by
  rw [Expr.meaning]
  simp only [Scene.bounds, bind_assoc, pure_bind]
  rfl

/-- A repetition whose numbers have been evaluated. -/
theorem meaning_evaluated {scene : Scene} {env : Env} {l : Layout} {s t : Store}
    {low high : Option Value} (pos : Nat)
    (evaluated : scene.bounds env least most { s with identity := s.identity + 1 } =
      some (.ok ((low, high), t))) :
    (Expr.list tag item least most).meaning scene env l pos s =
      scene.repeated low high (ownFailure scene.rule (.list tag item least most))
        (item.itemReads scene env l) s.identity pos t := by
  rw [meaning_list, Reading.fresh_bind, Reading.bind_apply, evaluated]

/-- Numbers of host code, and the numbers that they amount to. -/
theorem meaning_list_twins {scene scene' : Scene} {env env' : Env} {l l' : Layout} {s s' : Store}
    {low high : Option Value} (rounds : scene.rounds = scene'.rounds)
    (alike : ∀ pos t, item.itemReads scene env l pos t = item.itemReads scene' env' l' pos t)
    (evaluated : scene.bounds env least most { s with identity := s.identity + 1 } =
      some (.ok ((low, high), { s' with identity := s'.identity + 1 })))
    (atLeast : Bound.Amounts low least') (atMost : Bound.Amounts high most')
    (given : low ≠ some .none) (pos : Nat) :
    Reading.Twins
      (Verdict.Twin (ownFailure scene.rule (.list tag item least most))
        (ownFailure scene'.rule (.list tag' item least' most')))
      ((Expr.list tag item least most).meaning scene env l pos s)
      ((Expr.list tag' item least' most').meaning scene' env' l' pos s') := by
  obtain ⟨low', first', sameLow⟩ := Scene.boundOf_amounts atLeast scene' env'
  obtain ⟨high', second', sameHigh⟩ := Scene.boundOf_amounts atMost scene' env'
  have evaluated' : scene'.bounds env' least' most' { s' with identity := s'.identity + 1 } =
      some (.ok ((low', high'), { s' with identity := s'.identity + 1 })) := by
    rw [Scene.bounds, first', second']
    rfl
  rw [meaning_evaluated pos evaluated, meaning_evaluated pos evaluated']
  refine Scene.repeated_twins rounds (fun n => ?_) (fun n => ?_) alike _ _ pos _
  · obtain rfl := sameLow.resolve_right fun h => given h.1
    exact Scene.enough_of_ne_none given n
  · rcases sameHigh with rfl | ⟨rfl, rfl⟩ <;> rfl

/-- A least number of none is refused: whatever the items are, there are too few. -/
theorem least_none_refuses {scene : Scene} {env : Env} {l : Layout} {s t : Store}
    {high : Option Value} (settled : scene.leastNone? = some false) (pos : Nat)
    (evaluated : scene.bounds env least most { s with identity := s.identity + 1 } =
      some (.ok ((some .none, high), t))) (v : Value) (stop : Nat) (s' : Store) :
    (Expr.list tag item least most).meaning scene env l pos s ≠
      some (.ok (.success v stop, s')) := by
  rw [meaning_evaluated pos evaluated, Scene.repeated, Reading.bind_apply]
  have refuses (n : Nat) : scene.enough n (some .none) = pure false := by
    rw [Scene.enough, settled]
    rfl
  intro succeeds
  split at succeeds
  · cases succeeds
  · cases succeeds
  · simp only [refuses] at succeeds
    cases succeeds

end Expr

/-! ### Code -/

/-- A part of a function and of a scene that it fits, with the names of the environment in their
slots. -/
structure Site.Sets [Regex.Engine] (site : Site) (scene : Scene) (env : Env) (d d' : Draft)
    (p p' : Pools) (σ : Moment) (s : Store) : Prop where
  code : site.function.Hosts d'
  pools : site.setting.program.Hosts p'
  fits : scene.Fits site.setting site.memoize p.ruleFunctions p.rule
  ready : site.Ready d env σ s

/-! ### Expressions on their own -/

/-- A text that is read without rules. -/
def World.bare (bytes : ByteArray) : World where
  naming := ⟨[], [], fun _ => none⟩
  library := ⟨[], Host.compareOp⟩
  globals := []
  bytes := bytes
  isBinary := false
  memoize := false
  leastNone? := some false

/-- Where an expression without rules is read. -/
def Scene.bare [Regex.Engine] (bytes : ByteArray) (rounds : Nat) : Scene :=
  (World.bare bytes).scene "" rounds

/-- A function with the code of a draft and nothing behind it. -/
def Draft.closed (d : Draft) : Function where
  name := d.name
  params := d.params
  slots := d.slots
  code := d.code
  labels := d.labels.map fun l => l.getD 0

theorem Draft.closed_hosts (d : Draft) : d.closed.Hosts d where
  code := .refl _
  slots := Nat.le_refl _
  labels l pc h := by simp [closed, h]

/-- The only function of a program, called for a text. -/
def Pools.over (p : Pools) (f : Function) (bytes : ByteArray) : Site :=
  ⟨⟨p.alone f, ⟨[], Host.compareOp⟩, [], bytes, false⟩, false, 0, f, rfl, none, []⟩

/-- Pools that hold neither functions nor patterns nor classes. -/
structure Pools.Plain (p : Pools) : Prop where
  functions : p.functions = #[]
  regexes : p.regexes = #[]
  classes : p.classes = #[]

/-- The draft of an expression that needs no functions, patterns and classes. -/
theorem Expr.emits_alone [Regex.Engine] {e : Expr}
    (h : (match e.emit (.begin "start" [] 4) (.initial 4 0) with
      | .ok (_, p') => p'.functions.isEmpty && p'.regexes.isEmpty && p'.classes.isEmpty
      | .error _ => false) = true) :
    ∃ d' p', e.emit.Writes (.begin "start" [] 4) (.initial 4 0) () d' p' ∧ p'.Plain := by
  split at h
  · next found =>
      simp only [Bool.and_eq_true, Array.isEmpty_iff, and_assoc] at h
      exact ⟨_, _, found, h.1, h.2.1, h.2.2⟩
  · cases h

theorem Expr.sets_alone [Regex.Engine] {e : Expr} {d' : Draft} {p' : Pools}
    (w : e.emit.Writes (.begin "start" [] 4) (.initial 4 0) () d' p') (plain : p'.Plain)
    {bytes : ByteArray} (small : bytes.size < 2 ^ 63) (rounds : Nat) :
    Site.Sets (p'.over d'.closed bytes) (.bare bytes rounds) [] (.begin "start" [] 4) d'
      (.initial 4 0) p' ⟨false, .none, 0, Array.replicate d'.slots .none, ∅, 0⟩ ⟨0, fun _ => none⟩ where
  code := d'.closed_hosts
  pools := p'.alone_hosts _ plain.functions
  fits := by
    have fits : (World.bare bytes).Fits (p'.over d'.closed bytes).setting :=
      { library := rfl
        globals := rfl
        bytes := rfl
        isBinary := rfl
        leastNone := nofun
        classes := (congrArg Array.toList plain.classes).symm
        named := nofun
        small := small
        seeded := (e.emit_tame.pools w).failures _ _ rfl
        sound := fun r h => by
          change r ∈ p'.regexes at h
          simp [plain.regexes] at h
        placed := nofun }
    exact fits.scene (World.calls fits rounds) _
  ready := {
    size := by simp; rfl
    inside := Nat.zero_le _
    knows := fun name v h => by cases h
    agrees := ⟨rfl, .empty _⟩ }

/-- **Numbers that host code computes.** The code of a repetition, and that of a repetition of the
same item with the numbers that its own amount to, follow readings that come to the same end: the
same status, place and items, or the same failure but for the text that is reported of the
repetitions themselves. The least number must not evaluate to none. The items are read alike where
the two pieces of code have chosen the same numbers for their functions, as they do where they are
written at the same stage. -/
theorem Expr.host_bounds_agree [Regex.Engine] {tag tag' : Tag} {item : Expr}
    {least most least' most' : Option Bound} {d e d' e' : Draft} {p q p' q' : Pools}
    (w : (Expr.list tag item least most).emit.Writes d p () d' p')
    (w' : (Expr.list tag' item least' most').emit.Writes e q () e' q') :
    ∃ l l' : Layout, (d.stage p = e.stage q → l = l') ∧
      ∀ (site site' : Site) (scene scene' : Scene) (env env' : Env) (σ σ' : Moment) (s s' : Store),
      site.Sets scene env d d' p p' σ s →
      site'.Sets scene' env' e e' q q' σ' s' →
      let r := (Expr.list tag item least most).meaning scene env l σ.pos s
      let r' := (Expr.list tag' item least' most').meaning scene' env' l' σ'.pos s'
      site.Follows scene.rounds d.code.size σ r (site.Done d.slots d'.code.size σ.slots) ∧
      site'.Follows scene'.rounds e.code.size σ' r' (site'.Done e.slots e'.code.size σ'.slots) ∧
      (∀ low high, σ.pos = σ'.pos → scene.rounds = scene'.rounds →
        (∀ pos t, item.itemReads scene env l pos t = item.itemReads scene' env' l' pos t) →
        scene.bounds env least most { s with identity := s.identity + 1 } =
          some (.ok ((low, high), { s' with identity := s'.identity + 1 })) →
        Bound.Amounts low least' → Bound.Amounts high most' → low ≠ some .none →
        Reading.Twins (Verdict.Twin (ownFailure p.rule (.list tag item least most))
          (ownFailure q.rule (.list tag' item least' most'))) r r') := by
  have realizes := Expr.compiles _ _ _ _ _ w none
  have realizes' := Expr.compiles _ _ _ _ _ w' none
  refine ⟨(Expr.list tag item least most).layout none (d.stage p),
    (Expr.list tag' item least' most').layout none (e.stage q), fun same => ?_,
    fun site site' scene scene' env env' σ σ' s s' sets sets' => ⟨?_, ?_,
      fun low high place rounds alike evaluated atLeast atMost given => ?_⟩⟩
  · rw [same, Expr.layout, Expr.layout]
  · exact realizes.performs site scene env sets.code sets.pools sets.fits σ s sets.ready
  · exact realizes'.performs site' scene' env' sets'.code sets'.pools sets'.fits σ' s'
      sets'.ready
  · rw [← place, ← sets.fits.rule, ← sets'.fits.rule]
    exact meaning_list_twins rounds alike evaluated atLeast atMost given σ.pos

/-- The letter a. -/
def Expr.letter : Expr := .str ⟨2, .nowhere⟩ [97] ⟨false, false, false⟩

/-- Letters, one at least; the numbers are host code. -/
def Expr.computedLetters : Expr :=
  .list ⟨1, .nowhere⟩ .letter (some (.host ⟨"1", .literal (.int 1), []⟩))
    (some (.host ⟨"None", .literal .none, []⟩))

/-- The same with the numbers that the host code amounts to. -/
def Expr.someLetters : Expr := .list ⟨1, .nowhere⟩ .letter (some (.const 1)) none

/-- Before a b, both read two letters. -/
theorem Expr.host_bounds_agree_letters :
    ∃ (d' e' : Draft) (p' q' : Pools) (l : Layout) (id : Nat),
      Expr.computedLetters.emit.Writes (.begin "start" [] 4) (.initial 4 0) () d' p' ∧
      Expr.someLetters.emit.Writes (.begin "start" [] 4) (.initial 4 0) () e' q' ∧
      Expr.computedLetters.meaning (.bare ⟨#[97, 97, 98]⟩ 5) [] l 0 ⟨0, fun _ => none⟩ =
        some (.ok (.success (.list 0 [.str "a", .str "a"]) 2, ⟨1, fun _ => none⟩)) ∧
      Expr.someLetters.meaning (.bare ⟨#[97, 97, 98]⟩ 5) [] l 0 ⟨0, fun _ => none⟩ =
        some (.ok (.success (.list id [.str "a", .str "a"]) 2, ⟨1, fun _ => none⟩)) := by
  obtain ⟨d', p', w, plain⟩ := Expr.computedLetters.emits_alone (by decide +kernel)
  obtain ⟨e', q', w', plain'⟩ := Expr.someLetters.emits_alone (by decide +kernel)
  obtain ⟨l, l', same, agree⟩ := Expr.host_bounds_agree w w'
  obtain rfl := same rfl
  have small : (⟨#[97, 97, 98]⟩ : ByteArray).size < 2 ^ 63 := by decide
  have twins := (agree _ _ _ _ _ _ _ _ _ _ (Expr.sets_alone w plain small 5)
    (Expr.sets_alone w' plain' small 5)).2.2 (some (.int 1)) (some .none) rfl rfl
    (fun _ _ => rfl) rfl (.number rfl) .omitted (by simp)
  have items : Expr.letter.itemReads (.bare ⟨#[97, 97, 98]⟩ 5) [] l = _ :=
    funext fun pos => Expr.reads_literal rfl _ _ _ _ _ pos
  have found : Expr.computedLetters.meaning (.bare ⟨#[97, 97, 98]⟩ 5) [] l 0 ⟨0, fun _ => none⟩ =
      some (.ok (.success (.list 0 [.str "a", .str "a"]) 2, ⟨1, fun _ => none⟩)) := by
    rw [computedLetters, Expr.meaning_evaluated 0 rfl, items]
    rfl
  obtain ⟨_, found', ⟨_, id, _, _⟩ | _ | _⟩ := twins.exists_ok found
  exact ⟨d', e', p', q', l, id, w, w', found, found'⟩

end Packrat
