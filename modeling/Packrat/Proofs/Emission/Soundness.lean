import Packrat.Grammar.Resolve
import Packrat.Proofs.Emission.Hosting

/-
**Programs that refer only to what there is.**

An instruction refers to slots and labels of its function and to entries of the pools of its program
by their numbers.  In a well-formed program all of these exist, calls pass as many arguments as
functions have parameters, and the code of every function ends by returning.

Writers keep drafts well-formed.  What one of them needs to go through is said by a weakest
precondition: a writer leaves a sound step, unless it is stopped by something that may stop it.  Only
patterns without automata do.

Main definitions:

* `Packrat.Program.WellFormed` — well-formed programs;
* `Packrat.Draft.Sound`, `Packrat.Draft.Placed` — drafts whose instructions refer to what there is,
  and whose labels have places;
* `Packrat.Step` — what writers do to a draft and to pools;
* `Packrat.Expr.Rejected` — the failures of compilations that the pattern of an expression stops;
* `Packrat.Emit.Yields` — a writer goes through, or is stopped by what may stop it.

Main results:

* `Packrat.Emit.Yields.bind`, `Packrat.Emit.Yields.ifThen`, `Packrat.Emit.Yields.loop`,
  `Packrat.Emit.Yields.block` — writers after one another, and control flow;
* `Packrat.Emit.yields_defineNew` — a new function.
-/

set_option autoImplicit false

namespace Packrat

/-! ### What instructions refer to -/

/-- The slots that an operand reads. -/
def Operand.slots : Operand → List Nat
  | .slot v => [v]
  | .result | .position | .const _ => []

/-- The slots that a bound reads. -/
def Limit.slots : Limit → List Nat
  | .slot v => [v]
  | .const _ => []

/-- The slots that a condition reads. -/
def Condition.slots : Condition → List Nat
  | .status | .notStatus => []
  | .posEq v | .posNe v | .posGe v | .posGt v | .posLt v | .posLe v => [v]
  | .lenLt v limit | .lenGe v limit => v :: limit.slots

@[simp] theorem Condition.slots_negate (c : Condition) : c.negate.slots = c.slots := by
  cases c <;> rfl

namespace Instr

/-- The slots that an instruction reads and writes. -/
def slots : Instr → List Nat
  | .matchLiteral _ _ | .matchRegex _ _ | .setStatus _ | .fail _ | .jump _ | .ret => []
  | .load value => value.slots
  | .store v value | .push v value => v :: value.slots
  | .restore v | .newList v | .pop v | .makePostfix v | .foldPrefix v | .foldRight v => [v]
  | .branch condition _ => condition.slots
  | .call (.function _) args => args
  | .call (.slot v) args => v :: args
  | .eval _ captures | .makeParser _ captures => captures
  | .apply func arg | .test func arg _ => [func, arg]
  | .makeList items => items
  | .makeNode _ fields start => start :: fields
  | .makeInfix left operator => [left, operator]

/-- The labels that an instruction may go on at. -/
def labels : Instr → List Nat
  | .jump label | .branch _ label => [label]
  | _ => []

end Instr

/-- A program has a function with a number of parameters. -/
def Program.Takes (program : Program) (f arity : Nat) : Prop :=
  ∃ function, program.functions[f]? = some function ∧ function.params.length = arity

/-- The failure that an operand stands for is one of the program. -/
def Operand.Refers (program : Program) : Operand → Prop
  | .const (.failure entry) => entry < program.failures.size
  | _ => True

/-- The constants and functions that an instruction refers to are there, and functions and host code
are given as much as they take. -/
def Instr.Refers (program : Program) : Instr → Prop
  | .matchLiteral literal entry =>
    literal < program.literals.size ∧ entry < program.failures.size
  | .matchRegex regex entry => regex < program.regexes.size ∧ entry < program.failures.size
  | .fail entry | .test _ _ entry => entry < program.failures.size
  | .load value | .store _ value | .push _ value => value.Refers program
  | .call (.function f) args => program.Takes f args.length
  | .call (.slot _) args => args = []
  | .makeParser f captures => program.Takes f captures.length
  | .eval host captures =>
    ∃ s, program.hosts[host]? = some s ∧ s.locals.length = captures.length
  | .makeNode cls _ _ => cls < program.classes.size
  | _ => True

/-- An instruction that refers to what there is, in a function with some slots and labels. -/
structure Instr.Sound (program : Program) (slots labels : Nat) (i : Instr) : Prop where
  slots : ∀ v ∈ i.slots, v < slots
  labels : ∀ l ∈ i.labels, l < labels
  refers : i.Refers program

theorem Instr.Sound.mono {program : Program} {slots labels slots' labels' : Nat} {i : Instr}
    (h : i.Sound program slots labels) (hs : slots ≤ slots') (hl : labels ≤ labels') :
    i.Sound program slots' labels' :=
  ⟨fun v mem => Nat.lt_of_lt_of_le (h.slots v mem) hs,
    fun l mem => Nat.lt_of_lt_of_le (h.labels l mem) hl, h.refers⟩

/-- A function whose code ends by returning, whose parameters are its first slots, whose labels
stand in its code, and whose instructions refer to what there is. -/
structure Function.WellFormed (program : Program) (f : Function) : Prop where
  ends : f.code.back? = some .ret
  params : f.params.length ≤ f.slots
  labels : ∀ place ∈ f.labels, place < f.code.size
  code : ∀ i ∈ f.code, i.Sound program f.slots f.labels.size

/-- A program all of whose functions are well-formed; its rules have functions that take their
parameters. -/
structure Program.WellFormed (program : Program) : Prop where
  functions : ∀ f ∈ program.functions, f.WellFormed program
  rules : ∀ r ∈ program.rules, program.Takes r.function (r.params.getD []).length
  leftRecursion : leftRecursion < program.failures.size

/-- The failure of a compilation that is stopped by a pattern without an automaton. -/
def Failure.Rejects [Regex.Engine] (e : Failure) (pattern : String) (ignoreCase binary : Bool) :
    Prop :=
  (Regex.compile pattern ignoreCase binary = .error .malformed ∧
    e = .grammar (.regex pattern) none) ∨
  (Regex.compile pattern ignoreCase binary = .error .tooLarge ∧
    e = .grammar (.regexSize pattern) none)

/-- The failure of a compilation that is stopped by the pattern of an expression. -/
def Expr.Rejected [Regex.Engine] (e : Failure) : Expr → Prop
  | .str _ value flags =>
    flags.ignoreCase = true ∧ e.Rejects (literalPattern value flags.binary) true flags.binary
  | .regex _ pattern flags => e.Rejects pattern flags.ignoreCase flags.binary
  | _ => False

/-! ### Drafts and pools on their way -/

/-- All instructions of a draft refer to what there is. -/
def Draft.Sound (program : Program) (d : Draft) : Prop :=
  ∀ i ∈ d.code, i.Sound program d.slots d.labels.size

/-- All labels of a draft have places in its code, but for those that are still open. -/
def Draft.Placed (opened : List Nat) (d : Draft) : Prop :=
  ∀ l < d.labels.size, l ∈ opened ∨ ∃ place ≤ d.code.size, d.labels[l]? = some (some place)

namespace Draft

variable {program : Program} {d : Draft} {opened : List Nat} {l : Nat} {i : Instr}

theorem Sound.add (h : d.Sound program) (hi : i.Sound program d.slots d.labels.size) :
    (d.add i).Sound program := by
  intro j mem
  rcases Array.mem_push.1 mem with mem | rfl
  · exact h j mem
  · exact hi

theorem Sound.addSlot (h : d.Sound program) : d.addSlot.Sound program :=
  fun i mem => (h i mem).mono (Nat.le_succ _) (Nat.le_refl _)

theorem Sound.addLabel (h : d.Sound program) : d.addLabel.Sound program :=
  fun i mem => (h i mem).mono (Nat.le_refl _) (by simp)

theorem Sound.place (h : d.Sound program) : (d.place l).Sound program :=
  fun i mem => (h i mem).mono (Nat.le_refl _) (by simp)

theorem Placed.add (h : d.Placed opened) : (d.add i).Placed opened := by
  intro l hl
  refine (h l hl).imp id fun ⟨place, le, at_⟩ => ⟨place, ?_, at_⟩
  simp only [Draft.add, Array.size_push]
  omega

theorem Placed.addLabel (h : d.Placed opened) : d.addLabel.Placed (d.labels.size :: opened) := by
  intro l hl
  rw [size_labels_addLabel] at hl
  rcases Nat.lt_succ_iff_lt_or_eq.1 hl with old | rfl
  · refine (h l old).imp (List.mem_cons_of_mem _) fun ⟨place, le, at_⟩ => ⟨place, le, ?_⟩
    rw [d.grows_addLabel.placed l old, at_]
  · exact .inl List.mem_cons_self

/-- A label that gets its place is open no longer. -/
theorem Placed.place {opened' : List Nat} (h : d.Placed opened)
    (rest : ∀ k ∈ opened, k = l ∨ k ∈ opened') : (d.place l).Placed opened' := by
  intro k hk
  rw [size_labels_place] at hk
  by_cases same : l = k
  · subst same
    exact .inr ⟨d.code.size, Nat.le_refl _, by simp [Draft.place, hk]⟩
  · rcases h k hk with mem | ⟨place, le, at_⟩
    · exact .inl ((rest k mem).resolve_left fun h => same h.symm)
    · refine .inr ⟨place, le, ?_⟩
      simp only [Draft.place, Array.getElem?_setIfInBounds]
      rw [if_neg same, at_]

end Draft

/-- A program fits pools if it contains them, and the functions of its rules take their parameters. -/
structure Program.Fits (rules : Signatures) (program : Program) (p : Pools) : Prop where
  hosts : program.Hosts p
  rules : ∀ {name : String} {params : List String} {f : Nat}, rules.lookup name = some params →
    p.ruleFunctions.lookup (ruleFunction name) = some f → program.Takes f params.length

theorem Program.Fits.back [Regex.Engine] {rules : Signatures} {program : Program} {p p' : Pools}
    (h : program.Fits rules p') (grown : p.Grows p') : program.Fits rules p where
  hosts := h.hosts.back grown
  rules known found := h.rules known (grown.rules ▸ found)

/-- What holds of every program that fits pools. -/
def Pools.Vows (rules : Signatures) (p : Pools) (P : Program → Prop) : Prop :=
  ∀ program : Program, program.Fits rules p → P program

theorem Pools.Vows.grows [Regex.Engine] {rules : Signatures} {p p' : Pools} {P : Program → Prop}
    (h : p.Vows rules P) (grown : p.Grows p') : p'.Vows rules P :=
  fun program fits => h program (fits.back grown)

/-- All functions that have been written are well-formed. -/
def Pools.Sound (program : Program) (p : Pools) : Prop :=
  ∀ (n : Nat) (f : Function), p.functions[n]? = some (some f) → f.WellFormed program

/-! ### Outcomes of writers -/

namespace Build

variable {α β : Type} {stops : Failure → Prop} {p : Pools}

/-- A writer of constants goes through with the given outcome, or is stopped by what may stop it. -/
def Gives (stops : Failure → Prop) (x : Build α) (p : Pools) (Q : α → Pools → Prop) : Prop :=
  match x p with
  | .error e => stops e
  | .ok (a, p') => Q a p'

variable {Q : α → Pools → Prop} {R : β → Pools → Prop}

theorem gives_bind {x : Build α} {f : α → Build β} :
    Gives stops (x >>= f) p R ↔ Gives stops x p fun a p' => Gives stops (f a) p' R := by
  unfold Gives
  change (match x p >>= fun r => f r.1 r.2 with
    | .error e => stops e
    | .ok (b, p') => R b p') ↔ _
  cases x p with
  | error e => exact Iff.rfl
  | ok r => exact Iff.rfl

theorem Gives.mono {Q' : α → Pools → Prop} {x : Build α} (h : Gives stops x p Q)
    (imp : ∀ a p', Q a p' → Q' a p') : Gives stops x p Q' := by
  unfold Gives at h ⊢
  split at h
  · exact h
  · exact imp _ _ h

theorem gives_lift {x : Except Failure α} :
    Gives stops (liftM x) p Q ↔ (∀ e, x = .error e → stops e) ∧ ∀ a, x = .ok a → Q a p := by
  unfold Gives
  change (match x >>= fun a => Except.ok (a, p) with
    | .error e => stops e
    | .ok (a, p') => Q a p') ↔ _
  cases x with
  | error e => simp [bind, Except.bind]
  | ok a => simp [bind, Except.bind]

theorem gives_get {Q : Pools → Pools → Prop} : Gives stops get p Q ↔ Q p p := Iff.rfl

theorem gives_of_adds {x : Build α} {a : α} {p' : Pools} (h : x.Adds p a p') :
    Gives stops x p Q ↔ Q a p' := by
  unfold Gives
  rw [show x p = .ok (a, p') from h]

end Build

namespace Emit

variable {α β : Type} {stops : Failure → Prop} {d : Draft} {p : Pools}

/-- A writer goes through with the given outcome, or is stopped by what may stop it. -/
def Gives (stops : Failure → Prop) (x : Emit α) (d : Draft) (p : Pools)
    (Q : α → Draft → Pools → Prop) : Prop :=
  match x d p with
  | .error e => stops e
  | .ok ((a, d'), p') => Q a d' p'

variable {Q : α → Draft → Pools → Prop} {R : β → Draft → Pools → Prop}

theorem gives_bind {x : Emit α} {f : α → Emit β} :
    Gives stops (x >>= f) d p R ↔ Gives stops x d p fun a d' p' => Gives stops (f a) d' p' R := by
  unfold Gives
  change (match x d p >>= fun r => f r.1.1 r.1.2 r.2 with
    | .error e => stops e
    | .ok ((b, d'), p') => R b d' p') ↔ _
  cases x d p with
  | error e => exact Iff.rfl
  | ok r => exact Iff.rfl

theorem Gives.mono {Q' : α → Draft → Pools → Prop} {x : Emit α} (h : Gives stops x d p Q)
    (imp : ∀ a d' p', Q a d' p' → Q' a d' p') : Gives stops x d p Q' := by
  unfold Gives at h ⊢
  split at h
  · exact h
  · exact imp _ _ _ h

theorem gives_lift {x : Build α} :
    Gives stops (liftM x) d p Q ↔ Build.Gives stops x p fun a p' => Q a d p' := by
  unfold Gives Build.Gives
  change (match x p >>= fun r => Except.ok ((r.1, d), r.2) with
    | .error e => stops e
    | .ok ((a, d'), p') => Q a d' p') ↔ _
  cases x p with
  | error e => exact Iff.rfl
  | ok r => exact Iff.rfl

theorem gives_emit {i : Instr} {Q : Unit → Draft → Pools → Prop} :
    Gives stops (emit i) d p Q ↔ Q () (d.add i) p := Iff.rfl

theorem gives_slot {Q : Nat → Draft → Pools → Prop} :
    Gives stops slot d p Q ↔ Q d.slots d.addSlot p := Iff.rfl

theorem gives_label {Q : Nat → Draft → Pools → Prop} :
    Gives stops label d p Q ↔ Q d.labels.size d.addLabel p := Iff.rfl

theorem gives_mark {l : Nat} {Q : Unit → Draft → Pools → Prop} :
    Gives stops (mark l) d p Q ↔ Q () (d.place l) p := Iff.rfl

theorem gives_bindName {name : String} {v : Nat} {Q : Unit → Draft → Pools → Prop} :
    Gives stops (bindName name v) d p Q ↔ Q () { d with scope := (name, v) :: d.scope } p := Iff.rfl

theorem gives_inScope {body : Emit α} :
    Gives stops (inScope body) d p Q ↔
      Gives stops body d p fun a d' p' => Q a { d' with scope := d.scope } p' := by
  simp only [inScope, gives_bind]
  exact Iff.rfl

theorem gives_nested {body : Emit α} :
    Gives stops (nested body) d p Q ↔
      Gives stops body (entered d) p fun a d' p' => Q a (left d') p' := by
  simp only [nested, gives_bind]
  exact Iff.rfl

end Emit

section Yielding

variable [Regex.Engine]

/-- What writers of constants and functions do to pools: what they begin they finish. -/
structure Pools.Advances (rules : Signatures) (p p' : Pools) : Prop where
  grows : p.Grows p'
  done : ∀ n : Nat, p'.functions[n]? = some none → p.functions[n]? = some none
  sound : p'.Vows rules fun program => p.Sound program → p'.Sound program

namespace Pools.Advances

variable {rules : Signatures} {p p' p'' : Pools}

theorem refl (p : Pools) : p.Advances rules p := ⟨.refl p, fun _ h => h, fun _ _ h => h⟩

theorem trans (h : p.Advances rules p') (h' : p'.Advances rules p'') : p.Advances rules p'' where
  grows := h.grows.trans h'.grows
  done n open_ := h.done n (h'.done n open_)
  sound program fits sound := h'.sound program fits (h.sound program (fits.back h'.grows) sound)

/-- Pools that differ in constants only. -/
theorem of_functions (grown : p.Grows p') (same : p'.functions = p.functions) :
    p.Advances rules p' where
  grows := grown
  done n open_ := by rwa [same] at open_
  sound program _ sound n f found := sound n f (same ▸ found)

end Pools.Advances

/-- What writers do to a draft and to pools. -/
structure Step (rules : Signatures) (d : Draft) (p : Pools) (d' : Draft) (p' : Pools) : Prop where
  draft : d.Grows d'
  pools : p.Advances rules p'
  placed : ∀ opened, d.Placed opened → d'.Placed opened
  sound : p'.Vows rules fun program => d.Sound program → d'.Sound program

namespace Step

variable {rules : Signatures} {d d' d'' : Draft} {p p' p'' : Pools}

theorem refl (d : Draft) (p : Pools) : Step rules d p d p :=
  ⟨.refl d, .refl p, fun _ h => h, fun _ _ h => h⟩

theorem trans (h : Step rules d p d' p') (h' : Step rules d' p' d'' p'') :
    Step rules d p d'' p'' where
  draft := h.draft.trans h'.draft
  pools := h.pools.trans h'.pools
  placed opened placed := h'.placed opened (h.placed opened placed)
  sound program fits sound :=
    h'.sound program fits (h.sound program (fits.back h'.pools.grows) sound)

@[grind →] theorem slots (h : Step rules d p d' p') : d.slots ≤ d'.slots := h.draft.slots

@[grind →] theorem labels (h : Step rules d p d' p') : d.labels.size ≤ d'.labels.size :=
  h.draft.labels

end Step

attribute [grind →] Draft.Grows.slots Draft.Grows.labels

/-! ### Writers of constants that go through -/

omit [Regex.Engine] in
theorem Extends.lt_size {α : Type} {xs ys : Array α} {n : Nat} {x : α} (h : Extends xs ys)
    (found : xs[n]? = some x) : n < ys.size :=
  (Array.getElem?_eq_some_iff.1 (h n x found)).1

namespace Build

variable {α β : Type} {stops : Failure → Prop} {rules : Signatures} {p : Pools}

/-- A writer of constants goes through, finishing what it begins. -/
def Yields (stops : Failure → Prop) (rules : Signatures) (x : Build α) (p : Pools)
    (Q : α → Pools → Prop) : Prop :=
  Gives stops x p fun a p' => p.Advances rules p' ∧ Q a p'

namespace Yields

variable {Q : α → Pools → Prop} {R : β → Pools → Prop}

theorem pure {a : α} (h : Q a p) : Yields stops rules (Pure.pure a) p Q := ⟨.refl p, h⟩

theorem bind {x : Build α} {f : α → Build β} (hx : Yields stops rules x p Q)
    (hf : ∀ a p', p.Advances rules p' → Q a p' → Yields stops rules (f a) p' R) :
    Yields stops rules (x >>= f) p R :=
  gives_bind.2 (hx.mono fun a p' ⟨advances, holds⟩ => (hf a p' advances holds).mono
    fun _ _ ⟨advances', holds'⟩ => ⟨advances.trans advances', holds'⟩)

/-- A writer that adds constants only. -/
theorem of_adds {x : Build α} {a : α} {p' : Pools} (h : x.Adds p a p') (grown : p.Grows p')
    (same : p'.functions = p.functions) (holds : Q a p') : Yields stops rules x p Q :=
  (gives_of_adds h).2 ⟨.of_functions grown same, holds⟩

theorem literal (bytes : List UInt8) : Yields stops rules (literal bytes) p
    fun n p' => p'.Vows rules fun program => n < program.literals.size := by
  have through : ∃ n p', (Build.literal bytes).Adds p n p' ∧ p'.functions = p.functions := by
    simp only [Build.literal, pooled, adds_get_bind]
    split
    · exact ⟨_, _, adds_pure.2 ⟨rfl, rfl⟩, rfl⟩
    · exact ⟨_, _, adds_set_bind.2 (adds_pure.2 ⟨rfl, rfl⟩), rfl⟩
  obtain ⟨n, p', w, same⟩ := through
  obtain ⟨grown, found⟩ := adds_literal w
  exact of_adds w grown same fun program fits => fits.hosts.literals.lt_size found

theorem cls (c : NodeClass) : Yields stops rules (cls c) p
    fun n p' => p'.Vows rules fun program => n < program.classes.size := by
  have through : ∃ n p', (Build.cls c).Adds p n p' ∧ p'.functions = p.functions := by
    simp only [Build.cls, pooled, adds_get_bind]
    split
    · exact ⟨_, _, adds_pure.2 ⟨rfl, rfl⟩, rfl⟩
    · exact ⟨_, _, adds_set_bind.2 (adds_pure.2 ⟨rfl, rfl⟩), rfl⟩
  obtain ⟨n, p', w, same⟩ := through
  obtain ⟨grown, known, found, -⟩ := adds_cls w
  exact of_adds w grown same fun program fits => fits.hosts.classes.lt_size found

theorem host (s : Snippet) : Yields stops rules (host s) p
    fun n p' => p'.Vows rules fun program => program.hosts[n]? = some s := by
  have w : (Build.host s).Adds p p.hosts.size { p with hosts := p.hosts.push s } := rfl
  obtain ⟨grown, found⟩ := adds_host w
  exact of_adds w grown rfl fun program fits => fits.hosts.hosts _ _ found

theorem failure (expr : String) (expectation : Expectation) :
    Yields stops rules (failure expr expectation) p
      fun n p' => p'.Vows rules fun program => n < program.failures.size := by
  have w : (Build.failure expr expectation).Adds p p.failures.size
    { p with failures := p.failures.push ⟨p.rule, expr, expectation⟩ } := rfl
  obtain ⟨grown, found⟩ := adds_failure w
  exact of_adds w grown rfl fun program fits => fits.hosts.failures.lt_size found

theorem emptyList : Yields stops rules emptyList p fun v _ => ∃ id, v = .list id [] := by
  have w : Build.emptyList.Adds p (.list p.identity []) { p with identity := p.identity + 1 } := rfl
  exact of_adds w (adds_emptyList w).1 rfl ⟨_, rfl⟩

theorem compileRegex_rejects {pattern : String} {ignoreCase binary : Bool} {e : Failure}
    (h : compileRegex pattern ignoreCase binary = .error e) :
    e.Rejects pattern ignoreCase binary := by
  simp only [compileRegex] at h
  split at h
  · cases h
  · next bad => exact .inl ⟨bad, (Except.error.inj h).symm⟩
  · next bad => exact .inr ⟨bad, (Except.error.inj h).symm⟩

/-- A pattern stops a compilation only if it has no automaton. -/
theorem regex {pattern : String} {ignoreCase binary : Bool}
    (may : ∀ e : Failure, e.Rejects pattern ignoreCase binary → stops e) :
    Yields stops rules (regex pattern ignoreCase binary) p
      fun n p' => p'.Vows rules fun program => n < program.regexes.size := by
  refine gives_bind.2 ?_
  refine gives_get.2 ?_
  dsimp only
  split
  · next n known =>
      obtain ⟨room, -⟩ := Array.findIdx?_eq_some_iff_getElem.1 known
      exact pure fun program fits =>
        fits.hosts.regexes.lt_size (Array.getElem?_eq_getElem room)
  · refine gives_bind.2 (gives_lift.2 ⟨fun e bad => may e (compileRegex_rejects bad),
      fun r compiled => ?_⟩)
    refine of_adds (adds_set_bind.2 (adds_pure.2 ⟨rfl, rfl⟩)) ?_ rfl fun program fits =>
      fits.hosts.regexes.lt_size (Array.getElem?_push_size ..)
    exact { Pools.Grows.refl _ with
      regexes := .push _ _
      sound := fun sound e mem => by
        rcases Array.mem_push.1 mem with mem | rfl
        · exact sound e mem
        · exact compileRegex_eq_ok compiled }

/-- The function of a rule is known. -/
theorem ruleFunction {name : String} {params : List String} {f : Nat}
    (known : rules.lookup name = some params)
    (found : p.ruleFunctions.lookup (Packrat.ruleFunction name) = some f) :
    Yields stops rules (ruleFunction (Packrat.ruleFunction name)) p
      fun f p' => p'.Vows rules fun program => program.Takes f params.length := by
  have w : (Build.ruleFunction (Packrat.ruleFunction name)).Adds p f p := by
    simp only [Build.ruleFunction, adds_get_bind, found]
    exact adds_pure.2 ⟨rfl, rfl⟩
  exact of_adds w (.refl p) rfl fun program fits => fits.rules known found

end Yields

end Build

/-! ### Writers of code that go through -/

namespace Emit

variable {α β : Type} {stops : Failure → Prop} {rules : Signatures} {d : Draft} {p : Pools}

/-- A writer goes through, doing a step. -/
def Yields (stops : Failure → Prop) (rules : Signatures) (x : Emit α) (d : Draft) (p : Pools)
    (Q : α → Draft → Pools → Prop) : Prop :=
  Gives stops x d p fun a d' p' => Step rules d p d' p' ∧ Q a d' p'

/-- A writer goes through. -/
abbrev Passes (stops : Failure → Prop) (rules : Signatures) (x : Emit Unit) (d : Draft)
    (p : Pools) : Prop :=
  Yields stops rules x d p fun _ _ _ => True

/-- A writer goes through from a draft and pools on. -/
def Sure (stops : Failure → Prop) (rules : Signatures) (x : Emit Unit) (d : Draft) (p : Pools) :
    Prop :=
  ∀ d' p', d.Grows d' → p.Grows p' → Passes stops rules x d' p'

theorem Sure.grows {x : Emit Unit} {d' : Draft} {p' : Pools} (h : Sure stops rules x d p)
    (draft : d.Grows d') (pools : p.Grows p') : Sure stops rules x d' p' :=
  fun _ _ draft' pools' => h _ _ (draft.trans draft') (pools.trans pools')

theorem Sure.step {x : Emit Unit} {d' : Draft} {p' : Pools} (h : Sure stops rules x d p)
    (step : Step rules d p d' p') : Sure stops rules x d' p' := h.grows step.draft step.pools.grows

theorem Sure.here {x : Emit Unit} (h : Sure stops rules x d p) : Passes stops rules x d p :=
  h d p (.refl d) (.refl p)

namespace Yields

variable {Q : α → Draft → Pools → Prop} {R : β → Draft → Pools → Prop}

theorem pure {a : α} (h : Q a d p) : Yields stops rules (Pure.pure a) d p Q := ⟨.refl d p, h⟩

theorem bind {x : Emit α} {f : α → Emit β} (hx : Yields stops rules x d p Q)
    (hf : ∀ a d' p', Step rules d p d' p' → Q a d' p' → Yields stops rules (f a) d' p' R) :
    Yields stops rules (x >>= f) d p R :=
  gives_bind.2 (hx.mono fun a d' p' ⟨step, holds⟩ => (hf a d' p' step holds).mono
    fun _ _ _ ⟨step', holds'⟩ => ⟨step.trans step', holds'⟩)

theorem lift {x : Build α} {Q : α → Pools → Prop} (h : Build.Yields stops rules x p Q) :
    Yields stops rules (liftM x) d p fun a _ p' => Q a p' :=
  gives_lift.2 (h.mono fun _ _ ⟨advances, holds⟩ =>
    ⟨⟨.refl _, advances, fun _ h => h, fun _ _ h => h⟩, holds⟩)

theorem of_writes {x : Emit α} {a : α} {d' : Draft} {p' : Pools} (h : x.Writes d p a d' p')
    (step : Step rules d p d' p') (holds : Q a d' p') : Yields stops rules x d p Q := by
  unfold Yields Gives
  rw [show x d p = .ok ((a, d'), p') from h]
  exact ⟨step, holds⟩

theorem emit {i : Instr} (h : p.Vows rules fun program => i.Sound program d.slots d.labels.size) :
    Passes stops rules (emit i) d p :=
  gives_emit.2 ⟨⟨d.grows_add i, .refl p, fun _ => .add,
    fun program fits sound => sound.add (h program fits)⟩, trivial⟩

theorem slot : Yields stops rules slot d p fun v d' _ => v < d'.slots :=
  gives_slot.2 ⟨⟨d.grows_addSlot, .refl p, fun _ h => h, fun _ _ => .addSlot⟩,
    Nat.lt_succ_self _⟩

/-! ### Control flow -/

omit [Regex.Engine] in
theorem labels_lt {l n : Nat} (h : l < n) : ∀ k ∈ [l], k < n :=
  fun _ mem => List.mem_singleton.1 mem ▸ h

theorem ifThen {c : Condition} {body : Emit Unit} (reads : ∀ v ∈ c.slots, v < d.slots)
    (h : Sure stops rules body d p) : Passes stops rules (ifThen c body) d p := by
  unfold Emit.ifThen
  simp only [Passes, Yields, gives_bind, gives_label, gives_emit, gives_nested, gives_mark]
  let d₁ := d.addLabel.add (.branch c.negate d.labels.size)
  have start : d.Grows (entered d₁) :=
    (d.grows_addLabel.trans (d.addLabel.grows_add _)).trans d₁.grows_entered
  refine (h _ _ start (.refl p)).mono fun _ d' p' ⟨step, _⟩ => ⟨⟨?_, step.pools, fun opened placed => ?_,
    fun program fits sound => ?_⟩, trivial⟩
  · exact ((start.trans step.draft).trans d'.grows_left).place (Nat.le_refl _)
  · exact Draft.Placed.place (step.placed _ (Draft.Placed.add placed.addLabel))
      fun k mem => List.mem_cons.1 mem
  · refine Draft.Sound.place (step.sound program fits ?_)
    refine Draft.Sound.add sound.addLabel ⟨?_, ?_, trivial⟩
    · simpa [Instr.slots, Draft.addLabel] using reads
    · simp [Instr.labels]

theorem ifElse {c : Condition} {thenPart elsePart : Emit Unit} (reads : ∀ v ∈ c.slots, v < d.slots)
    (h : Sure stops rules thenPart d p) (h' : Sure stops rules elsePart d p) :
    Passes stops rules (ifElse c thenPart elsePart) d p := by
  unfold Emit.ifElse
  simp only [Passes, Yields, gives_bind, gives_label, gives_emit, gives_nested, gives_mark]
  let d₁ := d.addLabel.addLabel.add (.branch c.negate d.labels.size)
  have start : d.Grows (entered d₁) := ((d.grows_addLabel.trans (Draft.grows_addLabel _)).trans
    (Draft.grows_add _ _)).trans d₁.grows_entered
  refine (h _ _ start (.refl p)).mono fun _ d₂ p₂ ⟨step, _⟩ => ?_
  let d₃ := (d₂.add (.jump d.addLabel.labels.size)).place d.labels.size
  have middle : d.Grows d₃ := ((start.trans step.draft).trans (Draft.grows_add _ _)).place
    (Nat.le_refl _)
  have size : d₁.labels.size = d.labels.size + 2 := by
    simp only [d₁, Draft.labels_add, Draft.size_labels_addLabel]
  have room : d.labels.size + 2 ≤ d₂.labels.size := size ▸ step.draft.labels
  refine (h' _ _ middle step.pools.grows).mono fun _ d₄ p₄ ⟨step', _⟩ => ⟨⟨?_,
    step.pools.trans step'.pools, fun opened placed => ?_, fun program fits sound => ?_⟩, trivial⟩
  · exact ((middle.trans step'.draft).trans d₄.grows_left).place (by simp)
  · have first := step.placed _ (Draft.Placed.add placed.addLabel.addLabel)
    have second : d₃.Placed (d.addLabel.labels.size :: opened) :=
      Draft.Placed.place (Draft.Placed.add first) fun k mem => by simpa [or_left_comm] using mem
    exact Draft.Placed.place (step'.placed _ second) fun k mem => List.mem_cons.1 mem
  · have branch := Draft.Sound.add (i := .branch c.negate d.labels.size) sound.addLabel.addLabel
      ⟨by simpa [Instr.slots, Draft.addLabel] using reads,
        labels_lt (by rw [Draft.size_labels_addLabel, Draft.size_labels_addLabel]; omega), trivial⟩
    have first := step.sound program (fits.back step'.pools.grows) branch
    have second := Draft.Sound.add (i := .jump d.addLabel.labels.size) first
      ⟨by simp [Instr.slots], labels_lt (by rw [Draft.size_labels_addLabel]; omega), trivial⟩
    exact Draft.Sound.place (step'.sound program fits (Draft.Sound.place second))

/-- A loop whose body goes through wherever there are labels for its begin and its end. -/
theorem loop {body : Nat → Nat → Emit Unit}
    (h : ∀ {d₁ top exit}, d.Grows d₁ → top < d₁.labels.size → exit < d₁.labels.size →
      Passes stops rules (body top exit) d₁ p) : Passes stops rules (loop body) d p := by
  unfold Emit.loop
  simp only [Passes, Yields, gives_bind, gives_label, gives_emit, gives_nested, gives_mark]
  let d₁ := d.addLabel.addLabel.place d.labels.size
  have start : d.Grows (entered d₁) :=
    ((d.grows_addLabel.trans (Draft.grows_addLabel _)).place (Nat.le_refl _)).trans d₁.grows_entered
  have size : d₁.labels.size = d.labels.size + 2 := by
    simp only [d₁, Draft.size_labels_place, Draft.size_labels_addLabel]
  refine (h start (by rw [Draft.labels_entered, size]; omega)
    (by rw [Draft.labels_entered, size, Draft.size_labels_addLabel]; omega)).mono
    fun _ d₂ p₂ ⟨step, _⟩ =>
      ⟨⟨?_, step.pools, fun opened placed => ?_, fun program fits sound => ?_⟩, trivial⟩
  · exact (((start.trans step.draft).trans d₂.grows_left).trans (Draft.grows_add _ _)).place (by simp)
  · have first : d₁.Placed (d.addLabel.labels.size :: opened) :=
      Draft.Placed.place placed.addLabel.addLabel fun k mem => by simpa [or_left_comm] using mem
    exact Draft.Placed.place (Draft.Placed.add (step.placed _ first))
      fun k mem => List.mem_cons.1 mem
  · have room : d.labels.size + 2 ≤ d₂.labels.size := size ▸ step.draft.labels
    have first := step.sound program fits (Draft.Sound.place sound.addLabel.addLabel)
    exact Draft.Sound.place (Draft.Sound.add (d := left d₂) first
      ⟨by simp [Instr.slots], labels_lt (by rw [Draft.labels_left]; omega), trivial⟩)

/-- A block whose body goes through wherever there is a label for its end. -/
theorem block {body : Nat → Emit Unit}
    (h : ∀ {d₁ exit}, d.Grows d₁ → exit < d₁.labels.size → Passes stops rules (body exit) d₁ p) :
    Passes stops rules (block body) d p := by
  unfold Emit.block
  simp only [Passes, Yields, gives_bind, gives_label, gives_nested, gives_mark]
  have start : d.Grows (entered d.addLabel) := d.grows_addLabel.trans (Draft.grows_entered _)
  refine (h start (by simp)).mono fun _ d' p' ⟨step, _⟩ => ⟨⟨?_, step.pools,
    fun opened placed => ?_, fun program fits sound => ?_⟩, trivial⟩
  · exact ((start.trans step.draft).trans d'.grows_left).place (Nat.le_refl _)
  · exact Draft.Placed.place (step.placed _ placed.addLabel) fun k mem => List.mem_cons.1 mem
  · exact Draft.Sound.place (step.sound program fits sound.addLabel)

end Yields

end Emit

end Yielding

/-! ### Functions -/

theorem placed_of_all {n k : Nat} {places : List (Option Nat)} (name : String)
    (h : ∀ o ∈ places, ∃ place ≤ n, o = some place) :
    ∃ out, placed name k places = .ok out ∧ ∀ place ∈ out, place ≤ n := by
  induction places generalizing k with
  | nil => exact ⟨[], rfl, by simp⟩
  | cons o places ih =>
      obtain ⟨place, le, rfl⟩ := h o List.mem_cons_self
      obtain ⟨out, done, all⟩ := ih (k := k + 1) fun o mem => h o (List.mem_cons_of_mem _ mem)
      refine ⟨place :: out, by simp only [placed, done]; rfl, ?_⟩
      simpa using ⟨le, all⟩

/-- A draft whose labels all have places becomes a function, which is well-formed if the draft was
sound. -/
theorem Draft.Placed.function {d : Draft} (h : d.Placed []) (room : d.params.length ≤ d.slots) :
    ∃ f, d.function = .ok f ∧ f.params = d.params ∧
      ∀ program, d.Sound program → f.WellFormed program := by
  have all : ∀ o ∈ d.labels.toList, ∃ place ≤ d.code.size, o = some place := by
    intro o mem
    obtain ⟨l, hl, rfl⟩ := List.getElem_of_mem mem
    rcases h l (by simpa using hl) with opened | ⟨place, le, at_⟩
    · exact absurd opened List.not_mem_nil
    · obtain ⟨_, same⟩ := Array.getElem?_eq_some_iff.1 at_
      exact ⟨place, le, by simpa using same⟩
  obtain ⟨out, done, within⟩ := placed_of_all (k := 0) d.name all
  have finished : d.function = .ok ⟨d.name, d.params, d.slots, d.code.push .ret, out.toArray⟩ := by
    simp only [Draft.function, done]
    rfl
  have size := Draft.function_labels finished
  refine ⟨_, finished, rfl, fun program sound => ⟨by simp, room, fun place mem => ?_,
    fun i mem => ?_⟩⟩
  · have := within place (by simpa using mem)
    simp only [Array.size_push]
    omega
  · rw [size]
    rcases Array.mem_push.1 mem with mem | rfl
    · exact sound i mem
    · exact ⟨by simp [Instr.slots], by simp [Instr.labels], trivial⟩

theorem Draft.begin_placed (name : String) (params : List String) (maxBlocks : Nat) :
    (Draft.begin name params maxBlocks).Placed [] := fun l hl => absurd hl (Nat.not_lt_zero l)

theorem Draft.begin_sound (program : Program) (name : String) (params : List String)
    (maxBlocks : Nat) : (Draft.begin name params maxBlocks).Sound program :=
  fun i mem => by simp [Draft.begin] at mem

/-- Pools with a function that was reserved. -/
def Pools.write (p : Pools) (n : Nat) (f : Function) : Pools :=
  { p with functions := p.functions.setIfInBounds n (some f) }

theorem Pools.write_eq_none {p : Pools} {n m : Nat} {f : Function} :
    (p.write n f).functions[m]? = some none ↔ m ≠ n ∧ p.functions[m]? = some none := by
  simp only [Pools.write, Array.getElem?_setIfInBounds]
  by_cases same : n = m
  · subst same
    simp
  · simp [same, Ne.symm same]

theorem Pools.write_eq_some {p : Pools} {n m : Nat} {f g : Function}
    (h : (p.write n f).functions[m]? = some (some g)) :
    f = g ∨ p.functions[m]? = some (some g) := by
  simp only [Pools.write, Array.getElem?_setIfInBounds] at h
  split at h
  · split at h
    · exact .inl (by simpa using h)
    · cases h
  · exact .inr h

namespace Build

variable {stops : Failure → Prop} {rules : Signatures} {p : Pools}

/-- A function whose body goes through is finished. -/
theorem gives_define [Regex.Engine] {f : Nat} {name : String} {params : List String}
    {body : Emit Unit} (h : Emit.Passes stops rules body (Draft.begin name params p.maxBlocks) p) :
    Gives stops (Build.define f name params body) p fun _ p' => ∃ p₁ function, p.Advances rules p₁ ∧
      function.params = params ∧ (p₁.Vows rules fun program => function.WellFormed program) ∧
      p' = p₁.write f function := by
  refine gives_bind.2 ?_
  change Gives stops ((body.run (Draft.begin name params p.maxBlocks) : Build _) >>= _) p _
  refine gives_bind.2 ?_
  have run : Gives stops (body.run (Draft.begin name params p.maxBlocks) : Build _) p
      fun r p₁ => Step rules (Draft.begin name params p.maxBlocks) p r.2 p₁ := by
    unfold Emit.Passes Emit.Yields Emit.Gives at h
    unfold Gives
    cases found : body (Draft.begin name params p.maxBlocks) p with
    | error e => simpa only [StateT.run, found] using h
    | ok r =>
        simp only [StateT.run, found] at h ⊢
        exact h.1
  refine run.mono fun r p₁ step => ?_
  have room : r.2.params.length ≤ r.2.slots := by
    rw [step.draft.params]
    exact step.draft.slots
  obtain ⟨function, done, same, sound⟩ := Draft.Placed.function
    (step.placed [] (Draft.begin_placed name params p.maxBlocks)) room
  refine gives_bind.2 (gives_lift.2 ⟨fun e bad => ?_, fun f' found => ?_⟩)
  · rw [done] at bad
    cases bad
  obtain rfl : function = f' := by simpa [done] using found
  refine ⟨p₁, function, step.pools, same.trans step.draft.params, fun program fits => ?_, rfl⟩
  exact sound program (step.sound program fits (Draft.begin_sound program _ _ _))

/-- A new function whose body goes through. -/
theorem Yields.defineNew [Regex.Engine] {name : String} {params : List String} {body : Emit Unit}
    (h : Emit.Passes stops rules body (Draft.begin name params p.maxBlocks)
      { p with functions := p.functions.push none }) :
    Yields stops rules (Build.defineNew name params body) p
      fun f p' => p'.Vows rules fun program => program.Takes f params.length := by
  refine gives_bind.2 ?_
  change Gives stops (Build.define p.functions.size name params body >>= _)
    { p with functions := p.functions.push none } _
  refine gives_bind.2 ((gives_define h).mono ?_)
  rintro _ _ ⟨p₁, function, advances, rfl, sound, rfl⟩
  have reserved : p₁.functions[p.functions.size]? = some none :=
    (advances.grows.written _ (by simp)).trans (by simp)
  have back (program : Program) (fits : program.Fits rules (p₁.write p.functions.size function)) :
      program.Fits rules p₁ ∧ program.functions[p.functions.size]? = some function := by
    obtain ⟨hosts, known⟩ := fits.hosts.unwrite reserved
    exact ⟨⟨hosts, fits.rules⟩, known⟩
  refine ⟨⟨Emit.grows_function advances.grows, fun n unwritten => ?_,
    fun program fits sound' n f known => ?_⟩,
    fun program fits => ⟨function, (back program fits).2, rfl⟩⟩
  · obtain ⟨other, unwritten⟩ := Pools.write_eq_none.1 unwritten
    have := advances.done n unwritten
    rw [Array.getElem?_push, if_neg other] at this
    exact this
  · obtain ⟨fits, -⟩ := back program fits
    rcases Pools.write_eq_some known with rfl | known
    · exact sound program fits
    · refine advances.sound program fits (fun m g found => ?_) n f known
      rw [Array.getElem?_push] at found
      split at found
      · cases found
      · exact sound' m g found

end Build

end Packrat
