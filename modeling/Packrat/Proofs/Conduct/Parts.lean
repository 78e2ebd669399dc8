import Packrat.Proofs.Analysis.Resolution
import Packrat.Proofs.Conduct.Frames
import Packrat.Proofs.Simulation.Realizing

/-
**Code that behaves.**

The code of a part stands between two drafts of a function.  It is safe if a frame that comes to it
behaves, as long as it does behind the part, wherever the part ends within its contract: the part
owes the code around it what a function owes its caller, and leaves older slots alone.  A function
made of safe code serves whoever calls it.

Main definitions:

* `Packrat.Regime.Fits` — what a regime and the parse that it is for have to agree on;
* `Packrat.Site.Steady` — moments in which the names in scope stand for proper values;
* `Packrat.Site.Safe` — **safe code between two drafts**;
* `Packrat.Pools.Staffs` — pools that have gained functions that serve;
* `Packrat.Emit.Conducts` — writers of safe code.

Main results:

* `Packrat.Setting.serves_of_safe` — a function made of safe code serves;
* `Packrat.Emit.Conducts.within` — **a part in place, or as a function of its own**.
-/

set_option autoImplicit false

namespace Packrat

/-! ### Regimes -/

/-- What a regime and a parse agree on: host code makes proper values, and calls of rules and of
parsers are accounted for; parsers are made only if rules take arguments. -/
structure Regime.Fits (R : Regime) (setting : Setting) (signatures : Signatures)
    (numbers : List (String × Nat)) : Prop where
  natives : setting.library.natives.Proper R.may
  globals : Env.Proper R.may setting.globals
  small : setting.bytes.size < 2 ^ 63
  rules : ∀ name params k, signatures.lookup name = some params →
    numbers.lookup (ruleFunction name) = some k → k < setting.program.functions.size ∧
      ∀ args, Value.AllProper R.may args → args.length = params.length → R.calls k args
  parsers : ∀ k, R.may.parsers k → k < setting.program.functions.size ∧
    ∀ args, Value.AllProper R.may args → R.calls k args
  makes : ∀ name params, signatures.lookup name = some params → params ≠ [] →
    ∀ k < setting.program.functions.size, R.may.parsers k

theorem Regime.Fits.grow [Regex.Engine] {R : Regime} {setting : Setting} {signatures : Signatures}
    {p p' : Pools} (h : R.Fits setting signatures p.ruleFunctions) (grown : p.Grows p') :
    R.Fits setting signatures p'.ruleFunctions := by
  rw [grown.rules]
  exact h

/-! ### Moments -/

namespace Setting.Contract

variable {setting : Setting} {may : Permit} {start start' pos entry : Nat} {x : Value}
variable {o : Outcome}

theorem of_success (forward : start ≤ pos) (inside : pos ≤ setting.bytes.size)
    (proper : x.Proper may) : setting.Contract may start ⟨true, x, pos⟩ where
  forward := forward
  inside := inside
  success _ := proper
  failure h := by cases h

theorem of_failure (forward : start ≤ pos) (inside : pos ≤ setting.bytes.size)
    (listed : entry < setting.program.failures.size) :
    setting.Contract may start ⟨false, .failure entry, pos⟩ where
  forward := forward
  inside := inside
  success h := by cases h
  failure _ := ⟨entry, listed, rfl⟩

theorem earlier (h : setting.Contract may start o) (le : start' ≤ start) :
    setting.Contract may start' o := { h with forward := Nat.le_trans le h.forward }

end Setting.Contract

/-- Entries of an array of constants are found in programs that contain it. -/
theorem Extends.lt_of_getElem? {α : Type} {xs ys : Array α} {n : Nat} {x : α} (h : Extends xs ys)
    (hx : xs[n]? = some x) : n < ys.size := (Array.getElem?_eq_some_iff.1 (h n x hx)).1

namespace Site

/-- A moment of a function that was called at a place, in which names in scope stand for proper
values. -/
structure Steady (site : Site) (R : Regime) (d : Draft) (start : Nat) (σ : Moment) : Prop extends
    site.Within start σ where
  size : σ.slots.size = site.function.slots
  knows : ∀ name v, d.scope.lookup name = some v →
    v < d.slots ∧ ∃ x, σ.slots[v]? = some x ∧ x.Proper R.may

/-- Code between two drafts that is safe: a frame that comes to it behaves if it does behind. -/
def Safe (site : Site) (R : Regime) (d d' : Draft) : Prop :=
  ∀ start σ, site.Steady R d start σ →
    (∀ σ', Keeps d.slots σ.slots σ'.slots → site.setting.Contract R.may σ.pos σ'.outcome →
      site.Behaves R start d'.code.size σ') →
    site.Behaves R start d.code.size σ

variable {site : Site} {R : Regime} {d d' : Draft} {start p : Nat} {σ σ' : Moment}

theorem Within.small (h : site.Within start σ) (small : site.setting.bytes.size < 2 ^ 63) :
    σ.pos < 2 ^ 63 := Nat.lt_of_le_of_lt h.inside small

/-- Behind a part that kept its contract a function is further on. -/
theorem Within.next {may : Permit} (h : site.Within start σ)
    (contract : site.setting.Contract may σ.pos σ'.outcome) : site.Within start σ' :=
  ⟨Nat.le_trans h.forward contract.forward, contract.inside⟩

namespace Steady

theorem next (h : site.Steady R d start σ) (keeps : Keeps d.slots σ.slots σ'.slots)
    (here : site.Within start σ') (scope : d'.scope = d.scope) (room : d.slots ≤ d'.slots) :
    site.Steady R d' start σ' where
  toWithin := here
  size := keeps.size.trans h.size
  knows name v hv := by
    rw [scope] at hv
    obtain ⟨hlt, x, hs, proper⟩ := h.knows name v hv
    exact ⟨Nat.lt_of_lt_of_le hlt room, x, (keeps.same v hlt).trans hs, proper⟩

/-- Drafts that have the names in scope in common. -/
theorem recast (h : site.Steady R d start σ) (scope : d'.scope = d.scope)
    (room : d.slots ≤ d'.slots) : site.Steady R d' start σ :=
  h.next (.refl _ _) h.toWithin scope room

/-- A value in a new slot. -/
theorem store {i : Instr} (h : site.Steady R d start σ)
    (hosts : site.function.Hosts (d.addSlot.add i)) (x : Value) :
    site.Steady R (d.addSlot.add i) start (σ.set d.slots x) ∧
      (σ.set d.slots x).slots[d.slots]? = some x := by
  have room : d.slots < σ.slots.size := by
    rw [h.size]
    exact hosts.add.slots
  exact ⟨h.next (.set _ (Nat.le_refl _) x) ⟨h.forward, h.inside⟩ rfl (Nat.le_succ _),
    getElem?_set_self room x⟩

/-- The values of names that have slots. -/
theorem values {names : List String} {vs : List Nat} (h : site.Steady R d start σ)
    (hv : names.mapM (fun n => d.scope.lookup n) = some vs) :
    ∃ xs, List.Forall₂ (fun v x => σ.slots[v]? = some x) vs xs ∧ Value.AllProper R.may xs ∧
      xs.length = names.length := by
  induction names generalizing vs with
  | nil =>
      obtain rfl : [] = vs := by simpa using hv
      exact ⟨[], .nil, .nil, rfl⟩
  | cons n names ih =>
      obtain ⟨v, found, vs, hvs, rfl⟩ := mapM_cons_eq_some.1 hv
      obtain ⟨xs, slots, proper, len⟩ := ih hvs
      obtain ⟨-, x, hs, hx⟩ := h.knows n v found
      exact ⟨x :: xs, .cons hs slots, .cons hx proper, by simp [len]⟩

end Steady

end Site

namespace Keeps

variable {bound v : Nat} {xs ys : Array Value} {x : Value}

/-- The slot that a part began with. -/
theorem kept (h : Keeps bound xs ys) (lt : v < bound) (hx : xs[v]? = some x) : ys[v]? = some x :=
  (h.same v lt).trans hx

/-- What is kept behind a part that began with a new slot. -/
theorem after {σ : Moment} (h : Keeps (bound + 1) (σ.set bound x).slots ys) :
    Keeps bound σ.slots ys :=
  (Keeps.set _ (Nat.le_refl _) x).trans (h.mono (Nat.le_succ _))

end Keeps

/-! ### Functions that serve -/

/-- A function made of safe code serves. -/
theorem Setting.serves_of_safe {setting : Setting} {R : Regime} {number budget : Nat} {f : Function}
    {name : String} {params : List String} {draft : Draft}
    (known : setting.program.functions[number]? = some f) (done : draft.function = .ok f)
    (grown : (Draft.begin name params budget).Grows draft)
    (safe : ∀ site : Site, site.setting = setting → site.function = f →
      site.Safe R (Draft.begin name params budget) draft) : setting.Serves R number := by
  intro args proper pos inside key? callee enters
  obtain ⟨g, hg, arity, rfl⟩ := Machine.enters_of_enter enters
  obtain rfl := Option.some.inj (hg.symm.trans known)
  obtain ⟨-, -, hparams, hslots, hret⟩ := Draft.function_eq_ok done
  have ha : args.length = params.length := by rw [arity, hparams, grown.params]; rfl
  have room : args.length ≤ g.slots := by
    rw [hslots, ha]
    exact grown.slots
  let site : Site := ⟨setting, true, number, g, known, key?, []⟩
  let slots := (args ++ List.replicate (g.slots - args.length) Value.none).toArray
  let σ : Moment := ⟨false, .none, pos, slots, ∅, 0⟩
  have steady : site.Steady R (Draft.begin name params budget) pos σ := by
    refine ⟨⟨Nat.le_refl _, inside⟩, by simp [σ, slots, site]; omega, fun n v hv => ?_⟩
    have bound : (Draft.begin name params budget).Knows (Host.bindAll params args []) slots :=
      Draft.knows_begin_bindAll ha
    obtain ⟨hlt, x, hx, hs⟩ := bound n v hv
    have env := Env.Proper.bindAll .nil params proper
    have found := env.alike.lookup n
    rw [hx] at found
    cases found with
    | some same => exact ⟨hlt, x, hs, same.proper.2⟩
  exact safe site rfl rfl pos σ steady fun σ' _ contract => Site.behaves_ret hret contract

variable [Regex.Engine]

/-- Pools that have gained functions that serve. -/
structure Pools.Staffs (signatures : Signatures) (p p' : Pools) : Prop where
  grown : p.Grows p'
  serves : ∀ (setting : Setting) (R : Regime), setting.program.Hosts p' →
    R.Fits setting signatures p.ruleFunctions →
    ∀ k, p.functions.size ≤ k → k < p'.functions.size → setting.Serves R k

namespace Pools.Staffs

variable {signatures : Signatures} {p p₁ p' : Pools}

/-- Pools that have gained no functions. -/
theorem of_size (grown : p.Grows p') (same : p'.functions.size = p.functions.size) :
    p.Staffs signatures p' :=
  ⟨grown, fun _ _ _ _ k low high => absurd high (by omega)⟩

theorem trans (h : p.Staffs signatures p₁) (h' : p₁.Staffs signatures p') :
    p.Staffs signatures p' where
  grown := h.grown.trans h'.grown
  serves setting R hosts fits k low high := by
    rcases Nat.lt_or_ge k p₁.functions.size with lt | ge
    · exact h.serves setting R (hosts.back h'.grown) fits k low lt
    · exact h'.serves setting R hosts (by rw [h.grown.rules]; exact fits) k ge high

end Pools.Staffs

/-- A writer of constants that adds no functions but such as serve. -/
def Build.Staffs (signatures : Signatures) {α : Type} (x : Build α) : Prop :=
  ∀ p a p', x.Adds p a p' → p.Staffs signatures p'

namespace Build

variable {signatures : Signatures} {α β : Type}

/-- Pooling a constant adds no functions. -/
theorem Staffs.pooled {pool : Pools → Array α} {extend : Pools → Array α → Pools}
    {isEntry : α → Bool} {entry : α} (tame : (pooled pool extend isEntry entry).Tame)
    (same : ∀ p xs, (extend p xs).functions = p.functions) :
    (pooled pool extend isEntry entry).Staffs signatures := fun p a p' h => by
  refine .of_size (tame.pools h) ?_
  simp only [Build.pooled, adds_get_bind] at h
  split at h
  · obtain ⟨-, rfl⟩ := adds_pure.1 h
    rfl
  · simp only [adds_set_bind] at h
    obtain ⟨-, rfl⟩ := adds_pure.1 h
    rw [same]

theorem Staffs.literal (bytes : List UInt8) : (literal bytes).Staffs signatures :=
  .pooled (.literal bytes) fun _ _ => rfl

theorem Staffs.cls (c : NodeClass) : (cls c).Staffs signatures := .pooled (.cls c) fun _ _ => rfl

theorem Staffs.regex (pattern : String) (ignoreCase binary : Bool) :
    (regex pattern ignoreCase binary).Staffs signatures := fun p a p' h => by
  refine .of_size ((Tame.regex pattern ignoreCase binary).pools h) ?_
  simp only [Build.regex, adds_get_bind] at h
  split at h
  · obtain ⟨-, rfl⟩ := adds_pure.1 h
    rfl
  · obtain ⟨r, p₁, h₁, h₂⟩ := adds_bind.1 h
    obtain ⟨-, rfl⟩ := adds_lift.1 h₁
    simp only [adds_set_bind] at h₂
    obtain ⟨-, rfl⟩ := adds_pure.1 h₂
    rfl

theorem Staffs.host (s : Snippet) : (host s).Staffs signatures := fun p a p' h => by
  refine .of_size ((Tame.host s).pools h) ?_
  simp only [Build.host, adds_get_bind, adds_set_bind] at h
  obtain ⟨-, rfl⟩ := adds_pure.1 h
  rfl

theorem Staffs.failure (expr : String) (e : Expectation) :
    (failure expr e).Staffs signatures := fun p a p' h => by
  refine .of_size ((Tame.failure expr e).pools h) ?_
  simp only [Build.failure, adds_get_bind, adds_set_bind] at h
  obtain ⟨-, rfl⟩ := adds_pure.1 h
  rfl

theorem Staffs.emptyList : emptyList.Staffs signatures := fun p a p' h => by
  refine .of_size (Tame.emptyList.pools h) ?_
  simp only [Build.emptyList, adds_get_bind, adds_set_bind] at h
  obtain ⟨-, rfl⟩ := adds_pure.1 h
  rfl

theorem Staffs.ruleFunction (name : String) : (ruleFunction name).Staffs signatures :=
  fun p a p' h => by
    obtain ⟨rfl, -⟩ := adds_ruleFunction h
    exact .of_size (.refl _) rfl

end Build

namespace Emit

variable {signatures : Signatures} {α β : Type}

/-- A writer that adds no functions but such as serve. -/
def Staffs (signatures : Signatures) (x : Emit α) : Prop :=
  ∀ d p a d' p', x.Writes d p a d' p' → p.Staffs signatures p'

/-- A writer of safe code. -/
def Safe (signatures : Signatures) (code : Emit Unit) : Prop :=
  ∀ d p d' p', code.Writes d p () d' p' → ∀ (site : Site) (R : Regime), site.function.Hosts d' →
    site.setting.program.Hosts p' → R.Fits site.setting signatures p.ruleFunctions →
    site.Safe R d d'

/-- A writer of safe code, and of functions that serve. -/
structure Conducts (signatures : Signatures) (code : Emit Unit) : Prop where
  tame : code.Tame
  staffs : code.Staffs signatures
  safe : code.Safe signatures

namespace Staffs

theorem pure (a : α) : (Pure.pure a : Emit α).Staffs signatures := fun d p b d' p' h => by
  obtain ⟨-, -, rfl⟩ := writes_pure.1 h
  exact .of_size (.refl _) rfl

theorem bind {x : Emit α} {f : α → Emit β} (hx : x.Staffs signatures)
    (hf : ∀ a, (f a).Staffs signatures) : (x >>= f).Staffs signatures := fun d p b d' p' h => by
  obtain ⟨a, d₁, p₁, h₁, h₂⟩ := writes_bind.1 h
  exact (hx d p a d₁ p₁ h₁).trans (hf a d₁ p₁ b d' p' h₂)

theorem get_bind {f : Draft → Emit β} (hf : ∀ d, (f d).Staffs signatures) :
    (MonadState.get >>= f : Emit β).Staffs signatures := fun d p b d' p' h => hf d d p b d' p' h

theorem lift {x : Build α} (hx : x.Staffs signatures) : (liftM x : Emit α).Staffs signatures :=
  fun _ p a _ p' h => hx p a p' (writes_lift.1 h).1

theorem modify (f : Draft → Draft) :
    (MonadStateOf.modifyGet fun d => (PUnit.unit, f d) : Emit PUnit).Staffs signatures :=
  fun d p u d' p' h => by
    obtain ⟨-, rfl⟩ := writes_modify.1 h
    exact .of_size (.refl _) rfl

theorem emit (i : Instr) : (emit i).Staffs signatures := modify _

theorem slot : slot.Staffs signatures := fun d p a d' p' h => by
  obtain ⟨-, -, rfl⟩ := writes_slot.1 h
  exact .of_size (.refl _) rfl

theorem label : label.Staffs signatures := fun d p a d' p' h => by
  obtain ⟨-, -, rfl⟩ := writes_label.1 h
  exact .of_size (.refl _) rfl

theorem lookup (name : String) : (lookup name).Staffs signatures := fun d p a d' p' h => by
  obtain ⟨-, -, rfl⟩ := writes_lookup.1 h
  exact .of_size (.refl _) rfl

theorem lookupAll (names : List String) : (lookupAll names).Staffs signatures :=
  fun d p a d' p' h => by
    obtain ⟨-, -, rfl⟩ := writes_lookupAll.1 h
    exact .of_size (.refl _) rfl

theorem bindName (name : String) (v : Nat) : (bindName name v).Staffs signatures := modify _

theorem inScope {x : Emit α} (h : x.Staffs signatures) : (inScope x).Staffs signatures :=
  get_bind fun _ => h.bind fun _ => (modify _).bind fun _ => pure _

/-! ### Control flow -/

theorem nested {x : Emit α} (h : x.Staffs signatures) : (nested x).Staffs signatures :=
  (modify _).bind fun _ => h.bind fun _ => (modify _).bind fun _ => pure _

variable {body thenPart elsePart : Emit Unit}

theorem ifThen (c : Condition) (h : body.Staffs signatures) : (ifThen c body).Staffs signatures :=
  label.bind fun _ => (emit _).bind fun _ => (nested h).bind fun _ => modify _

theorem ifElse (c : Condition) (h : thenPart.Staffs signatures) (h' : elsePart.Staffs signatures) :
    (ifElse c thenPart elsePart).Staffs signatures :=
  label.bind fun _ => label.bind fun _ => (emit _).bind fun _ =>
    (nested (h.bind fun _ => (emit _).bind fun _ => (modify _).bind fun _ => h')).bind fun _ =>
      modify _

theorem loop {body : Nat → Nat → Emit Unit} (h : ∀ top exit, (body top exit).Staffs signatures) :
    (loop body).Staffs signatures :=
  label.bind fun _ => label.bind fun _ => (modify _).bind fun _ => (nested (h _ _)).bind fun _ =>
    (emit _).bind fun _ => modify _

theorem block {body : Nat → Emit Unit} (h : ∀ exit, (body exit).Staffs signatures) :
    (block body).Staffs signatures :=
  label.bind fun _ => (nested (h _)).bind fun _ => modify _

/-! ### Small parts -/

theorem storeResult : storeResult.Staffs signatures :=
  slot.bind fun _ => (emit _).bind fun _ => pure _

theorem checkpoint : checkpoint.Staffs signatures :=
  slot.bind fun _ => (emit _).bind fun _ => pure _

theorem succeedWith (value : Operand) : (succeedWith value).Staffs signatures :=
  (emit _).bind fun _ => emit _

theorem leaveOnFailure (exit : Nat) : (leaveOnFailure exit).Staffs signatures := emit _

theorem retreatOnFailure (back exit : Nat) : (retreatOnFailure back exit).Staffs signatures :=
  ifThen _ ((emit _).bind fun _ => emit _)

end Staffs

/-! ### Functions of their own -/

/-- A new function serves if its code is safe, and so do the functions that come with it. -/
theorem serves_defineNew {code : Emit Unit} (tame : code.Tame) (staffs : code.Staffs signatures)
    {name : String} {params : List String} {p p' : Pools} {n : Nat}
    (w : (Build.defineNew name params code).Adds p n p') {setting : Setting} {R : Regime}
    (pools : setting.program.Hosts p') (fits : R.Fits setting signatures p.ruleFunctions)
    (safe : ∀ (site : Site) (draft : Draft) (p₁ : Pools), site.setting = setting →
      code.Writes (Draft.begin name params p.maxBlocks)
        { p with functions := p.functions.push none } () draft p₁ →
      site.function.Hosts draft → setting.program.Hosts p₁ →
      site.Safe R (Draft.begin name params p.maxBlocks) draft) :
    ∀ k, p.functions.size ≤ k → k < p'.functions.size → setting.Serves R k := fun k low high => by
  obtain ⟨rfl, draft, p₁, f, w₁, done, size, hosts⟩ := hosts_defineNew tame w
  obtain ⟨within, known⟩ := hosts _ pools
  rcases Nat.eq_or_lt_of_le low with rfl | low
  · refine Setting.serves_of_safe known done (tame.draft w₁) fun site hs hf => ?_
    exact safe site draft p₁ hs w₁ (hf ▸ (Draft.function_eq_ok done).1) within
  · refine (staffs _ _ _ _ _ w₁).serves setting R within fits k ?_ (by omega)
    simp only [Array.size_push]
    omega

/-- A new function made of safe code serves. -/
theorem Conducts.defineNew {code : Emit Unit} (h : code.Conducts signatures) (name : String)
    (params : List String) : (Build.defineNew name params code).Staffs signatures :=
  fun p k p' w => by
    refine ⟨(tame_defineNew name params h.tame).pools w, fun setting R pools fits =>
      serves_defineNew h.tame h.staffs w pools fits fun site draft p₁ hs w₁ code within => ?_⟩
    subst hs
    exact h.safe _ _ _ _ w₁ site R code within fits

variable {code : Emit Unit}

theorem Staffs.ownFunction (h : code.Conducts signatures) (e : Expr) :
    (ownFunction e code).Staffs signatures := .lift (h.defineNew _ _)

theorem Staffs.outline (h : code.Conducts signatures) (e : Expr) :
    (outline e code).Staffs signatures :=
  (lookupAll _).bind fun _ => (ownFunction h e).bind fun _ => emit _

end Emit

/-! ### Calls of functions that serve -/

namespace Site

variable {site : Site} {R : Regime} {d : Draft} {start f : Nat} {vs : List Nat}

omit [Regex.Engine] in
/-- A call of a function by its number. -/
theorem safe_call (code : site.function.Hosts (d.add (.call (.function f) vs)))
    (known : f < site.setting.program.functions.size)
    (values : ∀ σ, site.Steady R d start σ → ∃ xs,
      List.Forall₂ (fun v x => σ.slots[v]? = some x) vs xs ∧ Value.AllProper R.may xs ∧
        (R.calls f xs ∨ site.setting.Serves R f)) {σ : Moment} (steady : site.Steady R d start σ)
    (next : ∀ σ', σ'.slots = σ.slots → site.setting.Contract R.may σ.pos σ'.outcome →
      site.Behaves R start (d.add (.call (.function f) vs)).code.size σ') :
    site.Behaves R start d.code.size σ := by
  obtain ⟨xs, slots, proper, accounted⟩ := values σ steady
  refine behaves_calls code.instr steady.toWithin
    (fun n => Exec.lift_bind (frame_slotList slots) _ _) known ?_ fun o contract => ?_
  · exact accounted.imp id fun serves key? callee => serves xs proper _ steady.inside key? callee
  · rw [size_add] at next
    exact next _ rfl contract

end Site

namespace Emit

variable {signatures : Signatures} {code : Emit Unit}

/-- A part, in place or as a function of its own. -/
theorem Conducts.within (h : code.Conducts signatures) (e : Expr) :
    (within e code).Conducts signatures where
  tame := .within e h.tame
  staffs := Staffs.get_bind fun d => by
    split
    · exact .outline h e
    · exact h.staffs
  safe d p d' p' w site R hosts pools fits := by
    rw [Emit.within, writes_get_bind] at w
    split at w
    · obtain ⟨vs, d₁, q, w₁, w₂⟩ := writes_bind.1 w
      obtain ⟨hv, rfl, rfl⟩ := writes_lookupAll.1 w₁
      obtain ⟨k, d₁, p₂, w₃, w₄⟩ := writes_bind.1 w₂
      obtain ⟨w₅, rfl⟩ := writes_lift.1 w₃
      obtain ⟨rfl, rfl⟩ := writes_emit.1 w₄
      have staffs := h.defineNew _ _ _ _ _ w₅
      obtain ⟨rfl, draft, p₁, f, w₆, done, size, inside⟩ := hosts_defineNew h.tame w₅
      have known := (inside _ pools).2
      have room : q.functions.size < p'.functions.size := by
        have := (h.tame.pools w₆).functions
        simp only [Array.size_push] at this
        omega
      have serves := staffs.serves site.setting R pools fits _ (Nat.le_refl _) room
      intro start σ steady next
      refine Site.safe_call hosts (Array.getElem?_eq_some_iff.1 known).1 (fun σ' steady' => ?_)
        steady fun σ' same contract => next σ' (same ▸ .refl _ _) contract
      obtain ⟨xs, slots, proper, -⟩ := steady'.values hv
      exact ⟨xs, slots, proper, .inr serves⟩
    · exact h.safe d p d' p' w site R hosts pools fits

end Emit

end Packrat
