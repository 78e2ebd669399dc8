import Packrat.Proofs.Conduct.Rounds
import Packrat.Proofs.Simulation.Operators

/-
**Levels of operators behave.**

A level calls the one below it for its operands, and hands on its own parameters.  Between two rounds
of its loop a slot holds what has been read so far: a list of operators, an operand with the operators
around it, or an odd number of operands and operators, which is what can be folded in the end.

Main definitions:

* `Packrat.Site.Supplies` — the level below may be called;
* `Packrat.Site.Holding`, `Packrat.Site.Chained` — what a slot holds between two rounds.

Main results:

* `Packrat.Site.behaves_operatorStep` — an operator and an operand behind it behave;
* `Packrat.Site.above_level` — **the body of a level is safe if the level below may be called**;
* `Packrat.Expr.serves_levels`, `Packrat.Expr.conducts_operators` — operator tables behave.
-/

set_option autoImplicit false

namespace Packrat

variable {signatures : Signatures}

/-! ### Operands -/

/-- The level below may be called with the parameters. -/
def Site.Supplies (site : Site) (R : Regime) (scope : List (String × Nat)) (below arity : Nat) :
    Prop :=
  ∀ d : Draft, d.scope = scope →
    site.function.Hosts (d.add (.call (.function below) (List.range arity))) →
    site.Safe R d (d.add (.call (.function below) (List.range arity)))

/-- A function that serves may be called from a function with the same parameters. -/
theorem Site.supplies {site : Site} {R : Regime} {k budget : Nat} {params : List String}
    {name : String} (known : k < site.setting.program.functions.size)
    (serves : site.setting.Serves R k) (nodup : params.Nodup) :
    site.Supplies R (Draft.begin name params budget).scope k params.length := by
  intro d scope code start σ steady next
  refine Site.safe_call code known (fun σ' steady' => ?_) steady fun σ' same contract =>
    next σ' (same ▸ .refl _ _) contract
  obtain ⟨xs, slots, proper, -⟩ := steady'.values
    (show params.mapM (fun n => d.scope.lookup n) = some (List.range params.length) by
      rw [scope]
      exact Draft.lookups_begin nodup)
  exact ⟨xs, slots, proper, .inr serves⟩

namespace Site

variable {site : Site} {R : Regime} {d d₀ d' : Draft} {p p' : Pools}
variable {start bound below arity exit target acc : Nat} {σ σ₀ : Moment} {operator : Emit Unit}

/-- An operator and an operand behind it: where one of them fails, what was read is given back. -/
theorem behaves_operatorStep [Regex.Engine] (h : operator.Conducts signatures) {back op : Nat}
    (w : (Emit.operatorStep operator below arity exit).Writes d p (back, op) d' p')
    (code : site.function.Hosts d') (pools : site.setting.program.Hosts p')
    (fits : R.Fits site.setting signatures p.ruleFunctions)
    (operand : site.Supplies R d.scope below arity)
    (exits : site.function.labels[exit]? = some target) (steady : site.Steady R d start σ)
    (success : ∀ σ' o, back = d.slots → Keeps d.slots σ.slots σ'.slots →
      σ'.slots[back]? = some (.ofPos σ.pos) → σ'.slots[op]? = some o → o.Proper R.may →
      d.slots < op → σ.pos ≤ σ'.pos → σ'.pos ≤ site.setting.bytes.size →
      σ'.result.Proper R.may → site.Behaves R start d'.code.size σ')
    (failure : ∀ σ', Keeps d.slots σ.slots σ'.slots → σ'.pos = σ.pos →
      site.Behaves R start target σ') : site.Behaves R start d.code.size σ := by
  rw [Emit.operatorStep] at w
  obtain ⟨_, d₁, p₁, w₁, wa⟩ := Emit.writes_bind.1 w
  obtain ⟨rfl, rfl, rfl⟩ := Emit.writes_checkpoint.1 w₁
  obtain ⟨_, d₂, p₂, w₂, wb⟩ := Emit.writes_bind.1 wa
  obtain ⟨_, d₃, p₃, w₃, wc⟩ := Emit.writes_bind.1 wb
  obtain ⟨retreat, rfl⟩ := Site.writes_retreat w₃
  obtain ⟨_, d₄, p₄, w₄, wd⟩ := Emit.writes_bind.1 wc
  obtain ⟨rfl, rfl, rfl⟩ := Emit.writes_storeResult.1 w₄
  rw [Emit.callOperand, Emit.writes_emit_bind] at wd
  obtain ⟨_, d₅, p₅, w₅, w₆⟩ := Emit.writes_bind.1 wd
  obtain ⟨retreat', rfl⟩ := Site.writes_retreat w₅
  obtain ⟨pair, rfl, rfl⟩ := Emit.writes_pure.1 w₆
  obtain ⟨rfl, rfl⟩ := Prod.mk.inj pair
  have calling := code.back retreat'
  have storing := calling.add
  have retreating := storing.add.addSlot
  have grown := (h.tame.draft w₂).trans retreat
  have room : d.slots + 1 ≤ d₃.slots := grown.slots
  have small := steady.small fits.small
  refine behaves_tried h w₂ w₃ retreating pools fits exits steady
    (fun σ₁ keeps₁ kept₁ forward₁ inside₁ proper₁ => ?_) failure
  have here₁ : site.Within start σ₁ := ⟨Nat.le_trans steady.forward forward₁, inside₁⟩
  have steady₁ : site.Steady R d₃ start σ₁ := steady.next keeps₁ here₁ grown.scope (by omega)
  obtain ⟨steady₂, saved⟩ := steady₁.store storing σ₁.result
  have kept₂ := (getElem?_set_ne (by omega : d₃.slots ≠ d.slots) σ₁.result).trans kept₁
  refine behaves_store (d := d₃.addSlot) storing here₁ rfl
    (operand (d₃.addSlot.add (.store d₃.slots .result)) grown.scope calling start _ steady₂
      fun σ₂ keeps₂ contract => ?_)
  have keeps : Keeps d.slots σ.slots σ₂.slots :=
    (keeps₁.trans (.set _ (by omega) _)).trans (keeps₂.mono (by simp [Draft.add, Draft.addSlot]; omega))
  have before := keeps₂.kept (by simp [Draft.add, Draft.addSlot]; omega) kept₂
  refine behaves_retreat w₅ code (steady₂.toWithin.next contract) exits before small steady.forward
    steady.inside (fun hs => ?_) fun _ => failure _ keeps rfl
  exact success σ₂ σ₁.result rfl keeps before
    (keeps₂.kept (by simp [Draft.add, Draft.addSlot]) saved) proper₁ (by omega)
    (Nat.le_trans forward₁ contract.forward) contract.inside (contract.success hs)

/-! ### Between two rounds -/

/-- A slot holds a proper value. -/
def Holding (R : Regime) (acc : Nat) (slots : Array Value) : Prop :=
  ∃ x, slots[acc]? = some x ∧ x.Proper R.may

/-- A slot holds an odd number of operands and operators. -/
def Chained (R : Regime) (spine : Nat) (slots : Array Value) : Prop :=
  ∃ id items, slots[spine]? = some (.list id items) ∧ Value.AllProper R.may items ∧
    items.length % 2 = 1

theorem Holding.kept {xs ys : Array Value} (h : Holding R acc xs) (keeps : Keeps bound xs ys)
    (lt : acc < bound) : Holding R acc ys := by
  obtain ⟨x, held, proper⟩ := h
  exact ⟨x, keeps.kept lt held, proper⟩

theorem Chained.kept {xs ys : Array Value} (h : Chained R acc xs) (keeps : Keeps bound xs ys)
    (lt : acc < bound) : Chained R acc ys := by
  obtain ⟨id, items, held, proper, odd⟩ := h
  exact ⟨id, items, keeps.kept lt held, proper, odd⟩

variable {inv : Array Value → Prop} {x : Value}

/-- A round has put another value into a slot. -/
theorem Midway.put (mid : site.Midway bound σ₀ inv σ) (low : bound ≤ acc)
    (room : acc < σ.slots.size) (proper : x.Proper R.may) :
    site.Midway bound σ₀ (Holding R acc) (σ.set acc x) :=
  ⟨mid.keeps.trans (.set _ low _), mid.forward, mid.inside, x, getElem?_set_self room _, proper⟩

/-! ### Rounds -/

/-- Rounds of a level, each of which keeps an invariant. -/
def Adds (signatures : Signatures) (inv : Regime → Nat → Array Value → Prop)
    (acc below arity : Nat) (body : Nat → Nat → Emit Unit) : Prop :=
  ∀ top exit d p d' p', (body top exit).Writes d p () d' p' → ∀ (site : Site) (R : Regime)
    (topAt exitAt start bound : Nat) (σ₀ σ : Moment), site.function.Hosts (d'.add (.jump top)) →
    site.setting.program.Hosts p' → R.Fits site.setting signatures p.ruleFunctions →
    site.Supplies R d.scope below arity → site.function.labels[top]? = some topAt →
    site.function.labels[exit]? = some exitAt → bound ≤ acc → acc < d.slots →
    site.Steady R d start σ → site.Midway bound σ₀ (inv R acc) σ →
    (∀ σ', site.Midway bound σ₀ (inv R acc) σ' → σ.pos < σ'.pos → site.Behaves R start topAt σ') →
    (∀ σ', site.Midway bound σ₀ (inv R acc) σ' → site.Behaves R start exitAt σ') →
    site.Behaves R start d.code.size σ

variable [Regex.Engine]

/-- The loop of a level. -/
theorem Adds.loop {inv : Regime → Nat → Array Value → Prop} {body : Nat → Nat → Emit Unit}
    (adds : Adds signatures inv acc below arity body) (tame : ∀ top exit, (body top exit).Tame)
    (w : (Emit.loop body).Writes d p () d' p') (code : site.function.Hosts d')
    (pools : site.setting.program.Hosts p')
    (fits : R.Fits site.setting signatures p.ruleFunctions)
    (operand : site.Supplies R d.scope below arity) (begun : site.Steady R d₀ start σ₀)
    (scope : d.scope = d₀.scope) (low : d₀.slots ≤ acc) (lt : acc < d.slots)
    (mid : site.Midway d₀.slots σ₀ (inv R acc) σ)
    (next : ∀ σ', site.Midway d₀.slots σ₀ (inv R acc) σ' → site.Behaves R start d'.code.size σ') :
    site.Behaves R start d.code.size σ := by
  refine behaves_rounds body tame w code (fun d₁ d₂ topAt w₁ same slots hosts tops exits σ mid
    again => ?_) mid
  exact adds _ _ _ _ _ _ w₁ site R topAt _ start d₀.slots σ₀ σ hosts pools fits (by rwa [same]) tops
    exits low (by rwa [slots]) (mid.steady begun (same.trans scope) (by omega)) mid again next

variable (h : operator.Conducts signatures)

include h

theorem adds_prefixOps (ops below arity : Nat) :
    Adds signatures (fun R => Lists R) ops below arity (fun _ exit => do
      let back ← Emit.checkpoint
      operator
      Emit.retreatOnFailure back exit
      Emit.emit (.push ops .result)
      Emit.emit (.branch (.posEq back) exit)) := by
  intro top exit d p d' p' w site R topAt exitAt start bound σ₀ σ code pools fits _ tops exits low lt
    steady mid again last
  obtain ⟨back, d₁, p₁, w₁, wa⟩ := Emit.writes_bind.1 w
  obtain ⟨rfl, rfl, rfl⟩ := Emit.writes_checkpoint.1 w₁
  obtain ⟨_, d₂, p₂, w₂, wb⟩ := Emit.writes_bind.1 wa
  obtain ⟨_, d₃, p₃, w₃, w₄⟩ := Emit.writes_bind.1 wb
  obtain ⟨-, rfl⟩ := Site.writes_retreat w₃
  obtain ⟨rfl, rfl⟩ := Emit.writes_emit_emit.1 w₄
  have small := steady.small fits.small
  refine behaves_tried h w₂ w₃ code.add.add.add pools fits exits steady
    (fun σ₁ keeps kept forward inside proper => ?_) fun σ₁ keeps pos => ?_
  · have here : site.Within start σ₁ := ⟨Nat.le_trans steady.forward forward, inside⟩
    have mid₁ := mid.part keeps (by omega) forward inside (mid.inv.kept keeps lt)
    obtain ⟨id, items, held, all⟩ := mid₁.inv
    have mid₂ := mid₁.lists (i := id) low (all.append (.cons proper .nil))
    exact behaves_push code.add.add here rfl held (behaves_again code tops exits
      ⟨here.forward, here.inside⟩ ((getElem?_set_ne (Nat.ne_of_lt lt) _).trans kept) small forward
      (again _ mid₂) (last _ mid₂))
  · refine last _ (mid.part keeps (by omega) (Nat.le_of_eq pos.symm) ?_ (mid.inv.kept keeps lt))
    rw [pos]
    exact mid.inside

theorem adds_postfixOps (acc below arity : Nat) :
    Adds signatures (fun R => Holding R) acc below arity (fun _ exit => do
      let back ← Emit.checkpoint
      operator
      Emit.retreatOnFailure back exit
      Emit.emit (.makePostfix acc)
      Emit.emit (.store acc .result)
      Emit.emit (.branch (.posEq back) exit)) := by
  intro top exit d p d' p' w site R topAt exitAt start bound σ₀ σ code pools fits _ tops exits low lt
    steady mid again last
  obtain ⟨back, d₁, p₁, w₁, wa⟩ := Emit.writes_bind.1 w
  obtain ⟨rfl, rfl, rfl⟩ := Emit.writes_checkpoint.1 w₁
  obtain ⟨_, d₂, p₂, w₂, wb⟩ := Emit.writes_bind.1 wa
  obtain ⟨_, d₃, p₃, w₃, w₄⟩ := Emit.writes_bind.1 wb
  obtain ⟨-, rfl⟩ := Site.writes_retreat w₃
  rw [Emit.writes_emit_bind, Emit.writes_emit_emit] at w₄
  obtain ⟨rfl, rfl⟩ := w₄
  have small := steady.small fits.small
  refine behaves_tried h w₂ w₃ code.add.add.add.add pools fits exits steady
    (fun σ₁ keeps kept forward inside proper => ?_) fun σ₁ keeps pos => ?_
  · have here : site.Within start σ₁ := ⟨Nat.le_trans steady.forward forward, inside⟩
    have mid₁ := mid.part keeps (by omega) forward inside (mid.inv.kept keeps lt)
    obtain ⟨x, held, hx⟩ := mid₁.inv
    refine behaves_makePostfix code.add.add.add here held fun id => ?_
    have made : (Value.node id .postfixOp [x, σ₁.result] none).Proper R.may :=
      .node id _ _ (.cons hx (.cons proper .nil))
    have mid₂ := mid₁.put low (Array.getElem?_eq_some_iff.1 held).1 made
    have mid₃ : site.Midway bound σ₀ (Holding R acc)
        ({ σ₁ with result := .node id .postfixOp [x, σ₁.result] none }.set acc
          (.node id .postfixOp [x, σ₁.result] none)) :=
      ⟨mid₂.keeps, mid₂.forward, mid₂.inside, mid₂.inv⟩
    exact behaves_store code.add.add ⟨here.forward, here.inside⟩ rfl (behaves_again code tops exits
      ⟨here.forward, here.inside⟩ ((getElem?_set_ne (Nat.ne_of_lt lt) _).trans kept) small forward
      (again _ mid₃) (last _ mid₃))
  · refine last _ (mid.part keeps (by omega) (Nat.le_of_eq pos.symm) ?_ (mid.inv.kept keeps lt))
    rw [pos]
    exact mid.inside

theorem adds_infixOps (once : Bool) (acc below arity : Nat) :
    Adds signatures (fun R => Holding R) acc below arity (fun _ exit => do
      let (back, op) ← Emit.operatorStep operator below arity exit
      Emit.emit (.makeInfix acc op)
      Emit.emit (.store acc .result)
      Emit.emit (if once then .jump exit else .branch (.posEq back) exit)) := by
  intro top exit d p d' p' w site R topAt exitAt start bound σ₀ σ code pools fits operand tops exits
    low lt steady mid again last
  obtain ⟨⟨back, op⟩, d₁, p₁, w₁, w₂⟩ := Emit.writes_bind.1 w
  rw [Emit.writes_emit_bind, Emit.writes_emit_emit] at w₂
  obtain ⟨rfl, rfl⟩ := w₂
  refine behaves_operatorStep h w₁ code.add.add.add.add pools fits operand exits steady
    (fun σ₁ o at_ keeps kept held ho above forward inside proper => ?_) fun σ₁ keeps pos => ?_
  · subst at_
    have here : site.Within start σ₁ := ⟨Nat.le_trans steady.forward forward, inside⟩
    have mid₁ := mid.part keeps (by omega) forward inside (mid.inv.kept keeps lt)
    obtain ⟨x, held', hx⟩ := mid₁.inv
    refine behaves_makeInfix code.add.add.add here held' held fun id => ?_
    have made : (Value.node id .infixOp [x, o, σ₁.result] none).Proper R.may :=
      .node id _ _ (.cons hx (.cons ho (.cons proper .nil)))
    have mid₂ := mid₁.put low (Array.getElem?_eq_some_iff.1 held').1 made
    have mid₃ : site.Midway bound σ₀ (Holding R acc)
        ({ σ₁ with result := .node id .infixOp [x, o, σ₁.result] none }.set acc
          (.node id .infixOp [x, o, σ₁.result] none)) :=
      ⟨mid₂.keeps, mid₂.forward, mid₂.inside, mid₂.inv⟩
    refine behaves_store code.add.add ⟨here.forward, here.inside⟩ rfl ?_
    cases once with
    | true => exact behaves_jump code.add ⟨here.forward, here.inside⟩ exits (last _ mid₃)
    | false =>
        exact behaves_again code tops exits ⟨here.forward, here.inside⟩
          ((getElem?_set_ne (Nat.ne_of_lt lt) _).trans kept) (steady.small fits.small) forward
          (again _ mid₃) (last _ mid₃)
  · refine last _ (mid.part keeps (by omega) (Nat.le_of_eq pos.symm) ?_ (mid.inv.kept keeps lt))
    rw [pos]
    exact mid.inside

theorem adds_link (spine below arity : Nat) :
    Adds signatures (fun R => Chained R) spine below arity (fun _ exit => do
      let (back, op) ← Emit.operatorStep operator below arity exit
      Emit.emit (.push spine (.slot op))
      Emit.emit (.push spine .result)
      Emit.emit (.branch (.posEq back) exit)) := by
  intro top exit d p d' p' w site R topAt exitAt start bound σ₀ σ code pools fits operand tops exits
    low lt steady mid again last
  obtain ⟨⟨back, op⟩, d₁, p₁, w₁, w₂⟩ := Emit.writes_bind.1 w
  rw [Emit.writes_emit_bind, Emit.writes_emit_emit] at w₂
  obtain ⟨rfl, rfl⟩ := w₂
  refine behaves_operatorStep h w₁ code.add.add.add.add pools fits operand exits steady
    (fun σ₁ o at_ keeps kept held ho above forward inside proper => ?_) fun σ₁ keeps pos => ?_
  · subst at_
    have here : site.Within start σ₁ := ⟨Nat.le_trans steady.forward forward, inside⟩
    have mid₁ := mid.part keeps (by omega) forward inside (mid.inv.kept keeps lt)
    obtain ⟨id, items, held', all, odd⟩ := mid₁.inv
    have room := (Array.getElem?_eq_some_iff.1 held').1
    have first := getElem?_set_self room (.list id (items ++ [o]))
    have mid₂ : site.Midway bound σ₀ (Chained R spine)
        ((σ₁.set spine (.list id (items ++ [o]))).set spine
          (.list id ((items ++ [o]) ++ [σ₁.result]))) :=
      ⟨(mid₁.keeps.trans (.set _ low _)).trans (.set _ low _), mid₁.forward, mid₁.inside, id,
        (items ++ [o]) ++ [σ₁.result], getElem?_set_self (Array.getElem?_eq_some_iff.1 first).1 _,
        (all.append (.cons ho .nil)).append (.cons proper .nil), by simp; omega⟩
    exact behaves_push code.add.add.add here (frame_slot held) held'
      (behaves_push code.add.add ⟨here.forward, here.inside⟩ rfl first (behaves_again code tops exits
        ⟨here.forward, here.inside⟩ ((getElem?_set_ne (Nat.ne_of_lt lt) _).trans
          ((getElem?_set_ne (Nat.ne_of_lt lt) _).trans kept)) (steady.small fits.small) forward
        (again _ mid₂) (last _ mid₂)))
  · refine last _ (mid.part keeps (by omega) (Nat.le_of_eq pos.symm) ?_ (mid.inv.kept keeps lt))
    rw [pos]
    exact mid.inside

/-! ### Levels -/

/-- Code that is safe if the level below may be called. -/
def Above (signatures : Signatures) (below arity : Nat) (code : Emit Unit) : Prop :=
  ∀ d p d' p', code.Writes d p () d' p' → ∀ (site : Site) (R : Regime), site.function.Hosts d' →
    site.setting.program.Hosts p' → R.Fits site.setting signatures p.ruleFunctions →
    site.Supplies R d.scope below arity → site.Safe R d d'

omit h in
/-- An operand, and rounds that put operators around it. -/
theorem Adds.around {body : Nat → Nat → Nat → Emit Unit}
    (adds : ∀ acc, Adds signatures (fun R => Holding R) acc below arity (body acc))
    (tame : ∀ acc top exit, (body acc top exit).Tame) :
    Above signatures below arity (Emit.block fun out => do
      Emit.callOperand below arity
      Emit.leaveOnFailure out
      let acc ← Emit.storeResult
      Emit.loop (body acc)
      Emit.succeedWith (.slot acc)) := by
  intro d p d' p' w site R code pools fits operand start σ steady next
  have tames (out : Nat) : Emit.Tame (do
      Emit.callOperand below arity
      Emit.leaveOnFailure out
      let acc ← Emit.storeResult
      Emit.loop (body acc)
      Emit.succeedWith (.slot acc)) :=
    (Emit.Tame.emit _).bind fun _ => (Emit.Tame.leaveOnFailure _).bind fun _ =>
      Emit.Tame.storeResult.bind fun acc => (Emit.Tame.loop (tame acc)).bind fun _ => .succeedWith _
  obtain ⟨d₁, w₁, size, hosts⟩ := Emit.hosts_block tames w
  rw [Emit.callOperand, Emit.writes_emit_bind] at w₁
  obtain ⟨_, d₂, p₂, w₂, wa⟩ := Emit.writes_bind.1 w₁
  obtain ⟨rfl, rfl⟩ := Emit.writes_leaveOnFailure.1 w₂
  obtain ⟨acc, d₃, p₃, w₃, wb⟩ := Emit.writes_bind.1 wa
  obtain ⟨rfl, rfl, rfl⟩ := Emit.writes_storeResult.1 w₃
  obtain ⟨_, d₄, p₄, w₄, w₅⟩ := Emit.writes_bind.1 wb
  obtain ⟨rfl, rfl⟩ := Emit.writes_succeedWith.1 w₅
  obtain ⟨body, exit⟩ := hosts _ code
  rw [size] at next
  have storing := body.add.add.back ((Emit.Tame.loop (tame _)).draft w₄)
  have leaving := storing.add.addSlot
  refine operand (Emit.entered (Draft.addLabel _)) rfl leaving.add start σ
    (steady.recast rfl (Nat.le_refl _)) fun σ₁ keeps contract => ?_
  have here : site.Within start σ₁ := steady.toWithin.next contract
  refine behaves_notStatus leaving here exit (fun hs => ?_) fun _ => next σ₁ keeps contract
  have room : d.slots < σ₁.slots.size := by
    rw [keeps.size, steady.size]
    exact storing.add.slots
  have mid : site.Midway d.slots σ (Holding R d.slots) (σ₁.set d.slots σ₁.result) :=
    ⟨keeps.trans (.set _ (Nat.le_refl _) _), contract.forward, contract.inside, σ₁.result,
      getElem?_set_self room _, contract.success hs⟩
  refine behaves_store (d := Draft.addSlot _) storing here rfl ((adds _).loop (tame _) w₄ body.add.add
    pools fits operand steady rfl (Nat.le_refl _) (Nat.lt_succ_self _) mid fun σ₂ mid₂ => ?_)
  obtain ⟨x, held, proper⟩ := mid₂.inv
  exact behaves_succeedWith body (mid₂.within steady.toWithin) (frame_slot held)
    (next _ mid₂.keeps (.of_success mid₂.forward mid₂.inside proper))

theorem above_prefixLevel (below arity : Nat) :
    Above signatures below arity (Emit.prefixLevel operator below arity) := by
  intro d p d' p' w site R code pools fits operand start σ steady next
  rw [Emit.prefixLevel] at w
  obtain ⟨ops, d₁, p₁, w₁, wa⟩ := Emit.writes_bind.1 w
  obtain ⟨rfl, rfl, rfl⟩ := Emit.writes_slot.1 w₁
  rw [Emit.writes_emit_bind] at wa
  obtain ⟨_, d₂, p₂, w₂, wb⟩ := Emit.writes_bind.1 wa
  rw [Emit.callOperand, Emit.writes_emit_bind] at wb
  obtain ⟨d₃, w₃, size, hosts⟩ := Emit.hosts_ifThen (.emit _) wb
  obtain ⟨rfl, rfl⟩ := Emit.writes_emit.1 w₃
  have tames (_ exit : Nat) : Emit.Tame (do
      let back ← Emit.checkpoint
      operator
      Emit.retreatOnFailure back exit
      Emit.emit (.push d.slots .result)
      Emit.emit (.branch (.posEq back) exit)) :=
    Emit.Tame.checkpoint.bind fun _ => h.tame.bind fun _ => (Emit.Tame.retreatOnFailure _ _).bind
      fun _ => (Emit.Tame.emit _).bind fun _ => .emit _
  have grown := (Emit.Tame.loop tames).draft w₂
  obtain ⟨folding, branch, skipped⟩ := hosts _ code
  have calling := branch.add.addLabel
  have looping := calling.add
  have begins := looping.back grown
  have above : d.slots + 1 ≤ d₂.slots := grown.slots
  refine behaves_newList (d := d.addSlot) begins steady.toWithin fun id => ?_
  obtain ⟨steady₁, list⟩ := steady.store (i := .newList d.slots) begins (.list id [])
  have mid : site.Midway d.slots σ (Lists R d.slots) (σ.set d.slots (.list id [])) :=
    ⟨.set _ (Nat.le_refl _) _, Nat.le_refl _, steady.inside, id, [], list, .nil⟩
  refine (adds_prefixOps h d.slots below arity).loop tames w₂ looping pools fits operand steady rfl
    (Nat.le_refl _) (Nat.lt_succ_self _) mid fun σ₂ mid₂ => ?_
  have low : d.slots ≤ d₂.slots := by omega
  refine operand d₂ grown.scope calling start σ₂ (mid₂.steady steady grown.scope low)
    fun σ₃ keeps₃ contract => ?_
  have mid₃ := mid₂.part keeps₃ low contract.forward contract.inside (mid₂.inv.kept keeps₃ above)
  have here := mid₃.within steady.toWithin
  refine behaves_notStatus (d := Draft.addLabel _) branch here skipped (fun hs => ?_) fun hs => ?_
  · obtain ⟨id, items, held, all⟩ := mid₃.inv
    refine behaves_foldPrefix (d := Emit.entered _) folding here held all (contract.success hs)
      fun x proper => ?_
    rw [← size]
    refine next _ mid₃.keeps ⟨mid₃.forward, mid₃.inside, fun _ => proper, fun failed => ?_⟩
    exact absurd (hs.symm.trans failed) (by simp)
  · rw [← size]
    exact next σ₃ mid₃.keeps (contract.earlier mid₂.forward)

theorem above_rightLevel (below arity : Nat) :
    Above signatures below arity (Emit.rightLevel operator below arity) := by
  intro d p d' p' w site R code pools fits operand start σ steady next
  rw [Emit.rightLevel] at w
  have tames (spine top exit : Nat) : Emit.Tame (do
      let (back, op) ← Emit.operatorStep operator below arity exit
      Emit.emit (.push spine (.slot op))
      Emit.emit (.push spine .result)
      Emit.emit (.branch (.posEq back) exit)) :=
    (Emit.Tame.operatorStep h.tame _ _ _).bind fun _ => (Emit.Tame.emit _).bind fun _ =>
      (Emit.Tame.emit _).bind fun _ => .emit _
  obtain ⟨d₁, w₁, size, hosts⟩ := Emit.hosts_block (fun out =>
    Emit.Tame.slot.bind fun spine => (Emit.Tame.emit _).bind fun _ => (Emit.Tame.emit _).bind
      fun _ => (Emit.Tame.leaveOnFailure out).bind fun _ => (Emit.Tame.emit _).bind fun _ =>
        (Emit.Tame.loop (tames spine)).bind fun _ => (Emit.Tame.emit _).bind fun _ => .emit _) w
  obtain ⟨spine, d₂, p₂, w₂, wa⟩ := Emit.writes_bind.1 w₁
  obtain ⟨rfl, rfl, rfl⟩ := Emit.writes_slot.1 w₂
  simp only [Emit.leaveOnFailure, Emit.writes_emit_bind] at wa
  obtain ⟨_, d₃, p₃, w₃, w₄⟩ := Emit.writes_bind.1 wa
  obtain ⟨rfl, rfl⟩ := Emit.writes_emit_emit.1 w₄
  obtain ⟨body, exit⟩ := hosts _ code
  rw [size] at next
  have pushing := body.add.add.back ((Emit.Tame.loop (tames _)).draft w₃)
  have leaving := pushing.add
  have begins := leaving.add.add
  have steady₀ : site.Steady R (Emit.entered d.addLabel) start σ :=
    steady.recast rfl (Nat.le_refl _)
  refine behaves_newList (d := Draft.addSlot (Emit.entered (Draft.addLabel _))) begins
    steady.toWithin fun id => ?_
  obtain ⟨steady₁, list⟩ := steady₀.store (i := .newList d.slots) begins (.list id [])
  refine operand (Draft.add (Draft.addSlot (Emit.entered (Draft.addLabel _))) _) rfl leaving.add
    start _ steady₁ fun σ₁ keeps₁ contract => ?_
  have here : site.Within start σ₁ := steady.toWithin.next contract
  have keeps : Keeps d.slots σ.slots σ₁.slots :=
    (Keeps.set _ (Nat.le_refl _) _).trans (keeps₁.mono (Nat.le_succ d.slots))
  refine behaves_notStatus leaving here exit (fun hs => ?_) fun _ => next σ₁ keeps contract
  have held := keeps₁.kept (Nat.lt_succ_self d.slots) list
  have mid : site.Midway d.slots σ (Chained R d.slots)
      (σ₁.set d.slots (.list id ([] ++ [σ₁.result]))) :=
    ⟨keeps.trans (.set _ (Nat.le_refl _) _), contract.forward, contract.inside, id, [σ₁.result],
      getElem?_set_self (Array.getElem?_eq_some_iff.1 held).1 _, .cons (contract.success hs) .nil,
      rfl⟩
  refine behaves_push pushing here rfl held ((adds_link h d.slots below arity).loop (tames _) w₃
    body.add.add pools fits operand steady rfl (Nat.le_refl _) (Nat.lt_succ_self _) mid
    fun σ₂ mid₂ => ?_)
  obtain ⟨_, items, held₂, all, odd⟩ := mid₂.inv
  have here₂ := mid₂.within steady.toWithin
  exact behaves_foldRight body.add here₂ held₂ all odd fun x proper =>
    behaves_setStatus body ⟨here₂.forward, here₂.inside⟩
      (next _ mid₂.keeps (.of_success mid₂.forward mid₂.inside proper))

/-- The body of a level is safe if the level below may be called. -/
theorem above_level (fixity : Fixity) (below arity : Nat) :
    Above signatures below arity (Emit.level fixity operator below arity) := by
  cases fixity with
  | prefixOp => exact above_prefixLevel h below arity
  | rightAssoc => exact above_rightLevel h below arity
  | postfixOp =>
      exact Adds.around (fun acc => adds_postfixOps h acc below arity) fun _ _ _ =>
        Emit.Tame.checkpoint.bind fun _ => h.tame.bind fun _ =>
          (Emit.Tame.retreatOnFailure _ _).bind fun _ => (Emit.Tame.emit _).bind fun _ =>
            (Emit.Tame.emit _).bind fun _ => .emit _
  | leftAssoc =>
      exact Adds.around (fun acc => adds_infixOps h false acc below arity) fun _ _ _ =>
        (Emit.Tame.operatorStep h.tame _ _ _).bind fun _ => (Emit.Tame.emit _).bind fun _ =>
          (Emit.Tame.emit _).bind fun _ => .emit _
  | nonAssoc =>
      exact Adds.around (fun acc => adds_infixOps h true acc below arity) fun _ _ _ =>
        (Emit.Tame.operatorStep h.tame _ _ _).bind fun _ => (Emit.Tame.emit _).bind fun _ =>
          (Emit.Tame.emit _).bind fun _ => .emit _

end Site

/-! ### Functions of levels -/

variable [Regex.Engine]

namespace Emit.Staffs

variable {operator : Emit Unit}

theorem operatorStep (h : operator.Staffs signatures) (below arity exit : Nat) :
    (Emit.operatorStep operator below arity exit).Staffs signatures :=
  checkpoint.bind fun _ => h.bind fun _ => (retreatOnFailure _ _).bind fun _ =>
    storeResult.bind fun _ => (emit _).bind fun _ => (retreatOnFailure _ _).bind fun _ => pure _

theorem level (fixity : Fixity) (h : operator.Staffs signatures) (below arity : Nat) :
    (Emit.level fixity operator below arity).Staffs signatures := by
  have leftLevel (once : Bool) : (Emit.leftLevel once operator below arity).Staffs signatures :=
    block fun _ => (emit _).bind fun _ => (leaveOnFailure _).bind fun _ => storeResult.bind fun _ =>
      (loop fun _ _ => (operatorStep h below arity _).bind fun _ => (emit _).bind fun _ =>
        (emit _).bind fun _ => emit _).bind fun _ => succeedWith _
  cases fixity with
  | prefixOp =>
      exact slot.bind fun _ => (emit _).bind fun _ =>
        (loop fun _ _ => checkpoint.bind fun _ => h.bind fun _ => (retreatOnFailure _ _).bind fun _ =>
          (emit _).bind fun _ => emit _).bind fun _ => (emit _).bind fun _ => ifThen _ (emit _)
  | postfixOp =>
      exact block fun _ => (emit _).bind fun _ => (leaveOnFailure _).bind fun _ =>
        storeResult.bind fun _ => (loop fun _ _ => checkpoint.bind fun _ => h.bind fun _ =>
          (retreatOnFailure _ _).bind fun _ => (emit _).bind fun _ => (emit _).bind fun _ =>
            emit _).bind fun _ => succeedWith _
  | leftAssoc => exact leftLevel false
  | nonAssoc => exact leftLevel true
  | rightAssoc =>
      exact block fun _ => slot.bind fun _ => (emit _).bind fun _ => (emit _).bind fun _ =>
        (leaveOnFailure _).bind fun _ => (emit _).bind fun _ =>
          (loop fun _ _ => (operatorStep h below arity _).bind fun _ => (emit _).bind fun _ =>
            (emit _).bind fun _ => emit _).bind fun _ => (emit _).bind fun _ => emit _

end Emit.Staffs

namespace Expr

/-- The functions of levels serve if the one below them does. -/
theorem serves_levels {levels : List (Fixity × Expr)}
    (all : ∀ level ∈ levels, level.2.emit.Conducts signatures) {id below index k : Nat}
    {params : List String} {p p' : Pools} (nodup : params.Nodup)
    (w : (emitLevels id params below index levels).Adds p k p') {setting : Setting} {R : Regime}
    (pools : setting.program.Hosts p') (fits : R.Fits setting signatures p.ruleFunctions)
    (known : below < setting.program.functions.size) (serves : setting.Serves R below) :
    (k < setting.program.functions.size ∧ setting.Serves R k) ∧
      ∀ j, p.functions.size ≤ j → j < p'.functions.size → setting.Serves R j := by
  induction levels generalizing below index p with
  | nil =>
      obtain ⟨rfl, rfl⟩ := Build.adds_pure.1 w
      exact ⟨⟨known, serves⟩, fun j low high => absurd high (by omega)⟩
  | cons level levels ih =>
      obtain ⟨fixity, operator⟩ := level
      rw [emitLevels] at w
      obtain ⟨f, p₁, w₁, w₂⟩ := Build.adds_bind.1 w
      have conducts := (all _ (List.mem_cons_self ..)).within operator
      have tame := Emit.Tame.level fixity conducts.tame below params.length
      have grown := (Emit.tame_defineNew _ params tame).pools w₁
      have pools₁ := pools.back ((emitLevels_tame _ _ _ _ _).pools w₂)
      have served := Emit.serves_defineNew tame (.level fixity conducts.staffs _ _) w₁ pools₁ fits
        fun site draft p₂ hs w₃ code within => by
          subst hs
          exact Site.above_level conducts fixity _ _ _ _ _ _ w₃ site R code within fits
            (Site.supplies known serves nodup)
      obtain ⟨rfl, draft, p₂, function, w₃, done, size, hosts⟩ := Emit.hosts_defineNew tame w₁
      have room : p.functions.size < p₁.functions.size := by
        have := (tame.pools w₃).functions
        simp only [Array.size_push] at this
        omega
      obtain ⟨top, rest⟩ := ih (fun level mem => all level (List.mem_cons_of_mem _ mem)) w₂
        (fits.grow grown) (Array.getElem?_eq_some_iff.1 (hosts _ pools₁).2).1
        (served _ (Nat.le_refl _) room)
      refine ⟨top, fun j low high => ?_⟩
      rcases Nat.lt_or_ge j p₁.functions.size with lt | ge
      · exact served j low lt
      · exact rest j ge high

/-- An operator table behaves, and so do the functions of its levels. -/
theorem conducts_operators {atom : Expr} {levels : List (Fixity × Expr)}
    (h : atom.emit.Conducts signatures)
    (all : ∀ level ∈ levels, level.2.emit.Conducts signatures) (tag : Tag) :
    (Expr.operators tag atom levels).emit.Conducts signatures := by
  have nodup : (Expr.operators tag atom levels).freeLocals.Nodup := Text.nodup_sortNames _
  have conducts := h.within atom
  -- Both the functions that are new and the call of the topmost one rest on those of the levels.
  suffices both : ∀ d p d' p', (Expr.operators tag atom levels).emit.Writes d p () d' p' →
      ∃ k vs, d' = d.add (.call (.function k) vs) ∧
        (Expr.operators tag atom levels).freeLocals.mapM (fun n => d.scope.lookup n) = some vs ∧
        ∀ (setting : Setting) (R : Regime), setting.program.Hosts p' →
          R.Fits setting signatures p.ruleFunctions →
          (k < setting.program.functions.size ∧ setting.Serves R k) ∧
            ∀ j, p.functions.size ≤ j → j < p'.functions.size → setting.Serves R j by
    refine ⟨Expr.emit_tame _, fun d p u d' p' w => ?_, fun d p d' p' w site R code pools fits start
      σ steady next => ?_⟩
    · obtain ⟨k, vs, -, -, serves⟩ := both d p d' p' w
      exact ⟨(Expr.emit_tame _).pools w, fun setting R pools fits =>
        (serves setting R pools fits).2⟩
    · obtain ⟨k, vs, rfl, hv, serves⟩ := both d p d' p' w
      obtain ⟨⟨known, serves⟩, -⟩ := serves site.setting R pools fits
      refine Site.safe_call code known (fun σ' steady' => ?_) steady fun σ' same contract =>
        next σ' (same ▸ .refl _ _) contract
      obtain ⟨xs, slots, proper, -⟩ := steady'.values hv
      exact ⟨xs, slots, proper, .inr serves⟩
  intro d p d' p' w
  rw [Expr.emit] at w
  obtain ⟨vs, d₁, p₁, w₁, wa⟩ := Emit.writes_bind.1 w
  obtain ⟨hv, rfl, rfl⟩ := Emit.writes_lookupAll.1 w₁
  obtain ⟨f, d₂, p₂, w₂, wb⟩ := Emit.writes_bind.1 wa
  obtain ⟨w₃, rfl⟩ := Emit.writes_lift.1 w₂
  obtain ⟨k, d₃, p₃, w₄, w₅⟩ := Emit.writes_bind.1 wb
  obtain ⟨w₆, rfl⟩ := Emit.writes_lift.1 w₄
  obtain ⟨rfl, rfl⟩ := Emit.writes_emit.1 w₅
  refine ⟨k, vs, rfl, hv, fun setting R pools fits => ?_⟩
  have grown := (Emit.tame_defineNew _ _ conducts.tame).pools w₃
  have pools₂ := pools.back ((emitLevels_tame _ _ _ _ _).pools w₆)
  have served := (conducts.defineNew _ _ _ _ _ w₃).serves setting R pools₂ fits
  obtain ⟨rfl, draft, p₄, function, w₇, done, size, hosts⟩ := Emit.hosts_defineNew conducts.tame w₃
  have room : p₁.functions.size < p₂.functions.size := by
    have := (conducts.tame.pools w₇).functions
    simp only [Array.size_push] at this
    omega
  obtain ⟨top, rest⟩ := serves_levels all nodup w₆ pools (fits.grow grown)
    (Array.getElem?_eq_some_iff.1 (hosts _ pools₂).2).1 (served _ (Nat.le_refl _) room)
  refine ⟨top, fun j low high => ?_⟩
  rcases Nat.lt_or_ge j p₂.functions.size with lt | ge
  · exact served j low lt
  · exact rest j ge high

end Expr

end Packrat
