import Packrat.Proofs.Conduct.Parts

/-
**Parts within parts behave.**

Optional parts, parts that are looked at but not read, pairs, applications, tests, and sequences
behave if the parts within them do.

Main results:

* `Packrat.Emit.Conducts.optional`, `Packrat.Emit.Conducts.peek`, `Packrat.Emit.Conducts.never` —
  parts that may fail, or must;
* `Packrat.Site.behaves_both` — two parts of which both must succeed;
* `Packrat.Site.behaves_items` — items one after the other.
-/

set_option autoImplicit false

namespace Packrat

variable [Regex.Engine]

variable {signatures : Signatures}

namespace Emit.Safe

variable {inner : Emit Unit}

theorem optional (h : inner.Conducts signatures) : (Emit.optional inner).Safe signatures := by
  intro d p d' p' w site R code pools fits start σ steady next
  rw [Emit.optional] at w
  obtain ⟨back, d₁, p₁, w₁, w₂⟩ := writes_bind.1 w
  obtain ⟨rfl, rfl, rfl⟩ := writes_checkpoint.1 w₁
  obtain ⟨u, d₂, p₂, w₃, w₄⟩ := writes_bind.1 w₂
  obtain ⟨d₃, w₅, size, hosts⟩ := hosts_block (fun _ => h.tame) w₃
  obtain ⟨d₄, w₆, size', hosts'⟩ :=
    hosts_ifThen ((Tame.emit _).bind fun _ => .succeedWith _) w₄
  rw [writes_emit_bind, writes_succeedWith] at w₆
  obtain ⟨rfl, rfl⟩ := w₆
  obtain ⟨body, branch, skipped⟩ := hosts' _ code
  obtain ⟨part, -⟩ := hosts _ branch.add.addLabel
  have begins := (part.back (h.tame.draft w₅)).entered.addLabel
  obtain ⟨steady₁, saved⟩ := steady.store begins (.ofPos σ.pos)
  refine Site.behaves_store (d := d.addSlot) begins steady.toWithin rfl
    (h.safe _ _ _ _ w₅ site R part pools fits start _ (steady₁.recast rfl (Nat.le_refl _))
      fun σ' keeps contract => ?_)
  have here : site.Within start σ' := steady.toWithin.next contract
  rw [← size]
  refine Site.behaves_status (d := Draft.addLabel _) branch here skipped (fun _ => ?_) fun _ => ?_
  · rw [← size']
    exact next σ' keeps.after contract
  · refine Site.behaves_restore (d := entered _) body.add.add here
      (keeps.kept (Nat.lt_succ_self _) saved) (steady.small fits.small)
      (Site.behaves_succeedWith body ⟨steady.forward, steady.inside⟩ rfl ?_)
    rw [← size']
    exact next _ keeps.after (.of_success (Nat.le_refl _) steady.inside .none)

/-- A part that is looked at: behind it the place is the one before it. -/
theorem peek (h : inner.Conducts signatures) : (Emit.peek inner).Safe signatures := by
  intro d p d' p' w site R code pools fits start σ steady next
  rw [Emit.peek] at w
  obtain ⟨back, d₁, p₁, w₁, w₂⟩ := writes_bind.1 w
  obtain ⟨rfl, rfl, rfl⟩ := writes_checkpoint.1 w₁
  obtain ⟨u, d₂, p₂, w₃, w₄⟩ := writes_bind.1 w₂
  obtain ⟨d₃, w₅, size, hosts⟩ := hosts_block (fun _ => h.tame) w₃
  obtain ⟨rfl, rfl⟩ := writes_emit.1 w₄
  obtain ⟨part, -⟩ := hosts _ code.add
  have begins := (part.back (h.tame.draft w₅)).entered.addLabel
  obtain ⟨steady₁, saved⟩ := steady.store begins (.ofPos σ.pos)
  refine Site.behaves_store (d := d.addSlot) begins steady.toWithin rfl
    (h.safe _ _ _ _ w₅ site R part pools fits start _ (steady₁.recast rfl (Nat.le_refl _))
      fun σ' keeps contract => ?_)
  rw [← size]
  exact Site.behaves_restore code (steady.toWithin.next contract)
    (keeps.kept (Nat.lt_succ_self _) saved) (steady.small fits.small)
    (next _ keeps.after ⟨Nat.le_refl _, steady.inside, contract.success, contract.failure⟩)

theorem never (h : inner.Conducts signatures) (text innerText : String) :
    (Emit.never text innerText inner).Safe signatures := by
  intro d p d' p' w site R code pools fits start σ steady next
  rw [Emit.never] at w
  obtain ⟨u, d₁, p₁, w₁, w₂⟩ := writes_bind.1 w
  obtain ⟨entry, d₂, p₂, w₃, w₄⟩ := writes_bind.1 w₂
  obtain ⟨w₅, rfl⟩ := writes_lift.1 w₃
  obtain ⟨grown, listed⟩ := Build.adds_failure w₅
  obtain ⟨d₃, p₃, d₄, w₆, w₇, size, hosts⟩ := hosts_ifElse (.emit _) (.succeedWith _) w₄
  obtain ⟨rfl, rfl⟩ := writes_emit.1 w₆
  obtain ⟨rfl, rfl⟩ := writes_succeedWith.1 w₇
  obtain ⟨failing, jump, branch, succeeding, behindBoth⟩ := hosts _ code
  refine peek h _ _ _ _ w₁ site R branch.add.addLabel.addLabel (pools.back grown) fits start σ
    steady fun σ' keeps contract => ?_
  have here : site.Within start σ' := steady.toWithin.next contract
  refine Site.behaves_notStatus (d := Draft.addLabel (Draft.addLabel _)) branch here succeeding
    (fun _ => ?_) fun _ => ?_
  · refine Site.behaves_fail (d := entered _) jump.add here
      (Site.behaves_jump jump ⟨here.forward, here.inside⟩ behindBoth ?_)
    rw [← size]
    exact next _ keeps (.of_failure contract.forward contract.inside
      (pools.failures.lt_of_getElem? listed))
  · refine Site.behaves_succeedWith (d := Draft.place _ _) failing here rfl ?_
    rw [← size]
    exact next _ keeps (.of_success contract.forward contract.inside .none)

end Emit.Safe

/-! ### Parts one after the other -/

namespace Site

variable {site : Site} {R : Regime} {d d₁ d' : Draft} {p p₁ p' : Pools} {start exit target : Nat}
variable {σ : Moment}

/-- A part that must succeed, with its result in a new slot. -/
theorem behaves_stored {part : Emit Unit} (h : part.Conducts signatures)
    (w : part.Writes d p () d₁ p₁)
    (code : site.function.Hosts
      ((d₁.add (.branch .notStatus exit)).addSlot.add (.store d₁.slots .result)))
    (pools : site.setting.program.Hosts p₁)
    (fits : R.Fits site.setting signatures p.ruleFunctions)
    (exits : site.function.labels[exit]? = some target) (steady : site.Steady R d start σ)
    (leave : ∀ σ', Keeps d.slots σ.slots σ'.slots →
      site.setting.Contract R.may σ.pos σ'.outcome → site.Behaves R start target σ')
    (stay : ∀ σ' x, Keeps d.slots σ.slots σ'.slots → σ.pos ≤ σ'.pos →
      σ'.pos ≤ site.setting.bytes.size → σ'.slots[d₁.slots]? = some x → x.Proper R.may →
      site.Behaves R start
        ((d₁.add (.branch .notStatus exit)).addSlot.add (.store d₁.slots .result)).code.size σ') :
    site.Behaves R start d.code.size σ := by
  have grown := h.tame.draft w
  refine h.safe _ _ _ _ w site R code.add.addSlot.add pools fits start σ steady
    fun σ' keeps contract => ?_
  have here : site.Within start σ' := steady.toWithin.next contract
  refine behaves_notStatus code.add.addSlot here exits (fun hs => ?_)
    fun _ => leave σ' keeps contract
  have room : d₁.slots < σ'.slots.size := by
    rw [keeps.size, steady.size]
    exact code.add.slots
  exact behaves_store (d := Draft.addSlot _) code here rfl (stay _ _
    (keeps.trans (.set _ grown.slots _)) contract.forward contract.inside (getElem?_set_self room _)
    (contract.success hs))

/-- Two parts of which both must succeed, with their results in slots. -/
theorem behaves_both {left right : Emit Unit} (hl : left.Conducts signatures)
    (hr : right.Conducts signatures) {a b : Nat}
    (w : (Emit.both left right exit).Writes d p (a, b) d' p') (code : site.function.Hosts d')
    (pools : site.setting.program.Hosts p')
    (fits : R.Fits site.setting signatures p.ruleFunctions)
    (exits : site.function.labels[exit]? = some target) (steady : site.Steady R d start σ)
    (leave : ∀ σ', Keeps d.slots σ.slots σ'.slots →
      site.setting.Contract R.may σ.pos σ'.outcome → site.Behaves R start target σ')
    (stay : ∀ σ' x y, Keeps d.slots σ.slots σ'.slots → σ.pos ≤ σ'.pos →
      σ'.pos ≤ site.setting.bytes.size → σ'.slots[a]? = some x → x.Proper R.may →
      σ'.slots[b]? = some y → y.Proper R.may → site.Behaves R start d'.code.size σ') :
    site.Behaves R start d.code.size σ := by
  rw [Emit.both] at w
  obtain ⟨_, d₁, p₁, w₁, wa⟩ := Emit.writes_bind.1 w
  obtain ⟨_, d₂, p₂, w₂, wb⟩ := Emit.writes_bind.1 wa
  obtain ⟨rfl, rfl⟩ := Emit.writes_leaveOnFailure.1 w₂
  obtain ⟨_, d₃, p₃, w₃, wc⟩ := Emit.writes_bind.1 wb
  obtain ⟨rfl, rfl, rfl⟩ := Emit.writes_storeResult.1 w₃
  obtain ⟨_, d₄, p₄, w₄, wd⟩ := Emit.writes_bind.1 wc
  obtain ⟨_, d₅, p₅, w₅, we⟩ := Emit.writes_bind.1 wd
  obtain ⟨rfl, rfl⟩ := Emit.writes_leaveOnFailure.1 w₅
  obtain ⟨_, d₆, p₆, w₆, wf⟩ := Emit.writes_bind.1 we
  obtain ⟨rfl, rfl, rfl⟩ := Emit.writes_storeResult.1 w₆
  obtain ⟨hab, rfl, rfl⟩ := Emit.writes_pure.1 wf
  obtain ⟨rfl, rfl⟩ := Prod.mk.inj hab
  have grown := hl.tame.draft w₁
  have grown' := hr.tame.draft w₄
  have pgrown := hl.tame.pools w₁
  have le : d.slots ≤ d₁.slots + 1 := Nat.le_succ_of_le grown.slots
  refine behaves_stored hl w₁ (code.add.addSlot.add.back grown')
    (pools.back (hr.tame.pools w₄)) fits exits steady leave
    fun σ₁ x keeps forward inside held hx => ?_
  have here : site.Within start σ₁ := ⟨Nat.le_trans steady.forward forward, inside⟩
  refine behaves_stored hr w₄ code pools (fits.grow pgrown) exits
    (steady.next keeps here grown.scope le) (fun σ₂ keeps' contract => ?_)
    fun σ₂ y keeps' forward' inside' held' hy => ?_
  · exact leave σ₂ (keeps.trans (keeps'.mono le)) (contract.earlier forward)
  · exact stay σ₂ x y (keeps.trans (keeps'.mono le)) (Nat.le_trans forward forward') inside'
      (keeps'.kept (Nat.lt_succ_self _) held) hx held' hy

/-! ### Items -/

omit [Regex.Engine] in
/-- A name that has got a slot. -/
theorem Steady.bindName {v : Nat} {x : Value} (h : site.Steady R d start σ) (name : String)
    (lt : v < d.slots) (held : σ.slots[v]? = some x) (proper : x.Proper R.may) :
    site.Steady R { d with scope := (name, v) :: d.scope } start σ where
  toWithin := h.toWithin
  size := h.size
  knows m u hu := by
    simp only [List.lookup_cons] at hu
    split at hu
    · obtain rfl := Option.some.inj hu
      exact ⟨lt, x, held, proper⟩
    · exact h.knows m u hu

end Site

open Packrat.Expr in
/-- Items one after the other, with their results in slots. -/
theorem Site.behaves_items {site : Site} {R : Regime} {start exit target : Nat} {items : List Expr}
    (all : ∀ e ∈ items, e.emit.Conducts signatures) {fields : List String} {d d' : Draft}
    {p p' : Pools} {vs : List Nat} {σ : Moment}
    (w : (emitItems exit fields items).Writes d p vs d' p') (code : site.function.Hosts d')
    (pools : site.setting.program.Hosts p')
    (fits : R.Fits site.setting signatures p.ruleFunctions)
    (exits : site.function.labels[exit]? = some target) (steady : site.Steady R d start σ)
    (leave : ∀ σ', Keeps d.slots σ.slots σ'.slots →
      site.setting.Contract R.may σ.pos σ'.outcome → site.Behaves R start target σ')
    (stay : ∀ σ' xs, Keeps d.slots σ.slots σ'.slots → σ.pos ≤ σ'.pos →
      σ'.pos ≤ site.setting.bytes.size → List.Forall₂ (fun v x => σ'.slots[v]? = some x) vs xs →
      Value.AllProper R.may xs → site.Behaves R start d'.code.size σ') :
    site.Behaves R start d.code.size σ := by
  induction items generalizing fields d p vs σ with
  | nil =>
      obtain ⟨rfl, rfl, rfl⟩ := Emit.writes_pure.1 w
      exact stay σ [] (.refl _ _) (Nat.le_refl _) steady.inside .nil .nil
  | cons e items ih =>
      rw [emitItems] at w
      have conducts := (all e (List.mem_cons_self ..)).within e
      obtain ⟨_, d₁, p₁, w₁, wa⟩ := Emit.writes_bind.1 w
      obtain ⟨_, d₂, p₂, w₂, wb⟩ := Emit.writes_bind.1 wa
      obtain ⟨rfl, rfl⟩ := Emit.writes_leaveOnFailure.1 w₂
      obtain ⟨_, d₃, p₃, w₃, wc⟩ := Emit.writes_bind.1 wb
      obtain ⟨rfl, rfl, rfl⟩ := Emit.writes_storeResult.1 w₃
      have grown := conducts.tame.draft w₁
      have pgrown := conducts.tame.pools w₁
      -- The rest is written with one more name in scope if there is a field left.
      obtain ⟨names, vs', rfl, wd, named⟩ : ∃ (names : List (String × Nat)) (vs' : List Nat),
          vs = d₁.slots :: vs' ∧
          (emitItems exit (fields.drop 1) items).Writes
            { (d₁.add (.branch .notStatus exit)).addSlot.add (.store d₁.slots .result) with
              scope := names ++ d₁.scope } p₃ vs' d' p' ∧
          (names = [] ∨ ∃ name, names = [(name, d₁.slots)]) := by
        dsimp only at wc
        cases fields with
        | nil =>
            obtain ⟨vs', d₄, p₄, w₄, w₅⟩ := Emit.writes_bind.1 wc
            obtain ⟨rfl, rfl, rfl⟩ := Emit.writes_pure.1 w₅
            exact ⟨[], vs', rfl, w₄, .inl rfl⟩
        | cons name fields =>
            obtain ⟨_, d₄, p₄, w₄, w₅⟩ := Emit.writes_bind.1 wc
            obtain ⟨rfl, rfl⟩ := Emit.writes_bindName.1 w₄
            obtain ⟨vs', d₅, p₅, w₆, w₇⟩ := Emit.writes_bind.1 w₅
            obtain ⟨rfl, rfl, rfl⟩ := Emit.writes_pure.1 w₇
            exact ⟨[(name, d₁.slots)], vs', rfl, w₆, .inr ⟨name, rfl⟩⟩
      have loose := emitItems_loose exit (fields.drop 1) items
      have begins : site.function.Hosts ((d₁.add (.branch .notStatus exit)).addSlot.add
          (.store d₁.slots .result)) :=
        (code.backLoose (loose.draft wd)).congr rfl rfl rfl
      have room : d.slots ≤ d₁.slots + 1 := Nat.le_succ_of_le grown.slots
      refine behaves_stored conducts w₁ begins (pools.back (loose.pools wd)) fits exits steady leave
        fun σ₁ x keeps forward inside held proper => ?_
      have here : site.Within start σ₁ := ⟨Nat.le_trans steady.forward forward, inside⟩
      have steady₁ : site.Steady R ((d₁.add (.branch .notStatus exit)).addSlot.add
          (.store d₁.slots .result)) start σ₁ := steady.next keeps here grown.scope room
      have steady₂ : site.Steady R { (d₁.add (.branch .notStatus exit)).addSlot.add
          (.store d₁.slots .result) with scope := names ++ d₁.scope } start σ₁ := by
        rcases named with rfl | ⟨name, rfl⟩
        · exact steady₁
        · exact steady₁.bindName name (Nat.lt_succ_self _) held proper
      have rest := ih (fun e mem => all e (List.mem_cons_of_mem _ mem)) wd (fits.grow pgrown)
        steady₂
      refine rest (fun σ₂ keeps' contract => ?_)
        fun σ₂ xs keeps' forward' inside' helds propers => ?_
      · exact leave σ₂ (keeps.trans (keeps'.mono room)) (contract.earlier forward)
      · exact stay σ₂ (x :: xs) (keeps.trans (keeps'.mono room)) (Nat.le_trans forward forward')
          inside' (.cons (keeps'.kept (Nat.lt_succ_self _) held) helds) (.cons proper propers)

/-! ### Expressions -/

namespace Expr

variable {left right : Expr}

theorem safe_apply (hl : left.emit.Conducts signatures) (hr : right.emit.Conducts signatures)
    (tag : Tag) (applyLeft : Bool) :
    (Expr.apply tag left right applyLeft).emit.Safe signatures := by
  intro d p d' p' w site R code pools fits start σ steady next
  rw [Expr.emit] at w
  have tame := Emit.Tame.both (hl.within left).tame (hr.within right).tame
  obtain ⟨d₁, w₁, size, hosts⟩ :=
    Emit.hosts_block (fun exit => (tame exit).bind fun _ => .emit _) w
  obtain ⟨⟨a, b⟩, d₂, p₂, w₂, w₃⟩ := Emit.writes_bind.1 w₁
  obtain ⟨rfl, rfl⟩ := Emit.writes_emit.1 w₃
  obtain ⟨body, exit⟩ := hosts _ code
  rw [size] at next
  refine Site.behaves_both (d := Emit.entered (Draft.addLabel _)) (hl.within left)
    (hr.within right) w₂ body.add pools fits exit (steady.recast rfl (Nat.le_refl _)) next
    fun σ' x y keeps forward inside held hx held' hy => ?_
  have here : site.Within start σ' := ⟨Nat.le_trans steady.forward forward, inside⟩
  have call (f arg : Nat) (g z : Value) (hf : σ'.slots[f]? = some g) (hg : g.Proper R.may)
      (hz : σ'.slots[arg]? = some z) (proper : z.Proper R.may)
      (hosted : site.function.Hosts (d₂.add (.apply f arg)))
      (next : ∀ σ', Keeps d.slots σ.slots σ'.slots →
        site.setting.Contract R.may σ.pos σ'.outcome →
        site.Behaves R start (d₂.add (.apply f arg)).code.size σ') :
      site.Behaves R start d₂.code.size σ' := by
    refine Site.behaves_host (Host.callIn site.setting.library g [z]) σ'.yield hosted here
      (fun n => (Exec.lift_bind (Site.frame_slot hf) _ _).trans
        (Exec.lift_bind (Site.frame_slot hz) _ _))
      (fun n v n' hv => ?_) fun v hv => next _ keeps (.of_success forward inside hv)
    exact Host.Library.proper_callIn fits.natives hg (.cons proper .nil) hv
  cases applyLeft with
  | true => exact call a b x y held hx held' hy body next
  | false => exact call b a y x held' hy held hx body next

theorem safe_satisfying (hl : left.emit.Conducts signatures) (hr : right.emit.Conducts signatures)
    (tag : Tag) : (Expr.satisfying tag left right).emit.Safe signatures := by
  intro d p d' p' w site R code pools fits start σ steady next
  rw [Expr.emit] at w
  obtain ⟨mark, d₀, p₀, w₀, wb⟩ := Emit.writes_bind.1 w
  obtain ⟨wf, rfl⟩ := Emit.writes_lift.1 w₀
  obtain ⟨grownf, noted⟩ := Build.adds_failure wf
  have tame := Emit.Tame.both (hl.within left).tame (hr.within right).tame
  obtain ⟨d₁, w₁, size, hosts⟩ :=
    Emit.hosts_block (fun exit => (tame exit).bind fun _ => .emit _) wb
  obtain ⟨⟨a, b⟩, d₂, p₂, w₂, w₃⟩ := Emit.writes_bind.1 w₁
  obtain ⟨rfl, rfl⟩ := Emit.writes_emit.1 w₃
  obtain ⟨body, exit⟩ := hosts _ code
  have listed := (pools.back ((tame _).pools w₂)).failures.lt_of_getElem? noted
  rw [size] at next
  refine Site.behaves_both (d := Emit.entered (Draft.addLabel _)) (hl.within left)
    (hr.within right) w₂ body.add pools (fits.grow grownf) exit
    (steady.recast rfl (Nat.le_refl _)) next fun σ' x y keeps forward inside held hx held' hy => ?_
  have here : site.Within start σ' := ⟨Nat.le_trans steady.forward forward, inside⟩
  refine Site.behaves_host (Host.callIn site.setting.library y [x])
    (fun v => if v.truthy then σ'.yield x else σ'.fail mark) body here (fun n => ?_)
    (fun n v n' hv => Host.Library.proper_callIn fits.natives hy (.cons hx .nil) hv) fun v _ => ?_
  · refine (Exec.lift_bind (Site.frame_slot held') _ _).trans
      ((Exec.lift_bind (Site.frame_slot held) _ _).trans ?_)
    refine congrArg (fun k => (Exec.host _ >>= k) n) (funext fun v => ?_)
    cases v.truthy <;> rfl
  · cases v.truthy with
    | true => exact next (σ'.yield x) keeps (.of_success forward inside hx)
    | false => exact next (σ'.fail mark) keeps (.of_failure forward inside listed)

theorem safe_discard (hl : left.emit.Conducts signatures) (hr : right.emit.Conducts signatures)
    (tag : Tag) (discardLeft : Bool) :
    (Expr.discard tag left right discardLeft).emit.Safe signatures := by
  intro d p d' p' w site R code pools fits start σ steady next
  rw [Expr.emit, Emit.keepOne] at w
  have hl := hl.within left
  have hr := hr.within right
  cases discardLeft with
  | true =>
      obtain ⟨d₁, w₁, size, hosts⟩ := Emit.hosts_block
        (fun exit => hl.tame.bind fun _ => (Emit.Tame.leaveOnFailure exit).bind fun _ => hr.tame) w
      obtain ⟨_, d₂, p₂, w₂, wa⟩ := Emit.writes_bind.1 w₁
      obtain ⟨_, d₃, p₃, w₃, w₄⟩ := Emit.writes_bind.1 wa
      obtain ⟨rfl, rfl⟩ := Emit.writes_leaveOnFailure.1 w₃
      have grown := hl.tame.draft w₂
      have pgrown := hl.tame.pools w₂
      obtain ⟨body, exit⟩ := hosts _ code
      have begins := body.back (hr.tame.draft w₄)
      have room : d.slots ≤ d₂.slots := grown.slots
      rw [size] at next
      refine hl.safe _ _ _ _ w₂ site R begins.add (pools.back (hr.tame.pools w₄)) fits start σ
        (steady.recast rfl (Nat.le_refl _)) fun σ₁ keeps contract => ?_
      have here : site.Within start σ₁ := steady.toWithin.next contract
      refine Site.behaves_notStatus begins here exit (fun _ => ?_) fun _ => next σ₁ keeps contract
      exact hr.safe _ _ _ _ w₄ site R body pools (fits.grow pgrown) start σ₁
        (steady.next keeps here grown.scope room) fun σ₂ keeps' contract' =>
          next σ₂ (keeps.trans (keeps'.mono room)) (contract'.earlier contract.forward)
  | false =>
      obtain ⟨d₁, w₁, size, hosts⟩ := Emit.hosts_block
        (fun exit => hl.tame.bind fun _ => (Emit.Tame.leaveOnFailure exit).bind fun _ =>
          Emit.Tame.storeResult.bind fun _ => hr.tame.bind fun _ =>
            (Emit.Tame.leaveOnFailure exit).bind fun _ => .emit _) w
      obtain ⟨_, d₂, p₂, w₂, wa⟩ := Emit.writes_bind.1 w₁
      obtain ⟨_, d₃, p₃, w₃, wb⟩ := Emit.writes_bind.1 wa
      obtain ⟨rfl, rfl⟩ := Emit.writes_leaveOnFailure.1 w₃
      obtain ⟨_, d₄, p₄, w₄, wc⟩ := Emit.writes_bind.1 wb
      obtain ⟨rfl, rfl, rfl⟩ := Emit.writes_storeResult.1 w₄
      obtain ⟨_, d₅, p₅, w₅, wd⟩ := Emit.writes_bind.1 wc
      obtain ⟨_, d₆, p₆, w₆, we⟩ := Emit.writes_bind.1 wd
      obtain ⟨rfl, rfl⟩ := Emit.writes_leaveOnFailure.1 w₆
      obtain ⟨rfl, rfl⟩ := Emit.writes_emit.1 we
      have grown := hl.tame.draft w₂
      have pgrown := hl.tame.pools w₂
      obtain ⟨body, exit⟩ := hosts _ code
      have begins := body.add.add.back (hr.tame.draft w₅)
      have room : d.slots ≤ d₂.slots + 1 := Nat.le_succ_of_le grown.slots
      rw [size] at next
      refine Site.behaves_stored (d := Emit.entered (Draft.addLabel _)) hl w₂ begins
        (pools.back (hr.tame.pools w₅)) fits exit
        (steady.recast rfl (Nat.le_refl _)) next
        fun σ₁ x keeps forward inside held hx => ?_
      have here : site.Within start σ₁ := ⟨Nat.le_trans steady.forward forward, inside⟩
      refine hr.safe _ _ _ _ w₅ site R body.add.add pools (fits.grow pgrown) start σ₁
        (steady.next keeps here grown.scope room) fun σ₂ keeps' contract => ?_
      have both := keeps.trans (keeps'.mono room)
      have here₂ : site.Within start σ₂ := here.next contract
      refine Site.behaves_notStatus body.add here₂ exit (fun hs => ?_)
        fun _ => next σ₂ both (contract.earlier forward)
      refine Site.behaves_load body here₂
        (Site.frame_slot (keeps'.kept (Nat.lt_succ_self _) held)) (next _ both ?_)
      exact ⟨Nat.le_trans forward contract.forward, contract.inside, fun _ => hx, fun h => by
        cases hs.symm.trans h⟩

theorem safe_bound (hl : left.emit.Conducts signatures) (hr : right.emit.Conducts signatures)
    (tag : Tag) (name : String) : (Expr.bound tag name left right).emit.Safe signatures := by
  intro d p d' p' w site R code pools fits start σ steady next
  rw [Expr.emit] at w
  have hl := hl.within left
  have hr := hr.within right
  obtain ⟨d₁, w₁, size, hosts⟩ := Emit.hosts_block
    (fun exit => hl.tame.bind fun _ => (Emit.Tame.leaveOnFailure exit).bind fun _ =>
      Emit.Tame.storeResult.bind fun v =>
        .inScope ((Emit.Loose.bindName name v).bind fun _ => hr.tame.loose)) w
  obtain ⟨_, d₂, p₂, w₂, wa⟩ := Emit.writes_bind.1 w₁
  obtain ⟨_, d₃, p₃, w₃, wb⟩ := Emit.writes_bind.1 wa
  obtain ⟨rfl, rfl⟩ := Emit.writes_leaveOnFailure.1 w₃
  obtain ⟨_, d₄, p₄, w₄, wc⟩ := Emit.writes_bind.1 wb
  obtain ⟨rfl, rfl, rfl⟩ := Emit.writes_storeResult.1 w₄
  obtain ⟨d₅, wd, rfl⟩ := Emit.writes_inScope.1 wc
  obtain ⟨_, d₆, p₆, w₆, w₇⟩ := Emit.writes_bind.1 wd
  obtain ⟨rfl, rfl⟩ := Emit.writes_bindName.1 w₆
  have grown := hl.tame.draft w₂
  have pgrown := hl.tame.pools w₂
  obtain ⟨body, exit⟩ := hosts _ code
  have inner : site.function.Hosts d₅ := body.congr rfl rfl rfl
  have begins : site.function.Hosts ((d₂.add (.branch .notStatus d.labels.size)).addSlot.add
      (.store d₂.slots .result)) := (inner.back (hr.tame.draft w₇)).congr rfl rfl rfl
  have room : d.slots ≤ d₂.slots + 1 := Nat.le_succ_of_le grown.slots
  rw [size] at next
  refine Site.behaves_stored (d := Emit.entered (Draft.addLabel _)) hl w₂ begins
    (pools.back (hr.tame.pools w₇)) fits exit
    (steady.recast rfl (Nat.le_refl _)) next
    fun σ₁ x keeps forward inside held hx => ?_
  have here : site.Within start σ₁ := ⟨Nat.le_trans steady.forward forward, inside⟩
  have steady₁ : site.Steady R ((d₂.add (.branch .notStatus d.labels.size)).addSlot.add
    (.store d₂.slots .result)) start σ₁ := steady.next keeps here grown.scope room
  exact hr.safe _ _ _ _ w₇ site R inner pools (fits.grow pgrown) start σ₁
    (steady₁.bindName name (Nat.lt_succ_self _) held hx) fun σ₂ keeps' contract =>
      next σ₂ (keeps.trans (keeps'.mono room)) (contract.earlier forward)

variable {items : List Expr}

theorem safe_seq_none (all : ∀ e ∈ items, e.emit.Conducts signatures) (tag : Tag) :
    (Expr.seq tag items none).emit.Safe signatures := by
  intro d p d' p' w site R code pools fits start σ steady next
  rw [Expr.emit] at w
  obtain ⟨d₁, w₁, size, hosts⟩ := Emit.hosts_block (fun exit =>
    (Emit.Tame.inScope (emitItems_loose exit [] items)).bind fun _ =>
      (Emit.Tame.emit _).bind fun _ => .emit _) w
  obtain ⟨vs, d₂, p₂, w₂, w₃⟩ := Emit.writes_bind.1 w₁
  obtain ⟨d₃, w₄, size', inner⟩ := Emit.hosts_inScope w₂
  obtain ⟨rfl, rfl⟩ := Emit.writes_emit_emit.1 w₃
  obtain ⟨body, exit⟩ := hosts _ code
  rw [size] at next
  refine Site.behaves_items (d := Emit.entered (Draft.addLabel _)) all w₄
    (inner _ body.add.add) pools fits exit
    (steady.recast rfl (Nat.le_refl _)) next
    fun σ₁ xs keeps forward inside held proper => ?_
  have here : site.Within start σ₁ := ⟨Nat.le_trans steady.forward forward, inside⟩
  rw [← size']
  exact Site.behaves_makeList body.add here held fun id =>
    Site.behaves_setStatus body ⟨here.forward, here.inside⟩
      (next _ keeps (.of_success forward inside (.list id proper)))

theorem safe_seq_some (all : ∀ e ∈ items, e.emit.Conducts signatures) (tag : Tag) (c : NodeClass) :
    (Expr.seq tag items (some c)).emit.Safe signatures := by
  intro d p d' p' w site R code pools fits start σ steady next
  rw [Expr.emit] at w
  obtain ⟨cls, d₀, p₀, w₀, wa⟩ := Emit.writes_bind.1 w
  obtain ⟨wc, rfl⟩ := Emit.writes_lift.1 w₀
  obtain ⟨grownc, known, listed, -⟩ := Build.adds_cls wc
  obtain ⟨d₁, w₁, size, hosts⟩ := Emit.hosts_block (fun exit => Emit.Tame.checkpoint.bind fun _ =>
    (Emit.Tame.inScope (emitItems_loose exit c.fields items)).bind fun _ =>
      (Emit.Tame.emit _).bind fun _ => .emit _) wa
  obtain ⟨from_, d₂, p₂, w₂, wb⟩ := Emit.writes_bind.1 w₁
  obtain ⟨rfl, rfl, rfl⟩ := Emit.writes_checkpoint.1 w₂
  obtain ⟨vs, d₃, p₃, w₃, wd⟩ := Emit.writes_bind.1 wb
  obtain ⟨d₄, w₄, size', inner⟩ := Emit.hosts_inScope w₃
  obtain ⟨rfl, rfl⟩ := Emit.writes_emit_emit.1 wd
  have loose := emitItems_loose d₀.labels.size c.fields items
  obtain ⟨body, exit⟩ := hosts _ code
  have begins := (inner _ body.add.add).backLoose (loose.draft w₄)
  have pools₀ := pools.back (loose.pools w₄)
  have steady₀ : site.Steady R (Emit.entered d₀.addLabel) start σ :=
    steady.recast rfl (Nat.le_refl _)
  obtain ⟨steady₁, saved⟩ := steady₀.store begins (.ofPos σ.pos)
  rw [size] at next
  refine Site.behaves_store (d := Draft.addSlot (Emit.entered (Draft.addLabel _))) begins
    steady.toWithin rfl (Site.behaves_items all w₄ (inner _ body.add.add) pools (fits.grow grownc)
      exit steady₁ (fun σ₁ keeps contract => next σ₁ keeps.after contract)
      fun σ₁ xs keeps forward inside held proper => ?_)
  have here : site.Within start σ₁ := ⟨Nat.le_trans steady.forward forward, inside⟩
  rw [← size']
  exact Site.behaves_makeNode body.add here (pools₀.classes _ _ listed) held
    (keeps.kept (Nat.lt_succ_self _) saved) (steady.small fits.small) fun id =>
      Site.behaves_setStatus body ⟨here.forward, here.inside⟩
        (next _ keeps.after (.of_success forward inside (.node id known _ proper)))

end Expr

end Packrat
