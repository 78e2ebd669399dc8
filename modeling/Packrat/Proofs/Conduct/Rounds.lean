import Packrat.Proofs.Conduct.Matching
import Packrat.Proofs.Simulation.Repetitions

/-
**Rounds behave.**

Between two rounds of a loop the slots older than the loop are as they were, and an invariant holds
of the younger ones.  A round that is followed by another one has read something.

Main definitions:

* `Packrat.Site.Midway` — moments between two rounds.

Main results:

* `Packrat.Site.behaves_rounds` — **a loop behaves if its rounds do**;
* `Packrat.Emit.Safe.listOf`, `Packrat.Emit.Safe.sepOf` — repetitions and lists with separators
  behave.
-/

set_option autoImplicit false

namespace Packrat

variable {signatures : Signatures}

namespace Site

variable {site : Site} {R : Regime} {d d₀ d₁ d' : Draft} {p p₁ p' : Pools}
variable {start bound bound' v l back place target : Nat} {σ σ₀ σ' : Moment}
variable {inv : Array Value → Prop}

/-! ### Between two rounds -/

/-- A moment between two rounds of a loop that began at another one. -/
structure Midway (site : Site) (bound : Nat) (σ₀ : Moment) (inv : Array Value → Prop) (σ : Moment) :
    Prop where
  keeps : Keeps bound σ₀.slots σ.slots
  forward : σ₀.pos ≤ σ.pos
  inside : σ.pos ≤ site.setting.bytes.size
  inv : inv σ.slots

namespace Midway

theorem within (h : site.Midway bound σ₀ inv σ) (begun : site.Within start σ₀) :
    site.Within start σ := ⟨Nat.le_trans begun.forward h.forward, h.inside⟩

theorem steady (h : site.Midway d₀.slots σ₀ inv σ) (begun : site.Steady R d₀ start σ₀)
    (scope : d.scope = d₀.scope) (room : d₀.slots ≤ d.slots) : site.Steady R d start σ :=
  begun.next h.keeps (h.within begun.toWithin) scope room

/-- A part of a round leaves older slots alone. -/
theorem part (h : site.Midway bound σ₀ inv σ) (keeps : Keeps bound' σ.slots σ'.slots)
    (le : bound ≤ bound') (forward : σ.pos ≤ σ'.pos) (inside : σ'.pos ≤ site.setting.bytes.size)
    (still : inv σ'.slots) : site.Midway bound σ₀ inv σ' :=
  ⟨h.keeps.trans (keeps.mono le), Nat.le_trans h.forward forward, inside, still⟩

end Midway

/-! ### The end of a round -/

/-- A round that has read something is followed by another one. -/
theorem behaves_again {top exit topAt exitAt : Nat}
    (h : site.function.Hosts ((d.add (.branch (.posEq back) exit)).add (.jump top)))
    (tops : site.function.labels[top]? = some topAt)
    (exits : site.function.labels[exit]? = some exitAt) (here : site.Within start σ)
    (saved : σ.slots[back]? = some (.ofPos place)) (small : place < 2 ^ 63)
    (forward : place ≤ σ.pos) (again : place < σ.pos → site.Behaves R start topAt σ)
    (last : site.Behaves R start exitAt σ) : site.Behaves R start d.code.size σ := by
  refine behaves_branch h.add here exits (frame_posEq saved small) (fun _ => last) fun moved => ?_
  have moved : σ.pos ≠ place := of_decide_eq_false moved
  exact behaves_jump h here tops (again (by omega))

/-! ### The beginning of a round -/

/-- A part is tried: the place before it is kept, and where it fails the code goes back and
leaves. -/
theorem behaves_tried [Regex.Engine] {exit : Nat} {part : Emit Unit} (h : part.Conducts signatures)
    (w : part.Writes (d.addSlot.add (.store d.slots .position)) p () d₁ p₁)
    (w' : (Emit.retreatOnFailure d.slots exit).Writes d₁ p₁ () d' p')
    (code : site.function.Hosts d') (pools : site.setting.program.Hosts p₁)
    (fits : R.Fits site.setting signatures p.ruleFunctions)
    (exits : site.function.labels[exit]? = some target) (steady : site.Steady R d start σ)
    (success : ∀ σ', Keeps d.slots σ.slots σ'.slots →
      σ'.slots[d.slots]? = some (.ofPos σ.pos) → σ.pos ≤ σ'.pos →
      σ'.pos ≤ site.setting.bytes.size → σ'.result.Proper R.may →
      site.Behaves R start d'.code.size σ')
    (failure : ∀ σ', Keeps d.slots σ.slots σ'.slots → σ'.pos = σ.pos →
      site.Behaves R start target σ') : site.Behaves R start d.code.size σ := by
  have found := code.back (writes_retreat w').1
  have begins := found.back (h.tame.draft w)
  obtain ⟨steady₁, saved⟩ := steady.store begins (.ofPos σ.pos)
  refine behaves_store (d := d.addSlot) begins steady.toWithin rfl
    (h.safe _ _ _ _ w site R found pools fits start _ steady₁ fun σ' keeps contract => ?_)
  have kept := keeps.kept (Nat.lt_succ_self _) saved
  exact behaves_retreat w' code (steady.toWithin.next contract) exits kept (steady.small fits.small)
    steady.forward steady.inside
    (fun hs => success σ' keeps.after kept contract.forward contract.inside (contract.success hs))
    fun _ => failure _ keeps.after rfl

/-! ### Loops -/

/-- A loop behaves if its rounds do: each of them comes to another one further on, or to the end. -/
theorem behaves_rounds [Regex.Engine] (body : Nat → Nat → Emit Unit)
    (tame : ∀ top exit, (body top exit).Tame) (w : (Emit.loop body).Writes d p () d' p')
    (code : site.function.Hosts d') (round : ∀ (d₁ d₂ : Draft) (topAt : Nat),
      (body d.labels.size (d.labels.size + 1)).Writes d₁ p () d₂ p' → d₁.scope = d.scope →
      d₁.slots = d.slots → site.function.Hosts (d₂.add (.jump d.labels.size)) →
      site.function.labels[d.labels.size]? = some topAt →
      site.function.labels[d.labels.size + 1]? = some d'.code.size →
      ∀ σ, site.Midway bound σ₀ inv σ →
        (∀ σ', site.Midway bound σ₀ inv σ' → σ.pos < σ'.pos → site.Behaves R start topAt σ') →
        site.Behaves R start d₁.code.size σ)
    (h : site.Midway bound σ₀ inv σ) : site.Behaves R start d.code.size σ := by
  obtain ⟨d₁, d₂, scope, slots, begins, -, w₁, hosts⟩ := Emit.hosts_loop tame w
  obtain ⟨inner, top, exit⟩ := hosts _ code
  rw [← begins]
  refine behaves_loop (site.Midway bound σ₀ inv) (fun _ h => h.inside) (fun σ h again => ?_) h
  refine round d₁ d₂ _ w₁ scope slots inner top exit σ h fun σ' h' further => ?_
  rw [← begins]
  exact again σ' h' further

/-! ### Bounds -/

/-- The items are compared to a bound, unless host code has made it something else than a number. -/
theorem decided_length {low high id pc : Nat} {limit : Limit} {x : Value} {items : List Value}
    (bounds : Bounds low high σ.slots (some limit) (some x))
    (list : σ.slots[v]? = some (.list id items)) :
    (∃ e, (site.frame pc σ).holds (.lenGe v limit) = .error (.host e)) ∨
      ∃ b, (site.frame pc σ).holds (.lenGe v limit) = .ok b := by
  have read : (site.frame pc σ).limit? limit = _ := frame_limit bounds
  rw [Frame.holds, Frame.lengthHolds]
  cases hl : (site.frame pc σ).limit? limit with
  | ok z? =>
      cases z? with
      | none => exact .inr ⟨false, rfl⟩
      | some z => exact .inr ⟨_, ok_bind (frame_listAt list) _⟩
  | error e =>
      rw [hl] at read
      refine .inl ⟨.boundType x.typeName, congrArg Except.error ?_⟩
      split at read
      · cases read
      · split at read
        · cases read
        · exact Except.error.inj read

/-- A bound is evaluated once, before the first item. -/
theorem behaves_limit [Regex.Engine] {bound? : Option Bound} {limit? : Option Limit}
    (w : (Emit.limit? bound?).Writes d p limit? d' p') (code : site.function.Hosts d')
    (pools : site.setting.program.Hosts p')
    (fits : R.Fits site.setting signatures p.ruleFunctions) (steady : site.Steady R d start σ)
    (next : ∀ x? σ', Keeps d.slots σ.slots σ'.slots → σ'.pos = σ.pos →
      Bounds d.slots d'.slots σ'.slots limit? x? → site.Behaves R start d'.code.size σ') :
    site.Behaves R start d.code.size σ := by
  match bound? with
  | none =>
      obtain ⟨rfl, rfl, rfl⟩ := Emit.writes_pure.1 w
      exact next none σ (.refl _ _) rfl trivial
  | some (.const c) =>
      obtain ⟨rfl, rfl, rfl⟩ := Emit.writes_pure.1 w
      exact next (some _) σ (.refl _ _) rfl rfl
  | some (.host sn) =>
      obtain ⟨_, d₁, p₁, w₁, w₂⟩ := Emit.writes_bind.1 w
      obtain ⟨v, d₂, p₂, w₃, w₄⟩ := Emit.writes_bind.1 w₂
      obtain ⟨rfl, rfl, rfl⟩ := Emit.writes_storeResult.1 w₃
      obtain ⟨rfl, rfl, rfl⟩ := Emit.writes_pure.1 w₄
      have grown := (Emit.Tame.snippet sn).draft w₁
      have room : d₁.slots < σ.slots.size := by
        rw [steady.size]
        exact code.add.slots
      refine behaves_snippet w₁ code.add.addSlot pools fits steady fun x _ =>
        behaves_store (d := d₁.addSlot) code ⟨steady.forward, steady.inside⟩ rfl
          (next (some x) _ (.set _ grown.slots _) rfl ?_)
      exact ⟨grown.slots, Nat.lt_succ_self _, getElem?_set_self room _⟩

/-! ### Repetitions -/

/-- The slots of a repetition: the values so far, the failure to report if they are too few and its
place; behind these the bounds, which stay what they were. -/
structure Gathers (site : Site) (R : Regime) (staging high place : Nat) (base slots : Array Value) :
    Prop where
  list : ∃ id items, slots[staging]? = some (.list id items) ∧ Value.AllProper R.may items
  report : ∃ mark, slots[staging + 1]? = some (.failure mark) ∧
    mark < site.setting.program.failures.size
  far : ∃ pos, slots[staging + 2]? = some (.ofPos pos) ∧ place ≤ pos ∧
    pos ≤ site.setting.bytes.size
  above : ∀ u, staging + 2 < u → u < high → slots[u]? = base[u]?

namespace Gathers

variable {staging high : Nat} {base xs ys : Array Value}

theorem part (h : site.Gathers R staging high place base xs) (keeps : Keeps bound xs ys)
    (room : staging + 2 < bound) (le : high ≤ bound) : site.Gathers R staging high place base ys where
  list := by
    obtain ⟨id, items, held, proper⟩ := h.list
    exact ⟨id, items, keeps.kept (by omega) held, proper⟩
  report := by
    obtain ⟨mark, held, listed⟩ := h.report
    exact ⟨mark, keeps.kept (by omega) held, listed⟩
  far := by
    obtain ⟨pos, held, bounds⟩ := h.far
    exact ⟨pos, keeps.kept room held, bounds⟩
  above u low lt := (keeps.same u (Nat.lt_of_lt_of_le lt le)).trans (h.above u low lt)

/-- One more value. -/
theorem push {id : Nat} {items : List Value} {x : Value}
    (h : site.Gathers R staging high place base xs) (held : xs[staging]? = some (.list id items))
    (proper : Value.AllProper R.may items) (hx : x.Proper R.may) :
    site.Gathers R staging high place base
      (xs.setIfInBounds staging (.list id (items ++ [x]))) where
  list := ⟨id, _, getElem?_set_self (Array.getElem?_eq_some_iff.1 held).1 _,
    proper.append (.cons hx .nil)⟩
  report := by
    obtain ⟨mark, held, listed⟩ := h.report
    exact ⟨mark, (getElem?_set_ne (by omega) _).trans held, listed⟩
  far := by
    obtain ⟨pos, held, bounds⟩ := h.far
    exact ⟨pos, (getElem?_set_ne (by omega) _).trans held, bounds⟩
  above u low lt := (getElem?_set_ne (by omega) _).trans (h.above u low lt)

/-- An item has failed. -/
theorem fail {mark pos : Nat} (h : site.Gathers R staging high place base xs)
    (listed : mark < site.setting.program.failures.size) (forward : place ≤ pos)
    (inside : pos ≤ site.setting.bytes.size) :
    site.Gathers R staging high place base
      ((xs.setIfInBounds (staging + 1) (.failure mark)).setIfInBounds (staging + 2) (.ofPos pos)) where
  list := by
    obtain ⟨id, items, held, proper⟩ := h.list
    exact ⟨id, items, (getElem?_set_ne (by omega) _).trans
      ((getElem?_set_ne (by omega) _).trans held), proper⟩
  report := by
    obtain ⟨_, held, -⟩ := h.report
    exact ⟨mark, (getElem?_set_ne (by omega) _).trans
      (getElem?_set_self (Array.getElem?_eq_some_iff.1 held).1 _), listed⟩
  far := by
    obtain ⟨_, held, -⟩ := h.far
    have room := (Array.getElem?_eq_some_iff.1 held).1
    exact ⟨pos, getElem?_set_self (by simpa using room) _, forward, inside⟩
  above u low lt := (getElem?_set_ne (by omega) _).trans
    ((getElem?_set_ne (by omega) _).trans (h.above u low lt))

end Gathers

/-- A round of a repetition, behind the test of its bound. -/
theorem behaves_attempt [Regex.Engine] {item : Emit Unit} (h : item.Conducts signatures)
    {staging high top exit topAt exitAt : Nat} {base : Array Value}
    (w : (Emit.attempt item staging (staging + 1) (staging + 2) exit).Writes d p () d' p')
    (code : site.function.Hosts (d'.add (.jump top))) (pools : site.setting.program.Hosts p')
    (fits : R.Fits site.setting signatures p.ruleFunctions)
    (tops : site.function.labels[top]? = some topAt)
    (exits : site.function.labels[exit]? = some exitAt)
    (begun : site.Steady R d₀ start σ₀) (scope : d.scope = d₀.scope) (low : d₀.slots ≤ staging)
    (room : staging + 2 < d.slots) (high_le : high ≤ d.slots)
    (mid : site.Midway d₀.slots σ₀ (site.Gathers R staging high σ₀.pos base) σ)
    (again : ∀ σ', site.Midway d₀.slots σ₀ (site.Gathers R staging high σ₀.pos base) σ' →
      σ.pos < σ'.pos → site.Behaves R start topAt σ')
    (last : ∀ σ', site.Midway d₀.slots σ₀ (site.Gathers R staging high σ₀.pos base) σ' →
      site.Behaves R start exitAt σ') : site.Behaves R start d.code.size σ := by
  obtain ⟨back, d₁, p₁, w₁, wa⟩ := Emit.writes_bind.1 w
  obtain ⟨rfl, rfl, rfl⟩ := Emit.writes_checkpoint.1 w₁
  obtain ⟨_, d₂, p₂, w₂, wb⟩ := Emit.writes_bind.1 wa
  obtain ⟨_, d₃, p₃, w₃, w₄⟩ := Emit.writes_bind.1 wb
  obtain ⟨d₄, w₅, size, hosts⟩ := Emit.hosts_ifThen ((Emit.Tame.emit _).bind fun _ =>
    (Emit.Tame.emit _).bind fun _ => (Emit.Tame.emit _).bind fun _ => .emit _) w₃
  rw [Emit.writes_emit_bind, Emit.writes_emit_bind, Emit.writes_emit_emit] at w₅
  obtain ⟨rfl, rfl⟩ := w₅
  obtain ⟨rfl, rfl⟩ := Emit.writes_emit_emit.1 w₄
  obtain ⟨failed, branch, passed⟩ := hosts _ code.add.add.add
  have part := branch.add.addLabel
  have begins := part.back (h.tame.draft w₂)
  have lower : d₀.slots ≤ d.slots := by omega
  have steady := mid.steady begun scope lower
  have small := steady.small fits.small
  obtain ⟨steady₁, saved⟩ := steady.store begins (.ofPos σ.pos)
  refine behaves_store (d := d.addSlot) begins steady.toWithin rfl
    (h.safe _ _ _ _ w₂ site R part pools fits start _ steady₁ fun σ₁ keeps contract => ?_)
  have here : site.Within start σ₁ := steady.toWithin.next contract
  have kept := keeps.kept (Nat.lt_succ_self _) saved
  have gathers := mid.inv.part keeps.after room high_le
  have forward := Nat.le_trans mid.forward contract.forward
  refine behaves_status (d := Draft.addLabel _) branch here passed (fun hs => ?_) fun hs => ?_
  · obtain ⟨id, items, held, proper⟩ := gathers.list
    have pushed := gathers.push held proper (contract.success hs)
    have mid₁ : site.Midway d₀.slots σ₀ (site.Gathers R staging high σ₀.pos base)
        (σ₁.set staging (.list id (items ++ [σ₁.result]))) :=
      ⟨(mid.keeps.trans (keeps.after.mono lower)).trans (.set _ low _), forward, contract.inside,
        pushed⟩
    rw [← size]
    exact behaves_push code.add.add here rfl held (behaves_again code tops exits
      ⟨here.forward, here.inside⟩ ((getElem?_set_ne (by omega) _).trans kept) small contract.forward
      (again _ mid₁) (last _ mid₁))
  · obtain ⟨mark, listed, result⟩ := contract.failure hs
    have failing := gathers.fail listed forward contract.inside
    have mid₁ : site.Midway d₀.slots σ₀ (site.Gathers R staging high σ₀.pos base)
        { (σ₁.set (staging + 1) (.failure mark)).set (staging + 2) (.ofPos σ₁.pos) with
          pos := σ.pos } :=
      ⟨((mid.keeps.trans (keeps.after.mono lower)).trans (.set _ (by omega) _)).trans
        (.set _ (by omega) _), mid.forward, mid.inside, failing⟩
    have back := (getElem?_set_ne (by omega : staging + 2 ≠ d.slots) (.ofPos σ₁.pos)).trans
      ((getElem?_set_ne (by omega : staging + 1 ≠ d.slots) (.failure mark)).trans kept)
    exact behaves_store (d := Emit.entered _) failed.add.add.add here (congrArg Except.ok result)
      (behaves_store failed.add.add ⟨here.forward, here.inside⟩ rfl
        (behaves_restore failed.add ⟨here.forward, here.inside⟩ back small
          (behaves_jump failed ⟨steady.forward, steady.inside⟩ exits (last _ mid₁))))

/-- The rounds of a repetition. -/
theorem behaves_repetition [Regex.Engine] {item : Emit Unit} (h : item.Conducts signatures)
    {staging : Nat} {base : Array Value} {most? : Option Limit} {x? : Option Value}
    (w : (Emit.repetition item staging (staging + 1) (staging + 2) most?).Writes d p () d' p')
    (code : site.function.Hosts d') (pools : site.setting.program.Hosts p')
    (fits : R.Fits site.setting signatures p.ruleFunctions)
    (begun : site.Steady R d₀ start σ₀) (scope : d.scope = d₀.scope) (low : d₀.slots ≤ staging)
    (room : staging + 2 < d.slots) (bounds : Bounds (staging + 3) d.slots base most? x?)
    (mid : site.Midway d₀.slots σ₀ (site.Gathers R staging d.slots σ₀.pos base) σ)
    (next : ∀ σ', site.Midway d₀.slots σ₀ (site.Gathers R staging d.slots σ₀.pos base) σ' →
      site.Behaves R start d'.code.size σ') : site.Behaves R start d.code.size σ := by
  have round (exit : Nat) := Emit.Tame.attempt h.tame staging (staging + 1) (staging + 2) exit
  cases most? with
  | none =>
      refine behaves_rounds (fun _ exit =>
        Emit.attempt item staging (staging + 1) (staging + 2) exit) (fun _ exit => round exit) w code
        (fun d₁ d₂ topAt w₁ same slots hosts tops exits σ mid again => ?_) mid
      exact behaves_attempt h w₁ hosts pools fits tops exits begun (same.trans scope) low
        (by omega) (Nat.le_of_eq slots.symm) mid again next
  | some most =>
      refine behaves_rounds (fun _ exit => do
        Emit.emit (.branch (.lenGe staging most) exit)
        Emit.attempt item staging (staging + 1) (staging + 2) exit)
        (fun _ exit => (Emit.Tame.emit _).bind fun _ => round exit) w code
        (fun d₁ d₂ topAt w₁ same slots hosts tops exits σ mid again => ?_) mid
      have w₂ := Emit.writes_emit_bind.1 w₁
      have begins := hosts.add.back ((round _).draft w₂)
      have steady := mid.steady begun (same.trans scope) (by omega)
      obtain ⟨id, items, held, -⟩ := mid.inv.list
      cases x? with
      | none => cases most <;> exact bounds.elim
      | some x =>
          have kept := bounds.kept (Nat.le_refl _) (Nat.le_refl _) fun u hl hh =>
            mid.inv.above u hl hh
          refine behaves_either begins steady.toWithin exits (decided_length kept held)
            (fun _ => next σ mid) fun _ => ?_
          exact behaves_attempt h w₂ hosts pools fits tops exits begun (same.trans scope) low
            (slots ▸ room) (Nat.le_of_eq slots.symm) mid again next

/-- The end of a repetition: its items, or the failure to report. -/
theorem behaves_enough [Regex.Engine] {staging high : Nat} {base : Array Value}
    {least? : Option Limit} {x? : Option Value}
    (w : (Emit.enough staging (staging + 1) (staging + 2) least?).Writes d p () d' p')
    (code : site.function.Hosts d') (small : site.setting.bytes.size < 2 ^ 63)
    (begun : site.Within start σ₀) (bounds : Bounds (staging + 3) high base least? x?)
    (mid : site.Midway bound σ₀ (site.Gathers R staging high σ₀.pos base) σ)
    (next : ∀ σ', Keeps bound σ₀.slots σ'.slots →
      site.setting.Contract R.may σ₀.pos σ'.outcome → site.Behaves R start d'.code.size σ') :
    site.Behaves R start d.code.size σ := by
  have here := mid.within begun
  obtain ⟨id, items, held, proper⟩ := mid.inv.list
  have success := next (σ.yield (.list id items)) mid.keeps
    (.of_success mid.forward mid.inside (.list id proper))
  cases least? with
  | none =>
      obtain ⟨rfl, rfl⟩ := Emit.writes_succeedWith.1 w
      exact behaves_succeedWith code here (frame_slot held) success
  | some least =>
      obtain ⟨d₁, p₁, d₂, w₁, w₂, size, hosts⟩ := Emit.hosts_ifElse
        ((Emit.Tame.emit _).bind fun _ => (Emit.Tame.emit _).bind fun _ => .emit _)
        (.succeedWith _) w
      rw [Emit.writes_emit_bind, Emit.writes_emit_emit] at w₁
      obtain ⟨rfl, rfl⟩ := w₁
      obtain ⟨rfl, rfl⟩ := Emit.writes_succeedWith.1 w₂
      obtain ⟨enough, jump, branch, otherwise', behindBoth⟩ := hosts _ code
      rw [← size] at behindBoth
      obtain ⟨mark, reported, listed⟩ := mid.inv.report
      obtain ⟨pos, place, forward, inside⟩ := mid.inv.far
      cases x? with
      | none => cases least <;> exact bounds.elim
      | some x =>
          have kept := bounds.kept (Nat.le_refl _) (Nat.le_refl _) fun u hl hh =>
            mid.inv.above u hl hh
          refine behaves_either (d := Draft.addLabel (Draft.addLabel _)) branch here otherwise'
            (decided_length kept held) (fun _ => ?_) fun _ => ?_
          · refine behaves_succeedWith (d := Draft.place _ _) enough here (frame_slot held) ?_
            rw [← size]
            exact success
          · have back : site.Within start { σ with pos := pos } :=
              ⟨Nat.le_trans begun.forward forward, inside⟩
            exact behaves_restore (d := Emit.entered _) jump.add.add.add here place
              (Nat.lt_of_le_of_lt inside small)
              (behaves_load jump.add.add back (frame_slot reported)
                (behaves_setStatus jump.add ⟨back.forward, back.inside⟩
                  (behaves_jump jump ⟨back.forward, back.inside⟩ behindBoth
                    (next _ mid.keeps (.of_failure forward inside listed)))))

end Site

namespace Emit.Safe

variable {item : Emit Unit}

theorem listOf [Regex.Engine] (h : item.Conducts signatures) (text : String)
    (least most : Option Bound) : (Emit.listOf text item least most).Safe signatures := by
  intro d p d' p' w site R code pools fits start σ steady next
  rw [Emit.listOf] at w
  obtain ⟨_, d₁, p₁, w₁, wa⟩ := writes_bind.1 w
  obtain ⟨rfl, rfl, rfl⟩ := writes_slot.1 w₁
  rw [writes_emit_bind] at wa
  obtain ⟨unexpected, d₂, p₂, w₂, wb⟩ := writes_bind.1 wa
  obtain ⟨wf, rfl⟩ := writes_lift.1 w₂
  obtain ⟨grownf, noted⟩ := Build.adds_failure wf
  obtain ⟨_, d₃, p₃, w₃, wc⟩ := writes_bind.1 wb
  obtain ⟨rfl, rfl, rfl⟩ := writes_slot.1 w₃
  rw [writes_emit_bind] at wc
  obtain ⟨_, d₄, p₄, w₄, wd⟩ := writes_bind.1 wc
  obtain ⟨rfl, rfl, rfl⟩ := writes_checkpoint.1 w₄
  obtain ⟨least?, d₅, p₅, w₅, we⟩ := writes_bind.1 wd
  obtain ⟨most?, d₆, p₆, w₆, wg⟩ := writes_bind.1 we
  obtain ⟨_, d₇, p₇, w₇, w₈⟩ := writes_bind.1 wg
  have tameLeast := Tame.limit? least
  have tameMost := Tame.limit? most
  have tameLoop := Tame.repetition h.tame d.slots (d.slots + 1) (d.slots + 2) most?
  have w₉ : (Emit.enough d.slots (d.slots + 1) (d.slots + 2) least?).Writes d₇ p₇ () d' p' := w₈
  have tameEnd := Tame.enough d.slots (d.slots + 1) (d.slots + 2) least?
  have grownLeast := tameLeast.draft w₅
  have grownMost := tameMost.draft w₆
  have before := (grownf.trans (tameLeast.pools w₅)).trans (tameMost.pools w₆)
  have code₇ := code.back (tameEnd.draft w₉)
  have code₆ := code₇.back (tameLoop.draft w₇)
  have third := (code₆.back grownMost).back grownLeast
  have second := third.add.addSlot
  have pools₇ := pools.back (tameEnd.pools w₉)
  have pools₆ := pools₇.back (tameLoop.pools w₇)
  have pools₅ := pools₆.back (tameMost.pools w₆)
  have listed := (pools₅.back (tameLeast.pools w₅)).failures.lt_of_getElem? noted
  have room : d.slots + 2 < d₅.slots := grownLeast.slots
  have room' : d₅.slots ≤ d₆.slots := grownMost.slots
  have within := steady.toWithin
  refine Site.behaves_newList (d := d.addSlot) second.add.addSlot within fun id => ?_
  obtain ⟨steady₁, list⟩ := steady.store (i := .newList d.slots) second.add.addSlot (.list id [])
  obtain ⟨steady₂, held⟩ := steady₁.store second (.failure unexpected)
  obtain ⟨steady₃, saved⟩ := steady₂.store third (.ofPos σ.pos)
  refine Site.behaves_store (d := Draft.addSlot _) second ⟨within.forward, within.inside⟩ rfl
    (Site.behaves_store (d := Draft.addSlot _) third ⟨within.forward, within.inside⟩ rfl
      (Site.behaves_limit w₅ (code₆.back grownMost) pools₅ (fits.grow grownf) steady₃
        fun low σ₄ keeps₄ pos₄ bounds₄ => ?_))
  have pos₄ : σ₄.pos = σ.pos := pos₄
  have steady₄ := steady₃.next keeps₄ ⟨pos₄ ▸ within.forward, pos₄ ▸ within.inside⟩
    grownLeast.scope grownLeast.slots
  refine Site.behaves_limit w₆ code₆ pools₆ (fits.grow (grownf.trans (tameLeast.pools w₅))) steady₄
    fun most σ₅ keeps₅ pos₅ bounds₅ => ?_
  have pos : σ₅.pos = σ.pos := pos₅.trans pos₄
  have keep (v : Nat) (x : Value) (le : v ≤ d.slots + 2)
      (h : (((σ.set d.slots (.list id [])).set (d.slots + 1) (.failure unexpected)).set
        (d.slots + 2) (.ofPos σ.pos)).slots[v]? = some x) : σ₅.slots[v]? = some x :=
    keeps₅.kept (by omega) (keeps₄.kept (Nat.lt_succ_of_le le) h)
  have gathers : site.Gathers R d.slots d₆.slots σ.pos σ₅.slots σ₅.slots := by
    refine ⟨⟨id, [], keep _ _ (by omega) ?_, .nil⟩, ⟨unexpected, keep _ _ (by omega) ?_, listed⟩,
      ⟨σ.pos, keep _ _ (Nat.le_refl _) saved, Nat.le_refl _, steady.inside⟩, fun _ _ _ => rfl⟩
    · exact (getElem?_set_ne (by omega) _).trans ((getElem?_set_ne (by omega) _).trans list)
    · exact (getElem?_set_ne (by omega) _).trans held
  have keeps : Keeps d.slots σ.slots σ₅.slots :=
    (((Keeps.set _ (Nat.le_refl _) _).trans (.set _ (Nat.le_succ _) _)).trans
      (.set _ (Nat.le_add_right _ 2) _)).trans
        ((keeps₄.mono (Nat.le_add_right _ 3)).trans (keeps₅.mono (by omega)))
  have least := bounds₄.kept (Nat.le_refl _) room' fun v _ hv => keeps₅.same v hv
  exact Site.behaves_repetition h w₇ code₇ pools₇ (fits.grow before) steady
    (grownMost.scope.trans grownLeast.scope) (Nat.le_refl _) (by omega)
    (bounds₅.kept room (Nat.le_refl _) fun _ _ _ => rfl)
    ⟨keeps, Nat.le_of_eq pos.symm, pos ▸ steady.inside, gathers⟩ fun σ₆ mid =>
      Site.behaves_enough w₉ code fits.small within least mid next

end Emit.Safe

/-! ### Separators -/

namespace Site

variable {site : Site} {R : Regime} {d d₀ d' : Draft} {p p' : Pools}
variable {start bound back staging place target : Nat} {σ σ₀ : Moment} {b : Bool}

/-- A slot holds a list of proper values. -/
def Lists (R : Regime) (staging : Nat) (slots : Array Value) : Prop :=
  ∃ id items, slots[staging]? = some (.list id items) ∧ Value.AllProper R.may items

theorem Lists.kept {xs ys : Array Value} (h : Lists R staging xs) (keeps : Keeps bound xs ys)
    (lt : staging < bound) : Lists R staging ys := by
  obtain ⟨id, items, held, proper⟩ := h
  exact ⟨id, items, keeps.kept lt held, proper⟩

/-- The list gets other items. -/
theorem Midway.lists {i : Nat} {items : List Value} (mid : site.Midway bound σ₀ (Lists R staging) σ)
    (low : bound ≤ staging) (proper : Value.AllProper R.may items) :
    site.Midway bound σ₀ (Lists R staging) (σ.set staging (.list i items)) := by
  obtain ⟨_, _, held, -⟩ := mid.inv
  exact ⟨mid.keeps.trans (.set _ low _), mid.forward, mid.inside, i, items,
    getElem?_set_self (Array.getElem?_eq_some_iff.1 held).1 _, proper⟩

/-- A separator is kept or dropped. -/
theorem behaves_pushIf (h : site.function.Hosts (d.addIf b (.push staging .result)))
    (here : site.Within start σ) (mid : site.Midway bound σ₀ (Lists R staging) σ)
    (low : bound ≤ staging) (proper : σ.result.Proper R.may)
    (next : ∀ σ', site.Midway bound σ₀ (Lists R staging) σ' → σ'.pos = σ.pos →
      (∀ v, v ≠ staging → σ'.slots[v]? = σ.slots[v]?) →
      site.Behaves R start (d.addIf b (.push staging .result)).code.size σ') :
    site.Behaves R start d.code.size σ := by
  cases b with
  | false => exact next σ mid rfl fun _ _ => rfl
  | true =>
      obtain ⟨id, items, held, all⟩ := mid.inv
      exact behaves_push h here rfl held (next _ (mid.lists low (all.append (.cons proper .nil))) rfl
        fun v hv => getElem?_set_ne (Ne.symm hv) _)

/-- A separator is given back. -/
theorem behaves_popIf (h : site.function.Hosts (d.addIf b (.pop staging)))
    (here : site.Within start σ) (mid : site.Midway bound σ₀ (Lists R staging) σ)
    (low : bound ≤ staging)
    (next : ∀ σ', site.Midway bound σ₀ (Lists R staging) σ' → σ'.pos = σ.pos →
      (∀ v, v ≠ staging → σ'.slots[v]? = σ.slots[v]?) →
      site.Behaves R start (d.addIf b (.pop staging)).code.size σ') :
    site.Behaves R start d.code.size σ := by
  cases b with
  | false => exact next σ mid rfl fun _ _ => rfl
  | true =>
      obtain ⟨id, items, held, all⟩ := mid.inv
      exact behaves_pop h here held (next _ (mid.lists low all.dropLast) rfl
        fun v hv => getElem?_set_ne (Ne.symm hv) _)

/-- A trailer is not given back: the place kept is either the old one or the one reached. -/
theorem behaves_saveIf (h : site.function.Hosts (d.addIf b (.store back .position)))
    (here : site.Within start σ) (mid : site.Midway bound σ₀ (Lists R staging) σ)
    (low : bound ≤ back) (other : back ≠ staging) (saved : σ.slots[back]? = some (.ofPos place))
    (forward : σ₀.pos ≤ place) (le : place ≤ σ.pos)
    (next : ∀ σ' kept, site.Midway bound σ₀ (Lists R staging) σ' → σ'.pos = σ.pos →
      σ'.slots[back]? = some (.ofPos kept) → σ₀.pos ≤ kept → place ≤ kept → kept ≤ σ.pos →
      site.Behaves R start (d.addIf b (.store back .position)).code.size σ') :
    site.Behaves R start d.code.size σ := by
  cases b with
  | false => exact next σ place mid rfl saved forward (Nat.le_refl _) le
  | true =>
      have room := (Array.getElem?_eq_some_iff.1 saved).1
      obtain ⟨id, items, held, all⟩ := mid.inv
      exact behaves_store h here rfl (next _ σ.pos ⟨mid.keeps.trans (.set _ low _), mid.forward,
        mid.inside, id, items, (getElem?_set_ne other _).trans held, all⟩ rfl
        (getElem?_set_self room _) mid.forward le (Nat.le_refl _))

/-- Separators and items as often as both succeed. -/
theorem behaves_separated [Regex.Engine] {item separator : Emit Unit} (h : item.Conducts signatures)
    (h' : separator.Conducts signatures) {flags : SepFlags}
    (w : (Emit.separated item separator flags staging).Writes d p () d' p')
    (code : site.function.Hosts d') (pools : site.setting.program.Hosts p')
    (fits : R.Fits site.setting signatures p.ruleFunctions)
    (begun : site.Steady R d₀ start σ₀) (scope : d.scope = d₀.scope) (low : d₀.slots ≤ staging)
    (lt : staging < d.slots) (mid : site.Midway d₀.slots σ₀ (Lists R staging) σ)
    (next : ∀ σ', site.Midway d₀.slots σ₀ (Lists R staging) σ' →
      site.Behaves R start d'.code.size σ') : site.Behaves R start d.code.size σ := by
  rw [Emit.separated_eq] at w
  refine behaves_rounds (fun _ exit => Emit.attemptPair item separator flags staging exit)
    (fun _ exit => Emit.Tame.attemptPair h.tame h'.tame flags staging exit) w code
    (fun e d₁ topAt w₁ same slots body tops exits σ mid again => ?_) mid
  obtain ⟨back, d₂, p₂, w₂, wa⟩ := Emit.writes_bind.1 w₁
  obtain ⟨rfl, rfl, rfl⟩ := Emit.writes_checkpoint.1 w₂
  obtain ⟨_, d₃, p₃, w₃, wb⟩ := Emit.writes_bind.1 wa
  obtain ⟨_, d₄, p₄, w₄, wc⟩ := Emit.writes_bind.1 wb
  obtain ⟨retreat, rfl⟩ := Site.writes_retreat w₄
  obtain ⟨_, d₅, p₅, w₅, wd⟩ := Emit.writes_bind.1 wc
  obtain ⟨rfl, rfl⟩ := Emit.writes_emitIf.1 w₅
  obtain ⟨_, d₆, p₆, w₆, we⟩ := Emit.writes_bind.1 wd
  obtain ⟨rfl, rfl⟩ := Emit.writes_emitIf.1 w₆
  obtain ⟨_, d₇, p₇, w₇, wf⟩ := Emit.writes_bind.1 we
  obtain ⟨_, d₈, p₈, w₈, w₉⟩ := Emit.writes_bind.1 wf
  obtain ⟨rfl, rfl⟩ := Emit.writes_emit_emit.1 w₉
  obtain ⟨d₉, wg, size, hosts⟩ := Emit.hosts_ifThen ((Emit.Tame.emitIf _ _).bind fun _ =>
    (Emit.Tame.emit _).bind fun _ => .emit _) w₈
  obtain ⟨_, d₁₀, p₁₀, wh, wi⟩ := Emit.writes_bind.1 wg
  obtain ⟨rfl, rfl⟩ := Emit.writes_emitIf.1 wh
  obtain ⟨rfl, rfl⟩ := Emit.writes_emit_emit.1 wi
  obtain ⟨failed, branch, passed⟩ := hosts _ body.add.add.add
  have second := branch.add.addLabel
  have saving := second.back (h.tame.draft w₇)
  have keeping := Site.hosts_addIf saving
  have retreating := Site.hosts_addIf keeping
  have lower : d₀.slots ≤ e.slots := by omega
  have grown := (h'.tame.draft w₃).trans retreat
  have room : e.slots + 1 ≤ d₄.slots := grown.slots
  have steady := mid.steady begun (same.trans scope) lower
  refine behaves_tried h' w₃ w₄ retreating (pools.back (h.tame.pools w₇)) fits exits steady
    (fun σ₁ keeps₁ kept₁ forward₁ inside₁ proper₁ => ?_) fun σ₁ keeps₁ pos₁ => ?_
  · have mid₁ := mid.part keeps₁ lower forward₁ inside₁ (mid.inv.kept keeps₁ (by omega))
    refine behaves_pushIf keeping (mid₁.within begun.toWithin) mid₁ low proper₁
      fun σ₂ mid₂ pos₂ others₂ => ?_
    refine behaves_saveIf saving (mid₂.within begun.toWithin) mid₂ lower (by omega)
      ((others₂ _ (by omega)).trans kept₁) mid.forward (by omega)
      fun σ₃ kept mid₃ pos₃ saved₃ forward₃ behind₃ le₃ => ?_
    have scope' : d₄.scope = d₀.scope := grown.scope.trans (same.trans scope)
    have steady₃ : site.Steady R ((d₄.addIf (!flags.discardSeparators) (.push staging .result)).addIf
        flags.allowTrailer (.store e.slots .position)) start σ₃ :=
      mid₃.steady begun (by simpa using scope') (by simp; omega)
    have small : kept < 2 ^ 63 := by
      have := fits.small
      have := mid₂.inside
      omega
    refine h.safe _ _ _ _ w₇ site R second pools (fits.grow (h'.tame.pools w₃)) start σ₃ steady₃
      fun σ₄ keeps₄ contract => ?_
    have mid₄ := mid₃.part keeps₄ (by simp; omega) contract.forward contract.inside
      (mid₃.inv.kept keeps₄ (by simp; omega))
    have here₄ := mid₄.within begun.toWithin
    have saved₄ := keeps₄.kept (by simp; omega) saved₃
    have forward₄ : σ₃.pos ≤ σ₄.pos := contract.forward
    refine behaves_status (d := Draft.addLabel _) branch here₄ passed (fun hs => ?_) fun _ => ?_
    · obtain ⟨id, items, held, all⟩ := mid₄.inv
      have mid₅ := mid₄.lists (i := id) low (all.append (.cons (contract.success hs) .nil))
      rw [← size]
      refine behaves_push body.add.add here₄ rfl held (behaves_again body tops exits
        ⟨here₄.forward, here₄.inside⟩
        ((getElem?_set_ne (by omega : staging ≠ e.slots) _).trans saved₄) small
        (Nat.le_trans (by omega : kept ≤ σ₃.pos) forward₄) (fun further => again _ mid₅ ?_)
        (next _ mid₅))
      exact Nat.lt_of_le_of_lt behind₃ further
    · refine behaves_popIf (d := Emit.entered _) failed.add.add here₄ mid₄ low
        fun σ₅ mid₅ pos₅ others₅ => ?_
      have inside₅ : kept ≤ site.setting.bytes.size := by
        have := mid₂.inside
        omega
      exact behaves_restore failed.add (mid₅.within begun.toWithin)
        ((others₅ _ (by omega)).trans saved₄) small (behaves_jump failed
          ⟨Nat.le_trans begun.forward forward₃, inside₅⟩ exits
          (next _ ⟨mid₅.keeps, forward₃, inside₅, mid₅.inv⟩))
  · refine next _ (mid.part keeps₁ lower (Nat.le_of_eq pos₁.symm) ?_
      (mid.inv.kept keeps₁ (by omega)))
    rw [pos₁]
    exact mid.inside

/-- A list whose first item has failed is empty, if it may be. -/
theorem behaves_noItems [Regex.Engine] {allowEmpty : Bool} {out : Nat}
    (w : (Emit.noItems allowEmpty back out).Writes d p () d' p') (code : site.function.Hosts d')
    (exits : site.function.labels[out]? = some target) (here : site.Within start σ)
    (begun : site.Within start σ₀) (keeps : Keeps bound σ₀.slots σ.slots)
    (saved : σ.slots[back]? = some (.ofPos σ₀.pos)) (small : σ₀.pos < 2 ^ 63)
    (contract : site.setting.Contract R.may σ₀.pos σ.outcome)
    (next : ∀ σ', Keeps bound σ₀.slots σ'.slots →
      site.setting.Contract R.may σ₀.pos σ'.outcome → site.Behaves R start target σ') :
    site.Behaves R start d.code.size σ := by
  cases allowEmpty with
  | false =>
      obtain ⟨rfl, rfl⟩ := Emit.writes_emit.1 (w : (Emit.emit (.jump out)).Writes d p () d' p')
      exact behaves_jump code here exits (next σ keeps contract)
  | true =>
      have w' : (do
          Emit.emit (.restore back)
          let empty ← Build.emptyList
          Emit.succeedWith (.const empty)
          Emit.emit (.jump out) : Emit Unit).Writes d p () d' p' := w
      rw [Emit.writes_emit_bind] at w'
      obtain ⟨v, d₁, p₁, w₁, w₂⟩ := Emit.writes_bind.1 w'
      obtain ⟨w₃, rfl⟩ := Emit.writes_lift.1 w₁
      obtain ⟨-, rfl⟩ := Build.adds_emptyList w₃
      obtain ⟨_, d₂, p₂, w₄, w₅⟩ := Emit.writes_bind.1 w₂
      obtain ⟨rfl, rfl⟩ := Emit.writes_succeedWith.1 w₄
      obtain ⟨rfl, rfl⟩ := Emit.writes_emit.1 w₅
      exact behaves_restore code.add.add.add here saved small
        (behaves_succeedWith code.add ⟨begun.forward, begun.inside⟩ rfl
          (behaves_jump code ⟨begun.forward, begun.inside⟩ exits
            (next _ keeps (.of_success (Nat.le_refl _) begun.inside (.list _ .nil)))))

end Site

namespace Emit.Safe

theorem sepOf [Regex.Engine] {item separator : Emit Unit} (h : item.Conducts signatures)
    (h' : separator.Conducts signatures) (flags : SepFlags) :
    (Emit.sepOf item separator flags).Safe signatures := by
  intro d p d' p' w site R code pools fits start σ steady next
  rw [Emit.sepOf] at w
  obtain ⟨_, d₁, p₁, w₁, wa⟩ := writes_bind.1 w
  obtain ⟨rfl, rfl, rfl⟩ := writes_slot.1 w₁
  rw [writes_emit_bind] at wa
  have tames (out : Nat) : Emit.Tame (do
      let start ← checkpoint
      item
      ifThen .notStatus (noItems flags.allowEmpty start out)
      emit (.push d.slots .result)
      separated item separator flags d.slots
      succeedWith (.slot d.slots)) :=
    Tame.checkpoint.bind fun _ => h.tame.bind fun _ => (Tame.ifThen _ (.noItems _ _ _)).bind
      fun _ => (Tame.emit _).bind fun _ => (Tame.separated h.tame h'.tame _ _).bind
        fun _ => .succeedWith _
  obtain ⟨d₂, w₂, size, hosts⟩ := hosts_block tames wa
  obtain ⟨_, d₃, p₃, w₃, wb⟩ := writes_bind.1 w₂
  obtain ⟨rfl, rfl, rfl⟩ := writes_checkpoint.1 w₃
  obtain ⟨_, d₄, p₄, w₄, wc⟩ := writes_bind.1 wb
  obtain ⟨_, d₅, p₅, w₅, wd⟩ := writes_bind.1 wc
  rw [writes_emit_bind] at wd
  obtain ⟨_, d₆, p₆, w₆, w₇⟩ := writes_bind.1 wd
  obtain ⟨rfl, rfl⟩ := writes_succeedWith.1 w₇
  obtain ⟨d₇, w₈, size', hosts'⟩ := hosts_ifThen (.noItems _ _ _) w₅
  have pgrown := (h.tame.pools w₄).trans ((Tame.noItems _ _ _).pools w₈)
  have tameLoop := Tame.separated h.tame h'.tame flags d.slots
  obtain ⟨body, exit⟩ := hosts _ code
  rw [size] at next
  have pushing := body.add.add.back (tameLoop.draft w₆)
  obtain ⟨none, branch, passed⟩ := hosts' _ pushing.add
  have part := branch.add.addLabel
  have begins := part.back (h.tame.draft w₄)
  have pools₅ := pools.back (tameLoop.pools w₆)
  have pools₄ := pools₅.back ((Tame.noItems _ _ _).pools w₈)
  have small := steady.small fits.small
  have grown : d.slots + 2 ≤ d₄.slots := (h.tame.draft w₄).slots
  have grown' := (Tame.ifThen .notStatus (.noItems flags.allowEmpty _ _)).draft w₅
  have within := steady.toWithin
  refine Site.behaves_newList (d := d.addSlot) begins.add.addSlot.entered.addLabel within
    fun id => ?_
  obtain ⟨steady₁, list⟩ := steady.store (i := .newList d.slots)
    begins.add.addSlot.entered.addLabel (.list id [])
  have steady₂ : site.Steady R (entered (d.addSlot.add (.newList d.slots)).addLabel) start
      (σ.set d.slots (.list id [])) := steady₁.recast rfl (Nat.le_refl _)
  obtain ⟨steady₃, saved⟩ := steady₂.store begins (.ofPos σ.pos)
  refine Site.behaves_store (d := Draft.addSlot (entered (Draft.addLabel _))) begins
    ⟨within.forward, within.inside⟩ rfl
    (h.safe _ _ _ _ w₄ site R part pools₄ fits start _ steady₃ fun σ₁ keeps contract => ?_)
  have here : site.Within start σ₁ := within.next contract
  have keeps₁ : Keeps d.slots σ.slots σ₁.slots :=
    ((Keeps.set _ (Nat.le_refl _) _).trans (.set _ (Nat.le_succ _) _)).trans
      (keeps.mono (Nat.le_add_right _ 2))
  have list₁ : σ₁.slots[d.slots]? = some (.list id []) :=
    keeps.kept (Nat.lt_succ_of_lt (Nat.lt_succ_self _))
      ((getElem?_set_ne (Nat.succ_ne_self _) _).trans list)
  refine Site.behaves_status (d := Draft.addLabel _) branch here passed (fun hs => ?_) fun _ => ?_
  · have mid : site.Midway d.slots σ (Site.Lists R d.slots) σ₁ :=
      ⟨keeps₁, contract.forward, contract.inside, id, [], list₁, .nil⟩
    have mid₁ := mid.lists (i := id) (Nat.le_refl _)
      (.cons (contract.success hs) .nil : Value.AllProper R.may [σ₁.result])
    rw [← size']
    refine Site.behaves_push pushing here rfl list₁ (Site.behaves_separated h h' w₆ body.add.add
      pools (fits.grow pgrown) steady (grown'.scope.trans (h.tame.draft w₄).scope)
      (Nat.le_refl _) ?_ mid₁ fun σ₂ mid₂ => ?_)
    · exact Nat.lt_of_lt_of_le (Nat.lt_of_succ_lt grown) grown'.slots
    · obtain ⟨id', items, held, proper⟩ := mid₂.inv
      exact Site.behaves_succeedWith body (mid₂.within within) (Site.frame_slot held)
        (next _ mid₂.keeps (.of_success mid₂.forward mid₂.inside (.list _ proper)))
  · exact Site.behaves_noItems (d := entered _) w₈ none exit here within keeps₁
      (keeps.kept (Nat.lt_succ_self _) saved) small contract next

end Emit.Safe

end Packrat
