import Packrat.Proofs.Conduct.Parts
import Packrat.Proofs.Simulation.Alternatives

/-
**Alternatives and skipped content behave.**

The first alternative that fails leaves a place behind, whatever the number is that the code begins
with; so behind the last one there is a place to go back to, and a failure to report.

Main results:

* `Packrat.Site.behaves_keepFarthest` — behind a failure the farthest one is known;
* `Packrat.Site.behaves_alternatives` — alternatives behave if there are any;
* `Packrat.Site.behaves_skipped` — a round of skipping reads something, or is the last.
-/

set_option autoImplicit false

namespace Packrat

variable {signatures : Signatures}

namespace Site

variable {site : Site} {R : Regime} {d d' : Draft} {p p' : Pools} {start place farPos farErr : Nat}
variable {σ : Moment} {failed : Bool}

/-! ### The farthest failure -/

/-- Slots that hold the farthest failure of alternatives that began at a place, if one of them has
failed. -/
def Farthest (site : Site) (farPos farErr place : Nat) (slots : Array Value) (failed : Bool) :
    Prop :=
  if failed then ∃ pos mark, slots[farPos]? = some (.ofPos pos) ∧ place ≤ pos ∧
    pos ≤ site.setting.bytes.size ∧ slots[farErr]? = some (.failure mark) ∧
      mark < site.setting.program.failures.size
  else slots[farPos]? = some (.int (-1))

/-- The slots of the farthest failure are older than a part. -/
theorem Farthest.kept {bound : Nat} {xs ys : Array Value}
    (h : site.Farthest farPos farErr place xs failed) (keeps : Keeps bound xs ys)
    (hp : farPos < bound) (he : farErr < bound) : site.Farthest farPos farErr place ys failed := by
  cases failed with
  | false => exact keeps.kept hp h
  | true =>
      obtain ⟨pos, mark, held, le, inside, err, listed⟩ := h
      exact ⟨pos, mark, keeps.kept hp held, le, inside, keeps.kept he err, listed⟩

/-- A place is kept that no place is behind of until something has failed. -/
theorem Farthest.savedNumber (pc : Nat) (h : site.Farthest farPos farErr place σ.slots failed)
    (small : site.setting.bytes.size < 2 ^ 63) :
    ∃ z, (site.frame pc σ).savedNumber farPos = .ok z ∧ (failed = false → z = -1) := by
  cases failed with
  | false => exact ⟨-1, by rw [Frame.savedNumber, frame_slot h]; rfl, fun _ => rfl⟩
  | true =>
      obtain ⟨pos, mark, held, -, inside, -, -⟩ := h
      exact ⟨pos, frame_savedNumber held (Nat.lt_of_le_of_lt inside small), fun h => by cases h⟩

/-- Behind a failure the farthest one is known. -/
theorem behaves_keepFarthest [Regex.Engine] {isFail : Bool} {mark : Nat} {u : Unit}
    (w : (Emit.keepFarthest isFail farPos farErr).Writes d p u d' p')
    (code : site.function.Hosts d') (small : site.setting.bytes.size < 2 ^ 63)
    (room : farPos < σ.slots.size ∧ farErr < σ.slots.size) (other : farPos ≠ farErr)
    (far : site.Farthest farPos farErr place σ.slots failed) (here : site.Within start σ)
    (forward : place ≤ σ.pos) (result : σ.result = .failure mark)
    (listed : mark < site.setting.program.failures.size)
    (next : ∀ xs : Array Value, xs.size = σ.slots.size →
      (∀ v, v ≠ farPos → v ≠ farErr → xs[v]? = σ.slots[v]?) →
      site.Farthest farPos farErr place xs true →
      site.Behaves R start d'.code.size { σ with slots := xs }) :
    site.Behaves R start d.code.size σ := by
  obtain ⟨d₁, w₁, size, hosts⟩ :=
    Emit.hosts_ifThen ((Emit.Tame.emit _).bind fun _ => .emit _) w
  obtain ⟨rfl, rfl⟩ := Emit.writes_emit_emit.1 w₁
  obtain ⟨body, branch, placed⟩ := hosts _ code
  obtain ⟨z, number, least⟩ := far.savedNumber (d.addLabel.code.size + 1) small
  have passes : (site.frame (d.addLabel.code.size + 1) σ).holds
      (if isFail then .posGt farPos else .posGe farPos : Condition).negate =
        .ok (!decide (if isFail then z < σ.pos else z ≤ σ.pos)) := by
    cases isFail
    · change (site.frame _ σ).positionHolds farPos (fun pos n => decide (pos < n)) = _
      rw [frame_positionHolds number]
      simp only [Bool.false_eq_true, if_false, ← decide_not, Int.not_le]
    · change (site.frame _ σ).positionHolds farPos (fun pos n => decide (pos ≤ n)) = _
      rw [frame_positionHolds number]
      simp only [if_true, ← decide_not, Int.not_lt]
  refine behaves_branch (d := Draft.addLabel _) branch here placed passes (fun nearer => ?_)
    fun _ => ?_
  · -- A place that is not farther than the one kept is none before anything has failed.
    rw [← size]
    cases failed with
    | true => exact next σ.slots rfl (fun _ _ _ => rfl) far
    | false =>
        obtain rfl := least rfl
        have farther : (-1 : Int) < σ.pos := by omega
        cases isFail <;> simp [farther, Int.le_of_lt farther] at nearer
  · refine behaves_store (d := Emit.entered _) body.add here rfl
      (behaves_store body ⟨here.forward, here.inside⟩ rfl ?_)
    rw [← size]
    refine next _ (by simp [Moment.set]) (fun v hp he => ?_)
      ⟨σ.pos, mark, ?_, forward, here.inside, ?_, listed⟩
    · exact (getElem?_set_ne (Ne.symm he) _).trans (getElem?_set_ne (Ne.symm hp) _)
    · exact (getElem?_set_ne other.symm _).trans (getElem?_set_self room.1 _)
    · rw [← result]
      exact getElem?_set_self (by simpa [Moment.set] using room.2) _

end Site

/-! ### Alternatives -/

open Packrat.Expr in
/-- Alternatives in order, if there are any left or one has failed. -/
theorem Site.behaves_alternatives [Regex.Engine] {site : Site} {R : Regime} {start : Nat}
    {base : Draft} {σ₀ : Moment} (steady₀ : site.Steady R base start σ₀)
    {back farPos farErr exit : Nat} {d' : Draft} {p' : Pools} (code : site.function.Hosts d')
    (pools : site.setting.program.Hosts p')
    (exits : site.function.labels[exit]? = some d'.code.size)
    (next : ∀ σ', Keeps base.slots σ₀.slots σ'.slots →
      site.setting.Contract R.may σ₀.pos σ'.outcome → site.Behaves R start d'.code.size σ')
    {es : List Expr} (all : ∀ e ∈ es, e.emit.Conducts signatures) (first failed : Bool)
    {d : Draft} {p : Pools} {σ : Moment}
    (w : (emitAlternatives back farPos farErr exit first es).Writes d p () d' p')
    (fits : R.Fits site.setting signatures p.ruleFunctions)
    (shares : Emit.Shares base.slots back farPos farErr d) (scope : d.scope = base.scope)
    (some_ : failed = true ∨ es ≠ []) (keeps : Keeps base.slots σ₀.slots σ.slots)
    (here : site.Within start σ) (begins : first = true → σ.pos = σ₀.pos)
    (saved : σ.slots[back]? = some (.ofPos σ₀.pos))
    (far : site.Farthest farPos farErr σ₀.pos σ.slots failed) :
    site.Behaves R start d.code.size σ := by
  have small := steady₀.small fits.small
  induction es generalizing first failed d p σ with
  | nil =>
      rw [emitAlternatives, Emit.writes_emit_bind, Emit.writes_emit_emit] at w
      obtain ⟨rfl, rfl⟩ := w
      obtain rfl := some_.resolve_right (by simp)
      obtain ⟨pos, mark, held, forward, inside, err, listed⟩ := far
      have within : site.Within start { σ with pos := pos } :=
        ⟨Nat.le_trans steady₀.forward forward, inside⟩
      exact Site.behaves_restore code.add.add here held (Nat.lt_of_le_of_lt inside fits.small)
        (Site.behaves_load code.add within (Site.frame_slot err)
          (Site.behaves_setStatus code ⟨within.forward, within.inside⟩
            (next _ keeps (.of_failure forward inside listed))))
  | cons e es ih =>
      have conducts := (all e (List.mem_cons_self ..)).within e
      have rest := emitAlternatives_tame back farPos farErr exit false es
      have body (d₀ : Draft) (σ : Moment) (scope₀ : d₀.scope = base.scope)
          (shares : Emit.Shares base.slots back farPos farErr d₀)
          (keeps : Keeps base.slots σ₀.slots σ.slots) (here : site.Within start σ)
          (pos : σ.pos = σ₀.pos) (saved : σ.slots[back]? = some (.ofPos σ₀.pos))
          (far : site.Farthest farPos farErr σ₀.pos σ.slots failed)
          (w : (Emit.tried back farPos farErr exit e es).Writes d₀ p () d' p') :
          site.Behaves R start d₀.code.size σ := by
        have low : base.slots ≤ d₀.slots :=
          Nat.le_of_lt (Nat.lt_of_le_of_lt shares.le_back shares.back_lt)
        have steady : site.Steady R d₀ start σ := steady₀.next keeps here scope₀ low
        by_cases always : e.alwaysSucceeds = true
        · obtain ⟨d₁, w₁, rfl⟩ := (Emit.writes_tried_always always).1 w
          refine conducts.safe _ _ _ _ w₁ site R code.add pools fits start σ steady
            fun σ' keeps' contract => Site.behaves_jump code (here.next contract) exits ?_
          exact next σ' (keeps.trans (keeps'.mono low)) (pos ▸ contract)
        · obtain ⟨d₁, p₁, d₂, p₂, w₁, w₂, w₃⟩ := (Emit.writes_tried always).1 w
          have grown := conducts.tame.draft w₁
          have kept := Emit.Tame.keepFarthest e.isFail farPos farErr
          have code₂ := code.back (rest.draft w₃)
          have code₁ := code₂.back (kept.draft w₂)
          have pools₁ := (pools.back (rest.pools w₃)).back (kept.pools w₂)
          have shares₂ := (shares.grow grown).grow ((d₁.grows_add _).trans (kept.draft w₂))
          refine conducts.safe _ _ _ _ w₁ site R code₁.add pools₁ fits start σ steady
            fun σ₁ keeps' contract => ?_
          have here₁ : site.Within start σ₁ := here.next contract
          rw [pos] at contract
          refine Site.behaves_status code₁ here₁ exits
            (fun _ => next σ₁ (keeps.trans (keeps'.mono low)) contract) fun hs => ?_
          obtain ⟨mark, listed, result⟩ := contract.failure hs
          have size₁ : σ₁.slots.size = site.function.slots := keeps'.size.trans steady.size
          have above : farErr < site.function.slots :=
            Nat.lt_of_lt_of_le shares₂.farErr_lt code₂.slots
          have order := shares.farPos_farErr
          have order' := shares.back_farPos
          have order'' := shares.le_back
          refine Site.behaves_keepFarthest w₂ code₂ fits.small
            (by rw [size₁]; exact ⟨Nat.lt_trans order above, above⟩) (by omega)
            (far.kept keeps' shares.farPos_lt shares.farErr_lt) here₁ contract.forward result listed
            fun xs size others far' => ?_
          have both : Keeps base.slots σ₀.slots xs := by
            refine ⟨size.trans (keeps'.size.trans keeps.size), fun v hv => ?_⟩
            rw [others v (by omega) (by omega)]
            exact (keeps.trans (keeps'.mono low)).same v hv
          refine ih (fun e mem => all e (List.mem_cons_of_mem _ mem)) false true w₃
            (fits.grow ((conducts.tame.pools w₁).trans (kept.pools w₂))) shares₂
            ((kept.draft w₂).scope.trans (grown.scope.trans scope₀)) (.inl rfl)
            (σ := { σ₁ with slots := xs }) both ⟨here₁.forward, here₁.inside⟩ (fun h => by simp at h)
            ?_ far'
          rw [others back (by omega) (by omega)]
          exact keeps'.kept shares.back_lt saved
      cases first with
      | true =>
          rw [Emit.alternatives_first] at w
          exact body d σ scope shares keeps here (begins rfl) saved far w
      | false =>
          rw [Emit.alternatives_next, Emit.writes_emit_bind] at w
          exact Site.behaves_restore (code.back ((Emit.Tame.tried e.emit_tame rest).draft w)) here saved
            small (body _ { σ with pos := σ₀.pos } scope (shares.grow (d.grows_add _)) keeps
              ⟨steady₀.forward, steady₀.inside⟩ rfl saved far w)

namespace Expr

theorem safe_choice [Regex.Engine] {tag : Tag} {es : List Expr}
    (settled : (Expr.choice tag es).Settled signatures)
    (all : ∀ e ∈ es, e.emit.Conducts signatures) : (Expr.choice tag es).emit.Safe signatures := by
  intro d p d' p' w site R code pools fits
  by_cases single : ∃ only, es = [only]
  · obtain ⟨only, rfl⟩ := single
    rw [Expr.emit] at w
    exact ((all only (by simp)).within only).safe _ _ _ _ w site R code pools fits
  · rw [Expr.emit] at w
    rotate_left
    · exact fun only h => single ⟨only, h⟩
    intro start σ steady next
    obtain ⟨back, d₁, p₁, w₁, wa⟩ := Emit.writes_bind.1 w
    obtain ⟨rfl, rfl, rfl⟩ := Emit.writes_checkpoint.1 w₁
    obtain ⟨farPos, d₂, p₂, w₂, wb⟩ := Emit.writes_bind.1 wa
    obtain ⟨rfl, rfl, rfl⟩ := Emit.writes_slot.1 w₂
    rw [Emit.writes_emit_bind] at wb
    obtain ⟨farErr, d₃, p₃, w₃, wc⟩ := Emit.writes_bind.1 wb
    obtain ⟨rfl, rfl, rfl⟩ := Emit.writes_slot.1 w₃
    rw [Emit.writes_emit_bind] at wc
    have tame (exit : Nat) := emitAlternatives_tame d.slots (d.slots + 1) (d.slots + 2) exit true es
    obtain ⟨d₄, w₄, size, hosts⟩ := Emit.hosts_block tame wc
    have shares : Emit.Shares d.slots d.slots (d.slots + 1) (d.slots + 2)
        (Emit.entered (((d.addSlot.add (.store d.slots .position)).addSlot.add
          (.store (d.slots + 1) (.const (.int (-1))))).addSlot.add
            (.store (d.slots + 2) (.const .none))).addLabel) := by
      constructor <;> simp [Emit.entered, Draft.addSlot, Draft.add, Draft.addLabel]
      omega
    obtain ⟨body, exit⟩ := hosts _ code
    have third := (body.back ((tame _).draft w₄)).entered.addLabel
    have second := third.add.addSlot
    obtain ⟨steady₁, saved⟩ := steady.store second.add.addSlot (.ofPos σ.pos)
    obtain ⟨steady₂, least⟩ := steady₁.store second (.int (-1))
    rw [size] at next
    refine Site.behaves_store (d := d.addSlot) second.add.addSlot steady.toWithin rfl
      (Site.behaves_store (d := Draft.addSlot _) second steady₁.toWithin rfl
        (Site.behaves_store (d := Draft.addSlot _) third steady₂.toWithin rfl
          (Site.behaves_alternatives (d := Emit.entered (Draft.addLabel _)) steady body pools exit
            next all true false w₄ fits shares rfl (.inr settled)
            (.trans (.trans (.set _ ?_ _) (.set _ ?_ _)) (.set _ ?_ _))
            ⟨steady.forward, steady.inside⟩ (fun _ => rfl) ?_ ?_)))
    · exact Nat.le_refl _
    · simp only [Draft.addSlot, Draft.add]
      omega
    · simp only [Draft.addSlot, Draft.add]
      omega
    · exact (getElem?_set_ne (by simp only [Draft.addSlot, Draft.add]; omega) _).trans
        ((getElem?_set_ne (by simp only [Draft.addSlot, Draft.add]; omega) _).trans saved)
    · exact (getElem?_set_ne (by simp only [Draft.addSlot, Draft.add]; omega) _).trans least

end Expr

/-! ### Skipped content -/

open Packrat.Expr in
/-- A round of skipping: a part that reads something begins another one, and behind the last part
the place is the one before the first. -/
theorem Site.behaves_skipped [Regex.Engine] {site : Site} {R : Regime} {start top target : Nat}
    {items : List Expr} (all : ∀ e ∈ items, e.emit.Conducts signatures) {d d' : Draft}
    {p p' : Pools} {σ : Moment} (w : (emitSkipped top items).Writes d p () d' p')
    (code : site.function.Hosts d') (pools : site.setting.program.Hosts p')
    (fits : R.Fits site.setting signatures p.ruleFunctions)
    (placed : site.function.labels[top]? = some target) (steady : site.Steady R d start σ)
    (again : ∀ σ', Keeps d.slots σ.slots σ'.slots → σ.pos < σ'.pos →
      σ'.pos ≤ site.setting.bytes.size → site.Behaves R start target σ')
    (next : ∀ σ', Keeps d.slots σ.slots σ'.slots → σ'.pos = σ.pos →
      site.Behaves R start d'.code.size σ') : site.Behaves R start d.code.size σ := by
  induction items generalizing d p σ with
  | nil =>
      obtain ⟨-, rfl, rfl⟩ := Emit.writes_pure.1 w
      exact next σ (.refl _ _) rfl
  | cons e items ih =>
      rw [emitSkipped] at w
      have conducts := (all e (List.mem_cons_self ..)).within e
      obtain ⟨_, d₁, p₁, w₁, w₂⟩ := Emit.writes_bind.1 w
      have part := Emit.Tame.skipPart top conducts.tame
      rw [Emit.skipPart] at w₁
      obtain ⟨_, d₂, p₂, w₃, wa⟩ := Emit.writes_bind.1 w₁
      obtain ⟨rfl, rfl, rfl⟩ := Emit.writes_checkpoint.1 w₃
      obtain ⟨_, d₃, p₃, w₄, w₅⟩ := Emit.writes_bind.1 wa
      obtain ⟨d₄, p₄, d₅, w₆, w₇, size, hosts⟩ := Emit.hosts_ifElse (.emit _) (.emit _) w₅
      obtain ⟨rfl, rfl⟩ := Emit.writes_emit.1 w₆
      obtain ⟨rfl, rfl⟩ := Emit.writes_emit.1 w₇
      have rest := emitSkipped_tame top items
      have pgrown := conducts.tame.pools w₄
      have grown := part.draft w₁
      obtain ⟨failing, jump, branch, missed, behindBoth⟩ := hosts _ (code.back (rest.draft w₂))
      have found := branch.add.addLabel.addLabel
      have begins := found.back (conducts.tame.draft w₄)
      obtain ⟨steady₁, saved⟩ := steady.store begins (.ofPos σ.pos)
      have small := steady.small fits.small
      -- Behind a part that has read nothing the others are tried at the same place.
      have onward (σ' : Moment) (keeps : Keeps d.slots σ.slots σ'.slots) (same : σ'.pos = σ.pos) :
          site.Behaves R start d₁.code.size σ' := by
        have here : site.Within start σ' :=
          ⟨by rw [same]; exact steady.forward, by rw [same]; exact steady.inside⟩
        refine ih (fun e mem => all e (List.mem_cons_of_mem _ mem)) w₂ (fits.grow pgrown)
          (steady.next keeps here grown.scope grown.slots) (fun τ keeps' further inside => ?_)
          fun τ keeps' same' => ?_
        · exact again τ (keeps.trans (keeps'.mono grown.slots)) (same ▸ further) inside
        · exact next τ (keeps.trans (keeps'.mono grown.slots)) (same'.trans same)
      refine Site.behaves_store (d := d.addSlot) begins steady.toWithin rfl
        (conducts.safe _ _ _ _ w₄ site R found (pools.back (rest.pools w₂)) fits start _ steady₁
          fun σ₁ keeps contract => ?_)
      have here : site.Within start σ₁ := steady.toWithin.next contract
      have kept := keeps.kept (Nat.lt_succ_self _) saved
      refine Site.behaves_notStatus (d := Draft.addLabel (Draft.addLabel _)) branch here missed
        (fun _ => ?_) fun _ => ?_
      · refine Site.behaves_branch (d := Emit.entered _) jump.add here placed
          (Site.frame_posNe kept small) (fun moved => ?_) fun stayed => ?_
        · have moved : σ₁.pos ≠ σ.pos := of_decide_eq_true moved
          have forward : σ.pos ≤ σ₁.pos := contract.forward
          exact again σ₁ keeps.after (by omega) contract.inside
        · refine Site.behaves_jump jump here behindBoth ?_
          rw [← size]
          have stayed : ¬ σ₁.pos ≠ σ.pos := of_decide_eq_false stayed
          exact onward σ₁ keeps.after (by omega)
      · refine Site.behaves_restore (d := Draft.place _ _) failing here kept small ?_
        rw [← size]
        exact onward _ keeps.after rfl

theorem Expr.safe_skip [Regex.Engine] {items : List Expr}
    (all : ∀ e ∈ items, e.emit.Conducts signatures) (tag : Tag) :
    (Expr.skip tag items).emit.Safe signatures := by
  intro d p d' p' w site R code pools fits start σ steady next
  rw [Expr.emit] at w
  obtain ⟨_, d₁, p₁, w₁, w₂⟩ := Emit.writes_bind.1 w
  obtain ⟨rfl, rfl⟩ := Emit.writes_succeedWith.1 w₂
  have tame (top exit : Nat) : Emit.Tame (do
      emitSkipped top items
      Emit.emit (.jump exit)) := (emitSkipped_tame top items).bind fun _ => .emit _
  obtain ⟨e, d₂, scope, slots, begins, -, w₃, hosts⟩ := Emit.hosts_loop tame w₁
  obtain ⟨_, d₃, p₃, w₄, w₅⟩ := Emit.writes_bind.1 w₃
  obtain ⟨rfl, rfl⟩ := Emit.writes_emit.1 w₅
  obtain ⟨body, top, exit⟩ := hosts _ code.add.add
  rw [← begins] at top ⊢
  refine Site.behaves_loop (fun σ' => Keeps d.slots σ.slots σ'.slots ∧ σ.pos ≤ σ'.pos ∧
    σ'.pos ≤ site.setting.bytes.size) (fun _ h => h.2.2) ?_ ⟨.refl _ _, Nat.le_refl _, steady.inside⟩
  rintro σ₁ ⟨keeps, forward, inside⟩ round
  have here : site.Within start σ₁ := ⟨Nat.le_trans steady.forward forward, inside⟩
  refine Site.behaves_skipped all w₄ body.add.add pools fits top
    (steady.next keeps here scope (Nat.le_of_eq slots.symm)) (fun σ₂ keeps' further inside' => ?_)
    fun σ₂ keeps' same => ?_ <;> rw [slots] at keeps'
  · exact round σ₂ ⟨keeps.trans keeps', Nat.le_trans forward (Nat.le_of_lt further), inside'⟩ further
  · rw [← same] at forward inside
    have here₂ : site.Within start σ₂ := ⟨Nat.le_trans steady.forward forward, inside⟩
    exact Site.behaves_jump body.add here₂ exit (Site.behaves_succeedWith code here₂ rfl
      (next _ (keeps.trans keeps') (.of_success forward inside .none)))

end Packrat
