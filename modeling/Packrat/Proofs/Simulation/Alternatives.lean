import Packrat.Proofs.Simulation.Realizing

/-
**Alternatives, and skipped content.**

Alternatives are tried at one place, which is kept in a slot; two more slots hold the farthest
failure so far.  The parts of a skipping expression are tried in a loop that begins anew behind any
part that has read something.

Main definitions:

* `Packrat.Site.Far` — slots that hold the farthest failure of alternatives.

Main results:

* `Packrat.Site.follow_keepFarthest` — a failure that may be the farthest;
* `Packrat.Expr.compiles_choice`, `Packrat.Expr.compiles_skip` — the code of these expressions
  realizes their meaning if those of their parts do.
-/

set_option autoImplicit false

namespace Packrat

namespace Site

variable {site : Site} {n v pc : Nat} {d d' : Draft} {p p' : Pools} {σ : Moment}

/-! ### The farthest failure -/

/-- Slots that hold the farthest failure of alternatives, if one has failed. -/
def Far (site : Site) (farPos farErr : Nat) (slots : Array Value) :
    Option (FailureEntry × Nat) → Prop
  | none => slots[farPos]? = some (.int (-1))
  | some (entry, place) => slots[farPos]? = some (.ofPos place) ∧
      place ≤ site.setting.bytes.size ∧
      ∃ mark, slots[farErr]? = some (.failure mark) ∧
        site.setting.program.failures[mark]? = some entry

/-- The number that the place of the farthest failure counts as. -/
def farNumber : Option (FailureEntry × Nat) → Int
  | none => -1
  | some (_, place) => place

theorem Far.savedNumber {farPos farErr : Nat} {far? : Option (FailureEntry × Nat)}
    (h : site.Far farPos farErr σ.slots far?) (small : site.setting.bytes.size < 2 ^ 63) :
    (site.frame pc σ).savedNumber farPos = .ok (farNumber far?) := by
  cases far? with
  | none =>
      rw [Frame.savedNumber, frame_slot h]
      rfl
  | some far => exact frame_savedNumber h.1 (Nat.lt_of_le_of_lt h.2.1 small)

theorem farther_eq (isFail : Bool) (entry : FailureEntry) (place : Nat)
    (far? : Option (FailureEntry × Nat)) :
    Scene.farther isFail entry place far? =
      if (if isFail then farNumber far? < place else farNumber far? ≤ place) then
        some (entry, place) else far? := by
  cases far? with
  | none =>
      have least : (-1 : Int) < (place : Int) := by omega
      cases isFail
      · simp [Scene.farther, farNumber, Int.le_of_lt least]
      · simp [Scene.farther, farNumber, least]
  | some far => cases isFail <;> simp [Scene.farther, farNumber]

/-- A failure is kept if it is the farthest so far. -/
theorem follow_keepFarthest [Regex.Engine] {isFail : Bool} {farPos farErr mark : Nat}
    {entry : FailureEntry} {far? : Option (FailureEntry × Nat)} {u : Unit} {α : Type}
    {r : Option (Except Stop (α × Store))} {post : α → Store → Machine → Prop}
    (w : (Emit.keepFarthest isFail farPos farErr).Writes d p u d' p')
    (code : site.function.Hosts d') (small : site.setting.bytes.size < 2 ^ 63)
    (room : farPos < σ.slots.size ∧ farErr < σ.slots.size) (other : farPos ≠ farErr)
    (far : site.Far farPos farErr σ.slots far?) (inside : σ.pos ≤ site.setting.bytes.size)
    (result : σ.result = .failure mark)
    (known : site.setting.program.failures[mark]? = some entry)
    (next : ∀ xs : Array Value, xs.size = σ.slots.size →
      (∀ v, v ≠ farPos → v ≠ farErr → xs[v]? = σ.slots[v]?) →
      site.Far farPos farErr xs (Scene.farther isFail entry σ.pos far?) →
      site.Follows n d'.code.size { σ with slots := xs } r post) :
    site.Follows n d.code.size σ r post := by
  obtain ⟨d₁, w₁, size, hosts⟩ :=
    Emit.hosts_ifThen ((Emit.Tame.emit _).bind fun _ => .emit _) w
  obtain ⟨rfl, rfl⟩ := Emit.writes_emit_emit.1 w₁
  obtain ⟨body, branch, placed⟩ := hosts _ code
  rw [farther_eq] at next
  have passes (pc : Nat) : (site.frame pc σ).holds
      (if isFail then .posGt farPos else .posGe farPos : Condition).negate =
        .ok (!decide (if isFail then farNumber far? < σ.pos else farNumber far? ≤ σ.pos)) := by
    have number : (site.frame pc σ).savedNumber farPos = .ok (farNumber far?) :=
      far.savedNumber small
    cases isFail
    · change (site.frame pc σ).positionHolds farPos (fun pos n => decide (pos < n)) = _
      rw [frame_positionHolds number]
      simp only [Bool.false_eq_true, if_false, ← decide_not, Int.not_le]
    · change (site.frame pc σ).positionHolds farPos (fun pos n => decide (pos ≤ n)) = _
      rw [frame_positionHolds number]
      simp only [if_true, ← decide_not, Int.not_lt]
  by_cases farthest : if isFail then farNumber far? < σ.pos else farNumber far? ≤ σ.pos
  · rw [if_pos farthest] at next
    refine follow_pass (d := Draft.addLabel _) branch ((passes _).trans (by simp [farthest]))
      (follow_store (d := Emit.entered _) body.add rfl (follow_store body rfl ?_))
    rw [← size]
    refine next _ (by simp [Moment.set]) (fun v hp he => ?_) ⟨?_, inside, mark, ?_, known⟩
    · exact (getElem?_set_ne (Ne.symm he) _).trans (getElem?_set_ne (Ne.symm hp) _)
    · exact (getElem?_set_ne other.symm _).trans (getElem?_set_self room.1 _)
    · rw [← result]
      exact getElem?_set_self (by simpa [Moment.set] using room.2) _
  · rw [if_neg farthest] at next
    refine follow_branch (d := Draft.addLabel _) branch
      ((passes _).trans (by simp [farthest])) placed ?_
    rw [← size]
    exact next σ.slots rfl (fun _ _ _ => rfl) far

/-- The slots of the farthest failure are older than a part. -/
theorem Far.kept {farPos farErr bound : Nat} {xs ys : Array Value}
    {far? : Option (FailureEntry × Nat)} (h : site.Far farPos farErr xs far?)
    (keeps : Keeps bound xs ys) (hp : farPos < bound) (he : farErr < bound) :
    site.Far farPos farErr ys far? := by
  cases far? with
  | none => exact (keeps.same _ hp).trans h
  | some far =>
      obtain ⟨place, inside, mark, err, known⟩ := h
      exact ⟨(keeps.same _ hp).trans place, inside, mark, (keeps.same _ he).trans err, known⟩

end Site

/-! ### Alternatives -/

/-- The slots that alternatives share: where they begin, and the farthest failure. -/
structure Emit.Shares (bound back farPos farErr : Nat) (d : Draft) : Prop where
  back_lt : back < d.slots
  farPos_lt : farPos < d.slots
  farErr_lt : farErr < d.slots
  le_back : bound ≤ back
  back_farPos : back < farPos
  farPos_farErr : farPos < farErr

theorem Emit.Shares.grow {bound back farPos farErr : Nat} {d d' : Draft}
    (h : Emit.Shares bound back farPos farErr d) (grown : d.Grows d') :
    Emit.Shares bound back farPos farErr d' where
  back_lt := Nat.lt_of_lt_of_le h.back_lt grown.slots
  farPos_lt := Nat.lt_of_lt_of_le h.farPos_lt grown.slots
  farErr_lt := Nat.lt_of_lt_of_le h.farErr_lt grown.slots
  le_back := h.le_back
  back_farPos := h.back_farPos
  farPos_farErr := h.farPos_farErr

variable [Regex.Engine]

/-- What the code of alternatives does from a moment on. -/
def Site.Tries (site : Site) (scene : Scene) (env : Env) (d d' : Draft)
    (bound back farPos farErr : Nat) (first : Bool) (es : List Expr) (ls : List Layout) : Prop :=
  ∀ σ s pos far?, (∀ (name : String) (v : Nat), d.scope.lookup name = some v → v < bound) →
    site.Ready d env σ s → (first = true → σ.pos = pos) →
    pos ≤ site.setting.bytes.size → σ.slots[back]? = some (.ofPos pos) →
    site.Far farPos farErr σ.slots far? →
    site.Follows scene.rounds d.code.size σ (meaningAlternatives scene es env ls pos far? s)
      (site.Done bound d'.code.size σ.slots)

/-- Alternatives that have been written, and do what they are compiled to wherever their code stands. -/
def Emit.Attempts (bound back farPos farErr exit : Nat) (first : Bool) (es : List Expr) (d : Draft)
    (p : Pools) (d' : Draft) (p' : Pools) : Prop :=
  let ls := layoutAlternatives es (d.stage p)
  Closes p p' (closuresAlternatives p.rule es ls) ∧
    ∀ (site : Site) (scene : Scene) (env : Env), site.function.Hosts d' →
      site.setting.program.Hosts p' →
      scene.Fits site.setting site.memoize p.ruleFunctions p.rule →
      site.function.labels[exit]? = some d'.code.size →
      site.Tries scene env d d' bound back farPos farErr first es ls

section Attempts

variable {bound back farPos farErr exit : Nat} {d d' : Draft} {p p' : Pools} {e : Expr} {es : List Expr}

/-- Where there are none left, the farthest failure is reported. -/
theorem Emit.attempts_nil {first : Bool}
    (w : (emitAlternatives back farPos farErr exit first []).Writes d p () d' p') :
    Emit.Attempts bound back farPos farErr exit first [] d p d' p' := by
  rw [emitAlternatives, Emit.writes_emit_bind, Emit.writes_emit_emit] at w
  obtain ⟨rfl, rfl⟩ := w
  rw [Attempts, layoutAlternatives]
  refine ⟨.nil (.refl _), fun site scene env code pools fits hl σ s pos far? _ ready _ _ _ far => ?_⟩
  cases far? with
  | none => exact trivial
  | some far? =>
      obtain ⟨place, inside, mark, err, known⟩ := far
      exact Site.follow_restore code.add.add place (Nat.lt_of_le_of_lt inside fits.small)
        (Site.follow_load code.add (Site.frame_slot err) (Site.follow_setStatus code
          (.pure ⟨_, rfl, ⟨mark, rfl, known, inside⟩, inside, .refl _ _, ready.agrees.identity,
            ready.agrees.memo⟩)))

/-- Behind the first alternative the code goes back before it tries the next one. -/
theorem Emit.Attempts.again (h : Emit.Attempts bound back farPos farErr exit true (e :: es)
      (d.add (.restore back)) p d' p') (grown : (d.add (.restore back)).Grows d') :
    Emit.Attempts bound back farPos farErr exit false (e :: es) d p d' p' := by
  obtain ⟨closes, follow⟩ := h
  refine ⟨closes, fun site scene env code pools fits hl σ s pos far? older ready _ inside saved far =>
    ?_⟩
  have small := Nat.lt_of_le_of_lt inside fits.small
  have ready' : site.Ready (d.add (.restore back)) env { σ with pos := pos } s :=
    ready.next (ready.behind.registers rfl rfl rfl inside) rfl (Nat.le_refl _)
  exact Site.follow_restore (code.back grown) saved small
    (follow site scene env code pools fits hl _ s pos far? older ready' (fun _ => rfl) inside saved far)

/-- An alternative that always succeeds is the last one. -/
theorem Emit.attempts_always (ih : e.Embeds) (always : e.alwaysSucceeds = true)
    (w : (Emit.tried back farPos farErr exit e es).Writes d p () d' p')
    (shares : Emit.Shares bound back farPos farErr d) :
    Emit.Attempts bound back farPos farErr exit true (e :: es) d p d' p' := by
  obtain ⟨d₁, w₁, rfl⟩ := (Emit.writes_tried_always always).1 w
  have realizes := ih _ _ _ _ w₁
  rw [Attempts, layoutAlternatives, if_pos always]
  refine ⟨?_, fun site scene env code pools fits hl σ s pos far? _ ready hpos _ _ _ => ?_⟩
  · simpa [closuresAlternatives, always] using realizes.closes
  · have low : bound ≤ d.slots := Nat.le_of_lt (Nat.lt_of_le_of_lt shares.le_back shares.back_lt)
    obtain rfl := hpos rfl
    rw [meaningAlternatives]
    refine Site.follow_part (realizes.performs site scene env code.add pools fits) ready ?_ ?_
    · intro σ' s' behind status
      exact Site.follow_jump code hl (.pure (.success status (behind.mono low)))
    · intro σ' s' mark entry behind status result known
      simp only [if_pos always]
      exact Site.follow_jump code hl (.pure (.failure status result known (behind.mono low)))

/-- Behind an alternative that may fail its failure is kept if it is the farthest so far, and the next
one is tried. -/
theorem Emit.attempts_tried (ih : e.Embeds) (may : ¬e.alwaysSucceeds = true)
    (w : (Emit.tried back farPos farErr exit e es).Writes d p () d' p')
    (shares : Emit.Shares bound back farPos farErr d)
    (rest : ∀ {d₂ : Draft} {p₂ : Pools}, Emit.Shares bound back farPos farErr d₂ →
      (emitAlternatives back farPos farErr exit false es).Writes d₂ p₂ () d' p' →
      Emit.Attempts bound back farPos farErr exit false es d₂ p₂ d' p') :
    Emit.Attempts bound back farPos farErr exit true (e :: es) d p d' p' := by
  obtain ⟨d₁, p₁, d₂, p₂, w₁, w₂, w₃⟩ := (Emit.writes_tried may).1 w
  have realizes := ih _ _ _ _ w₁
  have within := Emit.Tame.within e e.emit_tame
  have kept := Emit.Tame.keepFarthest e.isFail farPos farErr
  have behind := emitAlternatives_tame back farPos farErr exit false es
  have grown := within.draft w₁
  have shares₂ := (shares.grow grown).grow ((d₁.grows_add _).trans (kept.draft w₂))
  obtain ⟨closes, follow⟩ := rest shares₂ w₃
  have pgrown₂ := (within.pools w₁).trans (kept.pools w₂)
  rw [pgrown₂.rule] at closes
  have moved := (Emit.Moves.keepFarthest _ _ _).stage w₂
  rw [Draft.stage_add, e.within_moves.stage w₁] at moved
  rw [Attempts, layoutAlternatives, if_neg may, ← moved]
  refine ⟨?_, fun site scene env code pools fits hl σ s pos far? older ready hpos inside saved
    far => ?_⟩
  · have both := (realizes.closes.widen (.refl _) (kept.pools w₂)).append closes pgrown₂
      (behind.pools w₃)
    simpa [closuresAlternatives, may] using both
  have code₂ := code.back (behind.draft w₃)
  have code₁ := code₂.back (kept.draft w₂)
  have low : bound ≤ d.slots := Nat.le_of_lt (Nat.lt_of_le_of_lt shares.le_back shares.back_lt)
  obtain rfl := hpos rfl
  rw [meaningAlternatives]
  refine Site.follow_part (realizes.performs site scene env code₁.add
    ((pools.back (behind.pools w₃)).back (kept.pools w₂)) fits) ready ?_ ?_
  · intro σ₁ s₁ behind status
    refine Site.follow_branch code₁ ?_ hl (.pure (.success status (behind.mono low)))
    simp [Frame.holds, Site.frame, status]
  · intro σ₁ s₁ mark entry behind status result known
    simp only [if_neg may]
    have size₁ : σ₁.slots.size = site.function.slots := behind.keeps.size.trans ready.size
    have above : farErr < site.function.slots := Nat.lt_of_lt_of_le shares₂.farErr_lt code₂.slots
    have order := shares.farPos_farErr
    have order' := shares.back_farPos
    have order'' := shares.le_back
    refine Site.follow_pass code₁ (by simp [Frame.holds, Site.frame, status])
      (Site.follow_keepFarthest w₂ code₂ fits.small
        (by rw [size₁]; exact ⟨Nat.lt_trans order above, above⟩) (by omega)
        (far.kept behind.keeps shares.farPos_lt shares.farErr_lt) behind.inside result known
        fun xs size others far' => ?_)
    have keeps : Keeps bound σ.slots xs := by
      refine ⟨size.trans behind.keeps.size, fun v hv => ?_⟩
      rw [others v (by omega) (by omega)]
      exact behind.keeps.same v (Nat.lt_of_lt_of_le hv low)
    have scope : d₂.scope = d.scope := (kept.draft w₂).scope.trans grown.scope
    have ready₂ : site.Ready d₂ env { σ₁ with slots := xs } s₁ := by
      refine ⟨size.trans size₁, behind.inside, fun name v hv => ?_, ⟨behind.agrees.identity,
        behind.agrees.memo⟩⟩
      rw [scope] at hv
      have lt := older name v hv
      obtain ⟨-, x, hx, hs⟩ := ready.knows name v hv
      exact ⟨by have := shares₂.back_lt; omega, x, hx, (keeps.same v lt).trans hs⟩
    refine (follow site scene env code pools (fits.grow pgrown₂) hl _ s₁ σ.pos _
      (by rwa [scope]) ready₂ (fun h => by simp at h) inside ?_ far').mono ?_
    · rw [others back (by omega) (by omega)]
      exact behind.kept shares.back_lt saved
    · rintro v s₂ _ ⟨σ₂, rfl, leaves, behind₂⟩
      exact ⟨σ₂, rfl, leaves, behind₂.inside, keeps.trans behind₂.keeps, behind₂.agrees⟩

end Attempts

theorem Expr.follow_alternatives {es : List Expr} (ih : ∀ e ∈ es, e.Embeds)
    {bound back farPos farErr exit : Nat} {first : Bool} {d d' : Draft} {p p' : Pools}
    (w : (emitAlternatives back farPos farErr exit first es).Writes d p () d' p')
    (shares : Emit.Shares bound back farPos farErr d) :
    Emit.Attempts bound back farPos farErr exit first es d p d' p' := by
  induction es generalizing first d p d' p' with
  | nil => exact Emit.attempts_nil w
  | cons e es ih' =>
      have body {d : Draft} (shares : Emit.Shares bound back farPos farErr d)
          (w : (Emit.tried back farPos farErr exit e es).Writes d p () d' p') :
          Emit.Attempts bound back farPos farErr exit true (e :: es) d p d' p' := by
        by_cases always : e.alwaysSucceeds = true
        · exact Emit.attempts_always (ih e (List.mem_cons_self ..)) always w shares
        · exact Emit.attempts_tried (ih e (List.mem_cons_self ..)) always w shares fun shares w =>
            ih' (fun e mem => ih e (List.mem_cons_of_mem _ mem)) w shares
      cases first with
      | true =>
          rw [Emit.alternatives_first] at w
          exact body shares w
      | false =>
          rw [Emit.alternatives_next, Emit.writes_emit_bind] at w
          have tame := Emit.Tame.tried e.emit_tame (emitAlternatives_tame back farPos farErr exit false es)
          exact (body (shares.grow (d.grows_add _)) w).again (tame.draft w)

theorem Expr.compiles_choice {es : List Expr} (ih : ∀ e ∈ es, e.Embeds) (tag : Tag) :
    (Expr.choice tag es).Compiles := by
  intro d p d' p' w k
  by_cases single : ∃ only, es = [only]
  · obtain ⟨only, rfl⟩ := single
    rw [Expr.emit] at w
    have realizes := ih only (by simp) _ _ _ _ w
    rw [Expr.layout]
    refine ⟨fun site scene env code pools fits σ s ready => ?_, ?_⟩
    · rw [Expr.meaning]
      exact realizes.performs site scene env code pools fits σ s ready
    · simpa [Expr.closures, closuresAlternatives, Layout.parts] using realizes.closes
  · have several : ∀ only, es = [only] → False := fun only h => single ⟨only, h⟩
    rw [Expr.emit] at w
    rotate_left
    · exact several
    obtain ⟨back, d₁, p₁, w₁, wa⟩ := Emit.writes_bind.1 w
    obtain ⟨rfl, rfl, rfl⟩ := Emit.writes_checkpoint.1 w₁
    obtain ⟨farPos, d₂, p₂, w₂, wb⟩ := Emit.writes_bind.1 wa
    obtain ⟨rfl, rfl, rfl⟩ := Emit.writes_slot.1 w₂
    rw [Emit.writes_emit_bind] at wb
    obtain ⟨farErr, d₃, p₃, w₃, wc⟩ := Emit.writes_bind.1 wb
    obtain ⟨rfl, rfl, rfl⟩ := Emit.writes_slot.1 w₃
    rw [Emit.writes_emit_bind] at wc
    have tame (exit : Nat) := emitAlternatives_tame d.slots (d.slots + 1) (d.slots + 2) exit true es
    obtain ⟨d₄, w₄, size, hosts⟩ := Emit.hosts_block tame wc
    have shares : Emit.Shares d.slots d.slots (d.slots + 1) (d.slots + 2)
        (Emit.entered (((d.addSlot.add (.store d.slots .position)).addSlot.add
          (.store (d.slots + 1) (.const (.int (-1))))).addSlot.add
            (.store (d.slots + 2) (.const .none))).addLabel) := by
      constructor <;> simp [Emit.entered, Draft.addSlot, Draft.add, Draft.addLabel]
      omega
    obtain ⟨closes, follow⟩ := Expr.follow_alternatives ih w₄ shares
    rw [Expr.layout]
    rotate_left
    · exact several
    refine ⟨fun site scene env code pools fits σ s ready => ?_, closes⟩
    obtain ⟨body, exit⟩ := hosts _ code
    have third := (body.back ((tame _).draft w₄)).entered.addLabel
    have second := third.add.addSlot
    obtain ⟨ready₁, saved⟩ := ready.store second.add.addSlot (.ofPos σ.pos)
    obtain ⟨ready₂, least⟩ := ready₁.store second (.int (-1))
    obtain ⟨ready₃, -⟩ := ready₂.store third .none
    rw [Expr.meaning]
    rotate_left
    · exact several
    refine Site.follow_store (d := d.addSlot) second.add.addSlot rfl
      (Site.follow_store (d := Draft.addSlot _) second rfl
        (Site.follow_store (d := Draft.addSlot _) third rfl
          ((follow site scene env body pools fits exit _ s σ.pos none (fun name v hv => ?_)
            (ready₃.next ready₃.behind rfl (Nat.le_refl _)) (fun _ => rfl) ready.inside ?_ ?_).mono
              ?_)))
    · exact (ready.knows name v hv).1
    · exact (getElem?_set_ne (by simp only [Draft.addSlot, Draft.add]; omega) _).trans
        ((getElem?_set_ne (by simp only [Draft.addSlot, Draft.add]; omega) _).trans saved)
    · exact (getElem?_set_ne (by simp only [Draft.addSlot, Draft.add]; omega) _).trans least
    · rintro v s₁ _ ⟨σ₁, rfl, leaves, behind⟩
      refine ⟨σ₁, by rw [size], leaves, behind.inside, .trans (.trans (.trans (.set _ ?_ _)
        (.set _ ?_ _)) (.set _ ?_ _)) behind.keeps, behind.agrees⟩
      · exact Nat.le_refl _
      all_goals simp only [Draft.addSlot, Draft.add]; omega

/-! ### Skipped content -/

/-- What is known of the code of a round of skipping: it has come to its end, or a part has read
something and the next step begins another round. -/
def Site.Skips (site : Site) (d d' : Draft) (target : Nat) (slots : Array Value) (out : Nat ⊕ Nat)
    (s : Store) (m : Machine) : Prop :=
  match out with
  | .inl pos => ∃ σ, Machine.step site.setting site.memoize m =
      .ok (.running (site.machine target σ)) ∧ σ.pos = pos ∧ site.Behind d.slots slots σ s
  | .inr pos => ∃ σ, m = site.machine d'.code.size σ ∧ σ.pos = pos ∧
      site.Behind d.slots slots σ s

theorem Expr.follow_skipped {items : List Expr} (ih : ∀ e ∈ items, e.Embeds) {top : Nat}
    {d d' : Draft} {p p' : Pools} (w : (emitSkipped top items).Writes d p () d' p') :
    let ls := layoutParts items (d.stage p)
    Closes p p' (closuresAll p.rule items ls) ∧
      ∀ (site : Site) (scene : Scene) (env : Env), site.function.Hosts d' →
        site.setting.program.Hosts p' →
        scene.Fits site.setting site.memoize p.ruleFunctions p.rule →
        ∀ target, site.function.labels[top]? = some target → ∀ σ s, site.Ready d env σ s →
          site.Follows scene.rounds d.code.size σ (meaningSkipped scene items env ls σ.pos s)
            (site.Skips d d' target σ.slots) := by
  induction items generalizing d p d' p' with
  | nil =>
      obtain ⟨-, rfl, rfl⟩ := Emit.writes_pure.1 w
      rw [layoutParts]
      exact ⟨.nil (.refl _), fun site scene env _ _ _ target _ σ s ready =>
        .pure ⟨σ, rfl, rfl, ready.behind⟩⟩
  | cons e items ih' =>
      rw [emitSkipped] at w
      have tame := Emit.Tame.within e e.emit_tame
      obtain ⟨_, d₁, p₁, w₁, w₂⟩ := Emit.writes_bind.1 w
      have part := Emit.Tame.skipPart top tame
      have moved : d₁.stage p₁ = .tested (.inside e.behind e (d.stage p)) :=
        (Emit.Moves.skipPart top e.within_moves).stage w₁
      rw [Emit.skipPart] at w₁
      obtain ⟨_, d₂, p₂, w₃, wa⟩ := Emit.writes_bind.1 w₁
      obtain ⟨rfl, rfl, rfl⟩ := Emit.writes_checkpoint.1 w₃
      obtain ⟨_, d₃, p₃, w₄, w₅⟩ := Emit.writes_bind.1 wa
      obtain ⟨d₄, p₄, d₅, w₆, w₇, size, hosts⟩ := Emit.hosts_ifElse (.emit _) (.emit _) w₅
      obtain ⟨rfl, rfl⟩ := Emit.writes_emit.1 w₆
      obtain ⟨rfl, rfl⟩ := Emit.writes_emit.1 w₇
      have realizes := ih e (List.mem_cons_self ..) _ _ _ _ w₄
      obtain ⟨closes, follow⟩ := ih' (fun e he => ih e (List.mem_cons_of_mem _ he)) w₂
      have rest := emitSkipped_tame top items
      have pgrown := tame.pools w₄
      have grown := part.draft w₁
      rw [pgrown.rule] at closes
      rw [layoutParts, ← moved]
      refine ⟨realizes.closes.append closes pgrown (rest.pools w₂),
        fun site scene env code pools fits target hl σ s ready => ?_⟩
      obtain ⟨failing, jump, branch, missed, behindBoth⟩ := hosts _ (code.back (rest.draft w₂))
      have found := branch.add.addLabel.addLabel
      have start := found.back (tame.draft w₄)
      obtain ⟨ready₁, saved⟩ := ready.store start (.ofPos σ.pos)
      have small := ready.small fits.small
      -- Behind a part that has read nothing the others are tried at the same place.
      have onward (σ' : Moment) (s' : Store) (behind : site.Behind d.slots σ.slots σ' s')
          (same : σ'.pos = σ.pos) :
          site.Follows scene.rounds d₁.code.size σ'
            (meaningSkipped scene items env (layoutParts items (d₁.stage p₁)) σ.pos s')
            (site.Skips d d' target σ.slots) := by
        rw [← same]
        refine (follow site scene env code pools (fits.grow pgrown) target hl σ' s'
          (ready.next behind grown.scope grown.slots)).mono ?_
        rintro (pos | pos) s₂ m ⟨σ₂, hm, hp, behind₂⟩
        · exact ⟨σ₂, hm, hp, behind.trans (behind₂.mono grown.slots)⟩
        · exact ⟨σ₂, hm, hp, behind.trans (behind₂.mono grown.slots)⟩
      rw [meaningSkipped]
      refine Site.follow_store (d := d.addSlot) start rfl (Site.follow_part
        (realizes.performs site scene env found (pools.back (rest.pools w₂)) fits) ready₁ ?_ ?_)
      · intro σ₁ s₁ behind status
        have kept := behind.kept (Nat.lt_succ_self _) saved
        refine Site.follow_stay (d := Draft.addLabel (Draft.addLabel _)) branch status ?_
        by_cases same : σ₁.pos = σ.pos
        · simp only [if_pos same]
          refine Site.follow_pass (d := Emit.entered _) jump.add
            ((Site.frame_posNe kept small).trans (by simp [same]))
              (Site.follow_jump jump behindBoth ?_)
          rw [← size]
          exact onward σ₁ s₁ behind.after same
        · simp only [if_neg same]
          exact .pure ⟨σ₁, Site.step_branch (d := Emit.entered _) jump.add
            ((Site.frame_posNe kept small).trans (by simp [same])) hl, rfl, behind.after⟩
      · intro σ₁ s₁ mark entry behind status result known
        have kept := behind.kept (Nat.lt_succ_self _) saved
        refine Site.follow_leave (d := Draft.addLabel (Draft.addLabel _)) branch missed status
          (Site.follow_restore (d := Draft.place _ _) failing kept small ?_)
        rw [← size]
        exact onward _ s₁ (behind.after.registers rfl rfl rfl ready.inside) rfl

theorem Expr.compiles_skip {items : List Expr} (ih : ∀ e ∈ items, e.Embeds) (tag : Tag) :
    (Expr.skip tag items).Compiles := by
  intro d p d' p' w k
  rw [Expr.emit] at w
  obtain ⟨_, d₁, p₁, w₁, w₂⟩ := Emit.writes_bind.1 w
  obtain ⟨rfl, rfl⟩ := Emit.writes_succeedWith.1 w₂
  have tame (top exit : Nat) : Emit.Tame (do
      emitSkipped top items
      Emit.emit (.jump exit)) := (emitSkipped_tame top items).bind fun _ => .emit _
  obtain ⟨e, d₂, scope, slots, begins, entered, w₃, hosts⟩ := Emit.hosts_loop tame w₁
  obtain ⟨_, d₃, p₃, w₄, w₅⟩ := Emit.writes_bind.1 w₃
  obtain ⟨rfl, rfl⟩ := Emit.writes_emit.1 w₅
  obtain ⟨closes, follow⟩ := Expr.follow_skipped ih w₄
  rw [Expr.layout, ← entered]
  refine ⟨fun site scene env code pools fits σ s ready => ?_, closes⟩
  obtain ⟨body, top, exit⟩ := hosts _ code.add.add
  rw [← begins] at top ⊢
  rw [Expr.meaning]
  refine .bind (.repeatFrom (fun pos s' m => ∃ σ', m = site.machine e.code.size σ' ∧
    σ'.pos = pos ∧ site.Behind d.slots σ.slots σ' s') ?_ ⟨σ, rfl, rfl, ready.behind⟩)
  rintro pos s' _ ⟨σ', rfl, rfl, behind⟩
  refine (follow site scene env body.add.add pools fits _ top σ' s'
    (ready.next behind scope (Nat.le_of_eq slots.symm))).mono ?_
  rintro (stop | stop) s₁ m ⟨σ₁, hm, rfl, behind₁⟩ <;> rw [slots] at behind₁
  · exact ⟨_, hm, σ₁, rfl, rfl, behind.trans behind₁⟩
  · subst hm
    exact Site.follow_jump body.add exit (Site.follow_succeedWith code rfl
      (.pure (.success rfl ((behind.trans behind₁).registers rfl rfl rfl behind₁.inside))))

end Packrat
