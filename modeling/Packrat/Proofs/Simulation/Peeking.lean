import Packrat.Proofs.Simulation.Realizing

/-
**Optional parts, and parts that read nothing.**

Main results:

* `Packrat.Expr.Embeds.peek` — a part behind which the code goes back to where it began;
* `Packrat.Expr.Embeds.opt`, `Packrat.Expr.Embeds.expect`, `Packrat.Expr.Embeds.expectNot` — the
  code of these expressions realizes their meaning if that of the part does.
-/

set_option autoImplicit false

namespace Packrat

namespace Expr.Embeds

variable {inner : Expr}

variable [Regex.Engine]

theorem opt (ih : inner.Embeds) (tag : Tag) : (Expr.opt tag inner).Compiles := by
  intro d p d' p' w k
  rw [Expr.emit, Emit.optional] at w
  obtain ⟨back, d₁, p₁, w₁, w₂⟩ := Emit.writes_bind.1 w
  obtain ⟨rfl, rfl, rfl⟩ := Emit.writes_checkpoint.1 w₁
  obtain ⟨u, d₂, p₂, w₃, w₄⟩ := Emit.writes_bind.1 w₂
  have tame := Emit.Tame.within inner inner.emit_tame
  obtain ⟨d₃, w₅, size, hosts⟩ := Emit.hosts_block (fun _ => tame) w₃
  obtain ⟨d₄, w₆, size', hosts'⟩ :=
    Emit.hosts_ifThen ((Emit.Tame.emit _).bind fun _ => .succeedWith _) w₄
  rw [Emit.writes_emit_bind, Emit.writes_succeedWith] at w₆
  obtain ⟨rfl, rfl⟩ := w₆
  have realizes := ih _ _ _ _ w₅
  rw [Expr.layout]
  refine ⟨fun site scene env code pools fits σ s ready => ?_, realizes.closes⟩
  obtain ⟨body, branch, skipped⟩ := hosts' _ code
  obtain ⟨part, -⟩ := hosts _ branch.add.addLabel
  have start := (part.back (tame.draft w₅)).entered.addLabel
  obtain ⟨ready₁, saved⟩ := ready.store start (.ofPos σ.pos)
  rw [Expr.meaning]
  refine Site.follow_store (d := d.addSlot) start rfl (Site.follow_part
    (d := Emit.entered (Draft.addLabel _)) (realizes.performs site scene env part pools fits)
    (ready₁.next ready₁.behind rfl (Nat.le_refl _)) ?_ ?_)
  · intro σ' s' behind status
    rw [← size]
    refine Site.follow_ifThen_success (d := Draft.addLabel _) branch skipped status ?_
    rw [← size']
    exact .pure (.success status behind.after)
  · intro σ' s' mark entry behind status _ _
    have kept := behind.kept (Nat.lt_succ_self _) saved
    rw [← size]
    refine Site.follow_ifThen_failure (d := Draft.addLabel _) branch status
      (Site.follow_restore (d := Emit.entered _) body.add.add kept (ready.small fits.small)
        (Site.follow_succeedWith body rfl ?_))
    rw [← size']
    exact .pure (.success rfl (behind.after.registers rfl rfl rfl ready.inside))

/-- A part that reads nothing: what is behind it finds its verdict in the registers, and the place
where it began. -/
theorem peek (ih : inner.Embeds) {d d' : Draft} {p p' : Pools}
    (w : (Emit.peek (Emit.within inner inner.emit)).Writes d p () d' p') :
    let l := inner.layoutWithin (d.stage p).entered
    Closes p p' (inner.closures p.rule l) ∧
      ∀ (site : Site) (scene : Scene) (env : Env), site.function.Hosts d' →
        site.setting.program.Hosts p' →
        scene.Fits site.setting site.memoize p.ruleFunctions p.rule →
        ∀ σ s, site.Ready d env σ s → ∀ {β : Type} (k : Verdict Value → Reading β)
          (post : β → Store → Machine → Prop),
          (∀ σ' s' stop, site.Behind d.slots σ.slots σ' s' → σ'.status = true →
            σ'.pos = σ.pos → site.Follows scene.rounds d'.code.size σ'
              (k (.success σ'.result stop) s') post) →
          (∀ σ' s' mark entry place, site.Behind d.slots σ.slots σ' s' → σ'.status = false →
            σ'.pos = σ.pos → σ'.result = .failure mark →
            site.setting.program.failures[mark]? = some entry →
            site.Follows scene.rounds d'.code.size σ' (k (.failure entry place) s') post) →
          site.Follows scene.rounds d.code.size σ
            ((l.read scene inner.freeLocals σ.pos (inner.meaning scene env l σ.pos) >>= k) s)
            post := by
  rw [Emit.peek] at w
  obtain ⟨back, d₁, p₁, w₁, w₂⟩ := Emit.writes_bind.1 w
  obtain ⟨rfl, rfl, rfl⟩ := Emit.writes_checkpoint.1 w₁
  obtain ⟨u, d₂, p₂, w₃, w₄⟩ := Emit.writes_bind.1 w₂
  have tame := Emit.Tame.within inner inner.emit_tame
  obtain ⟨d₃, w₅, size, hosts⟩ := Emit.hosts_block (fun _ => tame) w₃
  obtain ⟨rfl, rfl⟩ := Emit.writes_emit.1 w₄
  have realizes := ih _ _ _ _ w₅
  refine ⟨realizes.closes, fun site scene env code pools fits σ s ready β k post => ?_⟩
  intro success failure
  obtain ⟨part, -⟩ := hosts _ code.add
  have start := (part.back (tame.draft w₅)).entered.addLabel
  obtain ⟨ready₁, saved⟩ := ready.store start (.ofPos σ.pos)
  refine Site.follow_store (d := d.addSlot) start rfl (Site.follow_part
    (d := Emit.entered (Draft.addLabel _)) (realizes.performs site scene env part pools fits)
    (ready₁.next ready₁.behind rfl (Nat.le_refl _)) ?_ ?_)
  · intro σ' s' behind status
    have kept := behind.kept (Nat.lt_succ_self _) saved
    rw [← size]
    exact Site.follow_restore code kept (ready.small fits.small)
      (success _ s' _ (behind.after.registers rfl rfl rfl ready.inside) status rfl)
  · intro σ' s' mark entry behind status result known
    have kept := behind.kept (Nat.lt_succ_self _) saved
    rw [← size]
    exact Site.follow_restore code kept (ready.small fits.small)
      (failure _ s' mark entry _ (behind.after.registers rfl rfl rfl ready.inside) status rfl
        result known)

theorem expect (ih : inner.Embeds) (tag : Tag) : (Expr.expect tag inner).Compiles := by
  intro d p d' p' w k
  rw [Expr.emit] at w
  obtain ⟨closes, follow⟩ := ih.peek w
  rw [Expr.layout]
  refine ⟨fun site scene env code pools fits σ s ready => ?_, closes⟩
  rw [Expr.meaning]
  refine follow site scene env code pools fits σ s ready _ _ ?_ ?_
  · intro σ' s' stop behind status pos
    rw [← pos]
    exact .pure (.success status behind)
  · intro σ' s' mark entry place behind status pos result known
    rw [← pos]
    exact .pure (.failure status result known behind)

theorem expectNot (ih : inner.Embeds) (tag : Tag) : (Expr.expectNot tag inner).Compiles := by
  intro d p d' p' w k
  rw [Expr.emit, Emit.never] at w
  obtain ⟨u, d₁, p₁, w₁, w₂⟩ := Emit.writes_bind.1 w
  obtain ⟨entry, d₂, p₂, w₃, w₄⟩ := Emit.writes_bind.1 w₂
  obtain ⟨w₅, rfl⟩ := Emit.writes_lift.1 w₃
  obtain ⟨grown, listed⟩ := Build.adds_failure w₅
  obtain ⟨d₃, p₃, d₄, w₆, w₇, size, hosts⟩ :=
    Emit.hosts_ifElse (.emit _) (.succeedWith _) w₄
  obtain ⟨rfl, rfl⟩ := Emit.writes_emit.1 w₆
  obtain ⟨rfl, rfl⟩ := Emit.writes_succeedWith.1 w₇
  obtain ⟨closes, follow⟩ := ih.peek w₁
  have same := (Emit.Tame.peek (.within inner inner.emit_tame)).pools w₁
  rw [Expr.layout]
  refine ⟨fun site scene env code pools fits σ s ready => ?_, closes.widen (.refl _) grown⟩
  obtain ⟨failing, jump, branch, succeeding, behindBoth⟩ := hosts _ code
  rw [Expr.meaning]
  refine follow site scene env branch.add.addLabel.addLabel (pools.back grown) fits σ s ready
    _ _ ?_ ?_
  · intro σ' s' stop behind status pos
    have noted : site.setting.program.failures[entry]? =
        some ⟨scene.rule, Expr.text (.expectNot tag inner), .notExpected inner.text⟩ := by
      rw [fits.rule, ← same.rule]
      exact pools.failures _ _ listed
    refine Site.follow_stay (d := Draft.addLabel (Draft.addLabel _)) branch status
      (Site.follow_fail (d := Emit.entered _) jump.add (Site.follow_jump jump behindBoth ?_))
    rw [← size, ← pos]
    exact .pure (.failure rfl rfl noted (behind.registers rfl rfl rfl behind.inside))
  · intro σ' s' mark place stop behind status pos result known
    refine Site.follow_leave (d := Draft.addLabel (Draft.addLabel _)) branch succeeding status
      (Site.follow_succeedWith (d := Draft.place _ _) failing rfl ?_)
    rw [← size, ← pos]
    exact .pure (.success rfl (behind.registers rfl rfl rfl behind.inside))

end Expr.Embeds

end Packrat
