import Packrat.Proofs.Simulation.Realizing

/-
**Matches, references and host code.**

The expressions without parts: each is one instruction, but for the ignored content that a match may
pass over.

Main results:

* `Packrat.Site.follow_skipping` — ignored content behind a match;
* `Packrat.Site.follow_snippet` — host code;
* `Packrat.Expr.compiles_str`, `Packrat.Expr.compiles_regex`, `Packrat.Expr.compiles_ref`,
  `Packrat.Expr.compiles_host`, `Packrat.Expr.compiles_fail` — the code of these expressions
  realizes their meaning.
-/

set_option autoImplicit false

namespace Packrat

variable [Regex.Engine]

namespace Site

variable {site : Site} {n : Nat} {d d' : Draft} {p p' : Pools} {env : Env} {σ : Moment} {s : Store}
variable {scene : Scene} {slots : Array Value}

/-! ### Matches -/

/-- A match leaves its verdict in the registers. -/
theorem follow_matching {i : Instr} {mark : Nat} {stop? : Option Nat} {entry : FailureEntry}
    {rules : List (String × Nat)} {rule : String} {bound : Nat} {α : Type}
    {r : Option (Except Stop (α × Store))} {post : α → Store → Machine → Prop}
    (h : site.function.Hosts (d.add i))
    (fits : scene.Fits site.setting site.memoize rules rule)
    (work : i.execute site.setting (site.frame (d.code.size + 1) σ) σ.identity =
      .ok (.next ((site.frame (d.code.size + 1) σ).matched site.setting mark stop?), σ.identity))
    (inside : ∀ stop, stop? = some stop → stop ≤ site.setting.bytes.size)
    (noted : site.setting.program.failures[mark]? = some entry)
    (behind : site.Behind bound slots σ s)
    (next : ∀ σ', site.Behind bound slots σ' s → σ'.slots = σ.slots →
      site.setting.Leaves σ'.outcome (scene.matched entry σ.pos stop?) →
      site.Follows n (d.add i).code.size σ' r post) : site.Follows n d.code.size σ r post := by
  refine follow_match h work ?_ ?_
  · rintro stop rfl
    refine next _ (behind.registers rfl rfl rfl (inside stop rfl)) rfl ?_
    rw [Scene.matched, fits.isBinary, fits.bytes]
    exact ⟨rfl, inside stop rfl⟩
  · rintro rfl
    exact next _ (behind.registers rfl rfl rfl behind.inside) rfl ⟨mark, rfl, noted, behind.inside⟩

/-- Ignored content behind a match. -/
theorem follow_skipping {skip : Bool} {v : Verdict Value}
    (w : (if skip then Emit.skipIgnored else pure () : Emit Unit).Writes d p () d' p')
    (code : site.function.Hosts d')
    (fits : scene.Fits site.setting site.memoize p.ruleFunctions p.rule)
    (ready : site.Ready d env σ s) (leaves : site.setting.Leaves σ.outcome v) :
    site.Follows scene.rounds d.code.size σ (scene.skipping skip v s)
      (site.Done d.slots d'.code.size σ.slots) := by
  cases skip with
  | false =>
      obtain ⟨-, rfl, rfl⟩ := Emit.writes_pure.1 w
      have same : scene.skipping false v = pure v := by cases v <;> rfl
      rw [same]
      exact .pure ⟨σ, rfl, leaves, ready.behind⟩
  | true =>
      obtain ⟨f, d₁, p₁, w₁, w₂⟩ := Emit.writes_bind.1 w
      obtain ⟨w₃, rfl⟩ := Emit.writes_lift.1 w₁
      obtain ⟨rfl, known⟩ := Build.adds_ruleFunction w₃
      obtain ⟨d₂, w₄, size, hosts⟩ := Emit.hosts_ifThen
        (Emit.Tame.storeResult.bind fun _ => (Emit.Tame.emit _).bind fun _ => .succeedWith _) w₂
      obtain ⟨kept, d₃, p₃, w₅, w₆⟩ := Emit.writes_bind.1 w₄
      obtain ⟨rfl, rfl, rfl⟩ := Emit.writes_storeResult.1 w₅
      rw [Emit.writes_emit_bind, Emit.writes_succeedWith] at w₆
      obtain ⟨rfl, rfl⟩ := w₆
      obtain ⟨body, branch, skipped⟩ := hosts _ code
      cases v with
      | failure entry pos =>
          obtain ⟨mark, ho, listed, -⟩ := leaves
          obtain ⟨status, result, rfl⟩ := Outcome.mk.inj ho
          refine follow_leave (d := Draft.addLabel _) branch skipped status ?_
          rw [← size]
          exact .pure (.failure status result listed ready.behind)
      | success x pos =>
          obtain ⟨ho, -⟩ := leaves
          obtain ⟨status, rfl, rfl⟩ := Outcome.mk.inj ho
          have start : site.Ready (Emit.entered (d₁.addLabel.add (.branch .notStatus
              d₁.labels.size))) env σ s := ready.next ready.behind rfl (Nat.le_refl _)
          obtain ⟨ready₁, saved⟩ := start.store body.add.add.add σ.result
          have found : scene.ruleNumber (ruleFunction ignoredRule) = pure f := by
            rw [Scene.ruleNumber, fits.rules, known]
            rfl
          have unfolded : scene.skipping true (.success σ.result σ.pos) =
              (scene.call f [] σ.pos >>= fun ignored => pure (.success σ.result ignored.pos)) := by
            change ((scene.ruleNumber _ >>= fun f => scene.call f [] σ.pos) >>= _) = _
            rw [found]
            rfl
          rw [unfolded]
          refine follow_stay (d := Draft.addLabel _) branch status
            (follow_store (d := Draft.addSlot (Emit.entered _)) body.add.add.add rfl
              (follow_done (follow_call (d₁.slots + 1) body.add.add fits ready₁ .nil) ?_ ?_))
          · intro σ' s' behind _
            refine follow_succeedWith body
              (frame_slot (behind.kept (Nat.lt_succ_self _) saved)) ?_
            rw [← size]
            exact .pure (.success rfl (behind.after.registers rfl rfl rfl behind.inside))
          · intro σ' s' mark entry behind _ _ _
            refine follow_succeedWith body
              (frame_slot (behind.kept (Nat.lt_succ_self _) saved)) ?_
            rw [← size]
            exact .pure (.success rfl (behind.after.registers rfl rfl rfl behind.inside))

/-- A match together with the ignored content behind it. -/
theorem follow_match_skipping {i : Instr} {skip : Bool} {stop? : Option Nat}
    {entry : FailureEntry} (mark : Nat)
    (w : (if skip then Emit.skipIgnored else pure () : Emit Unit).Writes (d.add i) p () d' p')
    (code : site.function.Hosts d')
    (fits : scene.Fits site.setting site.memoize p.ruleFunctions p.rule)
    (ready : site.Ready d env σ s)
    (work : i.execute site.setting (site.frame (d.code.size + 1) σ) σ.identity =
      .ok (.next ((site.frame (d.code.size + 1) σ).matched site.setting mark stop?), σ.identity))
    (inside : ∀ stop, stop? = some stop → stop ≤ site.setting.bytes.size)
    (noted : site.setting.program.failures[mark]? = some entry) :
    site.Follows scene.rounds d.code.size σ
      (scene.skipping skip (scene.matched entry σ.pos stop?) s)
      (site.Done d.slots d'.code.size σ.slots) := by
  refine follow_matching (code.back ((Emit.Tame.skipping skip).draft w)) fits work inside noted
    ready.behind fun σ' behind same leaves => ?_
  have ready' : site.Ready (d.add i) env σ' s := ready.next behind rfl (Nat.le_refl _)
  rw [← same]
  exact follow_skipping w code fits ready' leaves

/-! ### Host code -/

/-- Host code leaves its value in the result. -/
theorem follow_snippet (site : Site) (n : Nat) {sn : Snippet} (w : (Emit.snippet sn).Writes d p () d' p') :
    p.Grows p' ∧ d.Grows d' ∧ d'.slots = d.slots ∧ d'.scope = d.scope ∧
      (site.function.Hosts d' → site.setting.program.Hosts p' →
        scene.Fits site.setting site.memoize p.ruleFunctions p.rule → site.Ready d env σ s →
        site.Follows n d.code.size σ (scene.snippet env sn s) fun x s' m =>
          s'.memo = s.memo ∧
            m = site.machine d'.code.size { σ.yield x with identity := s'.identity }) := by
  obtain ⟨vs, d₁, p₁, w₁, w₂⟩ := Emit.writes_bind.1 w
  obtain ⟨hv, rfl, rfl⟩ := Emit.writes_lookupAll.1 w₁
  obtain ⟨host, d₂, p₂, w₃, w₄⟩ := Emit.writes_bind.1 w₂
  obtain ⟨w₅, rfl⟩ := Emit.writes_lift.1 w₃
  obtain ⟨grown, listed⟩ := Build.adds_host w₅
  obtain ⟨rfl, rfl⟩ := Emit.writes_emit.1 w₄
  refine ⟨grown, Draft.grows_add _ _, rfl, rfl, fun code pools fits ready => ?_⟩
  obtain ⟨xs, hxs, slots, -⟩ := ready.values hv
  have captured : Scene.captured env sn.locals = pure xs := by
    rw [Scene.captured, hxs]
    rfl
  have unfolded : scene.snippet env sn = Reading.host
      (sn.term.evalIn scene.library (Host.bindAll sn.locals xs scene.globals)) := by
    change (Scene.captured env sn.locals >>= _) = _
    rw [captured]
    rfl
  rw [unfolded, fits.library, fits.globals]
  refine follow_host (fun x => σ.yield x) code ?_ (fun _ => rfl) ready.agrees.identity
    fun x s' same => ⟨same, rfl⟩
  funext id
  exact (Exec.lift_bind (poolEntry_ok (pools.hosts _ _ listed)) _ _).trans
    (Exec.lift_bind (frame_slotList slots) _ _)

end Site

/-! ### Expressions -/

namespace Expr

omit [Regex.Engine] in
theorem matched_inside {bytes : ByteArray} {pos : Nat} {value : List UInt8}
    (h : bytesAt bytes pos value = true) (inside : pos ≤ bytes.size) :
    pos + value.length ≤ bytes.size := by
  induction value generalizing pos with
  | nil => exact inside
  | cons b value ih =>
      simp only [bytesAt, Bool.and_eq_true, beq_iff_eq] at h
      have hlt : pos < bytes.size := by
        have here := h.1
        rw [getElem?_def] at here
        split at here
        · assumption
        · simp at here
      have := ih h.2 hlt
      simp only [List.length_cons]
      omega

/-- A pattern in a program is the automaton that its meaning speaks of. -/
theorem pattern_eq {scene : Scene} {program : Program} {e : RegexEntry} {n pos : Nat}
    (sound : ∀ e ∈ program.regexes, e.Sound) (listed : program.regexes[n]? = some e)
    (entry : FailureEntry) :
    scene.pattern entry e.pattern e.ignoreCase e.binary pos =
      pure (scene.matched entry pos (e.regex.matchEnd? scene.bytes pos)) := by
  rw [Scene.pattern, sound e (Array.mem_of_getElem? listed)]

theorem compiles_regex (tag : Tag) (pattern : String) (flags : MatchFlags) :
    (Expr.regex tag pattern flags).Compiles := by
  intro d p d' p' w k
  rw [Expr.emit] at w
  obtain ⟨regex, d₁, p₁, w₁, w₂⟩ := Emit.writes_bind.1 w
  obtain ⟨wr, rfl⟩ := Emit.writes_lift.1 w₁
  obtain ⟨grownr, e, listed, rfl, hcase, hbinary⟩ := Build.adds_regex wr
  obtain ⟨mark, d₂, p₂, w₃, w₄⟩ := Emit.writes_bind.1 w₂
  obtain ⟨wf, rfl⟩ := Emit.writes_lift.1 w₃
  obtain ⟨grownf, noted⟩ := Build.adds_failure wf
  rw [Emit.writes_emit_bind] at w₄
  have tame := Emit.Tame.skipping flags.skip
  have grown := (grownr.trans grownf).trans (tame.pools w₄)
  refine ⟨fun site scene env code pools fits σ s ready => ?_, .nil grown⟩
  have pools₂ := pools.back (tame.pools w₄)
  have listed' := pools₂.regexes _ _ (grownf.regexes _ _ listed)
  have start := code.back (tame.draft w₄)
  rw [Expr.meaning, ← hcase, ← hbinary]
  simp only [pattern_eq fits.sound listed', Reading.bind_apply, Reading.pure_apply]
  refine Site.follow_match_skipping mark w₄ code (fits.grow (grownr.trans grownf)) ready ?_ ?_ ?_
  · rw [fits.bytes]
    exact Exec.lift_bind (poolEntry_ok listed') _ _
  · intro stop hs
    rw [fits.bytes] at hs
    exact (Regex.matchEnd?_bounds hs ready.inside).2
  · rw [fits.rule, ← grownr.rule]
    exact pools₂.failures _ _ noted

theorem compiles_str (tag : Tag) (value : List UInt8) (flags : MatchFlags) :
    (Expr.str tag value flags).Compiles := by
  intro d p d' p' w k
  rw [Expr.emit] at w
  obtain ⟨mark, d₁, p₁, w₁, w₂⟩ := Emit.writes_bind.1 w
  obtain ⟨wf, rfl⟩ := Emit.writes_lift.1 w₁
  obtain ⟨grownf, noted⟩ := Build.adds_failure wf
  have tame := Emit.Tame.skipping flags.skip
  dsimp only at w₂
  split at w₂
  · next folded =>
      obtain ⟨regex, d₂, p₂, w₃, w₄⟩ := Emit.writes_bind.1 w₂
      obtain ⟨wr, rfl⟩ := Emit.writes_lift.1 w₃
      obtain ⟨grownr, e, listed, hpattern, hcase, hbinary⟩ := Build.adds_regex wr
      rw [Emit.writes_emit_bind] at w₄
      have grown := (grownf.trans grownr).trans (tame.pools w₄)
      refine ⟨fun site scene env code pools fits σ s ready => ?_, .nil grown⟩
      have pools₂ := pools.back (tame.pools w₄)
      have listed' := pools₂.regexes _ _ listed
      rw [Expr.meaning, if_pos folded, ← hpattern]
      nth_rewrite 2 [← hbinary]
      rw [← hcase]
      simp only [pattern_eq fits.sound listed', Reading.bind_apply, Reading.pure_apply]
      refine Site.follow_match_skipping mark w₄ code (fits.grow (grownf.trans grownr)) ready ?_ ?_ ?_
      · rw [fits.bytes]
        exact Exec.lift_bind (poolEntry_ok listed') _ _
      · intro stop hs
        rw [fits.bytes] at hs
        exact (Regex.matchEnd?_bounds hs ready.inside).2
      · rw [fits.rule]
        exact pools₂.failures _ _ (grownr.failures _ _ noted)
  · next exact' =>
      obtain ⟨literal, d₂, p₂, w₃, w₄⟩ := Emit.writes_bind.1 w₂
      obtain ⟨wl, rfl⟩ := Emit.writes_lift.1 w₃
      obtain ⟨grownl, listed⟩ := Build.adds_literal wl
      rw [Emit.writes_emit_bind] at w₄
      have grown := (grownf.trans grownl).trans (tame.pools w₄)
      refine ⟨fun site scene env code pools fits σ s ready => ?_, .nil grown⟩
      have pools₂ := pools.back (tame.pools w₄)
      rw [Expr.meaning, if_neg exact']
      simp only [Reading.bind_apply, Reading.pure_apply]
      refine Site.follow_match_skipping mark w₄ code (fits.grow (grownf.trans grownl)) ready ?_ ?_ ?_
      · rw [fits.bytes]
        exact Exec.lift_bind (poolEntry_ok (pools₂.literals _ _ listed)) _ _
      · intro stop hs
        rw [fits.bytes] at hs
        split at hs
        · next found =>
            obtain rfl := Option.some.inj hs
            exact matched_inside found ready.inside
        · simp at hs
      · rw [fits.rule]
        exact pools₂.failures _ _ (grownl.failures _ _ noted)

theorem compiles_fail (tag : Tag) (message? : Option String) :
    (Expr.fail tag message?).Compiles := by
  intro d p d' p' w k
  obtain ⟨mark, d₁, p₁, w₁, w₂⟩ := Emit.writes_bind.1 w
  obtain ⟨wf, rfl⟩ := Emit.writes_lift.1 w₁
  obtain ⟨grownf, noted⟩ := Build.adds_failure wf
  obtain ⟨rfl, rfl⟩ := Emit.writes_emit.1 w₂
  refine ⟨fun site scene env code pools fits σ s ready => ?_, .nil grownf⟩
  rw [Expr.meaning]
  refine Site.follow_fail code (.pure (.failure rfl rfl ?_
    (ready.behind.registers rfl rfl rfl ready.inside)))
  rw [fits.rule]
  exact pools.failures _ _ noted

theorem compiles_host (tag : Tag) (sn : Snippet) : (Expr.host tag sn).Compiles := by
  intro d p d' p' w k
  have grown := (Emit.Tame.snippet sn).pools w
  refine ⟨fun site scene env code pools fits σ s ready => ?_, .nil grown⟩
  rw [Expr.meaning]
  obtain ⟨-, -, -, -, follow⟩ := Site.follow_snippet site scene.rounds w
  refine .bind ((follow code pools fits ready).mono ?_)
  rintro x s' _ ⟨same, rfl⟩
  refine .pure ⟨_, rfl, ⟨rfl, ready.inside⟩, ready.inside, .refl _ _, rfl, ?_⟩
  rw [same]
  exact ready.agrees.memo

theorem compiles_ref (tag : Tag) (name : String) (binding : Binding) :
    (Expr.ref tag name binding).Compiles := by
  intro d p d' p' w k
  obtain ⟨callee, d₁, p₁, w₁, w₂⟩ := Emit.writes_bind.1 w
  obtain ⟨rfl, rfl⟩ := Emit.writes_emit.1 w₂
  cases binding with
  | unresolved => exact absurd w₁ Emit.not_writes_fault
  | rule function =>
      obtain ⟨f, d₂, p₂, w₃, w₄⟩ := Emit.writes_bind.1 w₁
      obtain ⟨wf, rfl⟩ := Emit.writes_lift.1 w₃
      obtain ⟨rfl, known⟩ := Build.adds_ruleFunction wf
      obtain ⟨rfl, rfl, rfl⟩ := Emit.writes_pure.1 w₄
      refine ⟨fun site scene env code pools fits σ s ready => ?_, .nil (.refl _)⟩
      have found : scene.ruleNumber function = pure f := by
        rw [Scene.ruleNumber, fits.rules, known]
        rfl
      have unfolded : scene.callRule function σ.pos = scene.call f [] σ.pos := by
        rw [Scene.callRule, found]
        rfl
      rw [Expr.meaning, unfolded]
      exact Site.follow_call _ code fits ready .nil
  | «local» =>
      obtain ⟨v, d₂, p₂, w₃, w₄⟩ := Emit.writes_bind.1 w₁
      obtain ⟨known, rfl, rfl⟩ := Emit.writes_lookup.1 w₃
      obtain ⟨rfl, rfl, rfl⟩ := Emit.writes_pure.1 w₄
      refine ⟨fun site scene env code pools fits σ s ready => ?_, .nil (.refl _)⟩
      obtain ⟨-, x, hx, hs⟩ := ready.knows name v known
      have found : (Reading.found (env.lookup name) : Reading Value) = pure x := by
        rw [hx]
        rfl
      rw [Expr.meaning, found]
      have read : ((Instr.call (.slot v) []).execute site.setting
          (site.frame (d₁.code.size + 1) σ) σ.identity) =
            .ok ((site.frame (d₁.code.size + 1) σ).callSlot x [], σ.identity) :=
        (Exec.lift_bind (Site.frame_slotList .nil) _ _).trans
          (Exec.lift_bind (Site.frame_slot hs) _ _)
      have yields (x : Value) : site.Done d₁.slots (d₁.add (.call (.slot v) [])).code.size σ.slots
          (.success x σ.pos) s (site.machine _ (σ.yield x)) :=
        .success rfl (ready.behind.registers rfl rfl rfl ready.inside)
      cases x with
      | parser id f captures text =>
          refine (fits.calls f captures (site.frame (d₁.code.size + 1) σ) site.rest σ.memo s _
            ready.inside ready.agrees.memo ?_).mono fun u s' m => Site.done_of_returns
          rw [← ready.agrees.identity]
          refine Site.step_call code ?_
          rw [read, Frame.callSlot, List.append_nil]
      | _ => exact Site.follow_next code (.pure (yields _)) read rfl

end Expr

end Packrat
