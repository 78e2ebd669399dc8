import Packrat.Proofs.Simulation.Matching

/-
**Arguments.**

An argument of a call is evaluated before the call: a local is handed on, host code is evaluated,
and anything else becomes a parser.  The parser of a rule knows the function of the rule; any other
parser is closed over the values of the locals that its expression reads, and its function is a
closure of the call.

Main results:

* `Packrat.Expr.compiles_call` — the code of a call realizes its meaning if those of its arguments
  do.
-/

set_option autoImplicit false

namespace Packrat

/-! ### Arguments that become functions -/

theorem Emit.argument_own {e : Expr} (h : e.direct = false) (code : Emit Unit) :
    Emit.argument e code = (do
      let slots ← Emit.captures e
      let f ← Emit.ownFunction e code
      Emit.parser f slots) := by
  unfold Emit.argument
  split <;> simp_all [Expr.direct]

theorem Scene.argument_own {scene : Scene} {env : Env} {l : Layout} {e : Expr}
    (h : e.direct = false) :
    scene.argument env l e = (do
      let captures ← captured env e.freeLocals
      let id ← Reading.host fresh
      pure (.parser id l.function captures s!"_parse_function_{e.id}")) := by
  unfold Scene.argument
  split <;> simp_all [Expr.direct]

/-- What the code of an argument does: its value is in a slot. -/
def Site.Provides (site : Site) (d d' : Draft) (v : Nat) (σ : Moment) (x : Value) (s : Store)
    (m : Machine) : Prop :=
  ∃ σ', m = site.machine d'.code.size σ' ∧ σ'.pos = σ.pos ∧ site.Behind d.slots σ.slots σ' s ∧
    v < d'.slots ∧ σ'.slots[v]? = some x

namespace Site

variable {site : Site} {n k : Nat} {d : Draft} {f : Function} {vs : List Nat} {xs : List Value}
variable {env : Env} {σ : Moment} {s : Store}

/-- The code that makes a parser. -/
theorem follow_madeParser (ready : site.Ready d env σ s)
    (code : site.function.Hosts ((d.add (.makeParser k vs)).addSlot.add (.store d.slots .result)))
    (known : site.setting.program.functions[k]? = some f)
    (slots : List.Forall₂ (fun v x => σ.slots[v]? = some x) vs xs) :
    site.Follows n d.code.size σ
      ((Reading.host fresh >>= fun id => pure (.parser id k xs f.name) : Reading Value) s)
      (site.Provides d ((d.add (.makeParser k vs)).addSlot.add (.store d.slots .result)) d.slots
        σ) := by
  have room : d.slots < σ.slots.size := by
    rw [ready.size]
    exact code.add.slots
  refine follow_makeParser code.add.addSlot known slots
    (follow_store (d := Draft.addSlot _) code rfl ?_)
  rw [Reading.fresh_bind, ready.agrees.identity]
  exact .pure ⟨_, rfl, rfl, ⟨ready.inside, .set _ (Nat.le_refl _) _, rfl, ready.agrees.memo⟩,
    Nat.lt_succ_self _, getElem?_set_self room _⟩

end Site

/-- A closure is written before those within it. -/
theorem Closes.own [Regex.Engine] {p p₁ p' : Pools} {c : Closure} {cs : List (Nat × Closure)}
    (h : Closes { p with functions := p.functions.push none } p₁ cs)
    (size : p'.functions.size = p₁.functions.size)
    (hosts : ∀ program : Program, program.Hosts p' → program.Hosts p₁)
    (placed : ∀ program : Program, program.Hosts p' →
      c.Placed program p.ruleFunctions p.functions.size) :
    Closes p p' ((p.functions.size, c) :: cs) where
  rising := by
    refine ⟨Nat.le_refl _, ?_⟩
    rw [size]
    exact h.rising.lower (by simp)
  placed program hp kc mem := by
    rcases List.mem_cons.1 mem with rfl | mem
    · exact placed program hp
    · exact h.placed program (hosts program hp) kc mem

theorem Expr.Compiles.argument [Regex.Engine] {e : Expr} (ih : e.Compiles) {d d' : Draft}
    {p p' : Pools} {v : Nat} (w : (Emit.argument e e.emit).Writes d p v d' p') :
    let l := if e.direct then .blank else e.layout (some p.functions.size) (d.stage p).opened
    Closes p p' (if e.direct then [] else (l.function, e.closure p.rule l) ::
      e.closures p.rule l) ∧
      ∀ (site : Site) (scene : Scene) (env : Env), site.function.Hosts d' →
        site.setting.program.Hosts p' →
        scene.Fits site.setting site.memoize p.ruleFunctions p.rule →
        ∀ σ s, site.Ready d env σ s →
          site.Follows scene.rounds d.code.size σ (scene.argument env l e s)
            (site.Provides d d' v σ) := by
  dsimp only
  cases direct : e.direct with
  | false =>
      rw [Emit.argument_own direct] at w
      obtain ⟨vs, d₁, p₁, w₁, wa⟩ := Emit.writes_bind.1 w
      obtain ⟨hv, rfl, rfl⟩ := Emit.writes_lookupAll.1 w₁
      obtain ⟨k, d₂, p₂, w₂, wb⟩ := Emit.writes_bind.1 wa
      obtain ⟨rfl, rfl, draft, p₃, f, grown, done, realizes, size, hosts⟩ := ih.own w₂
      rw [Emit.parser, Emit.writes_emit_bind] at wb
      obtain ⟨rfl, rfl, rfl⟩ := Emit.writes_storeResult.1 wb
      have named : f.name = s!"_parse_function_{e.id}" :=
        (Draft.function_eq_ok done).2.1.trans grown.name
      have number : (e.layout (some p₁.functions.size) (d₂.stage p₁).opened).function =
          p₁.functions.size := congrArg (Option.getD · 0) (e.layout_function? _ _)
      simp only [Bool.false_eq_true, if_false, number]
      refine ⟨?_, fun site scene env code pools fits σ s ready => ?_⟩
      · refine (realizes _).closes.own size (fun program h => (hosts program h).1)
          fun program h => ⟨f, draft, p₁.maxBlocks, (hosts program h).2, done, named, grown, ?_⟩
        intro site scene env hp hf fits
        simp only [Expr.closure, Expr.layout_bare, Layout.read, Expr.layout_function?]
        exact (realizes none).performs site scene env
          (by rw [hf]; exact (Draft.function_eq_ok done).1) (by rw [hp]; exact (hosts _ h).1) fits
      · obtain ⟨xs, hxs, slots, -⟩ := ready.values hv
        have captured : Scene.captured env e.freeLocals = pure xs := by
          rw [Scene.captured, hxs]
          rfl
        rw [Scene.argument_own direct, captured, number, ← named]
        exact Site.follow_madeParser ready code (hosts _ pools).2 slots
  | true =>
      cases e with
      | ref tag name target =>
          cases target with
          | «local» =>
              obtain ⟨hv, rfl, rfl⟩ := Emit.writes_lookup.1 w
              refine ⟨.nil (.refl _), fun site scene env code pools fits σ s ready => ?_⟩
              obtain ⟨lt, x, hx, hs⟩ := ready.knows name v hv
              have found : scene.argument env .blank (.ref tag name .local) = pure x := by
                rw [Scene.argument, hx]
                rfl
              rw [if_pos rfl, found]
              exact .pure ⟨σ, rfl, rfl, ready.behind, lt, hs⟩
          | rule function =>
              change (do
                let f ← Build.ruleFunction function
                Emit.parser f [] : Emit Nat).Writes d p v d' p' at w
              obtain ⟨k, d₁, p₁, w₁, wa⟩ := Emit.writes_bind.1 w
              obtain ⟨w₂, rfl⟩ := Emit.writes_lift.1 w₁
              obtain ⟨rfl, known⟩ := Build.adds_ruleFunction w₂
              rw [Emit.parser, Emit.writes_emit_bind] at wa
              obtain ⟨rfl, rfl, rfl⟩ := Emit.writes_storeResult.1 wa
              refine ⟨.nil (.refl _), fun site scene env code pools fits σ s ready => ?_⟩
              have number : scene.ruleNumber function = pure k := by
                rw [Scene.ruleNumber, fits.rules, known]
                rfl
              obtain ⟨f, hf, named⟩ := fits.named function k (by rw [fits.rules]; exact known)
              rw [Scene.argument, number, ← named]
              exact Site.follow_madeParser ready code hf .nil
          | _ => cases direct
      | host _ sn =>
          change (do
            Emit.snippet sn
            Emit.storeResult : Emit Nat).Writes d p v d' p' at w
          obtain ⟨_, d₁, p₁, w₁, wa⟩ := Emit.writes_bind.1 w
          obtain ⟨rfl, rfl, rfl⟩ := Emit.writes_storeResult.1 wa
          have tame := Emit.Tame.snippet sn
          refine ⟨.nil (tame.pools w₁), fun site scene env code pools fits σ s ready => ?_⟩
          obtain ⟨-, -, slots, -, follow⟩ :=
            @Site.follow_snippet _ _ _ _ _ env σ s scene site scene.rounds _ w₁
          refine (follow code.add.addSlot pools fits ready).onward ?_
          rintro x s' _ ⟨memo, rfl⟩
          have room : d₁.slots < σ.slots.size := by
            rw [ready.size]
            exact code.add.slots
          have stored := site.step_store (d := d₁.addSlot) code
            (σ := { σ.yield x with identity := s'.identity }) rfl
          exact ⟨1, _, .step stored (.refl _), _, rfl, rfl, ⟨ready.inside,
            .set _ (Nat.le_of_eq slots.symm) _, rfl, memo ▸ ready.agrees.memo⟩,
            Nat.lt_succ_self _, getElem?_set_self room _⟩
      | _ => cases direct

/-- Arguments one after the other. -/
theorem Expr.follow_args [Regex.Engine] {args : List (Option String × Expr)}
    (ih : ∀ arg ∈ args, arg.2.Compiles) {d d' : Draft} {p p' : Pools} {vs : List Nat}
    (w : (emitArgs args).Writes d p vs d' p') :
    Closes p p' (closuresArgs p.rule args (layoutArgs args (d.stage p))) ∧
      ∀ (site : Site) (scene : Scene) (env : Env), site.function.Hosts d' →
        site.setting.program.Hosts p' →
        scene.Fits site.setting site.memoize p.ruleFunctions p.rule →
        ∀ σ s, site.Ready d env σ s →
          site.Follows scene.rounds d.code.size σ (meaningArgs scene args env
            (layoutArgs args (d.stage p)) s)
            fun xs s' m => ∃ σ', m = site.machine d'.code.size σ' ∧ σ'.pos = σ.pos ∧
              site.Behind d.slots σ.slots σ' s' ∧
              List.Forall₂ (fun v x => σ'.slots[v]? = some x) vs xs := by
  induction args generalizing d p d' p' vs with
  | nil =>
      obtain ⟨rfl, rfl, rfl⟩ := Emit.writes_pure.1 w
      exact ⟨.nil (.refl _), fun site scene env code pools fits σ s ready =>
        .pure ⟨σ, rfl, rfl, ready.behind, .nil⟩⟩
  | cons arg args ih' =>
      obtain ⟨keyword, e⟩ := arg
      rw [emitArgs] at w
      obtain ⟨v, d₁, p₁, w₁, wa⟩ := Emit.writes_bind.1 w
      obtain ⟨vs, d₂, p₂, w₂, w₃⟩ := Emit.writes_bind.1 wa
      obtain ⟨rfl, rfl, rfl⟩ := Emit.writes_pure.1 w₃
      have tame := Emit.Tame.argument e.emit_tame e
      have rest := emitArgs_tame args
      have grown := tame.draft w₁
      have pgrown := tame.pools w₁
      obtain ⟨closes, first⟩ := (ih _ (List.mem_cons_self ..)).argument w₁
      obtain ⟨closes', follow⟩ := ih' (fun arg h => ih arg (List.mem_cons_of_mem _ h)) w₂
      rw [pgrown.rule] at closes'
      have moved := (Emit.Moves.argument e.emit_moves e).stage w₁
      rw [moved] at closes' follow
      refine ⟨closes.append closes' pgrown (rest.pools w₂), fun site scene env code pools fits σ s
        ready => ?_⟩
      rw [meaningArgs]
      refine .bind ((first site scene env (code.back (rest.draft w₂)) (pools.back (rest.pools w₂))
        fits σ s ready).mono ?_)
      rintro x s₁ _ ⟨σ₁, rfl, pos₁, behind₁, lt, held⟩
      refine .bind ((follow site scene env code pools (fits.grow pgrown) σ₁ s₁
        (ready.next behind₁ grown.scope grown.slots)).mono ?_)
      rintro xs s₂ _ ⟨σ₂, rfl, pos₂, behind₂, held'⟩
      exact .pure ⟨σ₂, rfl, pos₂.trans pos₁, behind₁.trans (behind₂.mono grown.slots),
        .cons (behind₂.kept lt held) held'⟩

theorem Expr.compiles_call [Regex.Engine] {args : List (Option String × Expr)}
    (ih : ∀ arg ∈ args, arg.2.Compiles) (tag : Tag) (name : String) (binding : Binding) :
    (Expr.call tag name args binding).Compiles := by
  intro d p d' p' w own
  rw [Expr.emit] at w
  obtain ⟨k, d₁, p₁, w₁, wa⟩ := Emit.writes_bind.1 w
  obtain ⟨w₂, rfl⟩ := Emit.writes_lift.1 w₁
  cases binding with
  | «local» => exact absurd w₂ Build.not_adds_fault
  | unresolved => exact absurd w₂ Build.not_adds_fault
  | rule function =>
      obtain ⟨rfl, known⟩ := Build.adds_ruleFunction w₂
      obtain ⟨vs, d₂, p₂, w₃, w₄⟩ := Emit.writes_bind.1 wa
      obtain ⟨rfl, rfl⟩ := Emit.writes_emit.1 w₄
      obtain ⟨closes, follow⟩ := Expr.follow_args ih w₃
      rw [Expr.layout]
      refine ⟨fun site scene env code pools fits σ s ready => ?_, closes⟩
      have number : scene.ruleNumber function = pure k := by
        rw [Scene.ruleNumber, fits.rules, known]
        rfl
      rw [Expr.meaning, number]
      refine .bind (.pure (.bind ((follow site scene env code.add pools fits σ s ready).mono ?_)))
      rintro xs s₁ _ ⟨σ₁, rfl, pos, behind, held⟩
      rw [← pos]
      have grown := (emitArgs_tame args).draft w₃
      have ready₁ : site.Ready d₂ env σ₁ s₁ := ready.next behind grown.scope grown.slots
      refine (Site.follow_call d₁.slots code fits ready₁ held).mono ?_
      rintro v s₂ _ ⟨σ₂, rfl, leaves, behind₂⟩
      exact ⟨σ₂, rfl, leaves, behind.trans behind₂⟩

end Packrat
