import Packrat.Proofs.Simulation.Rounds
import Packrat.Proofs.Simulation.Sequences

/-
**Levels of operators.**

Each level of an operator table is a function that calls the level below for its operands, and
hands on its own parameters.  What a level has read so far is in a slot: a list of operators, an
operand with the operators around it, or operands with operators between them.

Main definitions:

* `Packrat.Site.Operand` — the code of an operand.

Main results:

* `Packrat.Expr.Embeds.level` — the body of a level realizes its meaning if the code of the
  operator does;
* `Packrat.Expr.compiles_operators` — the code of an operator table realizes its meaning.
-/

set_option autoImplicit false

namespace Packrat

/-! ### Parameters -/

theorem lookup_of_nodup {l : List (String × Nat)} {name : String} {v : Nat}
    (nodup : (l.map Prod.fst).Nodup) (mem : (name, v) ∈ l) : l.lookup name = some v := by
  induction l with
  | nil => simp at mem
  | cons entry l ih =>
      obtain ⟨first, rest⟩ := List.nodup_cons.1 nodup
      rcases List.mem_cons.1 mem with rfl | mem
      · simp
      · have other : name ≠ entry.1 := by
          rintro rfl
          exact first (List.mem_map.2 ⟨_, mem, rfl⟩)
        rw [List.lookup_cons, beq_eq_false_iff_ne.2 other]
        exact ih rest mem

/-- The parameters of a function take the first slots. -/
theorem Draft.lookups_begin {name : String} {params : List String} {budget : Nat}
    (nodup : params.Nodup) :
    params.mapM (fun n => (Draft.begin name params budget).scope.lookup n) =
      some (List.range params.length) := by
  have each : ∀ (names : List String) (k : Nat) (f : String → Option Nat),
      (∀ n v, (n, v) ∈ names.zipIdx k → f n = some v) →
      names.mapM f = some (List.range' k names.length) := by
    intro names
    induction names with
    | nil => exact fun _ _ _ => rfl
    | cons n names ih =>
        intro k f h
        rw [List.mapM_cons, h n k (by simp), ih (k + 1) f fun m v hm => h m v (by simp [hm])]
        rfl
  rw [List.range_eq_range']
  refine each params 0 _ fun n v h => lookup_of_nodup ?_ (List.mem_reverse.2 h)
  simpa [Draft.begin, List.map_reverse] using (List.reverse_perm params).nodup_iff.2 nodup

/-! ### Folds -/

/-- The machine wraps operators around an operand as the meaning does. -/
theorem foldPrefixes_eq (operand : Value) (ops : List Value) (n : Nat) :
    ∃ x n', foldPrefixes operand ops n = .ok (x, n') ∧
      (Scene.prefixes operand ops).run n = .ok (x, n') := by
  induction ops generalizing n with
  | nil => exact ⟨operand, n, rfl, rfl⟩
  | cons op ops ih =>
      obtain ⟨x, n', folded, meant⟩ := ih n
      refine ⟨.node n' .prefixOp [op, x] none, n' + 1, ?_, ?_⟩
      · exact (ok_bind folded _).trans rfl
      · change (Scene.prefixes operand ops n >>= _) = _
        rw [show Scene.prefixes operand ops n = .ok (x, n') from meant]
        rfl

/-- Operands with operators between them as the machine keeps them. -/
def Scene.chain (last : Value) : List (Value × Value) → List Value
  | [] => [last]
  | (left, op) :: rest => left :: op :: chain last rest

theorem Scene.chain_append (links : List (Value × Value)) (last op right : Value) :
    (chain last links ++ [op]) ++ [right] = chain right (links ++ [(last, op)]) := by
  induction links with
  | nil => rfl
  | cons link links ih => simpa [chain] using ih

/-- The machine folds operands to the right as the meaning does. -/
theorem foldSpine_eq (last : Value) (links : List (Value × Value)) (n : Nat) :
    ∃ x n', foldSpine (Scene.chain last links) n = .ok (x, n') ∧
      (Scene.spine last links).run n = .ok (x, n') := by
  induction links generalizing n with
  | nil => exact ⟨last, n, rfl, rfl⟩
  | cons link links ih =>
      obtain ⟨left, op⟩ := link
      obtain ⟨x, n', folded, meant⟩ := ih n
      have unfolded : foldSpine (left :: op :: Scene.chain last links) =
          (foldSpine (Scene.chain last links) >>= fun right =>
            Value.newNode .infixOp [left, op, right]) := by
        cases links with
        | nil => rfl
        | cons link links => rfl
      refine ⟨.node n' .infixOp [left, op, x] none, n' + 1, ?_, ?_⟩
      · rw [Scene.chain, unfolded]
        exact (ok_bind folded _).trans rfl
      · change (Scene.spine last links n >>= _) = _
        rw [show Scene.spine last links n = .ok (x, n') from meant]
        rfl

/-! ### Operands -/

/-- The code of a call of the level below performs a reading. -/
def Site.Operand (site : Site) (n : Nat) (scope : List (String × Nat)) (env : Env)
    (below arity : Nat) (r : Nat → Reading (Verdict Value)) : Prop :=
  ∀ d : Draft, d.scope = scope →
    site.function.Hosts (d.add (.call (.function below) (List.range arity))) →
    site.Performs n d (d.add (.call (.function below) (List.range arity))) env r

variable [Regex.Engine]

namespace Expr

variable {operator : Expr}

/-- An operator and an operand behind it. -/
theorem Embeds.operatorStep (ih : operator.Embeds) {below arity exit : Nat} {d d' : Draft}
    {p p' : Pools} {step : Nat × Nat}
    (w : (Emit.operatorStep (Emit.within operator operator.emit) below arity exit).Writes d p step
      d' p') :
    let l := operator.layoutWithin (d.stage p)
    step.1 = d.slots ∧ Closes p p' (operator.closures p.rule l) ∧
      ∀ (site : Site) (scene : Scene) (env : Env) (operand : Nat → Reading (Verdict Value)),
        site.function.Hosts d' → site.setting.program.Hosts p' →
        scene.Fits site.setting site.memoize p.ruleFunctions p.rule →
        site.Operand scene.rounds d.scope env below arity operand →
        ∀ σ s target, site.Ready d env σ s → site.function.labels[exit]? = some target →
        ∀ {β : Type} (k : Option (Value × Value × Nat) → Reading β)
          (post : β → Store → Machine → Prop),
          (∀ σ' s' op, site.Behind d.slots σ.slots σ' s' →
            σ'.slots[step.1]? = some (.ofPos σ.pos) → σ'.slots[step.2]? = some op →
            site.Follows scene.rounds d'.code.size σ' (k (some (op, σ'.result, σ'.pos)) s') post) →
          (∀ σ' s', site.Behind d.slots σ.slots σ' s' → σ'.pos = σ.pos →
            site.Follows scene.rounds target σ' (k none s') post) →
          site.Follows scene.rounds d.code.size σ ((Scene.operatorPair
            (fun q => l.read scene operator.freeLocals q (operator.meaning scene env l q)) operand
            σ.pos >>= k) s) post := by
  have tame := Emit.Tame.within operator operator.emit_tame
  rw [Emit.operatorStep] at w
  obtain ⟨back, d₁, p₁, w₁, wa⟩ := Emit.writes_bind.1 w
  obtain ⟨rfl, rfl, rfl⟩ := Emit.writes_checkpoint.1 w₁
  obtain ⟨_, d₂, p₂, w₂, wb⟩ := Emit.writes_bind.1 wa
  obtain ⟨_, d₃, p₃, w₃, wc⟩ := Emit.writes_bind.1 wb
  obtain ⟨retreat, rfl⟩ := Site.writes_retreat w₃
  obtain ⟨v, d₄, p₄, w₄, wd⟩ := Emit.writes_bind.1 wc
  obtain ⟨rfl, rfl, rfl⟩ := Emit.writes_storeResult.1 w₄
  rw [Emit.callOperand, Emit.writes_emit_bind] at wd
  obtain ⟨_, d₅, p₅, w₅, w₆⟩ := Emit.writes_bind.1 wd
  obtain ⟨retreat', rfl⟩ := Site.writes_retreat w₅
  obtain ⟨rfl, rfl, rfl⟩ := Emit.writes_pure.1 w₆
  have realizes := ih _ _ _ _ w₂
  refine ⟨rfl, realizes.closes, fun site scene env operand code pools fits operands σ s target
    ready hl β k post found missed => ?_⟩
  have calling := code.back retreat'
  have storing := calling.add
  have retreating := storing.add.addSlot
  have grown := (tame.draft w₂).trans retreat
  have room : d.slots + 1 ≤ d₃.slots := grown.slots
  have small := ready.small fits.small
  refine .bind ?_
  rw [Scene.operatorPair]
  refine Site.follow_tried (realizes.performs site scene env (retreating.back retreat) pools fits)
    (tame.draft w₂) w₃ retreating hl fits.small ready ?_ ?_
  · intro σ₁ s₁ behind₁ kept₁ _
    have ready₁ : site.Ready d₃ env σ₁ s₁ := ready.next behind₁ grown.scope (by omega)
    obtain ⟨ready₂, saved⟩ := ready₁.store storing σ₁.result
    have kept₂ := (getElem?_set_ne (by omega : d₃.slots ≠ d.slots) σ₁.result).trans kept₁
    have behind₂ := (behind₁.set (by omega : d.slots ≤ d₃.slots) σ₁.result)
    refine Site.follow_store (d := d₃.addSlot) storing rfl
      (Site.follow_part (operands _ grown.scope calling) ready₂ ?_ ?_)
    · intro σ₃ s₃ behind₃ status₃
      have before := behind₃.kept (by simp [Draft.add, Draft.addSlot]; omega) kept₂
      refine Site.follow_retreat w₅ code hl before small (fun _ => .pure (found σ₃ s₃ σ₁.result
        (behind₂.trans (behind₃.mono ?_)) before ?_)) (fun h => by simp [status₃] at h)
      · simp [Draft.add, Draft.addSlot]; omega
      · exact behind₃.kept (by simp [Draft.add, Draft.addSlot]) saved
    · intro σ₃ s₃ mark entry behind₃ status₃ _ _
      have before := behind₃.kept (by simp [Draft.add, Draft.addSlot]; omega) kept₂
      refine Site.follow_retreat w₅ code hl before small (fun h => by simp [status₃] at h)
        fun _ => .pure (missed _ s₃ ((behind₂.trans (behind₃.mono ?_)).registers rfl rfl rfl
          ready.inside) rfl)
      simp [Draft.add, Draft.addSlot]; omega
  · intro σ₁ s₁ entry place behind₁ pos₁
    exact .pure (missed σ₁ s₁ behind₁ pos₁)

/-! ### Rounds of a level -/

/-- What a round of a level reads, given what its operator and its operand read. -/
abbrev Part (α : Type) : Type :=
  (Nat → Reading (Verdict Value)) → (Nat → Reading (Verdict Value)) →
    α × Nat → Reading ((α × Nat) ⊕ (α × Nat))

/-- Rounds that add to what a slot holds; how they do so may depend on the identity of a list. -/
def Adds {α : Type} (operator : Expr) (held : Nat → α → Value) (acc below arity : Nat)
    (part : Part α) (body : Nat → Nat → Emit Unit) : Prop :=
  ∀ top exit d p d' p', (body top exit).Writes d p () d' p' →
    let l := operator.layoutWithin (d.stage p)
    Closes p p' (operator.closures p.rule l) ∧
      ∀ (site : Site) (scene : Scene) (env : Env) (operand : Nat → Reading (Verdict Value))
        (id low topAt exitAt : Nat) (start : Array Value) (σ : Moment) (s : Store) (a : α),
        site.function.Hosts (d'.add (.jump top)) → site.setting.program.Hosts p' →
        scene.Fits site.setting site.memoize p.ruleFunctions p.rule →
        site.Operand scene.rounds d.scope env below arity operand →
        site.function.labels[top]? = some topAt → site.function.labels[exit]? = some exitAt →
        low ≤ acc → acc < d.slots → site.Ready d env σ s →
        site.Holds low acc start σ s (held id a) →
        site.Follows scene.rounds d.code.size σ
          (part (operator.reads scene env l) operand (a, σ.pos) s)
          (Machine.Turns site.setting site.memoize
            (fun a s m => ∃ σ, m = site.machine topAt σ ∧ σ.pos = a.2 ∧
              site.Holds low acc start σ s (held id a.1))
            (fun a s m => ∃ σ, m = site.machine exitAt σ ∧ σ.pos = a.2 ∧
              site.Holds low acc start σ s (held id a.1)))

/-- The loop of a level. -/
theorem Adds.loop {α : Type} {held : Nat → α → Value} {acc below arity : Nat} {part : Part α}
    {body : Nat → Nat → Emit Unit} (adds : operator.Adds held acc below arity part body)
    (tame : ∀ top exit, (body top exit).Tame) {d d' : Draft} {p p' : Pools}
    (w : (Emit.loop body).Writes d p () d' p') :
    let l := operator.layoutWithin (d.stage p).entered
    Closes p p' (operator.closures p.rule l) ∧
      ∀ (site : Site) (scene : Scene) (env : Env) (operand : Nat → Reading (Verdict Value))
        (id : Nat) (d₀ : Draft) (σ : Moment) (s : Store) (a : α), site.function.Hosts d' →
        site.setting.program.Hosts p' →
        scene.Fits site.setting site.memoize p.ruleFunctions p.rule →
        site.Operand scene.rounds d.scope env below arity operand → d.scope = d₀.scope →
        d₀.slots ≤ acc → acc < d.slots → site.Ready d₀ env σ s →
        site.Holds d₀.slots acc σ.slots σ s (held id a) →
        site.Follows scene.rounds d.code.size σ
          (Reading.repeatFrom (part (operator.reads scene env l) operand) scene.rounds
            (a, σ.pos) s)
          (fun a s m => ∃ σ', m = site.machine d'.code.size σ' ∧ σ'.pos = a.2 ∧
            site.Holds d₀.slots acc σ.slots σ' s (held id a.1)) := by
  obtain ⟨d₁, d₂, scope, slots, begins, entered, w₁, hosts⟩ := Emit.hosts_loop tame w
  obtain ⟨closes, round⟩ := adds _ _ _ _ _ _ w₁
  rw [entered] at closes round
  refine ⟨closes, fun site scene env operand id d₀ σ s a code pools fits operands same low lt
    ready holds => ?_⟩
  obtain ⟨body, top, exit⟩ := hosts _ code
  rw [← begins] at top ⊢
  refine .repeatFrom (fun a s m => ∃ σ', m = site.machine d₁.code.size σ' ∧ σ'.pos = a.2 ∧
    site.Holds d₀.slots acc σ.slots σ' s (held id a.1)) ?_ ⟨σ, rfl, rfl, holds⟩
  rintro ⟨a, _⟩ s' _ ⟨σ', rfl, rfl, holds'⟩
  exact round site scene env operand id d₀.slots _ _ σ.slots σ' s' a body pools fits
    (by rwa [scope]) top exit low (by rwa [slots])
    (ready.next holds'.behind (scope.trans same) (by omega)) holds'

theorem Embeds.prefixes (ih : operator.Embeds) (ops below arity : Nat) :
    operator.Adds (fun id items => .list id items) ops below arity
      (fun op _ => Scene.anotherPrefix op) (fun _ exit => do
        let back ← Emit.checkpoint
        Emit.within operator operator.emit
        Emit.retreatOnFailure back exit
        Emit.emit (.push ops .result)
        Emit.emit (.branch (.posEq back) exit)) := by
  intro top exit d p d' p' w
  have tame := Emit.Tame.within operator operator.emit_tame
  obtain ⟨back, d₁, p₁, w₁, wa⟩ := Emit.writes_bind.1 w
  obtain ⟨rfl, rfl, rfl⟩ := Emit.writes_checkpoint.1 w₁
  obtain ⟨_, d₂, p₂, w₂, wb⟩ := Emit.writes_bind.1 wa
  obtain ⟨_, d₃, p₃, w₃, w₄⟩ := Emit.writes_bind.1 wb
  obtain ⟨retreat, rfl⟩ := Site.writes_retreat w₃
  obtain ⟨rfl, rfl⟩ := Emit.writes_emit_emit.1 w₄
  have realizes := ih _ _ _ _ w₂
  refine ⟨realizes.closes, fun site scene env operand id low topAt exitAt start σ s items code
    pools fits _ htop hexit le lt ready holds => ?_⟩
  have retreating := code.add.add.add
  dsimp only
  rw [Scene.anotherPrefix]
  refine Site.follow_tried (realizes.performs site scene env (retreating.back retreat) pools fits)
    (tame.draft w₂) w₃ retreating hexit fits.small ready ?_ ?_
  · intro σ' s' behind kept _
    have holds' := holds.part behind (by omega) lt
    have full : σ'.slots.size = site.function.slots := behind.keeps.size.trans ready.size
    have pushed := holds'.update le (Array.getElem?_eq_some_iff.1 holds'.held).1
      (.list id (items ++ [σ'.result]))
    exact Site.follow_push code.add.add rfl holds'.held (Site.follow_again code htop hexit
      ((getElem?_set_ne (Nat.ne_of_lt lt) _).trans kept) (ready.small fits.small)
      ⟨_, rfl, rfl, pushed⟩ ⟨_, rfl, rfl, pushed⟩)
  · intro σ' s' entry place behind pos
    exact .pure ⟨_, rfl, pos, holds.part behind (by omega) lt⟩

theorem Embeds.postfixes (ih : operator.Embeds) (acc below arity : Nat) :
    operator.Adds (fun _ x => x) acc below arity (fun op _ => Scene.anotherPostfix op)
      (fun _ exit => do
        let back ← Emit.checkpoint
        Emit.within operator operator.emit
        Emit.retreatOnFailure back exit
        Emit.emit (.makePostfix acc)
        Emit.emit (.store acc .result)
        Emit.emit (.branch (.posEq back) exit)) := by
  intro top exit d p d' p' w
  have tame := Emit.Tame.within operator operator.emit_tame
  obtain ⟨back, d₁, p₁, w₁, wa⟩ := Emit.writes_bind.1 w
  obtain ⟨rfl, rfl, rfl⟩ := Emit.writes_checkpoint.1 w₁
  obtain ⟨_, d₂, p₂, w₂, wb⟩ := Emit.writes_bind.1 wa
  obtain ⟨_, d₃, p₃, w₃, w₄⟩ := Emit.writes_bind.1 wb
  obtain ⟨retreat, rfl⟩ := Site.writes_retreat w₃
  rw [Emit.writes_emit_bind, Emit.writes_emit_emit] at w₄
  obtain ⟨rfl, rfl⟩ := w₄
  have realizes := ih _ _ _ _ w₂
  refine ⟨realizes.closes, fun site scene env operand id low topAt exitAt start σ s x code
    pools fits _ htop hexit le lt ready holds => ?_⟩
  have retreating := code.add.add.add.add
  dsimp only
  rw [Scene.anotherPostfix]
  refine Site.follow_tried (realizes.performs site scene env (retreating.back retreat) pools fits)
    (tame.draft w₂) w₃ retreating hexit fits.small ready ?_ ?_
  · intro σ' s' behind kept _
    have holds' := holds.part behind (by omega) lt
    have made := holds'.made le fun id => .node id .postfixOp [x, σ'.result] none
    exact Site.follow_makePostfix code.add.add.add holds'.held (Site.follow_store code.add.add rfl
      (Site.follow_again code htop hexit ((getElem?_set_ne (Nat.ne_of_lt lt) _).trans kept)
        (ready.small fits.small) ⟨_, rfl, rfl, made⟩ ⟨_, rfl, rfl, made⟩))
  · intro σ' s' entry place behind pos
    exact .pure ⟨_, rfl, pos, holds.part behind (by omega) lt⟩

theorem Embeds.infixes (ih : operator.Embeds) (once : Bool) (acc below arity : Nat) :
    operator.Adds (fun _ x => x) acc below arity (Scene.anotherInfix once) (fun _ exit => do
      let (back, op) ← Emit.operatorStep (Emit.within operator operator.emit) below arity exit
      Emit.emit (.makeInfix acc op)
      Emit.emit (.store acc .result)
      Emit.emit (if once then .jump exit else .branch (.posEq back) exit)) := by
  intro top exit d p d' p' w
  obtain ⟨⟨back, op⟩, d₁, p₁, w₁, w₂⟩ := Emit.writes_bind.1 w
  obtain ⟨rfl, closes, step⟩ := ih.operatorStep w₁
  rw [Emit.writes_emit_bind, Emit.writes_emit_emit] at w₂
  obtain ⟨rfl, rfl⟩ := w₂
  refine ⟨closes, fun site scene env operand id low topAt exitAt start σ s x code
    pools fits operands htop hexit le lt ready holds => ?_⟩
  rw [Scene.anotherInfix]
  refine step site scene env operand code.add.add.add.add pools fits operands σ s _ ready hexit
    _ _ ?_ ?_
  · intro σ' s' o behind kept held
    have holds' := holds.part behind (by omega) lt
    have made := holds'.made le fun id => .node id .infixOp [x, o, σ'.result] none
    refine Site.follow_makeInfix code.add.add.add holds'.held held
      (Site.follow_store code.add.add rfl ?_)
    cases once with
    | true => exact Site.follow_jump code.add hexit (.pure ⟨_, rfl, rfl, made⟩)
    | false =>
        simp only [Bool.false_or, decide_eq_true_eq]
        exact Site.follow_again code htop hexit ((getElem?_set_ne (Nat.ne_of_lt lt) _).trans kept)
          (ready.small fits.small) ⟨_, rfl, rfl, made⟩ ⟨_, rfl, rfl, made⟩
  · intro σ' s' behind pos
    exact .pure ⟨_, rfl, pos, holds.part behind (by omega) lt⟩

theorem Embeds.links (ih : operator.Embeds) (spine below arity : Nat) :
    operator.Adds (fun id (a : List (Value × Value) × Value) => .list id (Scene.chain a.2 a.1))
      spine below arity Scene.anotherLink (fun _ exit => do
      let (back, op) ← Emit.operatorStep (Emit.within operator operator.emit) below arity exit
      Emit.emit (.push spine (.slot op))
      Emit.emit (.push spine .result)
      Emit.emit (.branch (.posEq back) exit)) := by
  intro top exit d p d' p' w
  obtain ⟨⟨back, op⟩, d₁, p₁, w₁, w₂⟩ := Emit.writes_bind.1 w
  obtain ⟨rfl, closes, step⟩ := ih.operatorStep w₁
  rw [Emit.writes_emit_bind, Emit.writes_emit_emit] at w₂
  obtain ⟨rfl, rfl⟩ := w₂
  refine ⟨closes, fun site scene env operand id low topAt exitAt start σ s a code
    pools fits operands htop hexit le lt ready holds => ?_⟩
  obtain ⟨links, last⟩ := a
  rw [Scene.anotherLink]
  refine step site scene env operand code.add.add.add.add pools fits operands σ s _ ready hexit
    _ _ ?_ ?_
  · intro σ' s' o behind kept held
    have holds' := holds.part behind (by omega) lt
    have room := (Array.getElem?_eq_some_iff.1 holds'.held).1
    have first := holds'.update le room (.list id (Scene.chain last links ++ [o]))
    have room' := (Array.getElem?_eq_some_iff.1 first.held).1
    have longer := Scene.chain_append links last o σ'.result
    have second := first.update le room' (.list id (Scene.chain σ'.result (links ++ [(last, o)])))
    refine Site.follow_push code.add.add.add (Site.frame_slot held) holds'.held
      (Site.follow_push code.add.add rfl first.held ?_)
    change site.Follows _ _ ((σ'.set spine _).set spine
      (.list id ((Scene.chain last links ++ [o]) ++ [σ'.result]))) _ _
    rw [longer]
    exact Site.follow_again code htop hexit ((getElem?_set_ne (Nat.ne_of_lt lt) _).trans
      ((getElem?_set_ne (Nat.ne_of_lt lt) _).trans kept)) (ready.small fits.small)
      ⟨_, rfl, rfl, second⟩ ⟨_, rfl, rfl, second⟩
  · intro σ' s' behind pos
    exact .pure ⟨_, rfl, pos, holds.part behind (by omega) lt⟩

/-! ### Levels -/

/-- Whatever code is written for a level realizes its meaning over an operand; its operator is
written at a stage that depends on the one at which the level begins. -/
def Levels (operator : Expr) (inner : Stage → Stage) (below arity : Nat)
    (reading : Scene → (Nat → Reading (Verdict Value)) → (Nat → Reading (Verdict Value)) →
      Nat → Reading (Verdict Value)) (code : Emit Unit) : Prop :=
  ∀ d p d' p', code.Writes d p () d' p' →
    let l := operator.layoutWithin (inner (d.stage p))
    Closes p p' (operator.closures p.rule l) ∧
      ∀ (site : Site) (scene : Scene) (env : Env) (operand : Nat → Reading (Verdict Value)),
        site.function.Hosts d' → site.setting.program.Hosts p' →
        scene.Fits site.setting site.memoize p.ruleFunctions p.rule →
        site.Operand scene.rounds d.scope env below arity operand →
        site.Performs scene.rounds d d' env
          (reading scene (operator.reads scene env l) operand)

/-- An operand, and rounds that put operators around it. -/
theorem Adds.around {below arity : Nat} {part : Part Value} {body : Nat → Nat → Nat → Emit Unit}
    (adds : ∀ acc, operator.Adds (fun _ x => x) acc below arity part (body acc))
    (tame : ∀ acc top exit, (body acc top exit).Tame) :
    operator.Levels (fun s => s.entered.entered) below arity (fun scene op operand pos =>
      Reading.andThen (operand pos) fun v pos => do
        let (acc, stop) ← Reading.repeatFrom (part op operand) scene.rounds (v, pos)
        pure (.success acc stop))
      (Emit.block fun out => do
        Emit.callOperand below arity
        Emit.leaveOnFailure out
        let acc ← Emit.storeResult
        Emit.loop (body acc)
        Emit.succeedWith (.slot acc)) := by
  intro d p d' p' w
  have tames (out : Nat) : Emit.Tame (do
      Emit.callOperand below arity
      Emit.leaveOnFailure out
      let acc ← Emit.storeResult
      Emit.loop (body acc)
      Emit.succeedWith (.slot acc)) :=
    (Emit.Tame.emit _).bind fun _ => (Emit.Tame.leaveOnFailure _).bind fun _ =>
      Emit.Tame.storeResult.bind fun acc => (Emit.Tame.loop (tame acc)).bind fun _ => .succeedWith _
  obtain ⟨d₁, w₁, size, hosts⟩ := Emit.hosts_block tames w
  rw [Emit.callOperand, Emit.writes_emit_bind] at w₁
  obtain ⟨_, d₂, p₂, w₂, wa⟩ := Emit.writes_bind.1 w₁
  obtain ⟨rfl, rfl⟩ := Emit.writes_leaveOnFailure.1 w₂
  obtain ⟨acc, d₃, p₃, w₃, wb⟩ := Emit.writes_bind.1 wa
  obtain ⟨rfl, rfl, rfl⟩ := Emit.writes_storeResult.1 w₃
  obtain ⟨_, d₄, p₄, w₄, w₅⟩ := Emit.writes_bind.1 wb
  obtain ⟨rfl, rfl⟩ := Emit.writes_succeedWith.1 w₅
  obtain ⟨closes, follow⟩ := (adds _).loop (tame _) w₄
  refine ⟨closes, fun site scene env operand code pools fits operands σ s ready => ?_⟩
  obtain ⟨body, exit⟩ := hosts _ code
  rw [← size] at exit
  have looping := body.add.add.back ((Emit.Tame.loop (tame _)).draft w₄)
  refine Site.follow_stored (d := Emit.entered (Draft.addLabel _)) (operands _ rfl looping.add.addSlot.add)
    (Draft.grows_add _ _) (ready.next ready.behind rfl (Nat.le_refl _)) looping exit ?_ ?_
  · intro σ₁ s₁ behind _ kept
    refine .bind ((follow site scene env operand 0 d σ₁ s₁ σ₁.result body.add.add pools fits
      operands rfl (Nat.le_refl _) (Nat.lt_succ_self _)
      (ready.next behind rfl (Nat.le_refl _)) ⟨⟨behind.inside, .refl _ _, behind.agrees⟩, kept⟩).mono
        ?_)
    rintro ⟨x, stop⟩ s₂ _ ⟨σ₂, rfl, rfl, holds⟩
    refine Site.follow_succeedWith body (Site.frame_slot holds.held) ?_
    rw [← size]
    exact .pure (.success rfl ((behind.trans holds.behind).registers rfl rfl rfl
      holds.behind.inside))
  · intro σ₁ s₁ entry behind leaves
    exact ⟨σ₁, rfl, leaves, behind⟩

theorem Embeds.prefixLevel (ih : operator.Embeds) (below arity : Nat) :
    operator.Levels .entered below arity
      (fun scene op operand => scene.levelOf .prefixOp op operand)
      (Emit.prefixLevel (Emit.within operator operator.emit) below arity) := by
  intro d p d' p' w
  have tame := Emit.Tame.within operator operator.emit_tame
  rw [Emit.prefixLevel] at w
  obtain ⟨ops, d₁, p₁, w₁, wa⟩ := Emit.writes_bind.1 w
  obtain ⟨rfl, rfl, rfl⟩ := Emit.writes_slot.1 w₁
  rw [Emit.writes_emit_bind] at wa
  obtain ⟨_, d₂, p₂, w₂, wb⟩ := Emit.writes_bind.1 wa
  rw [Emit.callOperand, Emit.writes_emit_bind] at wb
  obtain ⟨d₃, w₃, size, hosts⟩ := Emit.hosts_ifThen (.emit _) wb
  obtain ⟨rfl, rfl⟩ := Emit.writes_emit.1 w₃
  have tames (_ exit : Nat) : Emit.Tame (do
      let back ← Emit.checkpoint
      Emit.within operator operator.emit
      Emit.retreatOnFailure back exit
      Emit.emit (.push d.slots .result)
      Emit.emit (.branch (.posEq back) exit)) :=
    Emit.Tame.checkpoint.bind fun _ => tame.bind fun _ => (Emit.Tame.retreatOnFailure _ _).bind
      fun _ => (Emit.Tame.emit _).bind fun _ => .emit _
  have grown := (Emit.Tame.loop tames).draft w₂
  obtain ⟨closes, follow⟩ := (ih.prefixes d.slots below arity).loop tames w₂
  refine ⟨closes, fun site scene env operand code pools fits operands σ s ready => ?_⟩
  obtain ⟨folding, branch, skipped⟩ := hosts _ code
  have calling := branch.add.addLabel
  have looping := calling.add
  have start := looping.back grown
  dsimp only
  rw [Scene.levelOf, Reading.fresh_bind]
  obtain ⟨begun, held⟩ := ready.newList start.add.slots
  refine Site.follow_newList (d := d.addSlot) start (.bind ((follow site scene env operand
    s.identity d _ _ [] looping pools fits operands rfl (Nat.le_refl _) (Nat.lt_succ_self _)
    (ready.next begun rfl (Nat.le_refl _)) ⟨⟨ready.inside, .refl _ _, begun.agrees⟩, held⟩).mono ?_))
  rintro ⟨items, stop⟩ s₂ _ ⟨σ₂, rfl, rfl, holds⟩
  have behind₂ := begun.trans holds.behind
  refine Site.follow_part (operands d₂ grown.scope calling)
    (ready.next behind₂ grown.scope (Nat.le_of_succ_le grown.slots)) ?_ ?_
  · intro σ₃ s₃ behind₃ status
    have holds₃ := holds.part behind₃ (Nat.le_of_succ_le grown.slots) grown.slots
    have behind := behind₂.trans (behind₃.mono (Nat.le_of_succ_le grown.slots))
    obtain ⟨x, n', folded, meant⟩ := foldPrefixes_eq σ₃.result items σ₃.identity
    rw [behind₃.agrees.identity] at meant
    dsimp only
    rw [Reading.host_bind meant]
    refine Site.follow_stay (d := Draft.addLabel _) branch status
      (Site.follow_foldPrefix (d := Emit.entered _) folding holds₃.held folded ?_)
    rw [← size]
    exact .pure ⟨_, rfl, ⟨by rw [Moment.outcome, status], behind.inside⟩, behind.inside,
      behind.keeps, rfl, behind.agrees.memo⟩
  · intro σ₃ s₃ mark entry behind₃ status result known
    have behind := behind₂.trans (behind₃.mono (Nat.le_of_succ_le grown.slots))
    refine Site.follow_leave (d := Draft.addLabel _) branch skipped status ?_
    rw [← size]
    exact .pure (.failure status result known behind)

theorem Embeds.rightLevel (ih : operator.Embeds) (below arity : Nat) :
    operator.Levels (fun s => s.entered.entered) below arity
      (fun scene op operand => scene.levelOf .rightAssoc op operand)
      (Emit.rightLevel (Emit.within operator operator.emit) below arity) := by
  intro d p d' p' w
  rw [Emit.rightLevel] at w
  have tame := Emit.Tame.within operator operator.emit_tame
  have tames (spine top exit : Nat) : Emit.Tame (do
      let (back, op) ← Emit.operatorStep (Emit.within operator operator.emit) below arity exit
      Emit.emit (.push spine (.slot op))
      Emit.emit (.push spine .result)
      Emit.emit (.branch (.posEq back) exit)) :=
    (Emit.Tame.operatorStep tame _ _ _).bind fun _ => (Emit.Tame.emit _).bind fun _ =>
      (Emit.Tame.emit _).bind fun _ => .emit _
  obtain ⟨d₁, w₁, size, hosts⟩ := Emit.hosts_block (fun out =>
    Emit.Tame.slot.bind fun spine => (Emit.Tame.emit _).bind fun _ => (Emit.Tame.emit _).bind
      fun _ => (Emit.Tame.leaveOnFailure out).bind fun _ => (Emit.Tame.emit _).bind fun _ =>
        (Emit.Tame.loop (tames spine)).bind fun _ => (Emit.Tame.emit _).bind fun _ => .emit _) w
  obtain ⟨spine, d₂, p₂, w₂, wa⟩ := Emit.writes_bind.1 w₁
  obtain ⟨rfl, rfl, rfl⟩ := Emit.writes_slot.1 w₂
  simp only [Emit.leaveOnFailure, Emit.writes_emit_bind] at wa
  obtain ⟨_, d₃, p₃, w₃, w₄⟩ := Emit.writes_bind.1 wa
  obtain ⟨rfl, rfl⟩ := Emit.writes_emit_emit.1 w₄
  obtain ⟨closes, follow⟩ := (ih.links d.slots below arity).loop (tames _) w₃
  refine ⟨closes, fun site scene env operand code pools fits operands σ s ready => ?_⟩
  obtain ⟨body, exit⟩ := hosts _ code
  rw [← size] at exit
  have pushing := body.add.add.back ((Emit.Tame.loop (tames _)).draft w₃)
  have leaving := pushing.add
  have start := leaving.add.add
  dsimp only
  rw [Scene.levelOf, Reading.fresh_bind]
  obtain ⟨begun, held⟩ := ready.newList start.add.slots
  refine Site.follow_newList (d := Draft.addSlot (Emit.entered (Draft.addLabel _))) start
    (Site.follow_andThen (operands _ rfl leaving.add) (ready.next begun rfl (Nat.le_succ _)) leaving
      exit ?_ ?_)
  · intro σ₁ s₁ behind₁ status
    have behind := begun.trans (behind₁.mono (Nat.le_succ d.slots))
    have list := behind₁.kept (Nat.lt_succ_self d.slots) held
    have pushed := behind.set (Nat.le_refl d.slots) (.list s.identity [σ₁.result])
    refine Site.follow_push pushing rfl list (.bind ((follow site scene env operand s.identity d _
      s₁ ([], σ₁.result) body.add.add pools fits operands rfl (Nat.le_refl _) (Nat.lt_succ_self _)
      (ready.next pushed rfl (Nat.le_refl _)) ⟨⟨pushed.inside, .refl _ _, pushed.agrees⟩,
        getElem?_set_self (Array.getElem?_eq_some_iff.1 list).1 _⟩).mono ?_))
    rintro ⟨⟨links, last⟩, stop⟩ s₂ _ ⟨σ₂, rfl, rfl, holds⟩
    have behind₂ := pushed.trans holds.behind
    obtain ⟨x, n', folded, meant⟩ := foldSpine_eq last links σ₂.identity
    rw [behind₂.agrees.identity] at meant
    dsimp only
    rw [Reading.host_bind meant]
    refine Site.follow_foldRight body.add holds.held folded (Site.follow_setStatus body ?_)
    rw [← size]
    exact .pure ⟨_, rfl, ⟨rfl, behind₂.inside⟩, behind₂.inside, behind₂.keeps, rfl,
      behind₂.agrees.memo⟩
  · intro σ₁ s₁ entry behind₁ leaves
    exact ⟨σ₁, rfl, leaves, begun.trans (behind₁.mono (Nat.le_succ d.slots))⟩

/-- The body of a level. -/
theorem Embeds.level (ih : operator.Embeds) (fixity : Fixity) (below arity : Nat) :
    operator.Levels fixity.operatorStage below arity
      (fun scene op operand => scene.levelOf fixity op operand)
      (Emit.level fixity (Emit.within operator operator.emit) below arity) := by
  have tame := Emit.Tame.within operator operator.emit_tame
  cases fixity with
  | prefixOp => exact ih.prefixLevel below arity
  | rightAssoc => exact ih.rightLevel below arity
  | postfixOp =>
      exact Adds.around (fun acc => ih.postfixes acc below arity) fun _ _ _ =>
        Emit.Tame.checkpoint.bind fun _ => tame.bind fun _ =>
          (Emit.Tame.retreatOnFailure _ _).bind fun _ => (Emit.Tame.emit _).bind fun _ =>
            (Emit.Tame.emit _).bind fun _ => .emit _
  | leftAssoc =>
      exact Adds.around (fun acc => ih.infixes false acc below arity) fun _ _ _ =>
        (Emit.Tame.operatorStep tame _ _ _).bind fun _ => (Emit.Tame.emit _).bind fun _ =>
          (Emit.Tame.emit _).bind fun _ => .emit _
  | nonAssoc =>
      exact Adds.around (fun acc => ih.infixes true acc below arity) fun _ _ _ =>
        (Emit.Tame.operatorStep tame _ _ _).bind fun _ => (Emit.Tame.emit _).bind fun _ =>
          (Emit.Tame.emit _).bind fun _ => .emit _

end Expr

/-! ### Functions of levels -/

/-- A function of a program that performs a reading where it is called with the values of names. -/
def Program.Performs (program : Program) (rules : List (String × Nat)) (rule : String)
    (params : List String) (k : Nat) (r : Scene → Env → Nat → Reading (Verdict Value)) : Prop :=
  ∃ f draft name budget, program.functions[k]? = some f ∧ draft.function = .ok f ∧
    (Draft.begin name params budget).Grows draft ∧
    ∀ (site : Site) (scene : Scene) (env : Env), site.setting.program = program →
      site.function = f → scene.Fits site.setting site.memoize rules rule →
      site.Performs scene.rounds (Draft.begin name params budget) draft env (r scene env)

/-- The reading of a function that takes the values of names. -/
abbrev Scene.own (scene : Scene) (params : List String) (k : Nat)
    (r : Nat → Reading (Verdict Value)) (pos : Nat) : Reading (Verdict Value) :=
  Reading.remembered (params.isEmpty && scene.memoize) k pos (r pos)

theorem Program.Performs.operand {site : Site} {scene : Scene} {rules : List (String × Nat)}
    {rule name : String} {params : List String} {k budget : Nat}
    {r : Scene → Env → Nat → Reading (Verdict Value)} {env : Env}
    (h : site.setting.program.Performs rules rule params k r) (nodup : params.Nodup)
    (fits : scene.Fits site.setting site.memoize rules rule) :
    site.Operand scene.rounds (Draft.begin name params budget).scope env k params.length
      (scene.own params k (r scene env)) := by
  obtain ⟨f, draft, name', budget', known, done, grown, performs⟩ := h
  intro d scope code σ s ready
  obtain ⟨xs, hxs, slots, len⟩ := ready.values
    (show params.mapM (fun n => d.scope.lookup n) = some (List.range params.length) by
      rw [scope]; exact Draft.lookups_begin nodup)
  exact Site.follow_own _ known done grown
    (fun site' hs hm hf => performs site' scene env (by rw [hs]) hf (by rw [hs, hm]; exact fits))
    hxs len slots fits ready code

theorem Expr.follow_levels {levels : List (Fixity × Expr)}
    (ih : ∀ level ∈ levels, level.2.Embeds) {id below index k : Nat} {params : List String}
    {p p' : Pools} (nodup : params.Nodup)
    (w : (emitLevels id params below index levels).Adds p k p') (d : Draft) :
    let ls := layoutLevels levels (d.stage p)
    Closes p p' (closuresLevels p.rule levels ls) ∧
      ∀ (program : Program) (r : Scene → Env → Nat → Reading (Verdict Value)),
        program.Hosts p' → program.Performs p.ruleFunctions p.rule params below r →
        ∃ r', program.Performs p.ruleFunctions p.rule params k r' ∧
          ∀ (scene : Scene) (env : Env) (pos : Nat), scene.own params k (r' scene env) pos =
            meaningLevels scene levels params env ls (scene.own params below (r scene env)) pos := by
  induction levels generalizing below index p k with
  | nil =>
      obtain ⟨rfl, rfl⟩ := Build.adds_pure.1 w
      exact ⟨.nil (.refl _), fun program r _ h => ⟨r, h, fun _ _ _ => rfl⟩⟩
  | cons level levels ih' =>
      obtain ⟨fixity, operator⟩ := level
      rw [emitLevels] at w
      obtain ⟨f, p₁, w₁, w₂⟩ := Build.adds_bind.1 w
      have tame := Emit.Tame.level fixity (.within operator operator.emit_tame) below params.length
      obtain ⟨rfl, draft, p₂, function, w₃, done, size, hosts⟩ := Emit.hosts_defineNew tame w₁
      obtain ⟨closes, performs⟩ :=
        (ih _ (List.mem_cons_self ..)).level fixity below params.length _ _ _ _ w₃
      have grown := (Emit.tame_defineNew _ _ tame).pools w₁
      have rest := emitLevels_tame id params p.functions.size (index + 1) levels
      obtain ⟨closes', follow⟩ :=
        ih' (fun level hl => ih level (List.mem_cons_of_mem _ hl)) w₂
      rw [grown.rule] at closes'
      rw [grown.rules, grown.rule] at follow
      rw [Draft.stage_begin d] at closes performs
      have moved := (Build.Moves.defineNew (.level (.within operator operator.emit_moves) below
        params.length fixity) _ _).stage w₁ d
      rw [moved] at closes' follow
      refine ⟨?_, fun program r pools below => ?_⟩
      · exact (closes.outside size fun program h => (hosts program h).1).append closes' grown
          (rest.pools w₂)
      · obtain ⟨within, known⟩ := hosts program (pools.back (rest.pools w₂))
        refine follow program (fun scene env => scene.levelOf fixity
          (operator.reads scene env (operator.layoutWithin (fixity.operatorStage (d.stage p).opened)))
          (scene.own params _ (r scene env))) pools ⟨function, draft, _, _, known, done,
            tame.draft w₃, fun site scene env hp hf fits => ?_⟩
        subst hp
        exact performs site scene env _ (by rw [hf]; exact (Draft.function_eq_ok done).1) within fits
          (below.operand nodup fits)

theorem Expr.compiles_operators {atom : Expr} {levels : List (Fixity × Expr)} (iha : atom.Embeds)
    (ih : ∀ level ∈ levels, level.2.Embeds) (tag : Tag) :
    (Expr.operators tag atom levels).Compiles := by
  intro d p d' p' w own
  rw [Expr.emit] at w
  have nodup : (Expr.operators tag atom levels).freeLocals.Nodup := Text.nodup_sortNames _
  have tame := Emit.Tame.within atom atom.emit_tame
  obtain ⟨vs, d₁, p₁, w₁, wa⟩ := Emit.writes_bind.1 w
  obtain ⟨hv, rfl, rfl⟩ := Emit.writes_lookupAll.1 w₁
  obtain ⟨f, d₂, p₂, w₂, wb⟩ := Emit.writes_bind.1 wa
  obtain ⟨w₃, rfl⟩ := Emit.writes_lift.1 w₂
  obtain ⟨k, d₃, p₃, w₄, w₅⟩ := Emit.writes_bind.1 wb
  obtain ⟨w₆, rfl⟩ := Emit.writes_lift.1 w₄
  obtain ⟨rfl, rfl⟩ := Emit.writes_emit.1 w₅
  obtain ⟨rfl, draft, p₄, function, w₇, done, size, hosts⟩ := Emit.hosts_defineNew tame w₃
  have realizes := iha _ _ _ _ w₇
  rw [Draft.stage_begin d₃] at realizes
  have moved := (Build.Moves.defineNew atom.within_moves _ _).stage w₃ d₃
  obtain ⟨closes, follow⟩ := Expr.follow_levels ih nodup w₆ d₃
  rw [moved] at closes follow
  have grown := (Emit.tame_defineNew _ _ tame).pools w₃
  have rest := emitLevels_tame tag.id (Expr.operators tag atom levels).freeLocals
    p₁.functions.size 0 levels
  rw [grown.rule] at closes
  rw [grown.rules, grown.rule] at follow
  rw [Expr.layout]
  refine ⟨fun site scene env code pools fits σ s ready => ?_, ?_⟩
  · obtain ⟨within, known⟩ := hosts _ (pools.back (rest.pools w₆))
    obtain ⟨r, ⟨f, draft', name, budget, known', done', grown', performs⟩, same⟩ :=
      follow site.setting.program
        (fun scene env => atom.reads scene env (atom.layoutWithin (d₃.stage p₁).opened)) pools
        ⟨function, draft, _, _, known, done, tame.draft w₇, fun site' scene env hp hf fits =>
          realizes.performs site' scene env (by rw [hf]; exact (Draft.function_eq_ok done).1)
            (by rw [hp]; exact within) fits⟩
    obtain ⟨xs, hxs, slots, len⟩ := ready.values hv
    have called := Site.follow_own d₃.slots known' done' grown'
      (fun site' hs hm hf => performs site' scene env (by rw [hs]) hf (by rw [hs, hm]; exact fits))
      hxs len slots fits ready code
    rw [show Reading.remembered _ k σ.pos (r scene env σ.pos) = _ from same scene env σ.pos]
      at called
    rw [Expr.meaning]
    exact called
  · exact (realizes.closes.outside size fun program h => (hosts program h).1).append closes grown
      (rest.pools w₆)

end Packrat
