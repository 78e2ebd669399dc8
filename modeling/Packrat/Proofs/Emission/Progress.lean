import Packrat.Parser.Load
import Packrat.Proofs.Analysis.Resolution
import Packrat.Proofs.Emission.Soundness

/-
**Compilation goes through.**

The passes of analysis and the writers of code agree about scopes: where an expression is written,
the names that it reads are in scope, and so they are where it gets a function of its own, whose
parameters are just these names.  So nothing but a pattern of its own that has no automaton stops a
writer of an analyzed grammar, and what it writes refers to what there is.

Main definitions:

* `Packrat.Ready` — drafts and pools in which something can be written that reads some names;
* `Packrat.Emit.Writable` — code that can be written wherever they are ready.

Main results:

* `Packrat.Expr.mem_readLocals` — what an expression reads from a scope in which some names are bound
  already;
* `Packrat.Expr.emit_writable` — **the code of a settled expression is written wherever the names that
  it reads are in scope**.
-/

set_option autoImplicit false

namespace Packrat

variable [Regex.Engine]

attribute [grind =] Operand.slots Limit.slots Condition.slots Instr.slots Instr.labels
  Operand.Refers Instr.Refers

attribute [grind] Instr.Sound

namespace Emit

variable {stops : Failure → Prop} {rules : Signatures} {d : Draft} {p : Pools}

/-! ### Small parts -/

namespace Yields

theorem storeResult : Yields stops rules storeResult d p fun v d' _ => v < d'.slots :=
  bind slot fun v _ _ _ hv => bind (emit fun _ _ => by grind) fun _ _ _ step _ => pure (by grind)

theorem checkpoint : Yields stops rules checkpoint d p fun v d' _ => v < d'.slots :=
  bind slot fun v _ _ _ hv => bind (emit fun _ _ => by grind) fun _ _ _ step _ => pure (by grind)

theorem succeedWith {value : Operand} (reads : ∀ v ∈ value.slots, v < d.slots)
    (refers : p.Vows rules fun program => value.Refers program) :
    Passes stops rules (succeedWith value) d p :=
  bind (emit fun program fits => by have := refers program fits; grind)
    fun _ _ _ _ _ => emit fun _ _ => by grind

theorem leaveOnFailure {exit : Nat} (h : exit < d.labels.size) :
    Passes stops rules (leaveOnFailure exit) d p := emit fun _ _ => by grind

theorem retreatOnFailure {back exit : Nat} (hb : back < d.slots) (he : exit < d.labels.size) :
    Passes stops rules (retreatOnFailure back exit) d p :=
  ifThen (by grind) fun _ _ grown _ =>
    bind (emit fun _ _ => by grind) fun _ _ _ step _ => emit fun _ _ => by grind

/-! ### Names -/

theorem lookup {name : String} (h : ∃ v < d.slots, d.scope.lookup name = some v) :
    Yields stops rules (lookup name) d p fun v d' _ => v < d'.slots := by
  obtain ⟨v, hv, found⟩ := h
  refine of_writes (writes_lookup.2 ⟨found, rfl, rfl⟩) (.refl d p) hv

theorem lookupAll {names : List String} (h : ∀ n ∈ names, ∃ v < d.slots, d.scope.lookup n = some v) :
    Yields stops rules (lookupAll names) d p
      fun vs d' _ => vs.length = names.length ∧ ∀ v ∈ vs, v < d'.slots := by
  induction names generalizing d p with
  | nil => exact pure (by simp)
  | cons n names ih =>
      refine bind (lookup (h n (by simp))) fun v d₁ p₁ s₁ hv => ?_
      refine bind (ih fun m mem => ?_) fun vs d₂ p₂ s₂ hvs => pure ?_
      · obtain ⟨v, hv, found⟩ := h m (by simp [mem])
        exact ⟨v, by grind, s₁.draft.scope ▸ found⟩
      · grind

theorem snippet {s : Snippet} (h : ∀ n ∈ s.locals, ∃ v < d.slots, d.scope.lookup n = some v) :
    Passes stops rules (snippet s) d p :=
  bind (lookupAll h) fun vs d₁ p₁ s₁ hvs => bind (lift (.host s)) fun n d₂ p₂ s₂ hn =>
    emit fun program fits => by
      have := hn program fits
      grind

/-! ### Repetitions -/

variable {item separator inner left right : Emit Unit}

theorem attempt {staging err errPos exit : Nat} (h : Sure stops rules item d p)
    (hs : staging < d.slots) (he : err < d.slots) (hp : errPos < d.slots) (hx : exit < d.labels.size) :
    Passes stops rules (attempt item staging err errPos exit) d p :=
  bind checkpoint fun back d₁ p₁ s₁ hb => bind (h.step s₁).here fun _ d₂ p₂ s₂ _ =>
    bind (ifThen (by grind) fun _ _ grown _ => bind (emit fun _ _ => by grind) fun _ d₃ p₃ s₃ _ =>
      bind (emit fun _ _ => by grind) fun _ d₄ p₄ s₄ _ =>
      bind (emit fun _ _ => by grind) fun _ d₅ p₅ s₅ _ => emit fun _ _ => by grind)
    fun _ d₆ p₆ s₆ _ => bind (emit fun _ _ => by grind) fun _ d₇ p₇ s₇ _ => emit fun _ _ => by grind

theorem repetition {staging err errPos : Nat} {most? : Option Limit} (h : Sure stops rules item d p)
    (hs : staging < d.slots) (he : err < d.slots) (hp : errPos < d.slots)
    (hm : ∀ most, most? = some most → ∀ v ∈ most.slots, v < d.slots) :
    Passes stops rules (repetition item staging err errPos most?) d p := by
  refine loop fun {d₁ top exit} grown ht hx => ?_
  have round {d₂ p₂} (more : d₁.Grows d₂) (pools : p.Grows p₂) :
      Passes stops rules (Emit.attempt item staging err errPos exit) d₂ p₂ :=
    attempt (h.grows (grown.trans more) pools) (by grind) (by grind) (by grind) (by grind)
  cases most? with
  | none => exact round (.refl _) (.refl _)
  | some most =>
      have := hm most rfl
      exact bind (emit fun _ _ => by grind) fun _ _ _ s _ => round s.draft s.pools.grows

theorem enough {staging err errPos : Nat} {least? : Option Limit} (hs : staging < d.slots)
    (he : err < d.slots) (hp : errPos < d.slots)
    (hl : ∀ least, least? = some least → ∀ v ∈ least.slots, v < d.slots) :
    Passes stops rules (enough staging err errPos least?) d p := by
  have succeeds {d' p'} (grown : d.Grows d') :
      Passes stops rules (Emit.succeedWith (.slot staging)) d' p' :=
    succeedWith (by grind) fun _ _ => trivial
  cases least? with
  | none => exact succeeds (.refl d)
  | some least =>
      have := hl least rfl
      exact ifElse (by grind) (fun _ _ grown _ => bind (emit fun _ _ => by grind) fun _ _ _ s₁ _ =>
        bind (emit fun _ _ => by grind) fun _ _ _ s₂ _ => emit fun _ _ => by grind)
        fun _ _ grown _ => succeeds grown

theorem limit? {bound? : Option Bound}
    (h : ∀ n ∈ Expr.boundLocals [] bound?, ∃ v < d.slots, d.scope.lookup n = some v) :
    Yields stops rules (limit? bound?) d p
      fun limit? d' _ => ∀ limit, limit? = some limit → ∀ v ∈ limit.slots, v < d'.slots :=
  match bound?, h with
  | none, _ => pure (by simp)
  | some (.const _), _ => pure (by grind)
  | some (.host s), h => bind (snippet (by simpa [Expr.boundLocals, Expr.snippetLocals] using h))
      fun _ _ _ s₁ _ => bind storeResult fun _ _ _ s₂ hv => pure (by grind)

theorem listOf {text : String} {least most : Option Bound} (h : Sure stops rules item d p)
    (hl : ∀ n ∈ Expr.boundLocals [] least, ∃ v < d.slots, d.scope.lookup n = some v)
    (hm : ∀ n ∈ Expr.boundLocals [] most, ∃ v < d.slots, d.scope.lookup n = some v) :
    Passes stops rules (listOf text item least most) d p := by
  have binds {names : List String} (h : ∀ n ∈ names, ∃ v < d.slots, d.scope.lookup n = some v)
      {d' : Draft} (grown : d.Grows d') :
      ∀ n ∈ names, ∃ v < d'.slots, d'.scope.lookup n = some v := fun n mem =>
    (h n mem).imp fun v h => ⟨by grind, grown.scope ▸ h.2⟩
  refine bind slot fun staging d₁ p₁ s₁ hs => bind (emit fun _ _ => by grind) fun _ d₂ p₂ s₂ _ =>
    bind (lift (.failure _ _)) fun n d₃ p₃ s₃ hn => bind slot fun err d₄ p₄ s₄ he =>
    bind (emit fun program fits => ?_) fun _ d₅ p₅ s₅ _ => bind checkpoint fun errPos d₆ p₆ s₆ hp =>
    ?_
  · have := hn program (fits.back s₄.pools.grows)
    grind
  have upTo := ((((s₁.trans s₂).trans s₃).trans s₄).trans s₅).trans s₆
  refine bind (limit? (binds hl upTo.draft)) fun least? d₇ p₇ s₇ hl' =>
    bind (limit? (binds hm (upTo.trans s₇).draft)) fun most? d₈ p₈ s₈ hm' =>
    bind (repetition (h.step ((upTo.trans s₇).trans s₈)) (by grind) (by grind) (by grind) hm')
      fun _ d₉ p₉ s₉ _ => enough (by grind) (by grind) (by grind) (by grind)

/-! ### Lists with separators -/

theorem emitIf {b : Bool} {i : Instr}
    (h : p.Vows rules fun program => i.Sound program d.slots d.labels.size) :
    Passes stops rules (emitIf b i) d p := by
  cases b with
  | false => exact pure trivial
  | true => exact emit h

theorem attemptPair {flags : SepFlags} {staging exit : Nat} (h : Sure stops rules item d p)
    (h' : Sure stops rules separator d p) (hs : staging < d.slots) (hx : exit < d.labels.size) :
    Passes stops rules (attemptPair item separator flags staging exit) d p :=
  bind checkpoint fun back d₁ p₁ s₁ hb => bind (h'.step s₁).here fun _ d₂ p₂ s₂ _ =>
    bind (retreatOnFailure (by grind) (by grind)) fun _ d₃ p₃ s₃ _ =>
    bind (emitIf fun _ _ => by grind) fun _ d₄ p₄ s₄ _ =>
    bind (emitIf fun _ _ => by grind) fun _ d₅ p₅ s₅ _ =>
    bind (h.step ((((s₁.trans s₂).trans s₃).trans s₄).trans s₅)).here fun _ d₆ p₆ s₆ _ =>
    bind (ifThen (by grind) fun _ _ grown _ => bind (emitIf fun _ _ => by grind) fun _ d₇ p₇ s₇ _ =>
      bind (emit fun _ _ => by grind) fun _ d₈ p₈ s₈ _ => emit fun _ _ => by grind)
    fun _ d₉ p₉ s₉ _ => bind (emit fun _ _ => by grind) fun _ d₁₀ p₁₀ s₁₀ _ => emit fun _ _ => by grind

theorem separated {flags : SepFlags} {staging : Nat} (h : Sure stops rules item d p)
    (h' : Sure stops rules separator d p) (hs : staging < d.slots) :
    Passes stops rules (separated item separator flags staging) d p := by
  rw [separated_eq]
  exact loop fun grown _ hx => attemptPair (h.grows grown (.refl p)) (h'.grows grown (.refl p))
    (by grind) hx

theorem noItems {allowEmpty : Bool} {start out : Nat} (hs : start < d.slots)
    (ho : out < d.labels.size) : Passes stops rules (noItems allowEmpty start out) d p := by
  cases allowEmpty with
  | false => exact emit fun _ _ => by grind
  | true =>
      refine bind (emit fun _ _ => by grind) fun _ d₁ p₁ s₁ _ =>
        bind (lift .emptyList) fun empty d₂ p₂ s₂ he => bind (succeedWith ?_ ?_) fun _ d₃ p₃ s₃ _ =>
        emit fun _ _ => by grind
      · simp [Operand.slots]
      · obtain ⟨id, rfl⟩ := he
        exact fun _ _ => trivial

theorem sepOf {flags : SepFlags} (h : Sure stops rules item d p)
    (h' : Sure stops rules separator d p) :
    Passes stops rules (sepOf item separator flags) d p := by
  refine bind slot fun staging d₁ p₁ s₁ hs => bind (emit fun _ _ => by grind) fun _ d₂ p₂ s₂ _ =>
    block fun {d₃ out} grown ho => bind checkpoint fun start d₄ p₄ s₄ hb => ?_
  have upTo : d.Grows d₄ := ((s₁.trans s₂).draft.trans grown).trans s₄.draft
  have pools : p.Grows p₄ := ((s₁.trans s₂).pools.trans s₄.pools).grows
  refine bind (h.grows upTo pools).here fun _ d₅ p₅ s₅ _ =>
    bind (ifThen (by grind) fun _ _ grown' _ => noItems (by grind) (by grind)) fun _ d₆ p₆ s₆ _ =>
    bind (emit fun _ _ => by grind) fun _ d₇ p₇ s₇ _ => ?_
  have rest := (s₅.trans s₆).trans s₇
  exact bind (separated ((h.grows upTo pools).step rest) ((h'.grows upTo pools).step rest) (by grind))
    fun _ d₈ p₈ s₈ _ => succeedWith (by grind) fun _ _ => trivial

/-! ### Two parts, and parts that are only tried -/

theorem both {exit : Nat} (h : Sure stops rules left d p) (h' : Sure stops rules right d p)
    (hx : exit < d.labels.size) :
    Yields stops rules (both left right exit) d p
      fun ab d' _ => ab.1 < d'.slots ∧ ab.2 < d'.slots :=
  bind h.here fun _ d₁ p₁ s₁ _ => bind (leaveOnFailure (by grind)) fun _ d₂ p₂ s₂ _ =>
    bind storeResult fun a d₃ p₃ s₃ ha => bind (h'.step ((s₁.trans s₂).trans s₃)).here
    fun _ d₄ p₄ s₄ _ => bind (leaveOnFailure (by grind)) fun _ d₅ p₅ s₅ _ =>
    bind storeResult fun b d₆ p₆ s₆ hb => pure (by grind)

theorem keepOne {discardLeft : Bool} (h : Sure stops rules left d p)
    (h' : Sure stops rules right d p) :
    Passes stops rules (keepOne left right discardLeft) d p := by
  refine block fun {d₁ exit} grown hx => bind (h.grows grown (.refl p)).here fun _ d₂ p₂ s₂ _ =>
    bind (leaveOnFailure (by grind)) fun _ d₃ p₃ s₃ _ => ?_
  have right := (h'.grows grown (.refl p)).step (s₂.trans s₃)
  split
  · exact right.here
  · exact bind storeResult fun kept d₄ p₄ s₄ hk => bind (right.step s₄).here fun _ d₅ p₅ s₅ _ =>
      bind (leaveOnFailure (by grind)) fun _ d₆ p₆ s₆ _ => emit fun _ _ => by grind

theorem optional (h : Sure stops rules inner d p) : Passes stops rules (optional inner) d p :=
  bind checkpoint fun back d₁ p₁ s₁ hb =>
    bind (block fun grown _ => ((h.step s₁).grows grown (.refl _)).here) fun _ d₂ p₂ s₂ _ =>
    ifThen (by grind) fun _ _ grown _ => bind (emit fun _ _ => by grind) fun _ d₃ p₃ s₃ _ =>
    succeedWith (by simp [Operand.slots]) fun _ _ => trivial

theorem peek (h : Sure stops rules inner d p) : Passes stops rules (peek inner) d p :=
  bind checkpoint fun back d₁ p₁ s₁ hb =>
    bind (block fun grown _ => ((h.step s₁).grows grown (.refl _)).here) fun _ d₂ p₂ s₂ _ =>
    emit fun _ _ => by grind

theorem never {text innerText : String} (h : Sure stops rules inner d p) :
    Passes stops rules (never text innerText inner) d p :=
  bind (peek h) fun _ d₁ p₁ s₁ _ => bind (lift (.failure _ _)) fun n d₂ p₂ s₂ hn =>
    ifElse (by simp [Condition.slots])
      (fun _ _ _ pools => emit fun program fits => by
        have := hn program (fits.back pools)
        grind)
      fun _ _ _ _ => succeedWith (by simp [Operand.slots]) fun _ _ => trivial

theorem keepFarthest {isFail : Bool} {farPos farErr : Nat} (hp : farPos < d.slots)
    (he : farErr < d.slots) : Passes stops rules (keepFarthest isFail farPos farErr) d p :=
  ifThen (by grind) fun _ _ grown _ => bind (emit fun _ _ => by grind) fun _ _ _ s _ =>
    emit fun _ _ => by grind

theorem skipPart {top : Nat} (h : Sure stops rules inner d p) (ht : top < d.labels.size) :
    Passes stops rules (skipPart top inner) d p :=
  bind checkpoint fun back d₁ p₁ s₁ hb => bind (h.step s₁).here fun _ d₂ p₂ s₂ _ =>
    ifElse (by simp [Condition.slots]) (fun _ _ grown _ => emit fun _ _ => by grind)
      fun _ _ grown _ => emit fun _ _ => by grind

/-! ### Operators -/

variable {below arity : Nat}

theorem callOperand (takes : p.Vows rules fun program => program.Takes below arity)
    (room : arity ≤ d.slots) : Passes stops rules (callOperand below arity) d p :=
  emit fun program fits => ⟨fun v mem => by
    have := List.mem_range.1 (show v ∈ List.range arity from mem)
    omega, by simp [Instr.labels], by simpa [Instr.Refers] using takes program fits⟩

theorem operatorStep {exit : Nat} (h : Sure stops rules inner d p)
    (takes : p.Vows rules fun program => program.Takes below arity) (room : arity ≤ d.slots)
    (hx : exit < d.labels.size) :
    Yields stops rules (operatorStep inner below arity exit) d p
      fun r d' _ => r.1 < d'.slots ∧ r.2 < d'.slots :=
  bind checkpoint fun back d₁ p₁ s₁ hb => bind (h.step s₁).here fun _ d₂ p₂ s₂ _ =>
    bind (retreatOnFailure (by grind) (by grind)) fun _ d₃ p₃ s₃ _ =>
    bind storeResult fun op d₄ p₄ s₄ ho =>
    bind (callOperand (takes.grows (((s₁.trans s₂).trans s₃).trans s₄).pools.grows) (by grind))
      fun _ d₅ p₅ s₅ _ => bind (retreatOnFailure (by grind) (by grind)) fun _ d₆ p₆ s₆ _ =>
    pure (by grind)

theorem prefixLevel (h : Sure stops rules inner d p)
    (takes : p.Vows rules fun program => program.Takes below arity) (room : arity ≤ d.slots) :
    Passes stops rules (prefixLevel inner below arity) d p :=
  bind slot fun ops d₁ p₁ s₁ ho => bind (emit fun _ _ => by grind) fun _ d₂ p₂ s₂ _ =>
    bind (loop fun {d₃ top exit} grown _ hx => bind checkpoint fun back d₄ p₄ s₄ hb =>
      bind (((h.step (s₁.trans s₂)).grows grown (.refl _)).step s₄).here fun _ d₅ p₅ s₅ _ =>
      bind (retreatOnFailure (by grind) (by grind)) fun _ d₆ p₆ s₆ _ =>
      bind (emit fun _ _ => by grind) fun _ d₇ p₇ s₇ _ => emit fun _ _ => by grind)
    fun _ d₈ p₈ s₈ _ =>
    bind (callOperand (takes.grows ((s₁.trans s₂).trans s₈).pools.grows) (by grind))
      fun _ d₉ p₉ s₉ _ => ifThen (by simp [Condition.slots]) fun _ _ grown _ =>
    emit fun _ _ => by grind

theorem postfixLevel (h : Sure stops rules inner d p)
    (takes : p.Vows rules fun program => program.Takes below arity) (room : arity ≤ d.slots) :
    Passes stops rules (postfixLevel inner below arity) d p :=
  block fun {d₁ out} grown ho => bind (callOperand takes (by grind)) fun _ d₂ p₂ s₂ _ =>
    bind (leaveOnFailure (by grind)) fun _ d₃ p₃ s₃ _ => bind storeResult fun acc d₄ p₄ s₄ ha =>
    bind (loop fun {d₅ top exit} grown' _ hx => bind checkpoint fun back d₆ p₆ s₆ hb =>
      bind ((((h.grows grown (.refl _)).step ((s₂.trans s₃).trans s₄)).grows grown' (.refl _)).step
        s₆).here fun _ d₇ p₇ s₇ _ =>
      bind (retreatOnFailure (by grind) (by grind)) fun _ d₈ p₈ s₈ _ =>
      bind (emit fun _ _ => by grind) fun _ d₉ p₉ s₉ _ =>
      bind (emit fun _ _ => by grind) fun _ d₁₀ p₁₀ s₁₀ _ => emit fun _ _ => by grind)
    fun _ d₁₁ p₁₁ s₁₁ _ => succeedWith (by grind) fun _ _ => trivial

theorem leftLevel {once : Bool} (h : Sure stops rules inner d p)
    (takes : p.Vows rules fun program => program.Takes below arity) (room : arity ≤ d.slots) :
    Passes stops rules (leftLevel once inner below arity) d p :=
  block fun {d₁ out} grown ho => bind (callOperand takes (by grind)) fun _ d₂ p₂ s₂ _ =>
    bind (leaveOnFailure (by grind)) fun _ d₃ p₃ s₃ _ => bind storeResult fun acc d₄ p₄ s₄ ha =>
    have upTo := (s₂.trans s₃).trans s₄
    bind (loop fun {d₅ top exit} grown' _ hx =>
      bind (operatorStep (((h.grows grown (.refl _)).step upTo).grows grown' (.refl _))
        (takes.grows upTo.pools.grows) (by grind) hx) fun r d₆ p₆ s₆ hr =>
      bind (emit fun _ _ => by grind) fun _ d₇ p₇ s₇ _ =>
      bind (emit fun _ _ => by grind) fun _ d₈ p₈ s₈ _ => emit fun _ _ => by grind)
    fun _ d₉ p₉ s₉ _ => succeedWith (by grind) fun _ _ => trivial

theorem rightLevel (h : Sure stops rules inner d p)
    (takes : p.Vows rules fun program => program.Takes below arity) (room : arity ≤ d.slots) :
    Passes stops rules (rightLevel inner below arity) d p :=
  block fun {d₁ out} grown ho => bind slot fun spine d₂ p₂ s₂ hs =>
    bind (emit fun _ _ => by grind) fun _ d₃ p₃ s₃ _ =>
    bind (callOperand (takes.grows (s₂.trans s₃).pools.grows) (by grind)) fun _ d₄ p₄ s₄ _ =>
    bind (leaveOnFailure (by grind)) fun _ d₅ p₅ s₅ _ =>
    bind (emit fun _ _ => by grind) fun _ d₆ p₆ s₆ _ =>
    have upTo := (((s₂.trans s₃).trans s₄).trans s₅).trans s₆
    bind (loop fun {d₇ top exit} grown' _ hx =>
      bind (operatorStep (((h.grows grown (.refl _)).step upTo).grows grown' (.refl _))
        (takes.grows upTo.pools.grows) (by grind) hx) fun r d₈ p₈ s₈ hr =>
      bind (emit fun _ _ => by grind) fun _ d₉ p₉ s₉ _ =>
      bind (emit fun _ _ => by grind) fun _ d₁₀ p₁₀ s₁₀ _ => emit fun _ _ => by grind)
    fun _ d₁₁ p₁₁ s₁₁ _ => bind (emit fun _ _ => by grind) fun _ d₁₂ p₁₂ s₁₂ _ =>
    emit fun _ _ => by grind

theorem level {fixity : Fixity} (h : Sure stops rules inner d p)
    (takes : p.Vows rules fun program => program.Takes below arity) (room : arity ≤ d.slots) :
    Passes stops rules (level fixity inner below arity) d p := by
  cases fixity with
  | prefixOp => exact prefixLevel h takes room
  | postfixOp => exact postfixLevel h takes room
  | leftAssoc => exact leftLevel h takes room
  | nonAssoc => exact leftLevel h takes room
  | rightAssoc => exact rightLevel h takes room

end Yields

end Emit

/-! ### What expressions read -/

namespace Expr

variable {P : Expr → Prop} {n : String}

omit [Regex.Engine] in
theorem mem_readLocalsFields {fields : List String} {es : List Expr}
    (all : ∀ e ∈ es, ∀ bound, n ∈ e.readLocals bound ↔ n ∈ e.readLocals [] ∧ n ∉ bound)
    (bound : List String) :
    n ∈ readLocalsFields bound fields es ↔ n ∈ readLocalsFields [] fields es ∧ n ∉ bound := by
  induction es generalizing fields bound with
  | nil => simp [readLocalsFields]
  | cons e es ih =>
      have rest := fun e mem => all e (List.mem_cons_of_mem _ mem)
      simp only [readLocalsFields, List.mem_append, all e List.mem_cons_self bound,
        ih rest (fields.take 1 ++ bound), ih rest (fields.take 1 ++ [])]
      simp only [List.not_mem_nil, or_false]
      tauto

omit [Regex.Engine] in
/-- What an expression reads from a scope in which some names are bound already. -/
theorem mem_readLocals {e : Expr} (h : e.Every P) (bound : List String) :
    n ∈ e.readLocals bound ↔ n ∈ e.readLocals [] ∧ n ∉ bound := by
  induction h generalizing bound with
  | @intro e _ _ ih =>
  cases e with
  | str | regex | fail => simp [readLocals]
  | ref tag name binding =>
      simp only [readLocals]
      by_cases here : binding = .local <;> by_cases mem : name ∈ bound <;> simp_all
  | host tag s => simp [readLocals, snippetLocals]
  | seq tag items cls? => exact mem_readLocalsFields (fun e mem => ih e mem) bound
  | choice tag items | skip tag items =>
      simp only [readLocals, mem_readLocalsAll]
      constructor
      · rintro ⟨e, mem, reads⟩
        have := (ih e mem bound).1 reads
        exact ⟨⟨e, mem, this.1⟩, this.2⟩
      · rintro ⟨⟨e, mem, reads⟩, free⟩
        exact ⟨e, mem, (ih e mem bound).2 ⟨reads, free⟩⟩
  | list tag item least most =>
      have limits (b? : Option Bound) :
          n ∈ boundLocals bound b? ↔ n ∈ boundLocals [] b? ∧ n ∉ bound := by
        rcases b? with _ | _ | s <;> simp [boundLocals, snippetLocals]
      simp only [readLocals, List.mem_append, ih item (by simp [children]) bound, limits least,
        limits most]
      tauto
  | opt tag inner | expect tag inner | expectNot tag inner =>
      simpa only [readLocals] using ih inner (by simp [children]) bound
  | sep tag a b | apply tag a b | discard tag a b | satisfying tag a b =>
      simp only [readLocals, List.mem_append, ih a (by simp [children]) bound,
        ih b (by simp [children]) bound]
      tauto
  | bound tag name a b =>
      simp only [readLocals, List.mem_append, ih a (by simp [children]) bound,
        ih b (by simp [children]) (name :: bound), ih b (by simp [children]) [name],
        List.mem_cons, List.not_mem_nil, or_false]
      tauto
  | call tag callee args binding =>
      simp only [readLocals, mem_readLocalsArgs]
      constructor
      · rintro ⟨e, mem, reads⟩
        have := (ih e mem bound).1 reads
        exact ⟨⟨e, mem, this.1⟩, this.2⟩
      · rintro ⟨⟨e, mem, reads⟩, free⟩
        exact ⟨e, mem, (ih e mem bound).2 ⟨reads, free⟩⟩
  | operators tag atom levels =>
      simp only [readLocals, List.mem_append, mem_readLocalsLevels,
        ih atom (by simp [children]) bound]
      constructor
      · rintro (h | ⟨e, mem, reads⟩)
        · exact ⟨.inl h.1, h.2⟩
        · have := (ih e (List.mem_cons_of_mem _ mem) bound).1 reads
          exact ⟨.inr ⟨e, mem, this.1⟩, this.2⟩
      · rintro ⟨h | ⟨e, mem, reads⟩, free⟩
        · exact .inl ⟨h, free⟩
        · exact .inr ⟨e, mem, (ih e (List.mem_cons_of_mem _ mem) bound).2 ⟨reads, free⟩⟩

end Expr

/-! ### Where expressions can be written -/

/-- The functions of rules are known. -/
def Pools.Knows (rules : Signatures) (p : Pools) : Prop :=
  ∀ (name : String) (params : List String), rules.lookup name = some params →
    ∃ f, p.ruleFunctions.lookup (ruleFunction name) = some f

theorem Pools.Knows.grows {rules : Signatures} {p p' : Pools} (h : p.Knows rules)
    (grown : p.Grows p') : p'.Knows rules := by
  intro name params found
  rw [grown.rules]
  exact h name params found

/-- The functions of rules are known, and names are in scope. -/
structure Ready (rules : Signatures) (names : List String) (d : Draft) (p : Pools) : Prop where
  known : p.Knows rules
  binds : ∀ n ∈ names, ∃ v < d.slots, d.scope.lookup n = some v

namespace Ready

variable {rules : Signatures} {names more : List String} {d d' : Draft} {p p' : Pools}

theorem grows (h : Ready rules names d p) (draft : d.Grows d') (pools : p.Grows p') :
    Ready rules names d' p' where
  known := h.known.grows pools
  binds n mem := (h.binds n mem).imp fun _ h =>
    ⟨Nat.lt_of_lt_of_le h.1 draft.slots, draft.scope ▸ h.2⟩

omit [Regex.Engine] in
theorem mono (h : Ready rules names d p) (sub : ∀ n ∈ more, n ∈ names) : Ready rules more d p :=
  ⟨h.known, fun n mem => h.binds n (sub n mem)⟩

omit [Regex.Engine] in
/-- The names of parameters are in scope where a function begins. -/
theorem begin {name : String} {maxBlocks : Nat} (known : p.Knows rules)
    (sub : ∀ n ∈ names, n ∈ more) : Ready rules names (Draft.begin name more maxBlocks) p where
  known := known
  binds n mem := by
    have inside : n ∈ (Draft.begin name more maxBlocks).scope.map (·.1) := by
      simpa [Draft.begin, List.map_reverse] using sub n mem
    obtain ⟨v, found⟩ : ∃ v, (Draft.begin name more maxBlocks).scope.lookup n = some v := by
      obtain ⟨pair, of, rfl⟩ := List.mem_map.1 inside
      exact Option.isSome_iff_exists.1 (by
        rw [List.lookup_isSome_iff]
        exact ⟨pair, of, by simp⟩)
    obtain ⟨before, behind, same, -⟩ := List.lookup_eq_some_iff.1 found
    have of : (n, v) ∈ more.zipIdx := by
      rw [← List.mem_reverse]
      change (n, v) ∈ (Draft.begin name more maxBlocks).scope
      simp [same]
    exact ⟨v, (List.mem_zipIdx' of).1, found⟩

end Ready

/-- Code that can be written wherever some names are in scope. -/
def Emit.Writable (stops : Failure → Prop) (rules : Signatures) (names : List String)
    (code : Emit Unit) : Prop :=
  ∀ (d : Draft) (p : Pools), Ready rules names d p → Passes stops rules code d p

namespace Emit

variable {stops : Failure → Prop} {rules : Signatures} {names : List String} {d : Draft} {p : Pools}
  {code : Emit Unit}

theorem Writable.sure (h : Writable stops rules names code) (ready : Ready rules names d p) :
    Sure stops rules code d p := fun _ _ draft pools => h _ _ (ready.grows draft pools)

namespace Yields

theorem captures {e : Expr} (ready : Ready rules (e.readLocals []) d p) :
    Yields stops rules (captures e) d p
      fun vs d' _ => vs.length = e.freeLocals.length ∧ ∀ v ∈ vs, v < d'.slots :=
  lookupAll fun n mem => ready.binds n (Expr.mem_freeLocals.1 mem)

/-- A new function whose parameters are the names that its code reads. -/
theorem ownFunction {e : Expr} (h : Writable stops rules (e.readLocals []) code)
    (ready : Ready rules (e.readLocals []) d p) :
    Yields stops rules (ownFunction e code) d p
      fun f _ p' => p'.Vows rules fun program => program.Takes f e.freeLocals.length :=
  lift (.defineNew (h _ _ (.begin ready.known fun _ mem => Expr.mem_freeLocals.2 mem)))

theorem outline {e : Expr} (h : Writable stops rules (e.readLocals []) code)
    (ready : Ready rules (e.readLocals []) d p) : Passes stops rules (outline e code) d p :=
  bind (captures ready) fun args d₁ p₁ s₁ hargs =>
    bind (ownFunction h (ready.grows s₁.draft s₁.pools.grows)) fun f d₂ p₂ s₂ takes =>
    emit fun program fits => by
      have := takes program fits
      rw [← hargs.1] at this
      grind

end Yields

/-- Wherever code can be written it can be written as that of a function of its own. -/
theorem Writable.within {e : Expr} (h : Writable stops rules (e.readLocals []) code) :
    Writable stops rules (e.readLocals []) (within e code) := by
  intro d p ready
  change Passes stops rules (if d.blocksLeft < e.numBlocks then _ else _) d p
  split
  · exact .outline h ready
  · exact h d p ready

namespace Yields

theorem parser {f : Nat} {vs : List Nat}
    (takes : p.Vows rules fun program => program.Takes f vs.length)
    (reads : ∀ v ∈ vs, v < d.slots) :
    Yields stops rules (parser f vs) d p fun v d' _ => v < d'.slots :=
  bind (emit fun program fits => by
    have := takes program fits
    grind) fun _ _ _ _ _ => storeResult

/-- The function of a rule without parameters. -/
theorem ruleFunction {name : String} {params : List String} (ready : Ready rules names d p)
    (known : rules.lookup name = some params) :
    Yields stops rules (liftM (Build.ruleFunction (ruleFunction name))) d p
      fun f _ p' => p'.Vows rules fun program => program.Takes f params.length := by
  obtain ⟨f, found⟩ := ready.known _ _ known
  exact lift (.ruleFunction known found)

theorem skipIgnored (ready : Ready rules names d p) (known : rules.lookup ignoredRule = some []) :
    Passes stops rules skipIgnored d p :=
  bind (ruleFunction ready known) fun f d₁ p₁ s₁ takes =>
    ifThen (by simp [Condition.slots]) fun _ _ grown pools => bind storeResult fun v d₂ p₂ s₂ hv =>
    bind (emit fun program fits => by
      have := takes program (fits.back (pools.trans s₂.pools.grows))
      grind) fun _ d₃ p₃ s₃ _ => succeedWith (by grind) fun _ _ => trivial

theorem skipping {skip : Bool} (ready : Ready rules names d p)
    (known : skip = true → rules.lookup ignoredRule = some []) :
    Passes stops rules (if skip then Emit.skipIgnored else Pure.pure ()) d p := by
  split
  · next skips => exact skipIgnored ready (known skips)
  · exact pure trivial

/-- What a reference calls takes no arguments. -/
theorem callee {tag : Tag} {name : String} {binding : Binding}
    (settled : (Expr.ref tag name binding).Settled rules) (ready : Ready rules names d p)
    (sub : ∀ {n}, n ∈ (Expr.ref tag name binding).readLocals [] → n ∈ names) :
    Yields stops rules (callee name binding) d p fun callee d' p' => p'.Vows rules fun program =>
      (Instr.call callee []).Sound program d'.slots d'.labels.size := by
  rcases settled with rfl | ⟨rfl, known⟩
  · exact bind (lookup (ready.binds name (sub (by simp [Expr.readLocals])))) fun v _ _ _ hv =>
      pure fun _ _ => by grind
  · exact bind (ruleFunction ready known) fun f _ _ _ takes => pure fun program fits => by
      have := takes program fits
      grind

theorem argument {e : Expr} (settled : e.Settled rules)
    (h : Writable stops rules (e.readLocals []) code)
    (ready : Ready rules (e.readLocals []) d p) :
    Yields stops rules (argument e code) d p fun v d' _ => v < d'.slots := by
  unfold Emit.argument
  split
  · exact lookup (ready.binds _ (by simp [Expr.readLocals]))
  · next name function =>
      obtain ⟨⟨⟩⟩ | ⟨⟨rfl⟩, known⟩ := settled
      exact bind (ruleFunction ready known) fun f d₁ p₁ s₁ takes => parser takes (by simp)
  · exact bind (snippet fun n mem => ready.binds n (by simpa [Expr.readLocals, Expr.snippetLocals]))
      fun _ _ _ _ _ => storeResult
  · exact bind (captures ready) fun vs d₁ p₁ s₁ hvs =>
      bind (ownFunction h (ready.grows s₁.draft s₁.pools.grows)) fun f d₂ p₂ s₂ takes =>
      parser (hvs.1 ▸ takes) (by grind)

end Yields

end Emit

/-! ### Expressions -/

/-- The names in scope do not matter to a step. -/
theorem Step.withScope {rules : Signatures} {d d' : Draft} {p p' : Pools}
    (h : Step rules d p d' p') (scope : List (String × Nat)) :
    Step rules { d with scope } p { d' with scope } p' :=
  ⟨h.draft.withScope, h.pools, h.placed, h.sound⟩

namespace Emit

variable {stops : Failure → Prop} {rules : Signatures} {d : Draft} {p : Pools} {exit : Nat}

/-- Items bring their fields into scope, each for those behind it. -/
theorem gives_items {P : Expr → Prop} {fields : List String} {items : List Expr}
    (settled : ∀ e ∈ items, e.Every P)
    (all : ∀ e ∈ items, Writable stops rules (e.readLocals []) e.emit)
    (ready : Ready rules (Expr.readLocalsFields [] fields items) d p) (hx : exit < d.labels.size) :
    Gives stops (emitItems exit fields items) d p fun vs d' p' =>
      Step rules d p { d' with scope := d.scope } p' ∧ ∀ v ∈ vs, v < d'.slots := by
  induction items generalizing d p fields with
  | nil => exact ⟨.refl d p, by simp⟩
  | cons e es ih =>
      have ready' : Ready rules (e.readLocals []) d p :=
        ready.mono fun n mem => List.mem_append_left _ mem
      rw [emitItems]
      refine gives_bind.2 (((all e (by simp)).within d p ready').mono ?_)
      rintro _ d₁ p₁ ⟨s₁, -⟩
      have leave : Passes stops rules (leaveOnFailure exit) d₁ p₁ := .leaveOnFailure (by grind)
      refine gives_bind.2 (leave.mono ?_)
      rintro _ d₂ p₂ ⟨s₂, -⟩
      have store : Yields stops rules storeResult d₂ p₂ fun v d' _ => v < d'.slots := .storeResult
      refine gives_bind.2 (store.mono ?_)
      rintro v d₃ p₃ ⟨s₃, hv⟩
      have upTo := (s₁.trans s₂).trans s₃
      -- Behind the item its field is in scope, with the slot of the result.
      have rest (scope : List (String × Nat)) (ready : Ready rules
            (Expr.readLocalsFields [] (fields.drop 1) es) { d₃ with scope } p₃) :
          Gives stops (do let vs ← emitItems exit (fields.drop 1) es; Pure.pure (v :: vs))
            { d₃ with scope } p₃ fun vs d' p' =>
              Step rules d p { d' with scope := d.scope } p' ∧ ∀ v ∈ vs, v < d'.slots := by
        have found := ih (d := { d₃ with scope }) (p := p₃)
          (fun e mem => settled e (List.mem_cons_of_mem _ mem))
          (fun e mem => all e (List.mem_cons_of_mem _ mem)) ready
          (Nat.lt_of_lt_of_le hx upTo.labels)
        refine gives_bind.2 (found.mono ?_)
        rintro vs d' p' ⟨step, hvs⟩
        have back := step.withScope d.scope
        have same : d₃.scope = d.scope := upTo.draft.scope
        have : Step rules d₃ p₃ { d' with scope := d.scope } p' := by
          rw [← same] at back ⊢
          exact back
        refine ⟨upTo.trans this, fun w mem => ?_⟩
        rcases List.mem_cons.1 mem with rfl | mem
        · exact Nat.lt_of_lt_of_le hv this.slots
        · exact hvs w mem
      have reads (n : String) (mem : n ∈ Expr.readLocalsFields [] (fields.drop 1) es) :
          n ∈ fields.take 1 ∨ ∃ v < d₃.slots, d₃.scope.lookup n = some v := by
        by_cases here : n ∈ fields.take 1
        · exact .inl here
        · refine .inr ((ready.grows upTo.draft upTo.pools.grows).binds n ?_)
          refine List.mem_append_right _ ?_
          rw [List.append_nil]
          exact (Expr.mem_readLocalsFields (fun e mem =>
            Expr.mem_readLocals (settled e (List.mem_cons_of_mem _ mem))) _).2 ⟨mem, here⟩
      have known := (ready.grows upTo.draft upTo.pools.grows).known
      dsimp only
      cases fields with
      | nil =>
          refine rest d₃.scope ⟨known, fun n mem => ?_⟩
          exact (reads n mem).resolve_left (by simp)
      | cons name fields =>
          refine gives_bind.2 (gives_bindName.2 (rest ((name, v) :: d₃.scope) ⟨known, fun n mem => ?_⟩))
          rw [List.lookup_cons]
          rcases reads n mem with same | bound
          · obtain rfl : n = name := by simpa using same
            exact ⟨v, hv, by simp⟩
          · split
            · exact ⟨v, hv, rfl⟩
            · exact bound

theorem Yields.items {P : Expr → Prop} {fields : List String} {items : List Expr}
    (settled : ∀ e ∈ items, e.Every P)
    (all : ∀ e ∈ items, Writable stops rules (e.readLocals []) e.emit)
    (ready : Ready rules (Expr.readLocalsFields [] fields items) d p) (hx : exit < d.labels.size) :
    Yields stops rules (inScope (emitItems exit fields items)) d p
      fun vs d' _ => ∀ v ∈ vs, v < d'.slots :=
  gives_inScope.2 (gives_items settled all ready hx)

theorem Yields.alternatives {back farPos farErr : Nat} {isFirst : Bool} {items : List Expr}
    (all : ∀ e ∈ items, Sure stops rules (within e e.emit) d p) (hb : back < d.slots)
    (hp : farPos < d.slots) (he : farErr < d.slots) (hx : exit < d.labels.size) :
    Passes stops rules (emitAlternatives back farPos farErr exit isFirst items) d p := by
  induction items generalizing d p isFirst with
  | nil =>
      exact bind (emit fun _ _ => by grind) fun _ d₁ p₁ s₁ _ => bind (emit fun _ _ => by grind)
        fun _ d₂ p₂ s₂ _ => emit fun _ _ => by grind
  | cons e es ih =>
      have tried {d' p'} (s : Step rules d p d' p') :
          Passes stops rules (tried back farPos farErr exit e es) d' p' := by
        refine bind ((all e (by simp)).step s).here fun _ d₁ p₁ s₁ _ => ?_
        split
        · exact emit fun _ _ => by grind
        · refine bind (emit fun _ _ => by grind) fun _ d₂ p₂ s₂ _ =>
            bind (keepFarthest (by grind) (by grind)) fun _ d₃ p₃ s₃ _ => ih (fun e mem => ?_)
              (by grind) (by grind) (by grind) (by grind)
          exact (all e (List.mem_cons_of_mem _ mem)).step (((s.trans s₁).trans s₂).trans s₃)
      cases isFirst with
      | true =>
          rw [alternatives_first]
          exact tried (.refl d p)
      | false =>
          rw [alternatives_next]
          exact bind (emit fun _ _ => by grind) fun _ _ _ s _ => tried s

theorem Yields.skipped {top : Nat} {items : List Expr}
    (all : ∀ e ∈ items, Sure stops rules (within e e.emit) d p) (ht : top < d.labels.size) :
    Passes stops rules (emitSkipped top items) d p := by
  induction items generalizing d p with
  | nil => exact pure trivial
  | cons e es ih =>
      rw [emitSkipped]
      exact bind (skipPart (all e (by simp)) ht) fun _ _ _ s _ =>
        ih (fun e mem => (all e (List.mem_cons_of_mem _ mem)).step s) (by grind)

theorem Yields.arguments {args : List (Option String × Expr)}
    (settled : ∀ e ∈ args.map (·.2), e.Settled rules)
    (all : ∀ e ∈ args.map (·.2), Writable stops rules (e.readLocals []) e.emit)
    (ready : Ready rules (Expr.readLocalsArgs [] args) d p) :
    Yields stops rules (emitArgs args) d p
      fun vs d' _ => vs.length = args.length ∧ ∀ v ∈ vs, v < d'.slots := by
  induction args generalizing d p with
  | nil => exact pure (by simp)
  | cons arg args ih =>
      obtain ⟨keyword, e⟩ := arg
      rw [emitArgs]
      refine bind (argument (settled e (by simp)) (all e (by simp))
        (ready.mono fun n mem => List.mem_append_left _ mem)) fun v d₁ p₁ s₁ hv => ?_
      refine bind (ih (fun e mem => settled e (by simp at mem ⊢; exact .inr mem))
        (fun e mem => all e (by simp at mem ⊢; exact .inr mem))
        ((ready.grows s₁.draft s₁.pools.grows).mono fun n mem => List.mem_append_right _ mem))
        fun vs d₂ p₂ s₂ hvs => pure (by grind)

theorem yields_levels {params : List String} {id below index : Nat}
    {levels : List (Fixity × Expr)} {p : Pools}
    (all : ∀ e ∈ levels.map (·.2), Writable stops rules params (within e e.emit))
    (known : p.Knows rules)
    (takes : p.Vows rules fun program => program.Takes below params.length) :
    Build.Yields stops rules (emitLevels id params below index levels) p
      fun f p' => p'.Vows rules fun program => program.Takes f params.length := by
  induction levels generalizing p below index with
  | nil => exact .pure takes
  | cons level levels ih =>
      obtain ⟨fixity, operator⟩ := level
      rw [emitLevels]
      have grown := p.grows_reserve
      refine .bind (.defineNew (Yields.level ?_ (takes.grows grown) (Nat.le_refl _)))
        fun f p₁ advances takes' => ih (fun e mem => all e (by simp at mem ⊢; exact .inr mem))
          (known.grows advances.grows) takes'
      exact (all operator (by simp)).sure (.begin known fun _ mem => mem)

theorem Yields.choice {tag : Tag} {items : List Expr} (nonempty : items ≠ [])
    (all : ∀ e ∈ items, Sure stops rules (within e e.emit) d p) :
    Passes stops rules (Expr.choice tag items).emit d p := by
  match items with
  | [] => exact absurd rfl nonempty
  | [only] =>
      rw [Expr.emit]
      exact (all only List.mem_cons_self).here
  | e :: e' :: es =>
      rw [Expr.emit]
      · exact bind checkpoint fun back d₁ p₁ s₁ hb => bind slot fun farPos d₂ p₂ s₂ hp =>
          bind (emit fun _ _ => by grind) fun _ d₃ p₃ s₃ _ => bind slot
          fun farErr d₄ p₄ s₄ he => bind (emit fun _ _ => by grind) fun _ d₅ p₅ s₅ _ =>
          block fun grown hx => alternatives (fun c mem =>
            (((all c mem).step ((((s₁.trans s₂).trans s₃).trans s₄).trans s₅)).grows grown
              (.refl _))) (by grind) (by grind) (by grind) hx
      · simp

/-- The body is written in a scope that holds the name, too. -/
theorem Yields.bound {tag : Tag} {name : String} {value body : Expr} {P : Expr → Prop}
    (every : body.Every P) (first : Sure stops rules (within value value.emit) d p)
    (inner : Writable stops rules (body.readLocals []) body.emit)
    (ready : Ready rules ((Expr.bound tag name value body).readLocals []) d p) :
    Passes stops rules (Expr.bound tag name value body).emit d p := by
  rw [Expr.emit]
  refine block fun {d₁ exit} grown hx => bind (first.grows grown (.refl p)).here
    fun _ d₂ p₂ s₂ _ => bind (leaveOnFailure (by grind)) fun _ d₃ p₃ s₃ _ =>
    bind storeResult fun v d₄ p₄ s₄ hv => ?_
  have upTo := (s₂.trans s₃).trans s₄
  have ready' := ready.grows (grown.trans upTo.draft) upTo.pools.grows
  refine gives_inScope.2 (gives_bind.2 (gives_bindName.2 ?_))
  refine (inner.within _ _ ⟨ready'.known, fun n mem => ?_⟩).mono fun _ d' p' ⟨step, _⟩ =>
    ⟨step.withScope d₄.scope, trivial⟩
  -- A name that the body reads is the one just bound, or one that the whole expression reads.
  rw [List.lookup_cons]
  split
  · exact ⟨v, hv, rfl⟩
  · next other =>
      refine ready'.binds n (List.mem_append_right _ ?_)
      refine (Expr.mem_readLocals every _).2 ⟨mem, ?_⟩
      simpa using other

theorem Yields.operators {tag : Tag} {atom : Expr} {levels : List (Fixity × Expr)}
    (all : ∀ e ∈ (Expr.operators tag atom levels).children,
      Writable stops rules (e.readLocals []) e.emit)
    (ready : Ready rules ((Expr.operators tag atom levels).readLocals []) d p) :
    Passes stops rules (Expr.operators tag atom levels).emit d p := by
  rw [Expr.emit]
  have free (n : String) := Expr.mem_freeLocals (n := n) (e := .operators tag atom levels)
  -- The functions of operands and operators take every name that the whole reads.
  have inside (c : Expr) (mem : c ∈ (Expr.operators tag atom levels).children) :
      Writable stops rules (Expr.operators tag atom levels).freeLocals (within c c.emit) := by
    refine fun d p ready => (all c mem).within d p (ready.mono fun n reads => (free n).2 ?_)
    rcases List.mem_cons.1 mem with rfl | mem
    · exact List.mem_append_left _ reads
    · exact List.mem_append_right _ (Expr.mem_readLocalsLevels.2 ⟨c, mem, reads⟩)
  have sub : ∀ n ∈ (Expr.operators tag atom levels).freeLocals,
      n ∈ (Expr.operators tag atom levels).readLocals [] := fun n mem => (free n).1 mem
  refine bind (lookupAll fun n mem => ready.binds n (sub n mem)) fun args d₁ p₁ s₁ ha => ?_
  have ready₁ := ready.grows s₁.draft s₁.pools.grows
  refine bind (lift (.defineNew (inside atom (by simp [Expr.children]) _ _
    (.begin ready₁.known fun _ mem => mem)))) fun f d₂ p₂ s₂ takes => ?_
  refine bind (lift (yields_levels (fun e mem => inside e (List.mem_cons_of_mem _ mem))
    (ready₁.known.grows s₂.pools.grows) takes)) fun f d₃ p₃ s₃ takes =>
    emit fun program fits => ?_
  have := takes program fits
  rw [← ha.1] at this
  grind

end Emit

open Emit in
/-- **The code of a settled expression is written wherever the names that it reads are in scope**,
unless a pattern in it stops the writer. -/
theorem Expr.emit_writable {stops : Failure → Prop} {rules : Signatures} {e : Expr}
    (settled : e.Every (Settled rules))
    (may : e.Every fun x => ∀ f : Failure, x.Rejected f → stops f) :
    Writable stops rules (e.readLocals []) e.emit := by
  induction settled with
  | @intro e here below ih =>
  obtain ⟨may, mays⟩ := may
  replace ih (c : Expr) (mem : c ∈ e.children) : Writable stops rules (c.readLocals []) c.emit :=
    ih c mem (mays c mem)
  intro d p ready
  have part (c : Expr) (mem : c ∈ e.children) (reads : ∀ n ∈ c.readLocals [], n ∈ e.readLocals []) :
      Sure stops rules (within c c.emit) d p := (ih c mem).within.sure (ready.mono reads)
  cases e with
  | str tag value flags =>
      rw [Expr.emit]
      refine Yields.bind (.lift (.failure _ _)) fun entry d₁ p₁ s₁ hn => ?_
      have rest (d₂ p₂) (s : Step rules d₁ p₁ d₂ p₂) :
          Emit.Passes stops rules (if flags.skip then skipIgnored else Pure.pure ()) d₂ p₂ :=
        Yields.skipping (ready.grows (s₁.trans s).draft (s₁.trans s).pools.grows) here
      dsimp only
      split
      · next ignores =>
        exact .bind (.lift (.regex fun f bad => may f ⟨ignores, bad⟩)) fun n d₂ p₂ s₂ hr =>
          .bind (.emit fun program fits => by
            have := hn program (fits.back s₂.pools.grows)
            have := hr program fits
            grind) fun _ _ _ s₃ _ => rest _ _ (s₂.trans s₃)
      · exact .bind (.lift (.literal _)) fun n d₂ p₂ s₂ hl => .bind (.emit fun program fits => by
          have := hn program (fits.back s₂.pools.grows)
          have := hl program fits
          grind) fun _ _ _ s₃ _ => rest _ _ (s₂.trans s₃)
  | regex tag pattern flags =>
      rw [Expr.emit]
      exact .bind (.lift (.regex may)) fun n d₁ p₁ s₁ hr =>
        .bind (.lift (.failure _ _)) fun entry d₂ p₂ s₂ hn => .bind (.emit fun program fits => by
          have := hr program (fits.back s₂.pools.grows)
          have := hn program fits
          grind) fun _ d₃ p₃ s₃ _ => .skipping
            (ready.grows ((s₁.trans s₂).trans s₃).draft ((s₁.trans s₂).trans s₃).pools.grows) here
  | ref tag name binding =>
      rw [Expr.emit]
      exact .bind (.callee here ready fun mem => mem) fun callee d₁ p₁ s₁ sound => .emit sound
  | call tag callee args binding =>
      obtain ⟨rfl, params, known, length⟩ := here
      rw [Expr.emit]
      refine .bind (.ruleFunction ready known) fun f d₁ p₁ s₁ takes =>
        .bind (.arguments (fun e mem => (below e mem).here) ih
          (ready.grows s₁.draft s₁.pools.grows)) fun slots d₂ p₂ s₂ hs =>
        .emit fun program fits => ?_
      have := takes program (fits.back s₂.pools.grows)
      rw [← length, ← hs.1] at this
      grind
  | seq tag items cls? =>
      cases cls? with
      | none =>
          rw [Expr.emit]
          exact .block fun grown hx => .bind (.items below ih (ready.grows grown (.refl p)) hx)
            fun slots _ _ _ hs => .bind (.emit fun _ _ => by grind) fun _ _ _ _ _ =>
            .emit fun _ _ => by grind
      | some c =>
          rw [Expr.emit]
          exact .bind (.lift (.cls c)) fun n d₁ p₁ s₁ hn => .block fun {d₂ exit} grown hx =>
            .bind .checkpoint fun start d₃ p₃ s₃ hstart =>
            .bind (.items below ih (ready.grows ((s₁.draft.trans grown).trans s₃.draft)
              (s₁.pools.trans s₃.pools).grows) (by grind)) fun slots d₄ p₄ s₄ hs =>
            .bind (.emit fun program fits => by
              have := hn program (fits.back (s₃.pools.trans s₄.pools).grows)
              grind) fun _ _ _ _ _ => .emit fun _ _ => by grind
  | choice tag items =>
      exact .choice here fun e mem => part e mem fun n reads => mem_readLocalsAll.2 ⟨e, mem, reads⟩
  | list tag item least most =>
      rw [Expr.emit]
      have reads (n : String) : n ∈ item.readLocals [] ∨ n ∈ boundLocals [] least ∨
          n ∈ boundLocals [] most → n ∈ (Expr.list tag item least most).readLocals [] := by
        simp only [readLocals, List.mem_append]
        tauto
      exact .listOf (part item (by simp [children]) fun n mem => reads n (.inl mem))
        (fun n mem => ready.binds n (reads n (.inr (.inl mem))))
        fun n mem => ready.binds n (reads n (.inr (.inr mem)))
  | sep tag item separator flags =>
      rw [Expr.emit]
      exact .sepOf (part item (by simp [children]) fun n => List.mem_append_left _)
        (part separator (by simp [children]) fun n => List.mem_append_right _)
  | opt tag inner =>
      rw [Expr.emit]
      exact .optional (part inner (by simp [children]) fun n mem => mem)
  | apply tag left right applyLeft =>
      rw [Expr.emit]
      have first := part left (by simp [children]) fun n => List.mem_append_left _
      have second := part right (by simp [children]) fun n => List.mem_append_right _
      refine .block fun grown hx => .bind (.both (first.grows grown (.refl p))
        (second.grows grown (.refl p)) hx) fun ab _ _ _ hab => .emit fun _ _ => ?_
      cases applyLeft <;> grind
  | discard tag left right discardLeft =>
      rw [Expr.emit]
      exact .keepOne (part left (by simp [children]) fun n => List.mem_append_left _)
        (part right (by simp [children]) fun n => List.mem_append_right _)
  | expect tag inner =>
      rw [Expr.emit]
      exact .peek (part inner (by simp [children]) fun n mem => mem)
  | expectNot tag inner =>
      rw [Expr.emit]
      exact .never (part inner (by simp [children]) fun n mem => mem)
  | fail tag message? =>
      rw [Expr.emit]
      exact .bind (.lift (.failure _ _)) fun n _ _ _ hn => .emit fun program fits => by
        have := hn program fits
        grind
  | bound tag name value body =>
      exact .bound (below body (by simp [children]))
        (part value (by simp [children]) fun n => List.mem_append_left _)
        (ih body (by simp [children])) ready
  | satisfying tag inner predicate =>
      rw [Expr.emit]
      have first := part inner (by simp [children]) fun n => List.mem_append_left _
      have second := part predicate (by simp [children]) fun n => List.mem_append_right _
      exact .bind (.lift (.failure _ _)) fun n d₁ p₁ s₁ hn => .block fun grown hx =>
        .bind (.both ((first.step s₁).grows grown (.refl _)) ((second.step s₁).grows grown (.refl _)) hx)
          fun ab _ _ s₂ hab => .emit fun program fits => by
            have := hn program (fits.back s₂.pools.grows)
            grind
  | skip tag items =>
      rw [Expr.emit]
      exact .bind (.loop fun grown ht hx => .bind (.skipped (fun e mem =>
          (part e mem fun n reads => mem_readLocalsAll.2 ⟨e, mem, reads⟩).grows grown (.refl p)) ht)
        fun _ _ _ s _ => .emit fun _ _ => by grind) fun _ _ _ _ _ =>
        .succeedWith (by simp [Operand.slots]) fun _ _ => trivial
  | host tag s =>
      rw [Expr.emit]
      exact .snippet fun n mem => ready.binds n (by simpa [readLocals, snippetLocals] using mem)
  | operators tag atom levels => exact .operators ih ready

end Packrat
