import Packrat.Proofs.Emission.Growth

/-
**Tame writers.**

A tame writer lets drafts and pools grow only.  All writers of code are tame but those that bring
names into scope; these are tame up to the scope, and so are tame as the body of a scope.

Main definitions:

* `Packrat.Build.Tame`, `Packrat.Emit.Tame` — tame writers;
* `Packrat.Emit.Loose` — writers that are tame up to the scope.

Main results:

* `Packrat.Emit.Tame.ifThen`, `Packrat.Emit.Tame.loop`, `Packrat.Emit.Tame.block`,
  `Packrat.Emit.Tame.within` — control flow around tame writers is tame;
* `Packrat.Expr.emit_tame` — **the code of an expression is written by a tame writer**.
-/

set_option autoImplicit false

namespace Packrat

variable [Regex.Engine]

namespace Build

variable {α β : Type}

/-- A writer of constants that lets pools grow only. -/
structure Tame (x : Build α) : Prop where
  pools : ∀ {p : Pools} {a : α} {p' : Pools}, x.Adds p a p' → p.Grows p'

theorem Tame.pure (a : α) : (Pure.pure a : Build α).Tame where
  pools h := by
    obtain ⟨-, rfl⟩ := adds_pure.1 h
    exact .refl _

theorem Tame.bind {x : Build α} {f : α → Build β} (hx : x.Tame)
    (hf : ∀ a, (f a).Tame) : (x >>= f).Tame where
  pools h := by
    obtain ⟨a, p₁, h₁, h₂⟩ := adds_bind.1 h
    exact (hx.pools h₁).trans ((hf a).pools h₂)

theorem Tame.fault {f : Fault} :
    (liftM (Packrat.fault f : Except Failure α) : Build α).Tame :=
  ⟨fun h => absurd h not_adds_fault⟩

theorem Tame.literal (bytes : List UInt8) : (literal bytes).Tame :=
  ⟨fun h => (adds_literal h).1⟩

theorem Tame.cls (c : NodeClass) : (cls c).Tame := ⟨fun h => (adds_cls h).1⟩

theorem Tame.regex (pattern : String) (ignoreCase binary : Bool) :
    (regex pattern ignoreCase binary).Tame := ⟨fun h => (adds_regex h).1⟩

theorem Tame.host (s : Snippet) : (host s).Tame := ⟨fun h => (adds_host h).1⟩

theorem Tame.failure (expr : String) (e : Expectation) : (failure expr e).Tame :=
  ⟨fun h => (adds_failure h).1⟩

theorem Tame.emptyList : emptyList.Tame := ⟨fun h => (adds_emptyList h).1⟩

theorem Tame.ruleFunction (name : String) : (ruleFunction name).Tame where
  pools h := by
    obtain ⟨rfl, -⟩ := adds_ruleFunction h
    exact .refl _

omit [Regex.Engine] in
theorem adds_reserve {p p' : Pools} {f : Nat} :
    reserve.Adds p f p' ↔
      f = p.functions.size ∧ p' = { p with functions := p.functions.push none } := by
  change Except.ok (p.functions.size, _) = _ ↔ _
  simp only [Except.ok.injEq, Prod.mk.injEq, eq_comm]

end Build

namespace Emit

variable {α β : Type}

/-- A writer that lets the draft and the pools grow only. -/
structure Tame (x : Emit α) : Prop where
  draft : ∀ {d p a d' p'}, x.Writes d p a d' p' → d.Grows d'
  pools : ∀ {d p a d' p'}, x.Writes d p a d' p' → p.Grows p'

namespace Tame

theorem pure (a : α) : (Pure.pure a : Emit α).Tame where
  draft h := by
    obtain ⟨-, rfl, -⟩ := writes_pure.1 h
    exact .refl _
  pools h := by
    obtain ⟨-, -, rfl⟩ := writes_pure.1 h
    exact .refl _

theorem bind {x : Emit α} {f : α → Emit β} (hx : x.Tame)
    (hf : ∀ a, (f a).Tame) : (x >>= f).Tame where
  draft h := by
    obtain ⟨a, d₁, p₁, h₁, h₂⟩ := writes_bind.1 h
    exact (hx.draft h₁).trans ((hf a).draft h₂)
  pools h := by
    obtain ⟨a, d₁, p₁, h₁, h₂⟩ := writes_bind.1 h
    exact (hx.pools h₁).trans ((hf a).pools h₂)

theorem get_bind {f : Draft → Emit β} (hf : ∀ d, (f d).Tame) :
    (MonadState.get >>= f : Emit β).Tame :=
  ⟨fun {d} _ _ _ _ h => (hf d).draft h, fun {d} _ _ _ _ h => (hf d).pools h⟩

theorem lift {x : Build α} (hx : x.Tame) : (liftM x : Emit α).Tame where
  draft h := by
    obtain ⟨-, rfl⟩ := writes_lift.1 h
    exact .refl _
  pools h := hx.pools (writes_lift.1 h).1

theorem fault {f : Fault} :
    (liftM (Packrat.fault f : Except Failure α) : Emit α).Tame :=
  ⟨fun h => absurd h not_writes_fault, fun h => absurd h not_writes_fault⟩

theorem emit (i : Instr) : (emit i).Tame where
  draft {d} _ _ _ _ h := by
    obtain ⟨rfl, -⟩ := writes_emit.1 h
    exact d.grows_add i
  pools h := by
    obtain ⟨-, rfl⟩ := writes_emit.1 h
    exact .refl _

theorem slot : slot.Tame where
  draft {d} _ _ _ _ h := by
    obtain ⟨-, rfl, -⟩ := writes_slot.1 h
    exact d.grows_addSlot
  pools h := by
    obtain ⟨-, -, rfl⟩ := writes_slot.1 h
    exact .refl _

theorem lookup (name : String) : (lookup name).Tame where
  draft h := by
    obtain ⟨-, rfl, -⟩ := writes_lookup.1 h
    exact .refl _
  pools h := by
    obtain ⟨-, -, rfl⟩ := writes_lookup.1 h
    exact .refl _

theorem lookupAll (names : List String) : (lookupAll names).Tame where
  draft h := by
    obtain ⟨-, rfl, -⟩ := writes_lookupAll.1 h
    exact .refl _
  pools h := by
    obtain ⟨-, -, rfl⟩ := writes_lookupAll.1 h
    exact .refl _

/-! ### Control flow -/

theorem ifThen {body : Emit Unit} (c : Condition) (h : body.Tame) :
    (ifThen c body).Tame where
  draft {d} _ _ _ _ w := by
    obtain ⟨d₁, w₁, rfl⟩ := writes_ifThen.1 w
    have start := (d.grows_addLabel.trans (Draft.grows_add _ (.branch c.negate d.labels.size))).trans
      (Draft.grows_entered _)
    exact (start.trans ((h.draft w₁).trans (Draft.grows_left _))).place (Nat.le_refl _)
  pools w := by
    obtain ⟨d₁, w₁, -⟩ := writes_ifThen.1 w
    exact h.pools w₁

theorem ifElse {thenPart elsePart : Emit Unit} (c : Condition) (h : thenPart.Tame)
    (h' : elsePart.Tame) : (ifElse c thenPart elsePart).Tame where
  draft {d} _ _ _ _ w := by
    obtain ⟨d₁, p₁, d₂, w₁, w₂, rfl⟩ := writes_ifElse.1 w
    have start := ((d.grows_addLabel.trans (Draft.grows_addLabel _)).trans
      (Draft.grows_add _ (.branch c.negate d.labels.size))).trans (Draft.grows_entered _)
    have first := (start.trans (h.draft w₁)).trans (Draft.grows_add _ (.jump (d.labels.size + 1)))
    have second := (first.place (Nat.le_refl _)).trans
      ((h'.draft w₂).trans (Draft.grows_left _))
    exact second.place (Nat.le_succ _)
  pools w := by
    obtain ⟨d₁, p₁, d₂, w₁, w₂, -⟩ := writes_ifElse.1 w
    exact (h.pools w₁).trans (h'.pools w₂)

theorem loop {body : Nat → Nat → Emit Unit} (h : ∀ top exit, (body top exit).Tame) :
    (loop body).Tame where
  draft {d} _ _ _ _ w := by
    obtain ⟨d₁, w₁, rfl⟩ := writes_loop.1 w
    have start := ((d.grows_addLabel.trans (Draft.grows_addLabel _)).place (Nat.le_refl _)).trans
      (Draft.grows_entered _)
    have grown := (start.trans ((h _ _).draft w₁)).trans
      ((Draft.grows_left _).trans (Draft.grows_add _ (.jump d.labels.size)))
    exact grown.place (Nat.le_succ _)
  pools w := by
    obtain ⟨d₁, w₁, -⟩ := writes_loop.1 w
    exact (h _ _).pools w₁

theorem block {body : Nat → Emit Unit} (h : ∀ exit, (body exit).Tame) :
    (block body).Tame where
  draft {d} _ _ _ _ w := by
    obtain ⟨d₁, w₁, rfl⟩ := writes_block.1 w
    have start := d.grows_addLabel.trans (Draft.grows_entered _)
    exact (start.trans (((h _).draft w₁).trans (Draft.grows_left _))).place (Nat.le_refl _)
  pools w := by
    obtain ⟨d₁, w₁, -⟩ := writes_block.1 w
    exact (h _).pools w₁

/-! ### Small parts -/

theorem storeResult : storeResult.Tame := slot.bind fun _ => (emit _).bind fun _ => pure _

theorem checkpoint : checkpoint.Tame := slot.bind fun _ => (emit _).bind fun _ => pure _

theorem succeedWith (value : Operand) : (succeedWith value).Tame := (emit _).bind fun _ => emit _

theorem leaveOnFailure (exit : Nat) : (leaveOnFailure exit).Tame := emit _

theorem retreatOnFailure (back exit : Nat) : (retreatOnFailure back exit).Tame :=
  ifThen _ ((emit _).bind fun _ => emit _)

end Tame

/-! ### Functions -/

omit [Regex.Engine] in
theorem adds_define {f : Nat} {name : String} {params : List String} {body : Emit Unit}
    {p p' : Pools} {u : Unit} (h : (Build.define f name params body).Adds p u p') :
    ∃ draft p₁ function, body.Writes (Draft.begin name params p.maxBlocks) p () draft p₁ ∧
      draft.function = .ok function ∧
      p' = { p₁ with functions := p₁.functions.setIfInBounds f (some function) } := by
  simp only [Build.define, Build.adds_get_bind] at h
  obtain ⟨⟨u, draft⟩, p₁, h₁, h₂⟩ := Build.adds_bind.1 h
  obtain ⟨function, p₂, h₃, h₄⟩ := Build.adds_bind.1 h₂
  obtain ⟨done, rfl⟩ := Build.adds_lift.1 h₃
  exact ⟨draft, _, function, h₁, done, Build.adds_modify.1 h₄⟩

omit [Regex.Engine] in
theorem adds_defineNew {name : String} {params : List String} {body : Emit Unit}
    {p p' : Pools} {f : Nat} (h : (Build.defineNew name params body).Adds p f p') :
    f = p.functions.size ∧
    ∃ draft p₁ function,
      body.Writes (Draft.begin name params p.maxBlocks)
        { p with functions := p.functions.push none } () draft p₁ ∧
      draft.function = .ok function ∧
      p' = { p₁ with functions := p₁.functions.setIfInBounds f (some function) } := by
  obtain ⟨g, p₁, h₁, h₂⟩ := Build.adds_bind.1 h
  obtain ⟨rfl, rfl⟩ := Build.adds_reserve.1 h₁
  obtain ⟨u, p₂, h₃, h₄⟩ := Build.adds_bind.1 h₂
  obtain ⟨rfl, rfl⟩ := Build.adds_pure.1 h₄
  exact ⟨rfl, adds_define h₃⟩

/-- A function that is written below others leaves those below it alone. -/
theorem grows_function {p p₁ : Pools} {function : Packrat.Function}
    (h : Pools.Grows { p with functions := p.functions.push none } p₁) :
    p.Grows { p₁ with functions := p₁.functions.setIfInBounds p.functions.size (some function) } where
  literals := h.literals
  regexes := h.regexes
  hosts := h.hosts
  classes := h.classes
  failures := h.failures
  functions := by
    have := h.functions
    simp only [Array.size_push, Array.size_setIfInBounds] at this ⊢
    omega
  written f hf := by
    rw [Array.getElem?_setIfInBounds, if_neg (by omega), h.written f (by simp; omega)]
    simp [Array.getElem?_push, Nat.ne_of_lt hf]
  rules := h.rules
  rule := h.rule
  budget := h.budget
  sound := h.sound

theorem tame_defineNew {body : Emit Unit} (name : String) (params : List String)
    (h : body.Tame) : (Build.defineNew name params body).Tame where
  pools w := by
    obtain ⟨rfl, draft, p₁, function, w₁, -, rfl⟩ := adds_defineNew w
    exact grows_function (h.pools w₁)

/-- A round of a repetition, behind the test of its bound. -/
def attempt (item : Emit Unit) (staging err errPos exit : Nat) : Emit Unit := do
  let back ← checkpoint
  item
  ifThen .notStatus do
    emit (.store err .result)
    emit (.store errPos .position)
    emit (.restore back)
    emit (.jump exit)
  emit (.push staging .result)
  emit (.branch (.posEq back) exit)

/-- The end of a repetition: too few items are a failure. -/
def enough (staging err errPos : Nat) : Option Limit → Emit Unit
  | some least =>
    ifElse (.lenLt staging least)
      (do
        emit (.restore errPos)
        emit (.load (.slot err))
        emit (.setStatus false))
      (succeedWith (.slot staging))
  | none => succeedWith (.slot staging)

/-- Adds an instruction under a condition. -/
def emitIf (b : Bool) (i : Instr) : Emit Unit := if b then emit i else pure ()

/-- A round of separators and items. -/
def attemptPair (item separator : Emit Unit) (flags : SepFlags) (staging exit : Nat) :
    Emit Unit := do
  let back ← checkpoint
  separator
  retreatOnFailure back exit
  emitIf (!flags.discardSeparators) (.push staging .result)
  emitIf flags.allowTrailer (.store back .position)
  item
  ifThen .notStatus do
    emitIf (!flags.discardSeparators && !flags.allowTrailer) (.pop staging)
    emit (.restore back)
    emit (.jump exit)
  emit (.push staging .result)
  emit (.branch (.posEq back) exit)

omit [Regex.Engine] in
theorem separated_eq (item separator : Emit Unit) (flags : SepFlags) (staging : Nat) :
    separated item separator flags staging =
      loop fun _ exit => attemptPair item separator flags staging exit := by
  obtain ⟨discard, trailer, empty⟩ := flags
  cases discard <;> cases trailer <;> rfl

/-- The end of a list whose first item has failed. -/
def noItems (allowEmpty : Bool) (start out : Nat) : Emit Unit := do
  if allowEmpty then do
    emit (.restore start)
    let empty ← Build.emptyList
    succeedWith (.const empty)
  else pure ()
  emit (.jump out)

namespace Tame

variable {item separator inner left right : Emit Unit}

theorem ownFunction (e : Expr) (h : inner.Tame) : (ownFunction e inner).Tame :=
  lift (tame_defineNew _ _ h)

theorem outline (e : Expr) (h : inner.Tame) : (outline e inner).Tame :=
  (lookupAll _).bind fun _ => (ownFunction e h).bind fun _ => emit _

theorem within (e : Expr) (h : inner.Tame) : (within e inner).Tame := by
  refine get_bind fun d => ?_
  split
  · exact outline e h
  · exact h

theorem skipIgnored : skipIgnored.Tame :=
  (lift (Build.Tame.ruleFunction _)).bind fun _ => ifThen _ <|
    storeResult.bind fun _ => (emit _).bind fun _ => succeedWith _

theorem skipping (skip : Bool) :
    (if skip then Emit.skipIgnored else Pure.pure () : Emit Unit).Tame := by
  split
  · exact skipIgnored
  · exact pure _

theorem snippet (s : Snippet) : (snippet s).Tame :=
  (lookupAll _).bind fun _ => (lift (Build.Tame.host s)).bind fun _ => emit _

theorem limit? : (bound? : Option Bound) → (limit? bound?).Tame
  | none => pure _
  | some (.const _) => pure _
  | some (.host s) => (snippet s).bind fun _ => storeResult.bind fun _ => pure _

theorem boundFunction (name : String) : (b : Binding) → (boundFunction name b).Tame
  | .rule function => Build.Tame.ruleFunction function
  | .unresolved => Build.Tame.fault
  | .local => Build.Tame.fault

theorem callee (name : String) : (b : Binding) → (callee name b).Tame
  | .local => (lookup name).bind fun _ => pure _
  | .rule function => (lift (Build.Tame.ruleFunction function)).bind fun _ => pure _
  | .unresolved => fault

theorem parser (f : Nat) (captures : List Nat) : (parser f captures).Tame :=
  (emit _).bind fun _ => storeResult

/-! ### Expressions -/

theorem attempt (h : item.Tame) (staging err errPos exit : Nat) :
    (attempt item staging err errPos exit).Tame :=
  checkpoint.bind fun _ => h.bind fun _ => (ifThen _ ((emit _).bind fun _ => (emit _).bind fun _ =>
    (emit _).bind fun _ => emit _)).bind fun _ => (emit _).bind fun _ => emit _

theorem repetition (h : item.Tame) (staging err errPos : Nat) (most? : Option Limit) :
    (repetition item staging err errPos most?).Tame := by
  refine loop fun top exit => ?_
  cases most? with
  | none => exact attempt h staging err errPos exit
  | some most => exact (emit _).bind fun _ => attempt h staging err errPos exit

theorem enough (staging err errPos : Nat) :
    (least? : Option Limit) → (enough staging err errPos least?).Tame
  | some _ =>
    ifElse _ ((emit _).bind fun _ => (emit _).bind fun _ => emit _) (succeedWith _)
  | none => succeedWith _

theorem listOf (text : String) (h : item.Tame) (least most : Option Bound) :
    (listOf text item least most).Tame := by
  refine slot.bind fun _ => (emit _).bind fun _ => (lift (Build.Tame.failure _ _)).bind fun _ =>
    slot.bind fun _ => (emit _).bind fun _ => checkpoint.bind fun _ => (limit? least).bind fun _ =>
      (limit? most).bind fun _ => (repetition h _ _ _ _).bind fun _ => enough _ _ _ _

theorem emitIf (b : Bool) (i : Instr) : (emitIf b i).Tame := by
  cases b with
  | false => exact pure _
  | true => exact emit _

theorem attemptPair (h : item.Tame) (h' : separator.Tame) (flags : SepFlags)
    (staging exit : Nat) : (attemptPair item separator flags staging exit).Tame :=
  checkpoint.bind fun _ => h'.bind fun _ => (retreatOnFailure _ _).bind fun _ =>
    (emitIf _ _).bind fun _ => (emitIf _ _).bind fun _ => h.bind fun _ =>
      (ifThen _ ((emitIf _ _).bind fun _ => (emit _).bind fun _ => emit _)).bind fun _ =>
        (emit _).bind fun _ => emit _

theorem separated (h : item.Tame) (h' : separator.Tame) (flags : SepFlags) (staging : Nat) :
    (separated item separator flags staging).Tame := by
  rw [separated_eq]
  exact loop fun _ exit => attemptPair h h' flags staging exit

theorem noItems (allowEmpty : Bool) (start out : Nat) : (noItems allowEmpty start out).Tame := by
  cases allowEmpty with
  | false => exact emit _
  | true =>
      exact (emit _).bind fun _ => (lift Build.Tame.emptyList).bind fun _ =>
        (succeedWith _).bind fun _ => emit _

theorem sepOf (h : item.Tame) (h' : separator.Tame) (flags : SepFlags) :
    (sepOf item separator flags).Tame :=
  slot.bind fun _ => (emit _).bind fun _ => block fun _ => checkpoint.bind fun _ =>
    h.bind fun _ => (ifThen _ (noItems flags.allowEmpty _ _)).bind fun _ => (emit _).bind fun _ =>
      (separated h h' flags _).bind fun _ => succeedWith _

theorem both (h : left.Tame) (h' : right.Tame) (exit : Nat) : (both left right exit).Tame :=
  h.bind fun _ => (leaveOnFailure exit).bind fun _ => storeResult.bind fun _ => h'.bind fun _ =>
    (leaveOnFailure exit).bind fun _ => storeResult.bind fun _ => pure _

theorem keepOne (h : left.Tame) (h' : right.Tame) (discardLeft : Bool) :
    (keepOne left right discardLeft).Tame := by
  refine block fun exit => h.bind fun _ => (leaveOnFailure exit).bind fun _ => ?_
  split
  · exact h'
  · exact storeResult.bind fun _ => h'.bind fun _ => (leaveOnFailure exit).bind fun _ => emit _

theorem optional (h : inner.Tame) : (optional inner).Tame :=
  checkpoint.bind fun _ => (block fun _ => h).bind fun _ =>
    ifThen _ ((emit _).bind fun _ => succeedWith _)

theorem peek (h : inner.Tame) : (peek inner).Tame :=
  checkpoint.bind fun _ => (block fun _ => h).bind fun _ => emit _

theorem never (text innerText : String) (h : inner.Tame) : (never text innerText inner).Tame :=
  (peek h).bind fun _ => (lift (Build.Tame.failure _ _)).bind fun _ =>
    ifElse _ (emit _) (succeedWith _)

theorem keepFarthest (isFail : Bool) (farPos farErr : Nat) :
    (keepFarthest isFail farPos farErr).Tame :=
  ifThen _ ((emit _).bind fun _ => emit _)

theorem tried {back farPos farErr exit : Nat} {e : Expr} {es : List Expr} (h : e.emit.Tame)
    (rest : (emitAlternatives back farPos farErr exit false es).Tame) :
    (tried back farPos farErr exit e es).Tame := by
  refine (within e h).bind fun _ => ?_
  split
  · exact emit _
  · exact (emit _).bind fun _ => (keepFarthest _ _ _).bind fun _ => rest

theorem skipPart (top : Nat) (h : inner.Tame) : (skipPart top inner).Tame :=
  checkpoint.bind fun _ => h.bind fun _ => ifElse _ (emit _) (emit _)

theorem argument (h : inner.Tame) : (e : Expr) → (argument e inner).Tame := by
  intro e
  unfold Emit.argument
  split
  · exact lookup _
  · exact (lift (Build.Tame.ruleFunction _)).bind fun _ => parser _ _
  · exact (snippet _).bind fun _ => storeResult
  · exact (lookupAll _).bind fun _ => (ownFunction _ h).bind fun _ => parser _ _

/-! ### Operators -/

theorem operatorStep (h : inner.Tame) (below arity exit : Nat) :
    (operatorStep inner below arity exit).Tame :=
  checkpoint.bind fun _ => h.bind fun _ => (retreatOnFailure _ _).bind fun _ =>
    storeResult.bind fun _ => (emit _).bind fun _ => (retreatOnFailure _ _).bind fun _ => pure _

theorem level (fixity : Fixity) (h : inner.Tame) (below arity : Nat) :
    (level fixity inner below arity).Tame := by
  have leftLevel : ∀ once, (leftLevel once inner below arity).Tame := fun once =>
    block fun _ => (emit _).bind fun _ => (leaveOnFailure _).bind fun _ => storeResult.bind fun _ =>
      (loop fun _ _ => (operatorStep h below arity _).bind fun _ => (emit _).bind fun _ =>
        (emit _).bind fun _ => emit _).bind fun _ => succeedWith _
  cases fixity with
  | prefixOp =>
      exact slot.bind fun _ => (emit _).bind fun _ =>
        (loop fun _ _ => checkpoint.bind fun _ => h.bind fun _ => (retreatOnFailure _ _).bind fun _ =>
          (emit _).bind fun _ => emit _).bind fun _ => (emit _).bind fun _ => ifThen _ (emit _)
  | postfixOp =>
      exact block fun _ => (emit _).bind fun _ => (leaveOnFailure _).bind fun _ =>
        storeResult.bind fun _ => (loop fun _ _ => checkpoint.bind fun _ => h.bind fun _ =>
          (retreatOnFailure _ _).bind fun _ => (emit _).bind fun _ => (emit _).bind fun _ =>
            emit _).bind fun _ => succeedWith _
  | leftAssoc => exact leftLevel false
  | nonAssoc => exact leftLevel true
  | rightAssoc =>
      exact block fun _ => slot.bind fun _ => (emit _).bind fun _ => (emit _).bind fun _ =>
        (leaveOnFailure _).bind fun _ => (emit _).bind fun _ =>
          (loop fun _ _ => (operatorStep h below arity _).bind fun _ => (emit _).bind fun _ =>
            (emit _).bind fun _ => emit _).bind fun _ => (emit _).bind fun _ => emit _

end Tame

/-! ### Scopes -/

/-- A writer that lets the draft, up to its scope, and the pools grow only. -/
structure Loose (x : Emit α) : Prop where
  draft : ∀ {d p a d' p'}, x.Writes d p a d' p' → d.Grows { d' with scope := d.scope }
  pools : ∀ {d p a d' p'}, x.Writes d p a d' p' → p.Grows p'

theorem Tame.loose {x : Emit α} (h : x.Tame) : x.Loose where
  draft w := { h.draft w with scope := rfl }
  pools w := h.pools w

namespace Loose

theorem bind {x : Emit α} {f : α → Emit β} (hx : x.Loose) (hf : ∀ a, (f a).Loose) :
    (x >>= f).Loose where
  draft h := by
    obtain ⟨a, d₁, p₁, h₁, h₂⟩ := writes_bind.1 h
    exact (hx.draft h₁).trans ((hf a).draft h₂).withScope
  pools h := by
    obtain ⟨a, d₁, p₁, h₁, h₂⟩ := writes_bind.1 h
    exact (hx.pools h₁).trans ((hf a).pools h₂)

theorem bindName (name : String) (v : Nat) : (bindName name v).Loose where
  draft {d} _ _ _ _ h := by
    obtain ⟨rfl, -⟩ := writes_bindName.1 h
    exact .refl d
  pools h := by
    obtain ⟨-, rfl⟩ := writes_bindName.1 h
    exact .refl _

end Loose

theorem Tame.inScope {x : Emit α} (h : x.Loose) : (inScope x).Tame where
  draft w := by
    obtain ⟨d₁, w₁, rfl⟩ := writes_inScope.1 w
    exact h.draft w₁
  pools w := by
    obtain ⟨d₁, w₁, -⟩ := writes_inScope.1 w
    exact h.pools w₁

end Emit

open Emit in
mutual

/-- The code of an expression is written by a tame writer. -/
theorem Expr.emit_tame : (e : Expr) → e.emit.Tame
  | .str tag value flags => by
      rw [Expr.emit]
      refine (Tame.lift (.failure _ _)).bind fun _ => ?_
      dsimp only
      split
      · exact (Tame.lift (.regex _ _ _)).bind fun _ => (Tame.emit _).bind fun _ => .skipping _
      · exact (Tame.lift (.literal _)).bind fun _ => (Tame.emit _).bind fun _ => .skipping _
  | .regex tag pattern flags => by
      rw [Expr.emit]
      exact (Tame.lift (.regex _ _ _)).bind fun _ => (Tame.lift (.failure _ _)).bind fun _ =>
        (Tame.emit _).bind fun _ => .skipping _
  | .ref _ name binding => (Tame.callee name binding).bind fun _ => .emit _
  | .call _ name args binding => by
      rw [Expr.emit]
      exact (Tame.lift (Tame.boundFunction name binding)).bind fun _ => (emitArgs_tame args).bind
        fun _ => .emit _
  | .seq _ items none => by
      rw [Expr.emit]
      exact .block fun exit => (Tame.inScope (emitItems_loose exit [] items)).bind fun _ =>
        (Tame.emit _).bind fun _ => .emit _
  | .seq _ items (some c) => by
      rw [Expr.emit]
      exact (Tame.lift (.cls c)).bind fun _ => .block fun exit => Tame.checkpoint.bind fun _ =>
        (Tame.inScope (emitItems_loose exit c.fields items)).bind fun _ =>
          (Tame.emit _).bind fun _ => .emit _
  | .choice _ [only] => by
      rw [Expr.emit]
      exact .within only (Expr.emit_tame only)
  | .choice _ [] => by
      rw [Expr.emit]
      · exact Tame.checkpoint.bind fun _ => Tame.slot.bind fun _ => (Tame.emit _).bind fun _ =>
          Tame.slot.bind fun _ => (Tame.emit _).bind fun _ => .block fun exit =>
            emitAlternatives_tame _ _ _ exit true []
      · simp
  | .choice _ (e :: e' :: es) => by
      rw [Expr.emit]
      · exact Tame.checkpoint.bind fun _ => Tame.slot.bind fun _ => (Tame.emit _).bind fun _ =>
          Tame.slot.bind fun _ => (Tame.emit _).bind fun _ => .block fun exit =>
            emitAlternatives_tame _ _ _ exit true (e :: e' :: es)
      · simp
  | .list _ item least most => by
      rw [Expr.emit]
      exact .listOf _ (.within item (Expr.emit_tame item)) least most
  | .sep _ item separator flags => by
      rw [Expr.emit]
      exact .sepOf (.within item (Expr.emit_tame item))
        (.within separator (Expr.emit_tame separator)) flags
  | .opt _ inner => by
      rw [Expr.emit]
      exact .optional (.within inner (Expr.emit_tame inner))
  | .apply _ left right applyLeft => by
      rw [Expr.emit]
      exact .block fun exit => (Tame.both (.within left (Expr.emit_tame left))
        (.within right (Expr.emit_tame right)) exit).bind fun _ => .emit _
  | .discard _ left right discardLeft => by
      rw [Expr.emit]
      exact .keepOne (.within left (Expr.emit_tame left)) (.within right (Expr.emit_tame right))
        discardLeft
  | .expect _ inner => by
      rw [Expr.emit]
      exact .peek (.within inner (Expr.emit_tame inner))
  | .expectNot _ inner => by
      rw [Expr.emit]
      exact .never _ _ (.within inner (Expr.emit_tame inner))
  | .fail _ _ => (Tame.lift (.failure _ _)).bind fun _ => .emit _
  | .bound _ name value body => by
      rw [Expr.emit]
      exact .block fun exit => (Tame.within value (Expr.emit_tame value)).bind fun _ =>
        (Tame.leaveOnFailure exit).bind fun _ => Tame.storeResult.bind fun v =>
          Tame.inScope ((Loose.bindName name v).bind fun _ =>
            (Tame.within body (Expr.emit_tame body)).loose)
  | .satisfying _ inner predicate => by
      rw [Expr.emit]
      exact (Tame.lift (.failure _ _)).bind fun _ => .block fun exit =>
        (Tame.both (.within inner (Expr.emit_tame inner))
          (.within predicate (Expr.emit_tame predicate)) exit).bind fun _ => .emit _
  | .skip _ items => by
      rw [Expr.emit]
      exact (Tame.loop fun top exit => (emitSkipped_tame top items).bind fun _ =>
        Tame.emit _).bind fun _ => .succeedWith _
  | .host _ s => Tame.snippet s
  | .operators tag atom levels => by
      rw [Expr.emit]
      exact (Tame.lookupAll _).bind fun args =>
        (Tame.lift (tame_defineNew _ _ (.within atom (Expr.emit_tame atom)))).bind fun _ =>
          (Tame.lift (emitLevels_tame _ _ _ _ levels)).bind fun _ => .emit _

theorem emitItems_loose (exit : Nat) (fields : List String) :
    (items : List Expr) → (emitItems exit fields items).Loose
  | [] => (Tame.pure []).loose
  | e :: es => by
      rw [emitItems]
      refine (Tame.within e (Expr.emit_tame e)).loose.bind fun _ =>
        (Tame.leaveOnFailure exit).loose.bind fun _ => Tame.storeResult.loose.bind fun v => ?_
      have rest : ∀ _ : PUnit, Loose (do
          let vs ← emitItems exit (fields.drop 1) es
          Pure.pure (v :: vs)) :=
        fun _ => (emitItems_loose exit (fields.drop 1) es).bind fun _ => (Tame.pure _).loose
      dsimp only
      split
      · exact (Loose.bindName _ v).bind rest
      · exact rest ⟨⟩

theorem emitAlternatives_tame (back farPos farErr exit : Nat) (isFirst : Bool) :
    (es : List Expr) → (emitAlternatives back farPos farErr exit isFirst es).Tame
  | [] => (Tame.emit _).bind fun _ => (Tame.emit _).bind fun _ => .emit _
  | e :: es => by
      have tried := Tame.tried (Expr.emit_tame e)
        (emitAlternatives_tame back farPos farErr exit false es)
      cases isFirst with
      | true =>
          rw [alternatives_first]
          exact tried
      | false =>
          rw [alternatives_next]
          exact (Tame.emit _).bind fun _ => tried

theorem emitSkipped_tame (top : Nat) : (es : List Expr) → (emitSkipped top es).Tame
  | [] => .pure _
  | e :: es => by
      rw [emitSkipped]
      exact (Tame.skipPart top (.within e (Expr.emit_tame e))).bind fun _ => emitSkipped_tame top es

theorem emitArgs_tame : (args : List (Option String × Expr)) → (emitArgs args).Tame
  | [] => .pure _
  | (_, e) :: rest => by
      rw [emitArgs]
      exact (Tame.argument (Expr.emit_tame e) e).bind fun _ => (emitArgs_tame rest).bind fun _ =>
        .pure _

theorem emitLevels_tame (id : Nat) (params : List String) (below index : Nat) :
    (levels : List (Fixity × Expr)) → (emitLevels id params below index levels).Tame
  | [] => .pure _
  | (fixity, operator) :: rest => by
      rw [emitLevels]
      exact (tame_defineNew _ _ (.level fixity (.within operator (Expr.emit_tame operator))
        below params.length)).bind fun f => emitLevels_tame id params f (index + 1) rest

end

end Packrat
