import Packrat.Proofs.Analysis.Classes
import Packrat.Proofs.Analysis.Snippets
import Packrat.Proofs.Emission.Tame

/-
**Host code and classes of programs.**

The host code of a program is that of the expressions it was compiled from, and so are its classes: no
writer adds any but those of an expression itself.  So what holds of all host code of an expression holds
of all that its code evaluates, and where the classes of an expression are known it adds none.

Main definitions:

* `Packrat.Stock`, `Packrat.Pools.Holds` — what is asked of the host code and the classes of pools;
* `Packrat.Build.Retains`, `Packrat.Emit.Retains` — writers that only add what is asked for.

Main results:

* `Packrat.Expr.emit_retains`, `Packrat.Definition.emit_retains` — **the code of an expression adds host
  code and classes of the expression only**.
-/

set_option autoImplicit false

namespace Packrat

variable {α β : Type}

/-- What is asked of each piece of host code and of the classes of a program. -/
structure Stock where
  snippet : Snippet → Prop
  classes : Array NodeClass → Prop

/-- A class that may be added where none of its name is known. -/
def Stock.Admits (S : Stock) (c : NodeClass) : Prop :=
  ∀ cs : Array NodeClass, S.classes cs → cs.findIdx? (·.name == c.name) = none → S.classes (cs.push c)

variable {S : Stock}

/-- Pools that hold what is asked for. -/
structure Pools.Holds (S : Stock) (p : Pools) : Prop where
  hosts : ∀ s ∈ p.hosts, S.snippet s
  classes : S.classes p.classes

theorem Pools.Holds.of_eq {p p' : Pools} (h : p.Holds S) (hosts : p'.hosts = p.hosts)
    (classes : p'.classes = p.classes) : p'.Holds S :=
  ⟨fun s mem => h.hosts s (hosts ▸ mem), classes ▸ h.classes⟩

namespace Build

/-- A writer of constants that only adds what is asked for. -/
def Retains (S : Stock) (x : Build α) : Prop :=
  ∀ ⦃p : Pools⦄ ⦃a : α⦄ ⦃p' : Pools⦄, x.Adds p a p' → p.Holds S → p'.Holds S

namespace Retains

theorem of_eq {x : Build α} (h : ∀ ⦃p : Pools⦄ ⦃a : α⦄ ⦃p' : Pools⦄, x.Adds p a p' →
    p'.hosts = p.hosts ∧ p'.classes = p.classes) : x.Retains S :=
  fun _ _ _ w holds => holds.of_eq (h w).1 (h w).2

theorem pure (a : α) : (Pure.pure a : Build α).Retains S :=
  of_eq fun _ _ _ w => by
    rw [(adds_pure.1 w).2]
    exact ⟨rfl, rfl⟩

theorem bind {x : Build α} {f : α → Build β} (hx : x.Retains S) (hf : ∀ a, (f a).Retains S) :
    (x >>= f).Retains S := by
  intro p b p' w holds
  obtain ⟨a, p₁, h₁, h₂⟩ := adds_bind.1 w
  exact hf a h₂ (hx h₁ holds)

theorem fault {f : Fault} : (liftM (Packrat.fault f : Except Failure α) : Build α).Retains S :=
  fun _ _ _ w => absurd w not_adds_fault

theorem pooled {γ : Type} {pool : Pools → Array γ} {extend : Pools → Array γ → Pools}
    {isEntry : γ → Bool} {entry : γ}
    (same : ∀ p xs, (extend p xs).hosts = p.hosts ∧ (extend p xs).classes = p.classes) :
    (Build.pooled pool extend isEntry entry).Retains S := by
  refine of_eq fun p n p' w => ?_
  simp only [Build.pooled, adds_get_bind] at w
  split at w
  · rw [(adds_pure.1 w).2]
    exact ⟨rfl, rfl⟩
  · rw [adds_set_bind] at w
    rw [(adds_pure.1 w).2]
    exact same _ _

theorem literal (bytes : List UInt8) : (Build.literal bytes).Retains S := pooled fun _ _ => ⟨rfl, rfl⟩

theorem cls {c : NodeClass} (h : S.Admits c) : (Build.cls c).Retains S := by
  intro p n p' w holds
  simp only [Build.cls, Build.pooled, adds_get_bind] at w
  split at w
  · rw [(adds_pure.1 w).2]
    exact holds
  · next unknown =>
      rw [adds_set_bind] at w
      rw [(adds_pure.1 w).2]
      exact ⟨holds.hosts, h _ holds.classes unknown⟩

theorem regex [Regex.Engine] (pattern : String) (ignoreCase binary : Bool) :
    (Build.regex pattern ignoreCase binary).Retains S := by
  refine of_eq fun p n p' w => ?_
  simp only [Build.regex, adds_get_bind] at w
  split at w
  · rw [(adds_pure.1 w).2]
    exact ⟨rfl, rfl⟩
  · obtain ⟨r, p₁, h₁, w⟩ := adds_bind.1 w
    obtain ⟨-, rfl⟩ := adds_lift.1 h₁
    rw [adds_set_bind] at w
    rw [(adds_pure.1 w).2]
    exact ⟨rfl, rfl⟩

theorem host {s : Snippet} (h : S.snippet s) : (Build.host s).Retains S := by
  intro p n p' w holds
  simp only [Build.host, adds_get_bind, adds_set_bind] at w
  obtain ⟨rfl, rfl⟩ := adds_pure.1 w
  refine ⟨fun t mem => ?_, holds.classes⟩
  rcases Array.mem_push.1 mem with mem | rfl
  · exact holds.hosts t mem
  · exact h

theorem failure (expr : String) (e : Expectation) : (Build.failure expr e).Retains S := by
  refine of_eq fun p n p' w => ?_
  simp only [Build.failure, adds_get_bind, adds_set_bind] at w
  rw [(adds_pure.1 w).2]
  exact ⟨rfl, rfl⟩

theorem emptyList : Build.emptyList.Retains S := by
  refine of_eq fun p n p' w => ?_
  simp only [Build.emptyList, adds_get_bind, adds_set_bind] at w
  rw [(adds_pure.1 w).2]
  exact ⟨rfl, rfl⟩

theorem ruleFunction (name : String) : (Build.ruleFunction name).Retains S :=
  of_eq fun _ _ _ w => by
    rw [(adds_ruleFunction w).1]
    exact ⟨rfl, rfl⟩

end Retains

end Build

namespace Emit

/-- A writer that only adds what is asked for. -/
def Retains (S : Stock) (x : Emit α) : Prop :=
  ∀ ⦃d : Draft⦄ ⦃p : Pools⦄ ⦃a : α⦄ ⦃d' : Draft⦄ ⦃p' : Pools⦄, x.Writes d p a d' p' →
    p.Holds S → p'.Holds S

namespace Retains

theorem of_eq {x : Emit α} (h : ∀ ⦃d : Draft⦄ ⦃p : Pools⦄ ⦃a : α⦄ ⦃d' : Draft⦄ ⦃p' : Pools⦄,
    x.Writes d p a d' p' → p' = p) : x.Retains S := fun _ _ _ _ _ w holds => h w ▸ holds

theorem pure (a : α) : (Pure.pure a : Emit α).Retains S :=
  of_eq fun _ _ _ _ _ w => (writes_pure.1 w).2.2

theorem bind {x : Emit α} {f : α → Emit β} (hx : x.Retains S) (hf : ∀ a, (f a).Retains S) :
    (x >>= f).Retains S := by
  intro d p b d' p' w holds
  obtain ⟨a, d₁, p₁, h₁, h₂⟩ := writes_bind.1 w
  exact hf a h₂ (hx h₁ holds)

theorem get_bind {f : Draft → Emit β} (hf : ∀ d, (f d).Retains S) :
    (MonadState.get >>= f : Emit β).Retains S := fun d _ _ _ _ w => hf d w

theorem lift {x : Build α} (hx : x.Retains S) : (liftM x : Emit α).Retains S :=
  fun _ _ _ _ _ w => hx (writes_lift.1 w).1

theorem fault {f : Fault} : (liftM (Packrat.fault f : Except Failure α) : Emit α).Retains S :=
  fun _ _ _ _ _ w => absurd w not_writes_fault

theorem emit (i : Instr) : (Emit.emit i).Retains S := of_eq fun _ _ _ _ _ w => (writes_emit.1 w).2

theorem slot : Emit.slot.Retains S := of_eq fun _ _ _ _ _ w => (writes_slot.1 w).2.2

theorem lookup (name : String) : (Emit.lookup name).Retains S :=
  of_eq fun _ _ _ _ _ w => (writes_lookup.1 w).2.2

theorem lookupAll (names : List String) : (Emit.lookupAll names).Retains S :=
  of_eq fun _ _ _ _ _ w => (writes_lookupAll.1 w).2.2

theorem bindName (name : String) (v : Nat) : (Emit.bindName name v).Retains S :=
  of_eq fun _ _ _ _ _ w => (writes_bindName.1 w).2

theorem inScope {x : Emit α} (h : x.Retains S) : (Emit.inScope x).Retains S := by
  intro d p a d' p' w
  obtain ⟨d₁, w₁, -⟩ := writes_inScope.1 w
  exact h w₁

/-! ### Control flow -/

theorem ifThen {body : Emit Unit} (c : Condition) (h : body.Retains S) :
    (Emit.ifThen c body).Retains S := by
  intro d p u d' p' w
  obtain ⟨d₁, w₁, -⟩ := writes_ifThen.1 w
  exact h w₁

theorem ifElse {thenPart elsePart : Emit Unit} (c : Condition) (h : thenPart.Retains S)
    (h' : elsePart.Retains S) : (Emit.ifElse c thenPart elsePart).Retains S := by
  intro d p u d' p' w holds
  obtain ⟨d₁, p₁, d₂, w₁, w₂, -⟩ := writes_ifElse.1 w
  exact h' w₂ (h w₁ holds)

theorem loop {body : Nat → Nat → Emit Unit} (h : ∀ top exit, (body top exit).Retains S) :
    (Emit.loop body).Retains S := by
  intro d p u d' p' w
  obtain ⟨d₁, w₁, -⟩ := writes_loop.1 w
  exact h _ _ w₁

theorem block {body : Nat → Emit Unit} (h : ∀ exit, (body exit).Retains S) :
    (Emit.block body).Retains S := by
  intro d p u d' p' w
  obtain ⟨d₁, w₁, -⟩ := writes_block.1 w
  exact h _ w₁

/-! ### Small parts -/

variable {item separator inner left right : Emit Unit}

theorem storeResult : Emit.storeResult.Retains S := slot.bind fun _ => (emit _).bind fun _ => pure _

theorem checkpoint : Emit.checkpoint.Retains S := slot.bind fun _ => (emit _).bind fun _ => pure _

theorem succeedWith (value : Operand) : (Emit.succeedWith value).Retains S :=
  (emit _).bind fun _ => emit _

theorem leaveOnFailure (exit : Nat) : (Emit.leaveOnFailure exit).Retains S := emit _

theorem retreatOnFailure (back exit : Nat) : (Emit.retreatOnFailure back exit).Retains S :=
  ifThen _ ((emit _).bind fun _ => emit _)

theorem emitIf (b : Bool) (i : Instr) : (Emit.emitIf b i).Retains S := by
  cases b with
  | false => exact pure _
  | true => exact emit _

theorem define (f : Nat) (name : String) (params : List String) (h : inner.Retains S) :
    (Build.define f name params inner).Retains S := by
  intro p u p' w holds
  obtain ⟨draft, p₁, function, w₁, -, rfl⟩ := adds_define w
  exact (h w₁ holds).of_eq rfl rfl

theorem defineNew (name : String) (params : List String) (h : inner.Retains S) :
    (Build.defineNew name params inner).Retains S := by
  intro p f p' w holds
  obtain ⟨-, draft, p₁, function, w₁, -, rfl⟩ := adds_defineNew w
  exact (h w₁ (holds.of_eq rfl rfl)).of_eq rfl rfl

theorem ownFunction (e : Expr) (h : inner.Retains S) : (Emit.ownFunction e inner).Retains S :=
  lift (defineNew _ _ h)

theorem within (e : Expr) (h : inner.Retains S) : (Emit.within e inner).Retains S := by
  refine get_bind fun d => ?_
  split
  · exact (lookupAll _).bind fun _ => (ownFunction e h).bind fun _ => emit _
  · exact h

theorem skipIgnored (skip : Bool) :
    (if skip then Emit.skipIgnored else Pure.pure () : Emit Unit).Retains S := by
  split
  · exact (lift (Build.Retains.ruleFunction _)).bind fun _ => ifThen _ <|
      storeResult.bind fun _ => (emit _).bind fun _ => succeedWith _
  · exact pure _

theorem snippet {s : Snippet} (h : S.snippet s) : (Emit.snippet s).Retains S :=
  (lookupAll _).bind fun _ => (lift (Build.Retains.host h)).bind fun _ => emit _

theorem limit? : {bound? : Option Bound} → (∀ s ∈ Bound.snippets bound?, S.snippet s) →
    (Emit.limit? bound?).Retains S
  | none, _ => pure _
  | some (.const _), _ => pure _
  | some (.host s), h => (snippet (h s (List.mem_singleton_self _))).bind fun _ =>
      storeResult.bind fun _ => pure _

theorem boundFunction (name : String) : (b : Binding) → (Emit.boundFunction name b).Retains S
  | .rule function => Build.Retains.ruleFunction function
  | .unresolved | .local => Build.Retains.fault

theorem callee (name : String) : (b : Binding) → (Emit.callee name b).Retains S
  | .local => (lookup name).bind fun _ => pure _
  | .rule function => (lift (Build.Retains.ruleFunction function)).bind fun _ => pure _
  | .unresolved => fault

theorem parser (f : Nat) (captures : List Nat) : (Emit.parser f captures).Retains S :=
  (emit _).bind fun _ => storeResult

/-! ### Forms -/

theorem attempt (h : item.Retains S) (staging err errPos exit : Nat) :
    (Emit.attempt item staging err errPos exit).Retains S :=
  checkpoint.bind fun _ => h.bind fun _ => (ifThen _ ((emit _).bind fun _ => (emit _).bind fun _ =>
    (emit _).bind fun _ => emit _)).bind fun _ => (emit _).bind fun _ => emit _

theorem repetition (h : item.Retains S) (staging err errPos : Nat) (most? : Option Limit) :
    (Emit.repetition item staging err errPos most?).Retains S := by
  refine loop fun top exit => ?_
  cases most? with
  | none => exact attempt h staging err errPos exit
  | some most => exact (emit _).bind fun _ => attempt h staging err errPos exit

theorem enough (staging err errPos : Nat) : (least? : Option Limit) →
    (Emit.enough staging err errPos least?).Retains S
  | some _ =>
    ifElse _ ((emit _).bind fun _ => (emit _).bind fun _ => emit _) (succeedWith _)
  | none => succeedWith _

theorem listOf (text : String) (h : item.Retains S) {least most : Option Bound}
    (low : ∀ s ∈ Bound.snippets least, S.snippet s) (high : ∀ s ∈ Bound.snippets most, S.snippet s) :
    (Emit.listOf text item least most).Retains S :=
  slot.bind fun _ => (emit _).bind fun _ => (lift (.failure _ _)).bind fun _ => slot.bind fun _ =>
    (emit _).bind fun _ => checkpoint.bind fun _ => (limit? low).bind fun _ =>
      (limit? high).bind fun _ => (repetition h _ _ _ _).bind fun _ => enough _ _ _ _

theorem separated (h : item.Retains S) (h' : separator.Retains S) (flags : SepFlags)
    (staging : Nat) : (Emit.separated item separator flags staging).Retains S := by
  rw [separated_eq]
  exact loop fun _ exit => checkpoint.bind fun _ => h'.bind fun _ => (retreatOnFailure _ _).bind
    fun _ => (emitIf _ _).bind fun _ => (emitIf _ _).bind fun _ => h.bind fun _ =>
      (ifThen _ ((emitIf _ _).bind fun _ => (emit _).bind fun _ => emit _)).bind fun _ =>
        (emit _).bind fun _ => emit _

theorem noItems (allowEmpty : Bool) (start out : Nat) :
    (Emit.noItems allowEmpty start out).Retains S := by
  cases allowEmpty with
  | false => exact emit _
  | true =>
      exact (emit _).bind fun _ => (lift Build.Retains.emptyList).bind fun _ =>
        (succeedWith _).bind fun _ => emit _

theorem sepOf (h : item.Retains S) (h' : separator.Retains S) (flags : SepFlags) :
    (Emit.sepOf item separator flags).Retains S :=
  slot.bind fun _ => (emit _).bind fun _ => block fun _ => checkpoint.bind fun _ =>
    h.bind fun _ => (ifThen _ (noItems flags.allowEmpty _ _)).bind fun _ => (emit _).bind fun _ =>
      (separated h h' flags _).bind fun _ => succeedWith _

theorem both (h : left.Retains S) (h' : right.Retains S) (exit : Nat) :
    (Emit.both left right exit).Retains S :=
  h.bind fun _ => (leaveOnFailure exit).bind fun _ => storeResult.bind fun _ => h'.bind fun _ =>
    (leaveOnFailure exit).bind fun _ => storeResult.bind fun _ => pure _

theorem keepOne (h : left.Retains S) (h' : right.Retains S) (discardLeft : Bool) :
    (Emit.keepOne left right discardLeft).Retains S := by
  refine block fun exit => h.bind fun _ => (leaveOnFailure exit).bind fun _ => ?_
  split
  · exact h'
  · exact storeResult.bind fun _ => h'.bind fun _ => (leaveOnFailure exit).bind fun _ => emit _

theorem optional (h : inner.Retains S) : (Emit.optional inner).Retains S :=
  checkpoint.bind fun _ => (block fun _ => h).bind fun _ =>
    ifThen _ ((emit _).bind fun _ => succeedWith _)

theorem peek (h : inner.Retains S) : (Emit.peek inner).Retains S :=
  checkpoint.bind fun _ => (block fun _ => h).bind fun _ => emit _

theorem never (text innerText : String) (h : inner.Retains S) :
    (Emit.never text innerText inner).Retains S :=
  (peek h).bind fun _ => (lift (.failure _ _)).bind fun _ => ifElse _ (emit _) (succeedWith _)

theorem keepFarthest (isFail : Bool) (farPos farErr : Nat) :
    (Emit.keepFarthest isFail farPos farErr).Retains S :=
  ifThen _ ((emit _).bind fun _ => emit _)

theorem skipPart (top : Nat) (h : inner.Retains S) : (Emit.skipPart top inner).Retains S :=
  checkpoint.bind fun _ => h.bind fun _ => ifElse _ (emit _) (emit _)

theorem argument (h : inner.Retains S) : {e : Expr} → (∀ s ∈ e.snippets, S.snippet s) →
    (Emit.argument e inner).Retains S := by
  intro e own
  unfold Emit.argument
  split
  · exact lookup _
  · exact (lift (Build.Retains.ruleFunction _)).bind fun _ => parser _ _
  · exact (snippet (own _ (List.mem_singleton_self _))).bind fun _ => storeResult
  · exact (lookupAll _).bind fun _ => (ownFunction _ h).bind fun _ => parser _ _

theorem operatorStep (h : inner.Retains S) (below arity exit : Nat) :
    (Emit.operatorStep inner below arity exit).Retains S :=
  checkpoint.bind fun _ => h.bind fun _ => (retreatOnFailure _ _).bind fun _ =>
    storeResult.bind fun _ => (emit _).bind fun _ => (retreatOnFailure _ _).bind fun _ => pure _

theorem level (fixity : Fixity) (h : inner.Retains S) (below arity : Nat) :
    (Emit.level fixity inner below arity).Retains S := by
  have leftLevel : ∀ once, (Emit.leftLevel once inner below arity).Retains S := fun once =>
    block fun _ => (emit _).bind fun _ => (leaveOnFailure _).bind fun _ => storeResult.bind fun _ =>
      (loop fun _ _ => (operatorStep h below arity _).bind fun _ => (emit _).bind fun _ =>
        (emit _).bind fun _ => emit _).bind fun _ => succeedWith _
  cases fixity with
  | prefixOp =>
      exact slot.bind fun _ => (emit _).bind fun _ =>
        (loop fun _ _ => checkpoint.bind fun _ => h.bind fun _ => (retreatOnFailure _ _).bind fun _ =>
          (emit _).bind fun _ => emit _).bind fun _ => (emit _).bind fun _ => ifThen _ (emit _)
  | postfixOp =>
      exact block fun _ => (emit _).bind fun _ => (leaveOnFailure _).bind fun _ =>
        storeResult.bind fun _ => (loop fun _ _ => checkpoint.bind fun _ => h.bind fun _ =>
          (retreatOnFailure _ _).bind fun _ => (emit _).bind fun _ => (emit _).bind fun _ =>
            emit _).bind fun _ => succeedWith _
  | leftAssoc => exact leftLevel false
  | nonAssoc => exact leftLevel true
  | rightAssoc =>
      exact block fun _ => slot.bind fun _ => (emit _).bind fun _ => (emit _).bind fun _ =>
        (leaveOnFailure _).bind fun _ => (emit _).bind fun _ =>
          (loop fun _ _ => (operatorStep h below arity _).bind fun _ => (emit _).bind fun _ =>
            (emit _).bind fun _ => emit _).bind fun _ => (emit _).bind fun _ => emit _

end Retains

end Emit

/-- An expression all of whose host code may be there, and all of whose classes may be added. -/
abbrev Expr.Hosted (S : Stock) (e : Expr) : Prop :=
  e.Every fun e => (∀ s ∈ e.snippets, S.snippet s) ∧ ∀ c, e.cls? = some c → S.Admits c

open Emit in
mutual

/-- The code of an expression adds host code and classes of the expression only. -/
theorem Expr.emit_retains [Regex.Engine] : (e : Expr) → e.Hosted S → e.emit.Retains S
  | .str tag value flags, _ => by
      rw [Expr.emit]
      refine (Retains.lift (.failure _ _)).bind fun _ => ?_
      dsimp only
      split
      · exact (Retains.lift (.regex _ _ _)).bind fun _ => (Retains.emit _).bind fun _ => .skipIgnored _
      · exact (Retains.lift (.literal _)).bind fun _ => (Retains.emit _).bind fun _ => .skipIgnored _
  | .regex tag pattern flags, _ => by
      rw [Expr.emit]
      exact (Retains.lift (.regex _ _ _)).bind fun _ => (Retains.lift (.failure _ _)).bind fun _ =>
        (Retains.emit _).bind fun _ => .skipIgnored _
  | .ref _ name binding, _ => (Retains.callee name binding).bind fun _ => .emit _
  | .call _ name args binding, h => by
      rw [Expr.emit]
      exact (Retains.lift (Retains.boundFunction name binding)).bind fun _ =>
        (emitArgs_retains args h.parts).bind fun _ => .emit _
  | .seq _ items none, h => by
      rw [Expr.emit]
      exact .block fun exit => (Retains.inScope (emitItems_retains exit [] items h.parts)).bind fun _ =>
        (Retains.emit _).bind fun _ => .emit _
  | .seq _ items (some c), h => by
      rw [Expr.emit]
      exact (Retains.lift (.cls (h.here.2 c rfl))).bind fun _ =>
        .block fun exit => Retains.checkpoint.bind fun _ =>
        (Retains.inScope (emitItems_retains exit c.fields items h.parts)).bind fun _ =>
          (Retains.emit _).bind fun _ => .emit _
  | .choice _ [only], h => by
      rw [Expr.emit]
      exact .within only (only.emit_retains (h.parts only (List.mem_singleton_self _)))
  | .choice _ [], _ => by
      rw [Expr.emit]
      · exact Retains.checkpoint.bind fun _ => Retains.slot.bind fun _ => (Retains.emit _).bind fun _ =>
          Retains.slot.bind fun _ => (Retains.emit _).bind fun _ => .block fun exit =>
            emitAlternatives_retains _ _ _ exit true [] (by simp)
      · simp
  | .choice _ (e :: e' :: es), h => by
      rw [Expr.emit]
      · exact Retains.checkpoint.bind fun _ => Retains.slot.bind fun _ => (Retains.emit _).bind fun _ =>
          Retains.slot.bind fun _ => (Retains.emit _).bind fun _ => .block fun exit =>
            emitAlternatives_retains _ _ _ exit true (e :: e' :: es) h.parts
      · simp
  | .list _ item least most, h => by
      rw [Expr.emit]
      have own := h.here.1
      exact .listOf _ (.within item (item.emit_retains (h.parts item (List.mem_singleton_self _))))
        (fun s mem => own s (List.mem_append_left _ mem))
        (fun s mem => own s (List.mem_append_right _ mem))
  | .sep _ item separator flags, h => by
      rw [Expr.emit]
      exact .sepOf (.within item (item.emit_retains (h.parts item (by simp [Expr.children]))))
        (.within separator (separator.emit_retains (h.parts separator (by simp [Expr.children])))) flags
  | .opt _ inner, h => by
      rw [Expr.emit]
      exact .optional (.within inner (inner.emit_retains (h.parts inner (by simp [Expr.children]))))
  | .apply _ left right applyLeft, h => by
      rw [Expr.emit]
      exact .block fun exit => (Retains.both
        (.within left (left.emit_retains (h.parts left (by simp [Expr.children]))))
        (.within right (right.emit_retains (h.parts right (by simp [Expr.children])))) exit).bind
          fun _ => .emit _
  | .discard _ left right discardLeft, h => by
      rw [Expr.emit]
      exact .keepOne (.within left (left.emit_retains (h.parts left (by simp [Expr.children]))))
        (.within right (right.emit_retains (h.parts right (by simp [Expr.children])))) discardLeft
  | .expect _ inner, h => by
      rw [Expr.emit]
      exact .peek (.within inner (inner.emit_retains (h.parts inner (by simp [Expr.children]))))
  | .expectNot _ inner, h => by
      rw [Expr.emit]
      exact .never _ _ (.within inner (inner.emit_retains (h.parts inner (by simp [Expr.children]))))
  | .fail _ _, _ => (Retains.lift (.failure _ _)).bind fun _ => .emit _
  | .bound _ name value body, h => by
      rw [Expr.emit]
      exact .block fun exit =>
        (Retains.within value (value.emit_retains (h.parts value (by simp [Expr.children])))).bind fun _ =>
          (Retains.leaveOnFailure exit).bind fun _ => Retains.storeResult.bind fun v =>
            Retains.inScope ((Retains.bindName name v).bind fun _ =>
              Retains.within body (body.emit_retains (h.parts body (by simp [Expr.children]))))
  | .satisfying _ inner predicate, h => by
      rw [Expr.emit]
      exact (Retains.lift (.failure _ _)).bind fun _ => .block fun exit => (Retains.both
        (.within inner (inner.emit_retains (h.parts inner (by simp [Expr.children]))))
        (.within predicate (predicate.emit_retains (h.parts predicate (by simp [Expr.children])))) exit).bind
          fun _ => .emit _
  | .skip _ items, h => by
      rw [Expr.emit]
      exact (Retains.loop fun top exit => (emitSkipped_retains top items h.parts).bind fun _ =>
        Retains.emit _).bind fun _ => .succeedWith _
  | .host _ s, h => Retains.snippet (h.here.1 s (List.mem_singleton_self _))
  | .operators tag atom levels, h => by
      rw [Expr.emit]
      exact (Retains.lookupAll _).bind fun args => (Retains.lift (Retains.defineNew _ _
        (.within atom (atom.emit_retains (h.parts atom (by simp [Expr.children])))))).bind fun _ =>
          (Retains.lift (emitLevels_retains _ _ _ _ levels fun c mem =>
            h.parts c (List.mem_cons_of_mem _ mem))).bind fun _ => .emit _

theorem emitItems_retains [Regex.Engine] (exit : Nat) (fields : List String) :
    (items : List Expr) → (∀ e ∈ items, e.Hosted S) → (emitItems exit fields items).Retains S
  | [], _ => Retains.pure []
  | e :: es, h => by
      rw [emitItems]
      refine (Retains.within e (e.emit_retains (h e List.mem_cons_self))).bind fun _ =>
        (Retains.leaveOnFailure exit).bind fun _ => Retains.storeResult.bind fun v => ?_
      have rest : ∀ _ : PUnit, Retains S (do
          let vs ← emitItems exit (fields.drop 1) es
          Pure.pure (v :: vs)) :=
        fun _ => (emitItems_retains exit (fields.drop 1) es fun c mem =>
          h c (List.mem_cons_of_mem _ mem)).bind fun _ => Retains.pure _
      dsimp only
      split
      · exact (Retains.bindName _ v).bind rest
      · exact rest ⟨⟩

theorem emitAlternatives_retains [Regex.Engine] (back farPos farErr exit : Nat) (isFirst : Bool) :
    (es : List Expr) → (∀ e ∈ es, e.Hosted S) →
      (emitAlternatives back farPos farErr exit isFirst es).Retains S
  | [], _ => (Retains.emit _).bind fun _ => (Retains.emit _).bind fun _ => .emit _
  | e :: es, h => by
      have tried : (tried back farPos farErr exit e es).Retains S := by
        refine (Retains.within e (e.emit_retains (h e List.mem_cons_self))).bind fun _ => ?_
        split
        · exact .emit _
        · exact (Retains.emit _).bind fun _ => (Retains.keepFarthest _ _ _).bind fun _ =>
            emitAlternatives_retains back farPos farErr exit false es fun c mem =>
              h c (List.mem_cons_of_mem _ mem)
      cases isFirst with
      | true =>
          rw [alternatives_first]
          exact tried
      | false =>
          rw [alternatives_next]
          exact (Retains.emit _).bind fun _ => tried

theorem emitSkipped_retains [Regex.Engine] (top : Nat) : (es : List Expr) → (∀ e ∈ es, e.Hosted S) →
    (emitSkipped top es).Retains S
  | [], _ => .pure _
  | e :: es, h => by
      rw [emitSkipped]
      exact (Retains.skipPart top (.within e (e.emit_retains (h e List.mem_cons_self)))).bind fun _ =>
        emitSkipped_retains top es fun c mem => h c (List.mem_cons_of_mem _ mem)

theorem emitArgs_retains [Regex.Engine] : (args : List (Option String × Expr)) →
    (∀ e ∈ args.map (·.2), e.Hosted S) → (emitArgs args).Retains S
  | [], _ => .pure _
  | (_, e) :: rest, h => by
      rw [emitArgs]
      have own := h e List.mem_cons_self
      exact (Retains.argument (e.emit_retains own) own.here.1).bind fun _ =>
        (emitArgs_retains rest fun c mem => h c (List.mem_cons_of_mem _ mem)).bind fun _ => .pure _

theorem emitLevels_retains [Regex.Engine] (id : Nat) (params : List String) (below index : Nat) :
    (levels : List (Fixity × Expr)) → (∀ e ∈ levels.map (·.2), e.Hosted S) →
      (emitLevels id params below index levels).Retains S
  | [], _ => .pure _
  | (fixity, operator) :: rest, h => by
      rw [emitLevels]
      exact (Retains.defineNew _ _ (.level fixity
        (.within operator (operator.emit_retains (h operator List.mem_cons_self))) below
          params.length)).bind fun f =>
        emitLevels_retains id params f (index + 1) rest fun c mem => h c (List.mem_cons_of_mem _ mem)

end

/-- The function of a definition adds host code and classes of the definition only. -/
theorem Definition.emit_retains [Regex.Engine] {d : Definition} (h : d.body.Hosted S)
    (function : Nat) : (d.emit function).Retains S := by
  refine .bind (.of_eq fun p _ p' w => ?_) fun _ => Emit.Retains.define _ _ _
    (.within d.body (d.body.emit_retains h))
  rw [Build.adds_modify.1 w]
  exact ⟨rfl, rfl⟩

end Packrat
