import Packrat.Proofs.Emission.Tame

/-
**How far code has been written.**

Which numbers an expression's code takes for its functions and shared values depends on few things:
how many functions there are, the next identity, and how many blocks are left.  None of the
instructions, slots or constants that have been written has a say in it.  So what writing does to
these few things can be told from the expression alone.

Main definitions:

* `Packrat.Stage`, `Packrat.Draft.stage` — what numbers depend on;
* `Packrat.Expr.behind` — the stage behind the code of an expression;
* `Packrat.Build.Moves`, `Packrat.Emit.Moves` — what a writer does to the stage.

Main results:

* `Packrat.Emit.Moves.bind`, `Packrat.Emit.Moves.nested`, `Packrat.Build.Moves.defineNew` — stages
  behind a writer after another, behind a block, and behind a function of its own;
* `Packrat.Expr.emit_moves` — **the stage behind the code of an expression**.
-/

set_option autoImplicit false

namespace Packrat

/-! ### Stages -/

/-- How far code has been written, as far as numbers depend on it. -/
structure Stage where
  maxBlocks : Nat
  /-- How many functions there are. -/
  functions : Nat
  /-- The next identity of a shared value. -/
  identity : Nat
  blocksLeft : Nat

/-- The stage of a function being written. -/
def Draft.stage (d : Draft) (p : Pools) : Stage :=
  ⟨p.maxBlocks, p.functions.size, p.identity, d.blocksLeft⟩

namespace Stage

/-- Inside of a block. -/
def entered (s : Stage) : Stage := { s with blocksLeft := s.blocksLeft - 1 }

/-- Behind the body of a block. -/
def left (s : Stage) : Stage := { s with blocksLeft := s.blocksLeft + 1 }

/-- At the beginning of a new function. -/
def opened (s : Stage) : Stage :=
  { s with functions := s.functions + 1, blocksLeft := s.maxBlocks - 1 }

/-- Behind a new shared value. -/
def shared (s : Stage) : Stage := { s with identity := s.identity + 1 }

variable (f : Stage → Stage)

/-- Behind a block with the given body. -/
def nested (s : Stage) : Stage := (f s.entered).left

/-- Behind a block without functions and blocks inside. -/
def tested : Stage → Stage := nested id

/-- Behind a new function with the given body. -/
def apart (s : Stage) : Stage := { f s.opened with blocksLeft := s.blocksLeft }

/-- Behind an expression inside of another: in place, or as a new function. -/
@[irreducible] def inside (e : Expr) (s : Stage) : Stage :=
  if s.blocksLeft < e.numBlocks then apart f s else f s

end Stage

/-- Whether an argument is handed over without becoming a function. -/
def Expr.direct : Expr → Bool
  | .ref _ _ .local | .ref _ _ (.rule _) | .host _ _ => true
  | _ => false

/-- Behind the code of a level, given that of its operator. -/
def Fixity.behind (f : Stage → Stage) : Fixity → Stage → Stage
  | .prefixOp => fun s => .tested (.nested (fun s => .tested (f s)) s)
  | .postfixOp => .nested (.nested fun s => .tested (f s))
  | .leftAssoc | .nonAssoc | .rightAssoc => .nested (.nested fun s => .tested (.tested (f s)))

mutual

/-- The stage behind the code of an expression. -/
def Expr.behind : Expr → Stage → Stage
  | .str _ _ flags | .regex _ _ flags => if flags.skip then .tested else id
  | .ref _ _ _ | .fail _ _ | .host _ _ => id
  | .call _ _ args _ => behindArgs args
  | .seq _ items _ => .nested (behindItems items)
  | .choice _ [only] => .inside only.behind only
  | .choice _ alternatives => .nested (behindAlternatives alternatives)
  | .list _ item least _ => fun s =>
    let s := Stage.nested (fun s => .tested (.inside item.behind item s)) s
    if least.isSome then .tested s else s
  | .sep _ item separator flags => .nested fun s =>
    let s := Stage.inside item.behind item s
    let s := Stage.nested (if flags.allowEmpty then .shared else id) s
    s.nested fun s =>
      let s := Stage.tested (.inside separator.behind separator s)
      .tested (.inside item.behind item s)
  | .opt _ inner => fun s => .tested (.nested (.inside inner.behind inner) s)
  | .expect _ inner => .nested (.inside inner.behind inner)
  | .expectNot _ inner => fun s => .tested (.nested (.inside inner.behind inner) s)
  | .apply _ a b _ | .discard _ a b _ | .bound _ _ a b | .satisfying _ a b =>
    .nested fun s => .inside b.behind b (.inside a.behind a s)
  | .skip _ items => .nested (behindParts items)
  | .operators _ atom levels => fun s =>
    behindLevels levels (.apart (.inside atom.behind atom) s)

/-- The stage behind items one after the other. -/
def behindItems : List Expr → Stage → Stage
  | [] => id
  | e :: es => fun s => behindItems es (.inside e.behind e s)

/-- The stage behind alternatives, up to one that always succeeds. -/
def behindAlternatives : List Expr → Stage → Stage
  | [] => id
  | e :: es => fun s =>
    let s := Stage.inside e.behind e s
    if e.alwaysSucceeds then s else behindAlternatives es (.tested s)

/-- The stage behind the parts of a skipping expression. -/
def behindParts : List Expr → Stage → Stage
  | [] => id
  | e :: es => fun s => behindParts es (.tested (.inside e.behind e s))

/-- The stage behind arguments. -/
def behindArgs : List (Option String × Expr) → Stage → Stage
  | [] => id
  | (_, e) :: rest => fun s => behindArgs rest (if e.direct then s else .apart e.behind s)

/-- The stage behind the functions of levels. -/
def behindLevels : List (Fixity × Expr) → Stage → Stage
  | [] => id
  | (fixity, operator) :: rest => fun s =>
    behindLevels rest (.apart (fixity.behind (.inside operator.behind operator)) s)

end

/-! ### Writers -/

namespace Build

variable {α β : Type} {f g : Stage → Stage}

/-- What a writer of constants does to the stage. -/
structure Moves (f : Stage → Stage) (x : Build α) : Prop where
  stage : ∀ {p a p'}, x.Adds p a p' → ∀ d : Draft, d.stage p' = f (d.stage p)

namespace Moves

theorem pure (a : α) : (Pure.pure a : Build α).Moves id where
  stage w d := by rw [(adds_pure.1 w).2, id]

theorem bind {x : Build α} {k : α → Build β} (hx : x.Moves f) (hk : ∀ a, (k a).Moves g) :
    (x >>= k).Moves fun s => g (f s) where
  stage w d := by
    obtain ⟨a, p₁, w₁, w₂⟩ := adds_bind.1 w
    rw [(hk a).stage w₂, hx.stage w₁]

theorem fault {x : Fault} : (liftM (Packrat.fault x : Except Failure α) : Build α).Moves id where
  stage w := absurd w not_adds_fault

/-- An entry of a pool of constants is no function. -/
theorem pooled {pool : Pools → Array α} {extend : Pools → Array α → Pools} {isEntry : α → Bool}
    (same : ∀ p xs (d : Draft), d.stage (extend p xs) = d.stage p) (entry : α) :
    (pooled pool extend isEntry entry).Moves id where
  stage {p a p'} w d := by
    simp only [Build.pooled, adds_get_bind] at w
    split at w
    · rw [(adds_pure.1 w).2, id]
    · rw [adds_set_bind] at w
      rw [(adds_pure.1 w).2, same, id]

theorem literal (bytes : List UInt8) : (literal bytes).Moves id := pooled (by intros; rfl) bytes

theorem cls (c : NodeClass) : (cls c).Moves id := pooled (by intros; rfl) c

theorem regex [Regex.Engine] (pattern : String) (ignoreCase binary : Bool) :
    (regex pattern ignoreCase binary).Moves id where
  stage {p a p'} w d := by
    simp only [Build.regex, adds_get_bind] at w
    split at w
    · rw [(adds_pure.1 w).2, id]
    · obtain ⟨r, p₁, w₁, w₂⟩ := adds_bind.1 w
      obtain ⟨-, rfl⟩ := adds_lift.1 w₁
      rw [adds_set_bind] at w₂
      rw [(adds_pure.1 w₂).2]
      rfl

theorem host (s : Snippet) : (host s).Moves id where
  stage {p a p'} w d := by
    simp only [Build.host, adds_get_bind, adds_set_bind] at w
    rw [(adds_pure.1 w).2]
    rfl

theorem failure (expr : String) (expectation : Expectation) :
    (failure expr expectation).Moves id where
  stage {p a p'} w d := by
    simp only [Build.failure, adds_get_bind, adds_set_bind] at w
    rw [(adds_pure.1 w).2]
    rfl

theorem emptyList : emptyList.Moves .shared where
  stage {p a p'} w d := by
    simp only [Build.emptyList, adds_get_bind, adds_set_bind] at w
    rw [(adds_pure.1 w).2]
    rfl

theorem ruleFunction (name : String) : (ruleFunction name).Moves id where
  stage w d := by rw [(adds_ruleFunction w).1, id]

theorem boundFunction (name : String) : (b : Binding) → (Emit.boundFunction name b).Moves id
  | .rule _ => ruleFunction _
  | .unresolved | .local => fault

end Moves

end Build

namespace Emit

variable {α β : Type} {f g : Stage → Stage}

/-- What a writer does to the stage. -/
structure Moves (f : Stage → Stage) (x : Emit α) : Prop where
  stage : ∀ {d p a d' p'}, x.Writes d p a d' p' → d'.stage p' = f (d.stage p)

end Emit

namespace Draft

variable (d : Draft) (p : Pools)

@[simp] theorem stage_add (i : Instr) : (d.add i).stage p = d.stage p := rfl

@[simp] theorem stage_addSlot : d.addSlot.stage p = d.stage p := rfl

@[simp] theorem stage_addLabel : d.addLabel.stage p = d.stage p := rfl

@[simp] theorem stage_place (l : Nat) : (d.place l).stage p = d.stage p := rfl

@[simp] theorem stage_entered : (Emit.entered d).stage p = (d.stage p).entered := rfl

@[simp] theorem stage_left : (Emit.left d).stage p = (d.stage p).left := rfl

/-- A new function begins with all blocks but its own. -/
theorem stage_begin (name : String) (params : List String) :
    (Draft.begin name params p.maxBlocks).stage { p with functions := p.functions.push none } =
      (d.stage p).opened := by
  simp [stage, Draft.begin, Stage.opened]

end Draft

/-- The blocks that are left in a new function are not left behind it. -/
theorem Build.Moves.defineNew {f : Stage → Stage} {body : Emit Unit} (h : body.Moves f)
    (name : String) (params : List String) : (Build.defineNew name params body).Moves (.apart f) where
  stage {p a p'} w d := by
    obtain ⟨-, draft, p₁, function, w₁, -, rfl⟩ := Emit.adds_defineNew w
    have inner := h.stage w₁
    rw [Draft.stage_begin d] at inner
    rw [Stage.apart, ← inner]
    simp [Draft.stage]

namespace Emit.Moves

variable {α β : Type} {f g : Stage → Stage}

theorem of_eq {x : Emit α} (h : ∀ {d p a d' p'}, x.Writes d p a d' p' → d'.stage p' = d.stage p) :
    x.Moves id := ⟨h⟩

theorem pure (a : α) : (Pure.pure a : Emit α).Moves id :=
  of_eq fun w => by rw [(writes_pure.1 w).2.1, (writes_pure.1 w).2.2]

theorem bind {x : Emit α} {k : α → Emit β} (hx : x.Moves f) (hk : ∀ a, (k a).Moves g) :
    (x >>= k).Moves fun s => g (f s) where
  stage w := by
    obtain ⟨a, d₁, p₁, w₁, w₂⟩ := writes_bind.1 w
    rw [(hk a).stage w₂, hx.stage w₁]

theorem lift {x : Build α} (h : x.Moves f) : (liftM x : Emit α).Moves f where
  stage w := by
    obtain ⟨added, rfl⟩ := writes_lift.1 w
    exact h.stage added _

theorem fault {x : Fault} : (liftM (Packrat.fault x : Except Failure α) : Emit α).Moves id :=
  of_eq fun w => absurd w not_writes_fault

theorem emit (i : Instr) : (emit i).Moves id :=
  of_eq fun w => by rw [(writes_emit.1 w).1, (writes_emit.1 w).2, Draft.stage_add]

theorem slot : slot.Moves id :=
  of_eq fun w => by rw [(writes_slot.1 w).2.1, (writes_slot.1 w).2.2, Draft.stage_addSlot]

theorem label : label.Moves id :=
  of_eq fun w => by rw [(writes_label.1 w).2.1, (writes_label.1 w).2.2, Draft.stage_addLabel]

theorem mark (l : Nat) : (mark l).Moves id :=
  of_eq fun w => by rw [(writes_mark.1 w).1, (writes_mark.1 w).2, Draft.stage_place]

theorem lookup (name : String) : (lookup name).Moves id :=
  of_eq fun w => by rw [(writes_lookup.1 w).2.1, (writes_lookup.1 w).2.2]

theorem lookupAll (names : List String) : (lookupAll names).Moves id :=
  of_eq fun w => by rw [(writes_lookupAll.1 w).2.1, (writes_lookupAll.1 w).2.2]

theorem bindName (name : String) (v : Nat) : (bindName name v).Moves id :=
  of_eq fun w => by rw [(writes_bindName.1 w).1, (writes_bindName.1 w).2]; rfl

theorem inScope {x : Emit α} (h : x.Moves f) : (inScope x).Moves f where
  stage w := by
    obtain ⟨d₁, w₁, rfl⟩ := writes_inScope.1 w
    rw [← h.stage w₁]
    rfl

/-! ### Control flow -/

theorem nested {body : Emit α} (h : body.Moves f) : (nested body).Moves (.nested f) where
  stage w := by
    obtain ⟨d₁, w₁, rfl⟩ := writes_nested.1 w
    rw [Draft.stage_left, h.stage w₁, Draft.stage_entered, Stage.nested]

theorem ifThen {body : Emit Unit} (c : Condition) (h : body.Moves f) :
    (ifThen c body).Moves (.nested f) :=
  label.bind fun _ => (emit _).bind fun _ => (nested h).bind fun _ => mark _

theorem ifElse {thenPart elsePart : Emit Unit} (c : Condition) (h : thenPart.Moves f)
    (h' : elsePart.Moves g) : (ifElse c thenPart elsePart).Moves (.nested fun s => g (f s)) :=
  label.bind fun _ => label.bind fun _ => (emit _).bind fun _ =>
    (nested (h.bind fun _ => (emit _).bind fun _ => (mark _).bind fun _ => h')).bind fun _ => mark _

theorem loop {body : Nat → Nat → Emit Unit} (h : ∀ top exit, (body top exit).Moves f) :
    (loop body).Moves (.nested f) :=
  label.bind fun _ => label.bind fun _ => (mark _).bind fun _ => (nested (h _ _)).bind fun _ =>
    (emit _).bind fun _ => mark _

theorem block {body : Nat → Emit Unit} (h : ∀ exit, (body exit).Moves f) :
    (block body).Moves (.nested f) :=
  label.bind fun _ => (nested (h _)).bind fun _ => mark _

/-! ### Small parts -/

theorem storeResult : storeResult.Moves id := slot.bind fun _ => (emit _).bind fun _ => pure _

theorem checkpoint : checkpoint.Moves id := slot.bind fun _ => (emit _).bind fun _ => pure _

theorem succeedWith (value : Operand) : (succeedWith value).Moves id :=
  (emit _).bind fun _ => emit _

theorem leaveOnFailure (exit : Nat) : (leaveOnFailure exit).Moves id := emit _

theorem retreatOnFailure (back exit : Nat) : (retreatOnFailure back exit).Moves .tested :=
  ifThen _ ((emit _).bind fun _ => emit _)

theorem ownFunction (e : Expr) {code : Emit Unit} (h : code.Moves f) :
    (ownFunction e code).Moves (.apart f) := lift (.defineNew h _ _)

variable {item separator inner left right : Emit Unit}

theorem within (e : Expr) (h : inner.Moves f) : (within e inner).Moves (.inside f e) where
  stage {d p a d' p'} w := by
    rw [Emit.within, writes_get_bind] at w
    by_cases few : d.blocksLeft < e.numBlocks
    · rw [if_pos few] at w
      rw [Stage.inside, if_pos (show (d.stage p).blocksLeft < e.numBlocks from few)]
      exact ((lookupAll _).bind fun _ => (ownFunction e h).bind fun _ => emit _).stage w
    · rw [if_neg few] at w
      rw [Stage.inside, if_neg (show ¬(d.stage p).blocksLeft < e.numBlocks from few)]
      exact h.stage w

theorem skipping (skip : Bool) : (if skip then Emit.skipIgnored else Pure.pure () : Emit Unit).Moves
    (if skip then .tested else id) := by
  cases skip with
  | false => exact pure _
  | true =>
      exact (lift (.ruleFunction _)).bind fun _ => ifThen _ (storeResult.bind fun _ =>
        (emit _).bind fun _ => succeedWith _)

theorem snippet (s : Snippet) : (snippet s).Moves id :=
  (lookupAll _).bind fun _ => (lift (.host s)).bind fun _ => emit _

theorem limit? : (bound? : Option Bound) → (limit? bound?).Moves id
  | none => pure _
  | some (.const _) => pure _
  | some (.host s) => (snippet s).bind fun _ => storeResult.bind fun _ => pure _

theorem callee (name : String) : (b : Binding) → (callee name b).Moves id
  | .local => (lookup name).bind fun _ => pure _
  | .rule _ => (lift (.ruleFunction _)).bind fun _ => pure _
  | .unresolved => fault

theorem parser (k : Nat) (captures : List Nat) : (parser k captures).Moves id :=
  (emit _).bind fun _ => storeResult

theorem argument (h : inner.Moves f) (e : Expr) :
    (argument e inner).Moves fun s => if e.direct then s else .apart f s := by
  cases e with
  | host _ s => exact (snippet s).bind fun _ => storeResult
  | ref _ name binding =>
      cases binding with
      | «local» => exact lookup name
      | rule _ => exact (lift (.ruleFunction _)).bind fun _ => parser _ _
      | unresolved =>
          exact (lookupAll _).bind fun _ => (ownFunction _ h).bind fun _ => parser _ _
  | _ => exact (lookupAll _).bind fun _ => (ownFunction _ h).bind fun _ => parser _ _

/-! ### Forms -/

theorem attempt (h : item.Moves f) (staging err errPos exit : Nat) :
    (attempt item staging err errPos exit).Moves fun s => .tested (f s) :=
  checkpoint.bind fun _ => h.bind fun _ => (ifThen _ ((emit _).bind fun _ => (emit _).bind fun _ =>
    (emit _).bind fun _ => emit _)).bind fun _ => (emit _).bind fun _ => emit _

theorem repetition (h : item.Moves f) (staging err errPos : Nat) (most? : Option Limit) :
    (repetition item staging err errPos most?).Moves (.nested fun s => .tested (f s)) := by
  cases most? with
  | none => exact loop fun _ exit => attempt h staging err errPos exit
  | some most => exact loop fun _ exit => (emit _).bind fun _ => attempt h staging err errPos exit

theorem enough (staging err errPos : Nat) : (least? : Option Limit) →
    (enough staging err errPos least?).Moves fun s => if least?.isSome then .tested s else s
  | some _ => ifElse _ ((emit _).bind fun _ => (emit _).bind fun _ => emit _) (succeedWith _)
  | none => succeedWith _

/-- There is a limit exactly if there is a bound. -/
theorem limited {k : Option Limit → Emit Unit} {f : Bool → Stage → Stage}
    (h : ∀ limit?, (k limit?).Moves (f limit?.isSome)) :
    (bound? : Option Bound) → (Emit.limit? bound? >>= k).Moves (f bound?.isSome)
  | none => h none
  | some (.const n) => h (some (.const n))
  | some (.host s) => by
      rw [Emit.limit?]
      simp only [bind_assoc, pure_bind]
      exact (snippet s).bind fun _ => storeResult.bind fun _ => h (some _)

theorem listOf (text : String) (h : item.Moves f) (least most : Option Bound) :
    (listOf text item least most).Moves fun s =>
      if least.isSome then .tested (.nested (fun s => .tested (f s)) s)
        else .nested (fun s => .tested (f s)) s :=
  slot.bind fun _ => (emit _).bind fun _ => (lift (.failure _ _)).bind fun _ => slot.bind fun _ =>
    (emit _).bind fun _ => checkpoint.bind fun _ => limited (f := fun tested s =>
        if tested then .tested (.nested (fun s => .tested (f s)) s)
          else .nested (fun s => .tested (f s)) s)
      (fun least? => (limit? most).bind fun _ => (repetition h _ _ _ _).bind fun _ =>
        enough _ _ _ least?) least

theorem emitIf (b : Bool) (i : Instr) : (emitIf b i).Moves id := by
  cases b with
  | false => exact pure _
  | true => exact emit _

theorem attemptPair (h : item.Moves f) (h' : separator.Moves g) (flags : SepFlags)
    (staging exit : Nat) : (attemptPair item separator flags staging exit).Moves
      fun s => .tested (f (.tested (g s))) :=
  checkpoint.bind fun _ => h'.bind fun _ => (retreatOnFailure _ _).bind fun _ =>
    (emitIf _ _).bind fun _ => (emitIf _ _).bind fun _ => h.bind fun _ =>
      (ifThen _ ((emitIf _ _).bind fun _ => (emit _).bind fun _ => emit _)).bind fun _ =>
        (emit _).bind fun _ => emit _

theorem noItems (allowEmpty : Bool) (start out : Nat) :
    (noItems allowEmpty start out).Moves (if allowEmpty then .shared else id) := by
  cases allowEmpty with
  | false => exact emit _
  | true =>
      exact (emit _).bind fun _ => (lift .emptyList).bind fun _ => (succeedWith _).bind fun _ =>
        emit _

theorem sepOf (h : item.Moves f) (h' : separator.Moves g) (flags : SepFlags) :
    (sepOf item separator flags).Moves (.nested fun s =>
      .nested (fun s => .tested (f (.tested (g s))))
        (.nested (if flags.allowEmpty then .shared else id) (f s))) := by
  have separated (staging : Nat) : (Emit.separated item separator flags staging).Moves
      (.nested fun s => .tested (f (.tested (g s)))) := by
    rw [separated_eq]
    exact loop fun _ exit => attemptPair h h' flags staging exit
  exact slot.bind fun _ => (emit _).bind fun _ => block fun _ => checkpoint.bind fun _ =>
    h.bind fun _ => (ifThen _ (noItems flags.allowEmpty _ _)).bind fun _ => (emit _).bind fun _ =>
      (separated _).bind fun _ => succeedWith _

theorem both (h : left.Moves f) (h' : right.Moves g) (exit : Nat) :
    (both left right exit).Moves fun s => g (f s) :=
  h.bind fun _ => (leaveOnFailure exit).bind fun _ => storeResult.bind fun _ => h'.bind fun _ =>
    (leaveOnFailure exit).bind fun _ => storeResult.bind fun _ => pure _

theorem keepOne (h : left.Moves f) (h' : right.Moves g) (discardLeft : Bool) :
    (keepOne left right discardLeft).Moves (.nested fun s => g (f s)) := by
  cases discardLeft with
  | true => exact block fun exit => h.bind fun _ => (leaveOnFailure exit).bind fun _ => h'
  | false =>
      exact block fun exit => h.bind fun _ => (leaveOnFailure exit).bind fun _ =>
        storeResult.bind fun _ => h'.bind fun _ => (leaveOnFailure exit).bind fun _ => emit _

theorem peek (h : inner.Moves f) : (peek inner).Moves (.nested f) :=
  checkpoint.bind fun _ => (block fun _ => h).bind fun _ => emit _

theorem keepFarthest (isFail : Bool) (farPos farErr : Nat) :
    (keepFarthest isFail farPos farErr).Moves .tested :=
  ifThen _ ((emit _).bind fun _ => emit _)

theorem skipPart (top : Nat) (h : inner.Moves f) :
    (skipPart top inner).Moves fun s => .tested (f s) :=
  checkpoint.bind fun _ => h.bind fun _ => ifElse _ (emit _) (emit _)

theorem operatorStep (h : inner.Moves f) (below arity exit : Nat) :
    (operatorStep inner below arity exit).Moves fun s => .tested (.tested (f s)) :=
  checkpoint.bind fun _ => h.bind fun _ => (retreatOnFailure _ _).bind fun _ =>
    storeResult.bind fun _ => (emit _).bind fun _ => (retreatOnFailure _ _).bind fun _ => pure _

theorem level (h : inner.Moves f) (below arity : Nat) :
    (fixity : Fixity) → (level fixity inner below arity).Moves (fixity.behind f)
  | .prefixOp => slot.bind fun _ => (emit _).bind fun _ => (loop fun _ _ =>
      checkpoint.bind fun _ => h.bind fun _ => (retreatOnFailure _ _).bind fun _ =>
        (emit _).bind fun _ => emit _).bind fun _ => (emit _).bind fun _ => ifThen _ (emit _)
  | .postfixOp => block fun _ => (emit _).bind fun _ => (leaveOnFailure _).bind fun _ =>
      storeResult.bind fun _ => (loop fun _ _ => checkpoint.bind fun _ => h.bind fun _ =>
        (retreatOnFailure _ _).bind fun _ => (emit _).bind fun _ => (emit _).bind fun _ =>
          emit _).bind fun _ => succeedWith _
  | .leftAssoc | .nonAssoc => block fun _ => (emit _).bind fun _ => (leaveOnFailure _).bind fun _ =>
      storeResult.bind fun _ => (loop fun _ exit => (operatorStep h _ _ exit).bind fun _ =>
        (emit _).bind fun _ => (emit _).bind fun _ => emit _).bind fun _ => succeedWith _
  | .rightAssoc => block fun _ => slot.bind fun _ => (emit _).bind fun _ => (emit _).bind fun _ =>
      (leaveOnFailure _).bind fun _ => (emit _).bind fun _ => (loop fun _ exit =>
        (operatorStep h _ _ exit).bind fun _ => (emit _).bind fun _ => (emit _).bind fun _ =>
          emit _).bind fun _ => (emit _).bind fun _ => emit _

end Emit.Moves

/-! ### Expressions -/

variable [Regex.Engine]

open Emit in
mutual

/-- The stage behind the code of an expression is told by the expression. -/
theorem Expr.emit_moves : (e : Expr) → e.emit.Moves e.behind
  | .str tag value flags => by
      rw [Expr.emit, Expr.behind]
      refine (Moves.lift (.failure _ _)).bind fun _ => (?_ : Moves (if flags.skip then _ else _) _)
      dsimp only
      by_cases caseless : flags.ignoreCase = true
      · rw [if_pos caseless]
        exact (Moves.lift (.regex _ _ _)).bind fun _ => (Moves.emit _).bind fun _ => .skipping _
      · rw [if_neg caseless]
        exact (Moves.lift (.literal _)).bind fun _ => (Moves.emit _).bind fun _ => .skipping _
  | .regex tag pattern flags => by
      rw [Expr.emit, Expr.behind]
      exact (Moves.lift (.regex _ _ _)).bind fun _ => (Moves.lift (.failure _ _)).bind fun _ =>
        (Moves.emit _).bind fun _ => .skipping _
  | .ref _ name binding => by
      rw [Expr.emit, Expr.behind]
      exact (Moves.callee name binding).bind fun _ => .emit _
  | .call _ name args binding => by
      rw [Expr.emit, Expr.behind]
      exact (Moves.lift (.boundFunction name binding)).bind fun _ => (emitArgs_moves args).bind
        fun _ => .emit _
  | .seq _ items none => by
      rw [Expr.emit, Expr.behind]
      exact .block fun exit => (Moves.inScope (emitItems_moves exit [] items)).bind fun _ =>
        (Moves.emit _).bind fun _ => .emit _
  | .seq _ items (some c) => by
      rw [Expr.emit, Expr.behind]
      exact (Moves.lift (.cls c)).bind fun _ => .block fun exit => Moves.checkpoint.bind fun _ =>
        (Moves.inScope (emitItems_moves exit c.fields items)).bind fun _ =>
          (Moves.emit _).bind fun _ => .emit _
  | .choice _ [only] => by
      rw [Expr.emit, Expr.behind]
      exact .within only (Expr.emit_moves only)
  | .choice _ [] => by
      rw [Expr.emit, Expr.behind]
      · exact Moves.checkpoint.bind fun _ => Moves.slot.bind fun _ => (Moves.emit _).bind fun _ =>
          Moves.slot.bind fun _ => (Moves.emit _).bind fun _ => .block fun exit =>
            emitAlternatives_moves _ _ _ exit true []
      · simp
      · simp
  | .choice _ (e :: e' :: es) => by
      rw [Expr.emit, Expr.behind]
      · exact Moves.checkpoint.bind fun _ => Moves.slot.bind fun _ => (Moves.emit _).bind fun _ =>
          Moves.slot.bind fun _ => (Moves.emit _).bind fun _ => .block fun exit =>
            emitAlternatives_moves _ _ _ exit true (e :: e' :: es)
      · simp
      · simp
  | .list _ item least most => by
      rw [Expr.emit, Expr.behind]
      exact .listOf _ (.within item (Expr.emit_moves item)) least most
  | .sep _ item separator flags => by
      rw [Expr.emit, Expr.behind]
      exact .sepOf (.within item (Expr.emit_moves item))
        (.within separator (Expr.emit_moves separator)) flags
  | .opt _ inner => by
      rw [Expr.emit, Expr.behind]
      exact Moves.checkpoint.bind fun _ => (Moves.block fun _ =>
        .within inner (Expr.emit_moves inner)).bind fun _ =>
          .ifThen _ ((Moves.emit _).bind fun _ => .succeedWith _)
  | .apply _ left right applyLeft => by
      rw [Expr.emit, Expr.behind]
      exact .block fun exit => (Moves.both (.within left (Expr.emit_moves left))
        (.within right (Expr.emit_moves right)) exit).bind fun _ => .emit _
  | .discard _ left right discardLeft => by
      rw [Expr.emit, Expr.behind]
      exact .keepOne (.within left (Expr.emit_moves left)) (.within right (Expr.emit_moves right))
        discardLeft
  | .expect _ inner => by
      rw [Expr.emit, Expr.behind]
      exact .peek (.within inner (Expr.emit_moves inner))
  | .expectNot _ inner => by
      rw [Expr.emit, Expr.behind]
      exact (Moves.peek (.within inner (Expr.emit_moves inner))).bind fun _ =>
        (Moves.lift (.failure _ _)).bind fun _ => .ifElse _ (.emit _) (.succeedWith _)
  | .fail _ _ => by
      rw [Expr.emit, Expr.behind]
      exact (Moves.lift (.failure _ _)).bind fun _ => .emit _
  | .bound _ name value body => by
      rw [Expr.emit, Expr.behind]
      exact .block fun exit => (Moves.within value (Expr.emit_moves value)).bind fun _ =>
        (Moves.leaveOnFailure exit).bind fun _ => Moves.storeResult.bind fun v =>
          .inScope ((Moves.bindName name v).bind fun _ => .within body (Expr.emit_moves body))
  | .satisfying _ inner predicate => by
      rw [Expr.emit, Expr.behind]
      exact (Moves.lift (.failure _ _)).bind fun _ => .block fun exit =>
        (Moves.both (.within inner (Expr.emit_moves inner))
          (.within predicate (Expr.emit_moves predicate)) exit).bind fun _ => .emit _
  | .skip _ items => by
      rw [Expr.emit, Expr.behind]
      exact (Moves.loop fun top exit => (emitSkipped_moves top items).bind fun _ =>
        .emit _).bind fun _ => .succeedWith _
  | .host _ s => by
      rw [Expr.emit, Expr.behind]
      exact .snippet s
  | .operators tag atom levels => by
      rw [Expr.emit, Expr.behind]
      exact (Moves.lookupAll _).bind fun args =>
        (Moves.lift (.defineNew (.within atom (Expr.emit_moves atom)) _ _)).bind fun f =>
          (Moves.lift (emitLevels_moves _ _ f _ levels)).bind fun _ => .emit _

theorem emitItems_moves (exit : Nat) (fields : List String) :
    (items : List Expr) → (emitItems exit fields items).Moves (behindItems items)
  | [] => by
      rw [behindItems]
      exact .pure []
  | e :: es => by
      rw [emitItems, behindItems]
      refine (Moves.within e (Expr.emit_moves e)).bind fun _ =>
        (Moves.leaveOnFailure exit).bind fun _ => Moves.storeResult.bind fun v => ?_
      have rest : ∀ _ : PUnit, Moves (behindItems es) (do
          let vs ← emitItems exit (fields.drop 1) es
          Pure.pure (v :: vs)) :=
        fun _ => (emitItems_moves exit (fields.drop 1) es).bind fun _ => .pure _
      dsimp only
      split
      · exact (Moves.bindName _ v).bind rest
      · exact rest ⟨⟩

theorem emitAlternatives_moves (back farPos farErr exit : Nat) (isFirst : Bool) :
    (es : List Expr) → (emitAlternatives back farPos farErr exit isFirst es).Moves
      (behindAlternatives es)
  | [] => by
      rw [behindAlternatives]
      exact (Moves.emit _).bind fun _ => (Moves.emit _).bind fun _ => .emit _
  | e :: es => by
      have tried : (tried back farPos farErr exit e es).Moves (behindAlternatives (e :: es)) := by
        rw [behindAlternatives, Emit.tried]
        refine (Moves.within e (Expr.emit_moves e)).bind fun _ =>
          (?_ : Moves (fun s => if e.alwaysSucceeds then s else behindAlternatives es (.tested s)) _)
        split
        · exact .emit _
        · exact (Moves.emit _).bind fun _ => (Moves.keepFarthest _ _ _).bind fun _ =>
            emitAlternatives_moves back farPos farErr exit false es
      cases isFirst with
      | true =>
          rw [alternatives_first]
          exact tried
      | false =>
          rw [alternatives_next]
          exact (Moves.emit _).bind fun _ => tried

theorem emitSkipped_moves (top : Nat) :
    (es : List Expr) → (emitSkipped top es).Moves (behindParts es)
  | [] => by
      rw [behindParts]
      exact .pure _
  | e :: es => by
      rw [emitSkipped, behindParts]
      exact (Moves.skipPart top (.within e (Expr.emit_moves e))).bind fun _ =>
        emitSkipped_moves top es

theorem emitArgs_moves : (args : List (Option String × Expr)) → (emitArgs args).Moves
    (behindArgs args)
  | [] => by
      rw [behindArgs]
      exact .pure _
  | (_, e) :: rest => by
      rw [emitArgs, behindArgs]
      exact (Moves.argument (Expr.emit_moves e) e).bind fun _ => (emitArgs_moves rest).bind fun _ =>
        .pure _

theorem emitLevels_moves (id : Nat) (params : List String) (below index : Nat) :
    (levels : List (Fixity × Expr)) →
      (emitLevels id params below index levels).Moves (behindLevels levels)
  | [] => by
      rw [behindLevels]
      exact .pure _
  | (fixity, operator) :: rest => by
      rw [emitLevels, behindLevels]
      exact (Build.Moves.defineNew (.level (.within operator (Expr.emit_moves operator)) below
        params.length fixity) _ _).bind fun f => emitLevels_moves id params f (index + 1) rest

end

/-- The stage behind an expression inside of another. -/
theorem Expr.within_moves (e : Expr) : (Emit.within e e.emit).Moves (.inside e.behind e) :=
  .within e e.emit_moves

end Packrat
