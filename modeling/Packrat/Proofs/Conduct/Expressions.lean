import Packrat.Proofs.Conduct.Alternatives
import Packrat.Proofs.Conduct.Forms
import Packrat.Proofs.Conduct.Operators

/-
**The code of an expression behaves.**

Every form of expression adds no functions but those of its parts and its own, and all of these are
made of safe code.

Main results:

* `Packrat.Expr.emit_conducts` — **the code of a settled expression behaves**, wherever the parts it is
  made of are written.
-/

set_option autoImplicit false

namespace Packrat

variable [Regex.Engine]

variable {signatures : Signatures}

namespace Emit.Staffs

variable {item separator inner left right : Emit Unit}

/-! ### Matches, host code and calls -/

theorem skipIgnored : skipIgnored.Staffs signatures :=
  (lift (.ruleFunction _)).bind fun _ => ifThen _ <|
    storeResult.bind fun _ => (emit _).bind fun _ => succeedWith _

theorem skipping (skip : Bool) :
    (if skip then Emit.skipIgnored else Pure.pure () : Emit Unit).Staffs signatures := by
  cases skip with
  | true => exact skipIgnored
  | false => exact pure _

theorem snippet (s : Snippet) : (Emit.snippet s).Staffs signatures :=
  (lookupAll _).bind fun _ => (lift (.host s)).bind fun _ => emit _

theorem limit? : (bound? : Option Bound) → (Emit.limit? bound?).Staffs signatures
  | none => pure _
  | some (.const _) => pure _
  | some (.host s) => (snippet s).bind fun _ => storeResult.bind fun _ => pure _

theorem callee (name : String) (binding : Binding) :
    (Emit.callee name binding).Staffs signatures := by
  cases binding with
  | unresolved => exact fun d p a d' p' h => by cases h
  | «local» => exact (lookup name).bind fun _ => pure _
  | rule function => exact (lift (.ruleFunction _)).bind fun _ => pure _

theorem boundFunction (name : String) (binding : Binding) :
    (Emit.boundFunction name binding).Staffs signatures := by
  cases binding with
  | rule function => exact .ruleFunction function
  | unresolved | «local» => exact fun p a p' h => by cases h

theorem parser (f : Nat) (captures : List Nat) :
    (Emit.parser f captures).Staffs signatures := (emit _).bind fun _ => storeResult

theorem argument (h : inner.Conducts signatures) : (e : Expr) →
    (Emit.argument e inner).Staffs signatures := by
  intro e
  unfold Emit.argument
  split
  · exact lookup _
  · exact (lift (.ruleFunction _)).bind fun _ => parser _ _
  · exact (snippet _).bind fun _ => storeResult
  · exact (lookupAll _).bind fun _ => (ownFunction h _).bind fun _ => parser _ _

/-! ### Repetitions -/

theorem repetition (h : item.Staffs signatures) (staging err errPos : Nat) (most? : Option Limit) :
    (Emit.repetition item staging err errPos most?).Staffs signatures := by
  have round (exit : Nat) : Emit.Staffs signatures (do
      let back ← Emit.checkpoint
      item
      Emit.ifThen .notStatus do
        Emit.emit (.store err .result)
        Emit.emit (.store errPos .position)
        Emit.emit (.restore back)
        Emit.emit (.jump exit)
      Emit.emit (.push staging .result)
      Emit.emit (.branch (.posEq back) exit)) :=
    checkpoint.bind fun _ => h.bind fun _ => (ifThen _ ((emit _).bind fun _ => (emit _).bind fun _ =>
      (emit _).bind fun _ => emit _)).bind fun _ => (emit _).bind fun _ => emit _
  refine loop fun _ exit => ?_
  cases most? with
  | none => exact round exit
  | some most => exact (emit _).bind fun _ => round exit

theorem listOf (h : item.Staffs signatures) (text : String) (least most : Option Bound) :
    (Emit.listOf text item least most).Staffs signatures := by
  refine slot.bind fun _ => (emit _).bind fun _ => (lift (.failure _ _)).bind fun _ =>
    slot.bind fun _ => (emit _).bind fun _ => checkpoint.bind fun _ => (limit? least).bind
      fun least? => (limit? most).bind fun _ => (repetition h _ _ _ _).bind fun _ => ?_
  cases least? with
  | none => exact succeedWith _
  | some least =>
      exact ifElse _ ((emit _).bind fun _ => (emit _).bind fun _ => emit _) (succeedWith _)

theorem emitIf (b : Bool) (i : Instr) : (Emit.emitIf b i).Staffs signatures := by
  cases b with
  | true => exact emit i
  | false => exact pure _

theorem separated (h : item.Staffs signatures) (h' : separator.Staffs signatures)
    (flags : SepFlags) (staging : Nat) :
    (Emit.separated item separator flags staging).Staffs signatures := by
  rw [Emit.separated_eq]
  exact loop fun _ _ => checkpoint.bind fun _ => h'.bind fun _ => (retreatOnFailure _ _).bind
    fun _ => (emitIf _ _).bind fun _ => (emitIf _ _).bind fun _ => h.bind fun _ =>
      (ifThen _ ((emitIf _ _).bind fun _ => (emit _).bind fun _ => emit _)).bind fun _ =>
        (emit _).bind fun _ => emit _

theorem noItems (allowEmpty : Bool) (start out : Nat) :
    (Emit.noItems allowEmpty start out).Staffs signatures := by
  cases allowEmpty with
  | false => exact emit (.jump out)
  | true =>
      exact (emit (.restore start)).bind fun _ => (lift .emptyList).bind fun _ =>
        (succeedWith _).bind fun _ => emit (.jump out)

theorem sepOf (h : item.Staffs signatures) (h' : separator.Staffs signatures) (flags : SepFlags) :
    (Emit.sepOf item separator flags).Staffs signatures :=
  slot.bind fun _ => (emit _).bind fun _ => block fun _ => checkpoint.bind fun _ => h.bind fun _ =>
    (ifThen _ (noItems _ _ _)).bind fun _ => (emit _).bind fun _ => (separated h h' flags _).bind
      fun _ => succeedWith _

/-! ### Parts within parts -/

theorem both (h : left.Staffs signatures) (h' : right.Staffs signatures) (exit : Nat) :
    (Emit.both left right exit).Staffs signatures :=
  h.bind fun _ => (leaveOnFailure _).bind fun _ => storeResult.bind fun _ => h'.bind fun _ =>
    (leaveOnFailure _).bind fun _ => storeResult.bind fun _ => pure _

theorem keepOne (h : left.Staffs signatures) (h' : right.Staffs signatures) (discardLeft : Bool) :
    (Emit.keepOne left right discardLeft).Staffs signatures := by
  refine block fun _ => h.bind fun _ => (leaveOnFailure _).bind fun _ => ?_
  cases discardLeft with
  | true => exact h'
  | false =>
      exact storeResult.bind fun _ => h'.bind fun _ => (leaveOnFailure _).bind fun _ => emit _

theorem optional (h : inner.Staffs signatures) : (Emit.optional inner).Staffs signatures :=
  checkpoint.bind fun _ => (block fun _ => h).bind fun _ =>
    ifThen _ ((emit _).bind fun _ => succeedWith _)

theorem peek (h : inner.Staffs signatures) : (Emit.peek inner).Staffs signatures :=
  checkpoint.bind fun _ => (block fun _ => h).bind fun _ => emit _

theorem never (text innerText : String) (h : inner.Staffs signatures) :
    (Emit.never text innerText inner).Staffs signatures :=
  (peek h).bind fun _ => (lift (.failure _ _)).bind fun _ => ifElse _ (emit _) (succeedWith _)

theorem keepFarthest (isFail : Bool) (farPos farErr : Nat) :
    (Emit.keepFarthest isFail farPos farErr).Staffs signatures :=
  ifThen _ ((emit _).bind fun _ => emit _)

theorem skipPart (top : Nat) (h : inner.Staffs signatures) :
    (Emit.skipPart top inner).Staffs signatures :=
  checkpoint.bind fun _ => h.bind fun _ => ifElse _ (emit _) (emit _)

open Packrat.Expr

variable {es : List Expr}

theorem items (all : ∀ e ∈ es, e.emit.Conducts signatures) (exit : Nat)
    (fields : List String) : (emitItems exit fields es).Staffs signatures := by
  induction es generalizing fields with
  | nil => exact pure _
  | cons e es ih =>
      rw [emitItems]
      have rest (v : Nat) : ∀ _ : PUnit, Emit.Staffs signatures (do
          let vs ← emitItems exit (fields.drop 1) es
          Pure.pure (v :: vs)) :=
        fun _ => (ih (fun e mem => all e (List.mem_cons_of_mem _ mem)) _).bind fun _ => pure _
      refine ((all e (List.mem_cons_self ..)).within e).staffs.bind fun _ =>
        (leaveOnFailure _).bind fun _ => storeResult.bind fun v => ?_
      dsimp only
      split
      · exact (bindName _ v).bind (rest v)
      · exact rest v ⟨⟩

theorem alternatives (all : ∀ e ∈ es, e.emit.Conducts signatures)
    (back farPos farErr exit : Nat) (isFirst : Bool) :
    (emitAlternatives back farPos farErr exit isFirst es).Staffs signatures := by
  induction es generalizing isFirst with
  | nil => exact (emit _).bind fun _ => (emit _).bind fun _ => emit _
  | cons e es ih =>
      have tried : (Emit.tried back farPos farErr exit e es).Staffs signatures := by
        refine ((all e (List.mem_cons_self ..)).within e).staffs.bind fun _ => ?_
        split
        · exact emit _
        · exact (emit _).bind fun _ => (keepFarthest _ _ _).bind fun _ =>
            ih (fun e mem => all e (List.mem_cons_of_mem _ mem)) false
      cases isFirst with
      | true =>
          rw [Emit.alternatives_first]
          exact tried
      | false =>
          rw [Emit.alternatives_next]
          exact (emit _).bind fun _ => tried

theorem skipped (all : ∀ e ∈ es, e.emit.Conducts signatures) (top : Nat) :
    (emitSkipped top es).Staffs signatures := by
  induction es with
  | nil => exact pure _
  | cons e es ih =>
      rw [emitSkipped]
      exact (skipPart top ((all e (List.mem_cons_self ..)).within e).staffs).bind fun _ =>
        ih fun e mem => all e (List.mem_cons_of_mem _ mem)

theorem arguments {args : List (Option String × Expr)}
    (all : ∀ arg ∈ args, arg.2.emit.Conducts signatures) : (emitArgs args).Staffs signatures := by
  induction args with
  | nil => exact pure _
  | cons arg args ih =>
      obtain ⟨keyword, e⟩ := arg
      rw [emitArgs]
      exact (argument (all _ (List.mem_cons_self ..)) e).bind fun _ =>
        (ih fun arg mem => all arg (List.mem_cons_of_mem _ mem)).bind fun _ => pure _

end Emit.Staffs

namespace Expr

open Emit (Staffs)

/-- **The code of a settled expression behaves.** -/
theorem emit_conducts {e : Expr} (settled : e.Every (Settled signatures)) :
    e.emit.Conducts signatures := by
  induction settled with
  | @intro e here below ih =>
  have part (c : Expr) (mem : c ∈ e.children) : (Emit.within c c.emit).Conducts signatures :=
    (ih c mem).within c
  suffices both : e.emit.Staffs signatures ∧ e.emit.Safe signatures from
    ⟨emit_tame e, both.1, both.2⟩
  cases e with
  | str tag value flags =>
      refine ⟨?_, safe_str here⟩
      rw [Expr.emit]
      refine (Staffs.lift (.failure _ _)).bind fun _ => ?_
      dsimp only
      split
      · exact (Staffs.lift (.regex _ _ _)).bind fun _ => (Staffs.emit _).bind fun _ => .skipping _
      · exact (Staffs.lift (.literal _)).bind fun _ => (Staffs.emit _).bind fun _ => .skipping _
  | regex tag pattern flags =>
      refine ⟨?_, safe_regex here⟩
      rw [Expr.emit]
      exact (Staffs.lift (.regex _ _ _)).bind fun _ => (Staffs.lift (.failure _ _)).bind fun _ =>
        (Staffs.emit _).bind fun _ => .skipping _
  | ref tag name binding =>
      exact ⟨(Staffs.callee name binding).bind fun _ => .emit _, safe_ref here⟩
  | call tag name args binding =>
      have all (arg) (mem : arg ∈ args) : arg.2 ∈ (Expr.call tag name args binding).children :=
        List.mem_map.2 ⟨arg, mem, rfl⟩
      refine ⟨?_, safe_call here fun arg mem => ⟨(below _ (all arg mem)).here, ih _ (all arg mem)⟩⟩
      rw [Expr.emit]
      exact (Staffs.lift (Staffs.boundFunction name binding)).bind fun _ =>
        (Staffs.arguments fun arg mem => ih _ (all arg mem)).bind fun _ => .emit _
  | seq tag items cls? =>
      cases cls? with
      | none =>
          refine ⟨?_, safe_seq_none ih tag⟩
          rw [Expr.emit]
          exact .block fun exit => (Staffs.inScope (.items ih exit [])).bind fun _ =>
            (Staffs.emit _).bind fun _ => .emit _
      | some c =>
          refine ⟨?_, safe_seq_some ih tag c⟩
          rw [Expr.emit]
          exact (Staffs.lift (.cls c)).bind fun _ => .block fun exit => Staffs.checkpoint.bind
            fun _ => (Staffs.inScope (.items ih exit c.fields)).bind fun _ =>
              (Staffs.emit _).bind fun _ => .emit _
  | choice tag items =>
      refine ⟨?_, safe_choice here ih⟩
      by_cases single : ∃ only, items = [only]
      · obtain ⟨only, rfl⟩ := single
        rw [Expr.emit]
        exact (part only (by simp [children])).staffs
      · rw [Expr.emit]
        · exact Staffs.checkpoint.bind fun _ => Staffs.slot.bind fun _ => (Staffs.emit _).bind
            fun _ => Staffs.slot.bind fun _ => (Staffs.emit _).bind fun _ => .block fun exit =>
              .alternatives ih _ _ _ exit true
        · exact fun only h => single ⟨only, h⟩
  | list tag item least most =>
      have item' := part item (by simp [children])
      rw [Expr.emit]
      exact ⟨.listOf item'.staffs _ least most, .listOf item' _ least most⟩
  | sep tag item separator flags =>
      have item' := part item (by simp [children])
      have separator' := part separator (by simp [children])
      rw [Expr.emit]
      exact ⟨.sepOf item'.staffs separator'.staffs flags, .sepOf item' separator' flags⟩
  | opt tag inner =>
      have inner' := part inner (by simp [children])
      rw [Expr.emit]
      exact ⟨.optional inner'.staffs, .optional inner'⟩
  | apply tag left right applyLeft =>
      have left' := ih left (by simp [children])
      have right' := ih right (by simp [children])
      refine ⟨?_, safe_apply left' right' tag applyLeft⟩
      rw [Expr.emit]
      exact .block fun exit => (Staffs.both (left'.within left).staffs (right'.within right).staffs
        exit).bind fun _ => .emit _
  | discard tag left right discardLeft =>
      have left' := ih left (by simp [children])
      have right' := ih right (by simp [children])
      refine ⟨?_, safe_discard left' right' tag discardLeft⟩
      rw [Expr.emit]
      exact .keepOne (left'.within left).staffs (right'.within right).staffs discardLeft
  | expect tag inner =>
      have inner' := part inner (by simp [children])
      rw [Expr.emit]
      exact ⟨.peek inner'.staffs, .peek inner'⟩
  | expectNot tag inner =>
      have inner' := part inner (by simp [children])
      rw [Expr.emit]
      exact ⟨.never _ _ inner'.staffs, .never inner' _ _⟩
  | fail tag message? =>
      exact ⟨(Staffs.lift (.failure _ _)).bind fun _ => .emit _, safe_fail tag message?⟩
  | bound tag name value body =>
      have value' := ih value (by simp [children])
      have body' := ih body (by simp [children])
      refine ⟨?_, safe_bound value' body' tag name⟩
      rw [Expr.emit]
      exact .block fun exit => (value'.within value).staffs.bind fun _ =>
        (Staffs.leaveOnFailure exit).bind fun _ => Staffs.storeResult.bind fun v =>
          .inScope ((Staffs.bindName name v).bind fun _ => (body'.within body).staffs)
  | satisfying tag inner predicate =>
      have inner' := ih inner (by simp [children])
      have predicate' := ih predicate (by simp [children])
      refine ⟨?_, safe_satisfying inner' predicate' tag⟩
      rw [Expr.emit]
      exact (Staffs.lift (.failure _ _)).bind fun _ => .block fun exit => (Staffs.both
        (inner'.within inner).staffs (predicate'.within predicate).staffs exit).bind fun _ => .emit _
  | skip tag items =>
      refine ⟨?_, safe_skip ih tag⟩
      rw [Expr.emit]
      exact (Staffs.loop fun top exit => (Staffs.skipped ih top).bind fun _ => .emit _).bind
        fun _ => .succeedWith _
  | host tag s => exact ⟨.snippet s, safe_host tag s⟩
  | operators tag atom levels =>
      have table := conducts_operators (ih atom (by simp [children]))
        (fun level mem => ih level.2 (List.mem_cons_of_mem _ (List.mem_map.2 ⟨level, mem, rfl⟩))) tag
      exact ⟨table.staffs, table.safe⟩

end Expr

end Packrat
