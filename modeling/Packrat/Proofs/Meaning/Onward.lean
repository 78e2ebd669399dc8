import Packrat.Proofs.Meaning.Chains
import Packrat.Proofs.Simulation.Calls

/-
**Readings go onward.**

A reading comes to a place that is not before the one where it began, and forgets nothing that was
remembered.  Both have to be shown together: a verdict that is taken from memory has only come to
such a place if those that were put there have.

Main definitions:

* `Packrat.Store.Within` — what one store remembers, another one does too;
* `Packrat.Store.Sound` — what is remembered does not lie before its place;
* `Packrat.Reading.Onward` — readings that keep both.

Main results:

* `Packrat.Expr.onward` — expressions, by induction on them;
* `Packrat.World.run_advances` — **functions, by induction on the rounds**.
-/

set_option autoImplicit false

namespace Packrat

/-- What a store remembers, the other one does too. -/
def Store.Within (s s' : Store) : Prop := ∀ key v, s.memo key = some v → s'.memo key = some v

/-- What is remembered for a place has not come to one before it. -/
def Store.Sound (s : Store) : Prop := ∀ key v, s.memo key = some v → key.2 ≤ v.pos

namespace Store

variable {s s₁ s₂ : Store} {key : MemoKey} {v : Verdict Value}

theorem Within.refl (s : Store) : s.Within s := fun _ _ h => h

theorem Within.trans (h : s.Within s₁) (h' : s₁.Within s₂) : s.Within s₂ :=
  fun key v found => h' key v (h key v found)

/-- Something new is remembered. -/
theorem within_remember (new : s.memo key = none) (within : s.Within s₁) :
    s.Within (s₁.remember key v) := by
  intro other v' found
  by_cases same : other = key
  · subst same
    rw [new] at found
    cases found
  · change (if other = key then some v else s₁.memo other) = some v'
    rw [if_neg same]
    exact within other v' found

theorem Sound.remember (h : s.Sound) (le : key.2 ≤ v.pos) : (s.remember key v).Sound := by
  intro other v' found
  change (if other = key then some v else s.memo other) = some v' at found
  split at found
  · next same =>
      subst same
      cases found
      exact le
  · exact h other v' found

/-- Nothing is remembered yet. -/
theorem sound_of_forgetful (h : ∀ key, s.memo key = none) : s.Sound := by
  intro key v found
  rw [h key] at found
  cases found

end Store

/-! ### Parts of readings -/

namespace Reading

variable {α β σ : Type}

/-- A reading that forgets nothing, remembers nothing that goes back, and comes to something good. -/
def Onward (r : Reading α) (good : α → Prop) : Prop :=
  ∀ s x s', s.Sound → r s = some (.ok (x, s')) → s.Within s' ∧ s'.Sound ∧ good x

namespace Onward

variable {r : Reading α} {good : α → Prop} {fine : β → Prop}

theorem pure {x : α} (h : good x) : Onward (Pure.pure x : Reading α) good := by
  intro s y s' sound ends
  obtain ⟨rfl, rfl⟩ := pure_eq_ok.1 ends
  exact ⟨.refl s', sound, h⟩

theorem stuck : Onward (Reading.stuck : Reading α) good := fun _ _ _ _ ends => by cases ends

theorem exhausted : Onward (Reading.exhausted : Reading α) good := fun _ _ _ _ ends => by cases ends

theorem stop (e : Stop) : Onward (throw e : Reading α) good := fun _ _ _ _ ends => by cases ends

theorem bind {k : α → Reading β} (h : Onward r good) (next : ∀ x, good x → Onward (k x) fine) :
    Onward (r >>= k) fine := by
  intro s y s' sound ends
  obtain ⟨x, s₁, first, rest⟩ := bind_eq_ok.1 ends
  obtain ⟨within, sound₁, hx⟩ := h s x s₁ sound first
  obtain ⟨within', sound', hy⟩ := next x hx s₁ y s' sound₁ rest
  exact ⟨within.trans within', sound', hy⟩

theorem mono {good' : α → Prop} (h : Onward r good) (imp : ∀ x, good x → good' x) :
    Onward r good' := by
  intro s x s' sound ends
  obtain ⟨within, sound', hx⟩ := h s x s' sound ends
  exact ⟨within, sound', imp x hx⟩

theorem host (e : Host.Eval α) : Onward (Reading.host e) fun _ => True := by
  intro s x s' sound ends
  rw [Reading.host] at ends
  split at ends
  · cases ends
    exact ⟨fun _ _ found => found, sound, trivial⟩
  · cases ends

theorem found (x? : Option α) : Onward (Reading.found x?) fun x => x? = some x := by
  cases x? with
  | none => exact stuck
  | some x => exact pure rfl

/-- The rounds of a repetition keep what its first one begins with. -/
theorem repeatFrom {part : σ → Reading (σ ⊕ α)} (inv : σ → Prop)
    (round : ∀ a, inv a → Onward (part a) (Sum.elim inv good)) (rounds : Nat) {a : σ} (h : inv a) :
    Onward (Reading.repeatFrom part rounds a) good := by
  induction rounds generalizing a with
  | zero => exact exhausted
  | succ rounds ih =>
      refine bind (round a h) ?_
      rintro (b | x) hb
      · exact ih hb
      · exact pure hb

/-- A test behind which the two cases differ. -/
theorem ite {c : Prop} [Decidable c] {r' : Reading α} (yes : c → Onward r good)
    (no : ¬c → Onward r' good) : Onward (if c then r else r') good := by
  split
  · next h => exact yes h
  · next h => exact no h

end Onward

/-- A reading from a place that goes onward. -/
def Advances (r : Reading (Verdict α)) (pos : Nat) : Prop := Onward r fun v => pos ≤ v.pos

namespace Advances

variable {r : Reading (Verdict α)} {k : α → Nat → Reading (Verdict β)} {pos start : Nat}

theorem success {x : α} {stop : Nat} (le : pos ≤ stop) :
    Advances (Pure.pure (.success x stop) : Reading (Verdict α)) pos := .pure le

theorem failure {entry : FailureEntry} {place : Nat} (le : pos ≤ place) :
    Advances (Pure.pure (.failure entry place) : Reading (Verdict α)) pos := .pure le

theorem from_le (h : Advances r pos) (le : start ≤ pos) : Advances r start :=
  h.mono fun _ le' => Nat.le_trans le le'

/-- One part and another from the place where the first has ended. -/
theorem andThen (h : Advances r pos) (next : ∀ x stop, pos ≤ stop → Advances (k x stop) pos) :
    Advances (Reading.andThen r k) pos := by
  refine .bind h ?_
  rintro (⟨x, stop⟩ | ⟨entry, place⟩) le
  · exact next x stop le
  · exact failure le

/-- While a function is under way it counts as failed at its place, and nothing else is written
over: the key was free. -/
theorem remembered {memoize : Bool} {f : Nat} {r : Reading (Verdict Value)} (h : Advances r pos) :
    Advances (Reading.remembered memoize f pos r) pos := by
  cases memoize with
  | false => exact h
  | true =>
      intro s v s' sound ends
      rw [remembered_true] at ends
      split at ends
      · next v' found =>
          cases ends
          exact ⟨.refl _, sound, sound _ _ found⟩
      · next new =>
          -- The function begins with its own place remembered as failed, and ends by writing over it.
          obtain ⟨v', s₁, first, rest⟩ := bind_eq_ok.1 ends
          obtain ⟨within, sound₁, le⟩ :=
            h _ v' s₁ (sound.remember (v := selfReference pos) (Nat.le_refl pos)) first
          cases rest
          refine ⟨Store.within_remember new ?_, sound₁.remember le, le⟩
          exact (Store.within_remember new (.refl s)).trans within

end Advances

end Reading

open Reading

/-! ### Parts of expressions -/

/-- A scene whose calls go onward. -/
def Scene.Advances (scene : Scene) : Prop := ∀ f args pos, Reading.Advances (scene.call f args pos) pos

namespace Scene

variable {scene : Scene} {pos : Nat} {operator operand item separator : Nat → Reading (Verdict Value)}

theorem callRule_advances (calls : scene.Advances) (function : String) (pos : Nat) :
    Reading.Advances (scene.callRule function pos) pos :=
  .bind (.found _) fun f _ => calls f [] pos

theorem skipping_advances (calls : scene.Advances) (skip : Bool) {v : Verdict Value}
    (le : pos ≤ v.pos) : Reading.Advances (scene.skipping skip v) pos := by
  cases v with
  | failure entry place => exact .failure le
  | success v stop =>
      refine Onward.ite (fun _ => ?_) fun _ => Advances.success le
      refine .bind (callRule_advances calls _ stop) fun ignored le' => ?_
      exact Advances.success (Nat.le_trans le le')

theorem matched_le (entry : FailureEntry) {stop? : Option Nat} (le : ∀ stop ∈ stop?, pos ≤ stop) :
    pos ≤ (scene.matched entry pos stop?).pos := by
  cases stop? with
  | none => exact Nat.le_refl pos
  | some stop => exact le stop rfl

theorem pattern_advances [Regex.Engine] (entry : FailureEntry) (pattern : String)
    (ignoreCase binary : Bool) (pos : Nat) :
    Reading.Advances (scene.pattern entry pattern ignoreCase binary pos) pos := by
  unfold Scene.pattern
  split
  · exact .pure (matched_le entry fun stop found => Regex.le_of_matchEnd? _ found)
  · exact Onward.stuck

theorem snippet_onward (env : Env) (s : Snippet) :
    Onward (scene.snippet env s) fun _ => True :=
  .bind (.found _) fun _ _ => .host _

theorem boundOf_onward (env : Env) (bound? : Option Bound) :
    Onward (scene.boundOf env bound?) fun _ => True := by
  match bound? with
  | none => exact .pure trivial
  | some (.const n) => exact .pure trivial
  | some (.host s) => exact .bind (snippet_onward env s) fun _ _ => .pure trivial

theorem reaches_onward (items : Nat) (v : Value) : Onward (reaches items v) fun _ => True := by
  unfold reaches
  split
  · exact .pure trivial
  · split
    · exact .pure trivial
    · exact .stop _

theorem full_onward (items : Nat) (most : Option Value) :
    Onward (full items most) fun _ => True := by
  cases most with
  | none => exact .pure trivial
  | some v => exact reaches_onward items v

theorem enough_onward (items : Nat) (least : Option Value) :
    Onward (scene.enough items least) fun _ => True := by
  unfold enough
  split
  · exact .pure trivial
  · exact (Onward.found _).mono fun _ _ => trivial
  · exact reaches_onward _ _

/-- Items and what is reported if they are too few lie behind the place where they begin. -/
theorem anotherItem_onward (most : Option Value) (parts : ∀ p, Reading.Advances (item p) p)
    (a : List Value × (FailureEntry × Nat) × Nat) (far : pos ≤ a.2.1.2) (le : pos ≤ a.2.2) :
    Onward (anotherItem most item a) (Sum.elim (fun b => pos ≤ b.2.1.2 ∧ pos ≤ b.2.2)
      fun b => pos ≤ b.2.1.2 ∧ pos ≤ b.2.2) := by
  obtain ⟨items, ⟨entry, place⟩, between⟩ := a
  refine .bind (full_onward _ _) fun isFull _ => ?_
  refine Onward.ite (fun _ => .pure ⟨far, le⟩) fun _ => ?_
  refine .bind (parts between) ?_
  rintro (⟨v, stop⟩ | ⟨entry', place'⟩) le'
  · have behind : pos ≤ stop := Nat.le_trans le le'
    exact Onward.ite (fun _ => .pure ⟨far, behind⟩) fun _ => .pure ⟨far, behind⟩
  · exact .pure ⟨Nat.le_trans le le', le⟩

theorem anotherPair_onward (flags : SepFlags) (items : ∀ p, Reading.Advances (item p) p)
    (separators : ∀ p, Reading.Advances (separator p) p) (a : List Value × Nat) (le : pos ≤ a.2) :
    Onward (anotherPair flags item separator a)
      (Sum.elim (fun b => pos ≤ b.2) fun b => pos ≤ b.2) := by
  obtain ⟨values, start⟩ := a
  refine .bind (separators start) ?_
  rintro (⟨x, between⟩ | ⟨entry, place⟩) le₁
  · have le₁ : pos ≤ between := Nat.le_trans le le₁
    refine .bind (items between) ?_
    rintro (⟨v, stop⟩ | ⟨entry, place⟩) le₂
    · have le₂ : pos ≤ stop := Nat.le_trans le₁ le₂
      exact Onward.ite (fun _ => .pure le₂) fun _ => .pure le₂
    · refine .pure ?_
      change pos ≤ if flags.allowTrailer = true then between else start
      split
      · exact le₁
      · exact le
  · exact .pure le

theorem anotherPrefix_onward (operators : ∀ p, Reading.Advances (operator p) p)
    (a : List Value × Nat) (le : pos ≤ a.2) :
    Onward (anotherPrefix operator a) (Sum.elim (fun b => pos ≤ b.2) fun b => pos ≤ b.2) := by
  obtain ⟨ops, start⟩ := a
  refine .bind (operators start) ?_
  rintro (⟨op, stop⟩ | ⟨entry, place⟩) le'
  · have le' : pos ≤ stop := Nat.le_trans le le'
    exact Onward.ite (fun _ => .pure le') fun _ => .pure le'
  · exact .pure le

theorem anotherPostfix_onward (operators : ∀ p, Reading.Advances (operator p) p) (a : Value × Nat)
    (le : pos ≤ a.2) :
    Onward (anotherPostfix operator a) (Sum.elim (fun b => pos ≤ b.2) fun b => pos ≤ b.2) := by
  obtain ⟨acc, start⟩ := a
  refine .bind (operators start) ?_
  rintro (⟨op, stop⟩ | ⟨entry, place⟩) le'
  · have le' : pos ≤ stop := Nat.le_trans le le'
    refine .bind (.host _) fun _ _ => ?_
    exact Onward.ite (fun _ => .pure le') fun _ => .pure le'
  · exact .pure le

theorem operatorPair_onward (operators : ∀ p, Reading.Advances (operator p) p)
    (operands : ∀ p, Reading.Advances (operand p) p) (pos : Nat) :
    Onward (operatorPair operator operand pos) fun pair? => ∀ pair ∈ pair?, pos ≤ pair.2.2 := by
  refine .bind (operators pos) ?_
  rintro (⟨op, between⟩ | ⟨entry, place⟩) le
  · refine .bind (operands between) ?_
    rintro (⟨right, stop⟩ | ⟨entry, place⟩) le'
    · refine .pure fun pair mem => ?_
      cases mem
      exact Nat.le_trans le le'
    · exact .pure fun pair mem => by cases mem
  · exact .pure fun pair mem => by cases mem

theorem anotherInfix_onward (once : Bool) (operators : ∀ p, Reading.Advances (operator p) p)
    (operands : ∀ p, Reading.Advances (operand p) p) (a : Value × Nat) (le : pos ≤ a.2) :
    Onward (anotherInfix once operator operand a)
      (Sum.elim (fun b => pos ≤ b.2) fun b => pos ≤ b.2) := by
  obtain ⟨acc, start⟩ := a
  refine .bind (operatorPair_onward operators operands start) ?_
  rintro (_ | ⟨op, right, stop⟩) le'
  · exact .pure le
  · have le' : pos ≤ stop := Nat.le_trans le (le' _ rfl)
    refine .bind (.host _) fun _ _ => ?_
    exact Onward.ite (fun _ => .pure le') fun _ => .pure le'

theorem anotherLink_onward (operators : ∀ p, Reading.Advances (operator p) p)
    (operands : ∀ p, Reading.Advances (operand p) p) (a : (List (Value × Value) × Value) × Nat)
    (le : pos ≤ a.2) :
    Onward (anotherLink operator operand a)
      (Sum.elim (fun b => pos ≤ b.2) fun b => pos ≤ b.2) := by
  obtain ⟨⟨links, last⟩, start⟩ := a
  refine .bind (operatorPair_onward operators operands start) ?_
  rintro (_ | ⟨op, right, stop⟩) le'
  · exact .pure le
  · have le' : pos ≤ stop := Nat.le_trans le (le' _ rfl)
    exact Onward.ite (fun _ => .pure le') fun _ => .pure le'

theorem left_advances (once : Bool) (operators : ∀ p, Reading.Advances (operator p) p)
    (operands : ∀ p, Reading.Advances (operand p) p) (pos : Nat) :
    Reading.Advances (levelOf.left scene operator operand pos once) pos := by
  refine Advances.andThen (operands pos) fun v between le => ?_
  refine .bind (.repeatFrom (fun a => pos ≤ a.2)
    (fun a le => anotherInfix_onward once operators operands a le) scene.rounds le) ?_
  rintro ⟨acc, stop⟩ le
  exact Advances.success le

theorem levelOf_advances (fixity : Fixity) (operators : ∀ p, Reading.Advances (operator p) p)
    (operands : ∀ p, Reading.Advances (operand p) p) (pos : Nat) :
    Reading.Advances (scene.levelOf fixity operator operand pos) pos := by
  cases fixity with
  | prefixOp =>
      refine .bind (.host _) fun _ _ => ?_
      refine .bind (.repeatFrom (fun a => pos ≤ a.2)
        (fun a le => anotherPrefix_onward operators a le) scene.rounds (Nat.le_refl pos)) ?_
      rintro ⟨ops, between⟩ le
      refine Advances.andThen ((operands between).from_le le) fun v stop le => ?_
      exact .bind (.host _) fun _ _ => Advances.success le
  | postfixOp =>
      refine Advances.andThen (operands pos) fun v between le => ?_
      refine .bind (.repeatFrom (fun a => pos ≤ a.2)
        (fun a le => anotherPostfix_onward operators a le) scene.rounds le) ?_
      rintro ⟨acc, stop⟩ le
      exact Advances.success le
  | leftAssoc => exact left_advances false operators operands pos
  | nonAssoc => exact left_advances true operators operands pos
  | rightAssoc =>
      refine .bind (.host _) fun _ _ => ?_
      refine Advances.andThen (operands pos) fun v between le => ?_
      refine .bind (.repeatFrom (fun a => pos ≤ a.2)
        (fun a le => anotherLink_onward operators operands a le) scene.rounds le) ?_
      rintro ⟨⟨links, last⟩, stop⟩ le
      exact .bind (.host _) fun _ _ => Advances.success le

theorem farther_le {isFail : Bool} {entry : FailureEntry} {place : Nat}
    {far? : Option (FailureEntry × Nat)} (le : pos ≤ place) (le' : ∀ far ∈ far?, pos ≤ far.2) :
    ∀ far ∈ farther isFail entry place far?, pos ≤ far.2 := by
  intro far mem
  cases far? with
  | none =>
      cases mem
      exact le
  | some far' =>
      rw [farther] at mem
      by_cases later : if isFail = true then far'.2 < place else far'.2 ≤ place
      · rw [if_pos later] at mem
        cases mem
        exact le
      · rw [if_neg later] at mem
        exact le' far mem

theorem argument_onward (env : Env) (l : Layout) (e : Expr) :
    Onward (scene.argument env l e) fun _ => True := by
  unfold argument
  split
  · exact (Onward.found _).mono fun _ _ => trivial
  · exact .bind (.found _) fun _ _ => .bind (.host _) fun _ _ => .pure trivial
  · exact snippet_onward env _
  · exact .bind (.found _) fun _ _ => .bind (.host _) fun _ _ => .pure trivial

end Scene

theorem Layout.read_advances {l : Layout} {scene : Scene} {params : List String} {pos : Nat}
    {r : Reading (Verdict Value)} (h : Advances r pos) : Advances (l.read scene params pos r) pos := by
  unfold Layout.read
  split
  · exact h.remembered
  · exact h

/-! ### Expressions -/

variable [Regex.Engine]

open Scene in
mutual

/-- An expression is read onward where calls are. -/
theorem Expr.onward {scene : Scene} (calls : scene.Advances) :
    (e : Expr) → (env : Env) → (l : Layout) → (pos : Nat) →
      Reading.Advances (e.meaning scene env l pos) pos
  -- A second part begins where the first has ended, so it is shown for every place and brought back
  -- to the first one by `from_le`.
  | .str tag value flags, env, l, pos => by
      rw [Expr.meaning]
      refine Onward.ite (fun _ => .bind (pattern_advances _ _ _ _ pos)
        fun v le => skipping_advances calls flags.skip le) fun _ => ?_
      refine .bind (.pure ?_) fun v le => skipping_advances calls flags.skip le
      refine matched_le _ fun stop mem => ?_
      split at mem
      · cases mem
        exact Nat.le_add_right pos _
      · cases mem
  | .regex tag pattern flags, env, l, pos => by
      rw [Expr.meaning]
      exact .bind (pattern_advances _ _ _ _ pos) fun v le => skipping_advances calls flags.skip le
  | .ref _ name .local, env, l, pos => by
      rw [Expr.meaning]
      refine .bind (.found _) fun v _ => ?_
      split
      · exact calls _ _ pos
      · exact Advances.success (Nat.le_refl pos)
  | .ref _ _ (.rule function), env, l, pos => by
      rw [Expr.meaning]
      exact callRule_advances calls function pos
  | .ref _ _ .unresolved, env, l, pos => by
      rw [Expr.meaning]
      exact Onward.stuck
  | .call _ _ args (.rule function), env, l, pos => by
      rw [Expr.meaning]
      exact .bind (.found _) fun f _ =>
        .bind (Expr.args_onward args env l.parts) fun values _ => calls f values pos
  | .call _ _ _ .local, env, l, pos => by
      rw [Expr.meaning]
      · exact Onward.stuck
      · simp
  | .call _ _ _ .unresolved, env, l, pos => by
      rw [Expr.meaning]
      · exact Onward.stuck
      · simp
  | .seq _ items none, env, l, pos => by
      rw [Expr.meaning]
      refine Advances.andThen (Expr.items_onward calls items [] env l.parts pos)
        fun values stop le => ?_
      exact .bind (.host _) fun _ _ => Advances.success le
  | .seq _ items (some c), env, l, pos => by
      rw [Expr.meaning]
      refine Advances.andThen (Expr.items_onward calls items c.fields env l.parts pos)
        fun values stop le => ?_
      exact .bind (.host _) fun _ _ => Advances.success le
  | .choice _ [only], env, l, pos => by
      rw [Expr.meaning]
      exact Layout.read_advances (only.onward calls env (l.part 0) pos)
  | .choice _ [], env, l, pos => by
      rw [Expr.meaning]
      · exact Expr.alternatives_onward calls [] env l.parts pos none (by simp)
      · simp
  | .choice _ (first :: second :: rest), env, l, pos => by
      rw [Expr.meaning]
      · exact Expr.alternatives_onward calls (first :: second :: rest) env l.parts pos none (by simp)
      · simp
  | .list tag item least most, env, l, pos => by
      rw [Expr.meaning]
      refine .bind (.host _) fun id _ => .bind (boundOf_onward env least) fun low _ =>
        .bind (boundOf_onward env most) fun high _ => ?_
      -- Two places go through the rounds: the end of the items, and the failure that is reported if
      -- there are too few of them.
      refine .bind (.repeatFrom (fun a => pos ≤ a.2.1.2 ∧ pos ≤ a.2.2)
        (fun a le => anotherItem_onward high
          (fun p => Layout.read_advances (item.onward calls env (l.part 0) p)) a le.1 le.2)
        scene.rounds ⟨Nat.le_refl pos, Nat.le_refl pos⟩) ?_
      rintro ⟨items, far, stop⟩ ⟨farBehind, le⟩
      refine .bind (enough_onward _ _) fun isEnough _ => ?_
      exact Onward.ite (fun _ => Advances.success le) fun _ => Advances.failure farBehind
  | .sep _ item separator flags, env, l, pos => by
      rw [Expr.meaning]
      refine .bind (.host _) fun id _ => ?_
      refine .bind (Layout.read_advances (item.onward calls env (l.part 0) pos)) ?_
      rintro (⟨v, stop⟩ | ⟨entry, place⟩) le
      · refine .bind (.repeatFrom (fun a => pos ≤ a.2)
          (fun a le => anotherPair_onward flags
            (fun p => Layout.read_advances (item.onward calls env (l.part 2) p))
            (fun p => Layout.read_advances (separator.onward calls env (l.part 1) p)) a le)
          scene.rounds le) ?_
        rintro ⟨items, stop⟩ le
        exact Advances.success le
      · exact Onward.ite (fun _ => Advances.success (Nat.le_refl pos)) fun _ => Advances.failure le
  | .opt _ inner, env, l, pos => by
      rw [Expr.meaning]
      refine .bind (Layout.read_advances (inner.onward calls env (l.part 0) pos)) ?_
      rintro (⟨v, stop⟩ | ⟨entry, place⟩) le
      · exact Advances.success le
      · exact Advances.success (Nat.le_refl pos)
  | .apply _ left right applyLeft, env, l, pos => by
      rw [Expr.meaning]
      refine Advances.andThen (Layout.read_advances (left.onward calls env (l.part 0) pos))
        fun a between le => ?_
      refine (Advances.andThen (Layout.read_advances (right.onward calls env (l.part 1) between))
        fun b stop le => ?_).from_le le
      exact .bind (.host _) fun _ _ => Advances.success le
  | .discard _ left right discardLeft, env, l, pos => by
      rw [Expr.meaning]
      refine Advances.andThen (Layout.read_advances (left.onward calls env (l.part 0) pos))
        fun a between le => ?_
      exact (Advances.andThen (Layout.read_advances (right.onward calls env (l.part 1) between))
        fun b stop le => Advances.success le).from_le le
  | .expect _ inner, env, l, pos => by
      rw [Expr.meaning]
      refine .bind (Layout.read_advances (inner.onward calls env (l.part 0) pos)) ?_
      rintro (⟨v, stop⟩ | ⟨entry, place⟩) _
      · exact Advances.success (Nat.le_refl pos)
      · exact Advances.failure (Nat.le_refl pos)
  | .expectNot _ inner, env, l, pos => by
      rw [Expr.meaning]
      refine .bind (Layout.read_advances (inner.onward calls env (l.part 0) pos)) ?_
      rintro (⟨v, stop⟩ | ⟨entry, place⟩) _
      · exact Advances.failure (Nat.le_refl pos)
      · exact Advances.success (Nat.le_refl pos)
  | .fail _ _, env, l, pos => by
      rw [Expr.meaning]
      exact Advances.failure (Nat.le_refl pos)
  | .bound _ name value body, env, l, pos => by
      rw [Expr.meaning]
      refine Advances.andThen (Layout.read_advances (value.onward calls env (l.part 0) pos))
        fun v stop le => ?_
      exact (Layout.read_advances (body.onward calls ((name, v) :: env) (l.part 1) stop)).from_le le
  | .satisfying _ inner predicate, env, l, pos => by
      rw [Expr.meaning]
      refine Advances.andThen (Layout.read_advances (inner.onward calls env (l.part 0) pos))
        fun x between le => ?_
      refine (Advances.andThen
        (Layout.read_advances (predicate.onward calls env (l.part 1) between))
        fun f stop le => ?_).from_le le
      refine .bind (.host _) fun verdict _ => .pure ?_
      split
      · exact le
      · exact le
  | .skip _ items, env, l, pos => by
      rw [Expr.meaning]
      refine .bind (.repeatFrom (fun p => pos ≤ p)
        (fun p le => (Expr.skipped_onward calls items env l.parts p).mono ?_)
        scene.rounds (Nat.le_refl pos)) fun stop le => Advances.success le
      rintro (stop | stop) le'
      · exact Nat.le_trans le le'
      · exact Nat.le_trans le le'
  | .host _ s, env, l, pos => by
      rw [Expr.meaning]
      exact .bind (snippet_onward env s) fun v _ => Advances.success (Nat.le_refl pos)
  | .operators _ atom levels, env, l, pos => by
      rw [Expr.meaning]
      exact Expr.levels_onward calls levels _ env l.parts.tail _
        (fun p => Layout.read_advances (Layout.read_advances (atom.onward calls env _ p))) pos

theorem Expr.items_onward {scene : Scene} (calls : scene.Advances) :
    (es : List Expr) → (fields : List String) → (env : Env) → (ls : List Layout) → (pos : Nat) →
      Reading.Advances (meaningItems scene es fields env ls pos) pos
  | [], fields, env, ls, pos => by
      rw [meaningItems]
      exact Advances.success (Nat.le_refl pos)
  | e :: es, fields, env, ls, pos => by
      rw [meaningItems]
      refine Advances.andThen (Layout.read_advances (e.onward calls env _ pos))
        fun v between le => ?_
      exact (Advances.andThen (Expr.items_onward calls es _ _ ls.tail between)
        fun vs stop le => Advances.success le).from_le le

theorem Expr.alternatives_onward {scene : Scene} (calls : scene.Advances) :
    (es : List Expr) → (env : Env) → (ls : List Layout) → (pos : Nat) →
      (far? : Option (FailureEntry × Nat)) → (∀ far ∈ far?, pos ≤ far.2) →
      Reading.Advances (meaningAlternatives scene es env ls pos far?) pos
  | [], env, ls, pos, far?, behind => by
      rw [meaningAlternatives]
      refine .bind (.found far?) ?_
      rintro ⟨entry, place⟩ given
      exact Advances.failure (behind _ given)
  | e :: es, env, ls, pos, far?, behind => by
      rw [meaningAlternatives]
      refine .bind (Layout.read_advances (e.onward calls env _ pos)) ?_
      rintro (⟨v, stop⟩ | ⟨entry, place⟩) le
      · exact Advances.success le
      · refine Onward.ite (fun _ => Advances.failure le) fun _ => ?_
        exact Expr.alternatives_onward calls es env ls.tail pos _ (farther_le le behind)

theorem Expr.skipped_onward {scene : Scene} (calls : scene.Advances) :
    (es : List Expr) → (env : Env) → (ls : List Layout) → (pos : Nat) →
      Onward (meaningSkipped scene es env ls pos) (Sum.elim (pos ≤ ·) (pos ≤ ·))
  | [], env, ls, pos => by
      rw [meaningSkipped]
      exact .pure (Nat.le_refl pos)
  | e :: es, env, ls, pos => by
      rw [meaningSkipped]
      refine .bind (Layout.read_advances (e.onward calls env _ pos)) ?_
      rintro (⟨v, stop⟩ | ⟨entry, place⟩) le
      · exact Onward.ite (fun _ => Expr.skipped_onward calls es env ls.tail pos) fun _ => .pure le
      · exact Expr.skipped_onward calls es env ls.tail pos

theorem Expr.args_onward {scene : Scene} :
    (args : List (Option String × Expr)) → (env : Env) → (ls : List Layout) →
      Onward (meaningArgs scene args env ls) fun _ => True
  | [], env, ls => by
      rw [meaningArgs]
      exact .pure trivial
  | (_, e) :: rest, env, ls => by
      rw [meaningArgs]
      exact .bind (argument_onward env _ e) fun v _ =>
        .bind (Expr.args_onward rest env ls.tail) fun vs _ => .pure trivial

theorem Expr.levels_onward {scene : Scene} (calls : scene.Advances) :
    (levels : List (Fixity × Expr)) → (params : List String) → (env : Env) →
      (ls : List Layout) → (operand : Nat → Reading (Verdict Value)) →
      (∀ p, Reading.Advances (operand p) p) → (pos : Nat) →
      Reading.Advances (meaningLevels scene levels params env ls operand pos) pos
  | [], params, env, ls, operand, operands, pos => by
      rw [meaningLevels]
      exact operands pos
  | (fixity, operator) :: rest, params, env, ls, operand, operands, pos => by
      rw [meaningLevels]
      refine Expr.levels_onward calls rest params env ls.tail _ (fun p => ?_) pos
      exact Layout.read_advances (levelOf_advances fixity
        (fun q => Layout.read_advances (operator.onward calls env _ q)) operands p)

end

/-! ### Calls -/

namespace World

variable {w : World}

/-- Functions go onward, whatever they call. -/
theorem run_advances (w : World) (rounds f : Nat) (args : List Value) (pos : Nat) :
    Reading.Advances (w.run rounds f args pos) pos := by
  induction rounds generalizing f args pos with
  | zero => exact Onward.exhausted
  | succ rounds ih =>
      cases found : w.naming.closure? f with
      | none =>
          rw [run_none found]
          exact Onward.stuck
      | some c =>
          by_cases arity : args.length = c.params.length
          · rw [run_some found arity]
            have calls : (w.scene c.rule rounds).Advances :=
              fun g xs p => Advances.remembered (ih g xs p)
            exact Layout.read_advances (Expr.onward calls c.body _ c.layout pos)
          · rw [run_arity found arity]
            exact Onward.stop _

theorem call_advances (w : World) (rounds f : Nat) (args : List Value) (pos : Nat) :
    Reading.Advances (w.call rounds f args pos) pos :=
  Advances.remembered (w.run_advances rounds f args pos)

end World

end Packrat
