import Packrat.Proofs.Meaning.Throughout
import Packrat.Proofs.Simulation.Arguments

/-
**Patterns that have been written have automata.**

An expression is written only if every pattern in it has an automaton.  Behind an alternative that
always succeeds nothing is written, so nothing is said of the patterns there.

Main definitions:

* `Packrat.Emit.Needs` — writers that go through only if something is true;
* `Packrat.Expr.Patterned` — expressions whose pattern has an automaton.

Main results:

* `Packrat.Expr.emit_needs` — **an expression is written only if its patterns have automata**.
-/

set_option autoImplicit false

namespace Packrat

variable [Regex.Engine]

/-- An expression whose pattern, if it has one, has an automaton. -/
def Expr.Patterned : Expr → Prop
  | .str _ value flags => flags.ignoreCase = true →
    ∃ regex, Regex.compile (literalPattern value flags.binary) true flags.binary = .ok regex
  | .regex _ pattern flags => ∃ regex, Regex.compile pattern flags.ignoreCase flags.binary = .ok regex
  | _ => True

/-- A writer of constants goes through only if something is true. -/
def Build.Needs {α : Type} (x : Build α) (Q : Prop) : Prop :=
  ∀ p a p', (∀ e ∈ p.regexes, e.Sound) → x.Adds p a p' → Q

/-- A writer goes through only if something is true. -/
def Emit.Needs {α : Type} (x : Emit α) (Q : Prop) : Prop :=
  ∀ d p a d' p', (∀ e ∈ p.regexes, e.Sound) → x.Writes d p a d' p' → Q

theorem Build.Needs.regex (pattern : String) (ignoreCase binary : Bool) :
    (regex pattern ignoreCase binary).Needs (∃ r, Regex.compile pattern ignoreCase binary = .ok r) := by
  intro p n p' sound adds
  obtain ⟨grown, e, found, rfl, rfl, rfl⟩ := adds_regex adds
  exact ⟨e.regex, grown.sound sound e (Array.mem_of_getElem? found)⟩

theorem Build.Needs.defineNew {name : String} {params : List String} {body : Emit Unit} {Q : Prop}
    (h : body.Needs Q) : (defineNew name params body).Needs Q := by
  intro p f p' sound adds
  obtain ⟨rfl, draft, p₁, function, writes, -, -⟩ := Emit.adds_defineNew adds
  exact h _ { p with functions := p.functions.push none } _ _ _ sound writes

namespace Emit.Needs

variable {α β : Type} {Q : Prop} {x : Emit α} {f : α → Emit β} {body : Emit Unit}

theorem first (h : x.Needs Q) : (x >>= f).Needs Q := by
  intro d p b d' p' sound writes
  obtain ⟨a, d₁, p₁, writes, -⟩ := writes_bind.1 writes
  exact h _ _ _ _ _ sound writes

theorem laterLoose (loose : x.Loose) (h : ∀ a, (f a).Needs Q) : (x >>= f).Needs Q := by
  intro d p b d' p' sound writes
  obtain ⟨a, d₁, p₁, writes, rest⟩ := writes_bind.1 writes
  exact h a _ _ _ _ _ ((loose.pools writes).sound sound) rest

theorem later (tame : x.Tame) (h : ∀ a, (f a).Needs Q) : (x >>= f).Needs Q :=
  laterLoose tame.loose h

theorem lift {x : Build α} (h : x.Needs Q) : (liftM x : Emit α).Needs Q :=
  fun _ _ _ _ _ sound writes => h _ _ _ sound (writes_lift.1 writes).1

theorem inScope {x : Emit α} (h : x.Needs Q) : (inScope x).Needs Q := by
  intro d p a d' p' sound writes
  obtain ⟨d₁, writes, -⟩ := writes_inScope.1 writes
  exact h _ _ _ _ _ sound writes

theorem block {body : Nat → Emit Unit} (h : ∀ exit, (body exit).Needs Q) : (block body).Needs Q := by
  intro d p u d' p' sound writes
  obtain ⟨d₁, writes, -⟩ := writes_block.1 writes
  exact h _ _ _ _ _ _ sound writes

theorem loop {body : Nat → Nat → Emit Unit} (h : ∀ top exit, (body top exit).Needs Q) :
    (loop body).Needs Q := by
  intro d p u d' p' sound writes
  obtain ⟨d₁, writes, -⟩ := writes_loop.1 writes
  exact h _ _ _ _ _ _ _ sound writes

/-- A part of an expression, in place or as a function of its own. -/
theorem within {e : Expr} (h : body.Needs Q) : (within e body).Needs Q := by
  intro d p u d' p' sound writes
  rw [Emit.within, writes_get_bind] at writes
  split at writes
  · exact later (Tame.lookupAll _) (fun _ => first (lift (.defineNew h))) _ _ _ _ _ sound writes
  · exact h _ _ _ _ _ sound writes

/-! ### Parts of expressions -/

variable {item separator left right : Emit Unit}

theorem attempt {staging err errPos exit : Nat} (h : item.Needs Q) :
    (attempt item staging err errPos exit).Needs Q := later .checkpoint fun _ => first h

theorem listOf {text : String} {least most : Option Bound} (h : item.Needs Q) :
    (listOf text item least most).Needs Q := by
  refine later .slot fun _ => later (.emit _) fun _ => later (.lift (.failure _ _)) fun _ =>
    later .slot fun _ => later (.emit _) fun _ => later .checkpoint fun _ =>
    later (.limit? _) fun _ => later (.limit? _) fun most? => first (loop fun _ _ => ?_)
  cases most? with
  | none => exact attempt h
  | some most => exact later (.emit _) fun _ => attempt h

theorem sepOf_item {flags : SepFlags} (h : item.Needs Q) : (sepOf item separator flags).Needs Q :=
  later .slot fun _ => later (.emit _) fun _ => block fun _ => later .checkpoint fun _ => first h

theorem sepOf_separator {flags : SepFlags} (tame : item.Tame) (h : separator.Needs Q) :
    (sepOf item separator flags).Needs Q := by
  refine later .slot fun _ => later (.emit _) fun _ => block fun _ => later .checkpoint fun _ =>
    later tame fun _ => later (.ifThen _ (.noItems _ _ _)) fun _ => later (.emit _) fun _ =>
    first ?_
  rw [separated_eq]
  exact loop fun _ _ => later .checkpoint fun _ => first h

theorem both_left {exit : Nat} (h : left.Needs Q) : (both left right exit).Needs Q := first h

theorem both_right {exit : Nat} (tame : left.Tame) (h : right.Needs Q) :
    (both left right exit).Needs Q :=
  later tame fun _ => later (.leaveOnFailure _) fun _ => later .storeResult fun _ => first h

theorem keepOne_left {discardLeft : Bool} (h : left.Needs Q) :
    (keepOne left right discardLeft).Needs Q := block fun _ => first h

theorem keepOne_right {discardLeft : Bool} (tame : left.Tame) (h : right.Needs Q) :
    (keepOne left right discardLeft).Needs Q := by
  refine block fun _ => later tame fun _ => later (.leaveOnFailure _) fun _ => ?_
  split
  · exact h
  · exact later .storeResult fun _ => first h

theorem peek (h : item.Needs Q) : (peek item).Needs Q :=
  later .checkpoint fun _ => first (block fun _ => h)

theorem level {fixity : Fixity} {below arity : Nat} (h : item.Needs Q) :
    (level fixity item below arity).Needs Q := by
  have leftLevel (once : Bool) : (leftLevel once item below arity).Needs Q :=
    block fun _ => later (.emit _) fun _ => later (.leaveOnFailure _) fun _ =>
      later .storeResult fun _ => first (loop fun _ _ => first (later .checkpoint fun _ => first h))
  cases fixity with
  | prefixOp =>
      exact later .slot fun _ => later (.emit _) fun _ =>
        first (loop fun _ _ => later .checkpoint fun _ => first h)
  | postfixOp =>
      exact block fun _ => later (.emit _) fun _ => later (.leaveOnFailure _) fun _ =>
        later .storeResult fun _ => first (loop fun _ _ => later .checkpoint fun _ => first h)
  | leftAssoc => exact leftLevel false
  | nonAssoc => exact leftLevel true
  | rightAssoc =>
      exact block fun _ => later .slot fun _ => later (.emit _) fun _ => later (.emit _) fun _ =>
        later (.leaveOnFailure _) fun _ => later (.emit _) fun _ =>
        first (loop fun _ _ => first (later .checkpoint fun _ => first h))

/-! ### Lists of expressions -/

variable {P : Expr → Layout → Prop}

theorem items {exit : Nat} {fields : List String} {es : List Expr} {ls : List Layout}
    (all : ∀ e ∈ es, ∀ l, e.emit.Needs (P e l)) :
    ∀ x ∈ zipLayouts es ls, (emitItems exit fields es).Needs (P x.1 x.2) := by
  induction es generalizing fields ls with
  | nil => simp [zipLayouts]
  | cons e es ih =>
      intro x mem
      rw [emitItems]
      rcases List.mem_cons.1 mem with rfl | mem
      · exact first (within (all e (by simp) _))
      · refine later (.within e e.emit_tame) fun _ => later (.leaveOnFailure _) fun _ =>
          later .storeResult fun v => ?_
        have rest : ∀ _ : PUnit, Needs (do
            let vs ← emitItems exit (fields.drop 1) es
            Pure.pure (v :: vs)) (P x.1 x.2) :=
          fun _ => first (ih (fun e mem => all e (List.mem_cons_of_mem _ mem)) x mem)
        dsimp only
        split
        · exact laterLoose (.bindName _ v) rest
        · exact rest ⟨⟩

theorem alternatives {back farPos farErr exit : Nat} {isFirst : Bool} {es : List Expr}
    {ls : List Layout} (all : ∀ e ∈ es, ∀ l, e.emit.Needs (P e l)) :
    ∀ x ∈ alternativeParts es ls,
      (emitAlternatives back farPos farErr exit isFirst es).Needs (P x.1 x.2) := by
  induction es generalizing isFirst ls with
  | nil => simp [alternativeParts]
  | cons e es ih =>
      intro x mem
      have tried : (tried back farPos farErr exit e es).Needs (P x.1 x.2) := by
        rcases List.mem_cons.1 mem with rfl | mem
        · exact first (within (all e (by simp) _))
        · split at mem
          · cases mem
          · next fails =>
              rw [Emit.tried, if_neg fails]
              exact later (.within e e.emit_tame) fun _ => later (.emit _) fun _ =>
                later (.keepFarthest _ _ _) fun _ =>
                  ih (fun e mem => all e (List.mem_cons_of_mem _ mem)) x mem
      cases isFirst with
      | true =>
          rw [alternatives_first]
          exact tried
      | false =>
          rw [alternatives_next]
          exact later (.emit _) fun _ => tried

theorem skipped {top : Nat} {es : List Expr} {ls : List Layout}
    (all : ∀ e ∈ es, ∀ l, e.emit.Needs (P e l)) :
    ∀ x ∈ zipLayouts es ls, (emitSkipped top es).Needs (P x.1 x.2) := by
  induction es generalizing ls with
  | nil => simp [zipLayouts]
  | cons e es ih =>
      intro x mem
      rw [emitSkipped]
      rcases List.mem_cons.1 mem with rfl | mem
      · exact first (later .checkpoint fun _ => first (within (all e (by simp) _)))
      · exact later (.skipPart top (.within e e.emit_tame)) fun _ =>
          ih (fun e mem => all e (List.mem_cons_of_mem _ mem)) x mem

/-- An argument that becomes a function is written like any other expression. -/
theorem arguments {args : List (Option String × Expr)} {ls : List Layout}
    (all : ∀ e ∈ args.map (·.2), ∀ l, e.emit.Needs (P e l)) :
    ∀ x ∈ handedArgs args ls, (emitArgs args).Needs (P x.1 x.2.bare) := by
  induction args generalizing ls with
  | nil => simp [handedArgs]
  | cons arg args ih =>
      obtain ⟨keyword, e⟩ := arg
      intro x mem
      rw [emitArgs]
      rcases List.mem_append.1 mem with mem | mem
      · split at mem
        · cases mem
        · next own =>
            obtain rfl := List.mem_singleton.1 mem
            rw [Emit.argument_own (Bool.eq_false_iff.2 own)]
            exact first (later (.lookupAll _) fun _ => first (lift (.defineNew (all e (by simp) _))))
      · exact later (.argument e.emit_tame e) fun _ =>
          first (ih (fun e mem => all e (List.mem_cons_of_mem _ mem)) x mem)

theorem levels {params : List String} {id below index : Nat} {levels : List (Fixity × Expr)}
    {ls : List Layout} (all : ∀ e ∈ levels.map (·.2), ∀ l, e.emit.Needs (P e l)) :
    ∀ x ∈ levelParts levels ls, (emitLevels id params below index levels).Needs (P x.1 x.2) := by
  induction levels generalizing below index ls with
  | nil => simp [levelParts]
  | cons level levels ih =>
      obtain ⟨fixity, e⟩ := level
      intro x mem p f p' sound adds
      rw [emitLevels] at adds
      obtain ⟨g, p₁, here, rest⟩ := Build.adds_bind.1 adds
      rcases List.mem_cons.1 mem with rfl | mem
      · exact Build.Needs.defineNew (Needs.level (within (all e (by simp) _))) _ _ _ sound here
      · have grown := (tame_defineNew _ _ (.level fixity (.within e e.emit_tame) _ _)).pools here
        exact ih (fun e mem => all e (List.mem_cons_of_mem _ mem)) x mem _ _ _
          (grown.sound sound) rest

end Emit.Needs

namespace Expr

open Emit Emit.Needs

/-- An expression is written only if its own pattern has an automaton. -/
theorem emit_patterned (e : Expr) : e.emit.Needs e.Patterned := by
  cases e with
  | str tag value flags =>
      rw [emit]
      refine later (.lift (.failure _ _)) fun _ => ?_
      dsimp only
      split
      · exact first (lift fun p n p' sound adds _ => Build.Needs.regex _ _ _ p n p' sound adds)
      · next sharp => exact fun _ _ _ _ _ _ _ ignores => absurd ignores sharp
  | regex tag pattern flags =>
      rw [emit]
      exact first (lift (.regex _ _ _))
  | _ => exact fun _ _ _ _ _ _ _ => trivial

section

variable {P : Expr → Layout → Prop} {e : Expr} {l : Layout} {x : Expr × Layout}

/-- An expression is written only if the parts in place in it are. -/
theorem emit_needs_inPlace (below : ∀ c ∈ e.children, ∀ l, c.emit.Needs (P c l))
    (mem : x ∈ e.inPlace l) : e.emit.Needs (P x.1 x.2) := by
  have part (c : Expr) (mem : c ∈ e.children) (l : Layout) : (Emit.within c c.emit).Needs (P c l) :=
    within (below c mem l)
  cases e with
  | str | regex | ref | fail | host | call => simp [inPlace] at mem
  | seq tag es cls? =>
      cases cls? with
      | none =>
          rw [emit]
          exact block fun _ => first (inScope (items below x mem))
      | some c =>
          rw [emit]
          exact later (.lift (.cls c)) fun _ => block fun _ => later .checkpoint fun _ =>
            first (inScope (items below x mem))
  | choice tag es =>
      rcases es with _ | ⟨only, _ | ⟨e', es⟩⟩
      · cases mem
      · rw [emit]
        have mem : x ∈ alternativeParts [only] l.parts := mem
        simp [alternativeParts] at mem
        subst mem
        exact part only (by simp [children]) _
      · rw [emit]
        · exact later .checkpoint fun _ => later .slot fun _ => later (.emit _) fun _ =>
            later .slot fun _ => later (.emit _) fun _ => block fun _ =>
            Emit.Needs.alternatives below x mem
        · simp
  | list tag item least most =>
      obtain rfl := List.mem_singleton.1 mem
      rw [emit]
      exact listOf (part item (by simp [children]) _)
  | sep tag item separator flags =>
      rw [emit]
      simp only [inPlace, List.mem_cons, List.not_mem_nil, or_false] at mem
      rcases mem with rfl | rfl | rfl
      · exact sepOf_item (part item (by simp [children]) _)
      · exact sepOf_separator (.within item item.emit_tame) (part separator (by simp [children]) _)
      · exact sepOf_item (part item (by simp [children]) _)
  | opt tag inner =>
      obtain rfl := List.mem_singleton.1 mem
      rw [emit]
      exact later .checkpoint fun _ => first (block fun _ => part inner (by simp [children]) _)
  | expect tag inner =>
      obtain rfl := List.mem_singleton.1 mem
      rw [emit]
      exact peek (part inner (by simp [children]) _)
  | expectNot tag inner =>
      obtain rfl := List.mem_singleton.1 mem
      rw [emit]
      exact first (peek (part inner (by simp [children]) _))
  | apply tag a b applyLeft =>
      rw [emit]
      simp only [inPlace, List.mem_cons, List.not_mem_nil, or_false] at mem
      rcases mem with rfl | rfl
      · exact block fun _ => first (both_left (part a (by simp [children]) _))
      · exact block fun _ => first (both_right (.within a a.emit_tame) (part b (by simp [children]) _))
  | discard tag a b discardLeft =>
      rw [emit]
      simp only [inPlace, List.mem_cons, List.not_mem_nil, or_false] at mem
      rcases mem with rfl | rfl
      · exact keepOne_left (part a (by simp [children]) _)
      · exact keepOne_right (.within a a.emit_tame) (part b (by simp [children]) _)
  | bound tag name a b =>
      rw [emit]
      simp only [inPlace, List.mem_cons, List.not_mem_nil, or_false] at mem
      rcases mem with rfl | rfl
      · exact block fun _ => first (part a (by simp [children]) _)
      · exact block fun _ => later (.within a a.emit_tame) fun _ => later (.leaveOnFailure _)
          fun _ => later .storeResult fun v => inScope (laterLoose (.bindName name v) fun _ =>
            part b (by simp [children]) _)
  | satisfying tag a b =>
      rw [emit]
      simp only [inPlace, List.mem_cons, List.not_mem_nil, or_false] at mem
      rcases mem with rfl | rfl
      · exact later (.lift (.failure _ _)) fun _ => block fun _ =>
          first (both_left (part a (by simp [children]) _))
      · exact later (.lift (.failure _ _)) fun _ => block fun _ =>
          first (both_right (.within a a.emit_tame) (part b (by simp [children]) _))
  | skip tag es =>
      rw [emit]
      exact first (loop fun _ _ => first (skipped below x mem))
  | operators tag atom ops =>
      rw [emit]
      refine later (.lookupAll _) fun _ => ?_
      rcases List.mem_cons.1 mem with rfl | mem
      · exact first (lift (.defineNew (part atom (by simp [children]) _)))
      · refine later (.lift (tame_defineNew _ _ (.within atom atom.emit_tame))) fun _ => first (lift ?_)
        exact levels (fun c of => below c (List.mem_cons_of_mem _ of)) x mem

/-- A call is written only if the arguments that become functions are. -/
theorem emit_needs_handed (below : ∀ c ∈ e.children, ∀ l, c.emit.Needs (P c l))
    (mem : x ∈ e.handed l) : e.emit.Needs (P x.1 x.2.bare) := by
  cases e with
  | call tag callee args binding =>
      rw [emit]
      exact later (.lift (Tame.boundFunction _ _)) fun _ => first (arguments below x mem)
  | _ => simp [handed] at mem

end

/-- An expression is written only if its patterns, and those of all that is written for it, have
automata. -/
theorem emit_needs (e : Expr) (l : Layout) :
    e.emit.Needs (e.Throughout (fun e _ => e.Patterned) l) := by
  have below : ∀ c ∈ e.children, ∀ l, c.emit.Needs (c.Throughout (fun e _ => e.Patterned) l) :=
    fun c mem l => emit_needs c l
  exact fun d p a d' p' sound writes => .intro (e.emit_patterned d p a d' p' sound writes)
    (fun x mem => emit_needs_inPlace below mem d p a d' p' sound writes)
    fun x mem => emit_needs_handed below mem d p a d' p' sound writes
termination_by sizeOf e
decreasing_by exact sizeOf_lt_of_mem_children mem

end Expr

end Packrat
