import Packrat.Proofs.Analysis.Arguments
import Packrat.Proofs.Analysis.Snippets
import Packrat.Proofs.Analysis.Weaving

/-
**What every part of an analyzed grammar has found.**

Each part of an expression is looked at with the names that are in scope there: the parameters of the
definition, the names bound by `let` around it and the fields before it.  Analysis makes exactly the
names in scope locals, finds a rule for every other, and gives each part a number of its own.

Main definitions:

* `Packrat.Expr.parts` — the expressions below one, with the names in scope there;
* `Packrat.Expr.Everywhere` — all parts of an expression have a property, each in its scope;
* `Packrat.Expr.Found` — an expression that has found what its names, its host code and its matches
  need;
* `Packrat.Expr.ids` — the numbers of an expression and of all within it;
* `Packrat.Expr.Becomes`, `Packrat.Grammar.Becomes` — what analysis leaves as it is;
* `Packrat.Grammar.WellBound` — **what holds of analyzed grammars**.

Main results:

* `Packrat.Grammar.ids_of_analyze` — numbers are different, and none is zero;
* `Packrat.Grammar.wellBound_of_analyze` — **every name of an analyzed grammar is bound**, and nothing
  else in it has changed.
-/

set_option autoImplicit false

namespace Packrat

/-! ### Host code -/

/-- Host code without the names that it captures. -/
def Snippet.form (s : Snippet) : Snippet := { s with locals := [] }

/-- A bound without the names that it captures. -/
def Bound.form : Bound → Bound
  | .const n => .const n
  | .host s => .host s.form

theorem Snippet.scoped_locals {known : Known} {scope : List String} {span : Span} {s t : Snippet}
    (h : s.scoped known scope span = .ok t) : t.locals = t.term.freeNames.filter scope.contains := by
  simp only [Snippet.scoped] at h
  split at h
  · exact absurd h not_refuse_eq_ok
  · obtain rfl : _ = t := by simpa using h
    rfl

theorem Snippet.scoped_form {known : Known} {scope : List String} {span : Span} {s t : Snippet}
    (h : s.scoped known scope span = .ok t) : t.form = s.form := by
  simp only [Snippet.scoped] at h
  split at h
  · exact absurd h not_refuse_eq_ok
  · obtain rfl : _ = t := by simpa using h
    rfl

theorem Bound.scoped_form {known : Known} {scope : List String} {span : Span}
    {b? out : Option Bound} (h : Bound.scoped known scope span b? = .ok out) :
    out.map Bound.form = b?.map Bound.form := by
  match b? with
  | none =>
      obtain rfl : _ = out := by simpa [Bound.scoped] using h
      rfl
  | some (.const n) =>
      obtain rfl : _ = out := by simpa [Bound.scoped] using h
      rfl
  | some (.host t) =>
      obtain ⟨t', done, h⟩ := Except.bind_eq_ok.1 h
      obtain rfl := Except.pure_eq_ok.1 h
      exact congrArg (some ∘ Bound.host) (Snippet.scoped_form done)

theorem Bound.scoped_locals {known : Known} {scope : List String} {span : Span}
    {b? out : Option Bound}
    (h : Bound.scoped known scope span b? = .ok out) :
    ∀ s ∈ Bound.snippets out, s.locals = s.term.freeNames.filter scope.contains := by
  match b? with
  | none =>
      obtain rfl : _ = out := by simpa [Bound.scoped] using h
      simp [Bound.snippets]
  | some (.const n) =>
      obtain rfl : _ = out := by simpa [Bound.scoped] using h
      simp [Bound.snippets]
  | some (.host t) =>
      obtain ⟨t', done, h⟩ := Except.bind_eq_ok.1 h
      obtain rfl := Except.pure_eq_ok.1 h
      simpa [Bound.snippets] using Snippet.scoped_locals done

namespace Expr

/-! ### Parts and scopes -/

/-- Items of which each may use the fields before it. -/
def fieldParts (scope fields : List String) : List Expr → List (List String × Expr)
  | [] => []
  | e :: es => (scope, e) :: fieldParts (fields.take 1 ++ scope) (fields.drop 1) es

/-- The expressions below one, each with the names in scope there. -/
def parts (scope : List String) : Expr → List (List String × Expr)
  | .seq _ items cls? => fieldParts scope ((cls?.map (·.fields)).getD []) items
  | .bound _ name value body => [(scope, value), (name :: scope, body)]
  | e => e.children.map (scope, ·)

/-- An expression and all those within it have a property, with the names in scope there. -/
inductive Everywhere (P : List String → Expr → Prop) : List String → Expr → Prop
  | intro {scope : List String} {e : Expr} (here : P scope e)
      (below : ∀ p ∈ e.parts scope, Everywhere P p.1 p.2) : Everywhere P scope e

theorem fieldParts_snd (scope fields : List String) (es : List Expr) :
    (fieldParts scope fields es).map (·.2) = es := by
  induction es generalizing scope fields with
  | nil => rfl
  | cons e es ih => rw [fieldParts, List.map_cons, ih]

theorem parts_snd (scope : List String) (e : Expr) : (e.parts scope).map (·.2) = e.children := by
  cases e with
  | seq tag items cls? => exact fieldParts_snd scope _ items
  | bound => rfl
  | _ => exact (List.map_map ..).trans (List.map_id' _)

/-- The numbers of an expression and of all those within it. -/
def ids (e : Expr) : List Nat := e.id :: e.children.attach.flatMap fun c => c.1.ids
termination_by sizeOf e
decreasing_by exact sizeOf_lt_of_mem_children c.2

theorem ids_eq (e : Expr) : e.ids = e.id :: e.children.flatMap ids := by
  rw [ids]
  simp [List.flatMap, List.attach_map_val (f := ids)]

/-! ### Forms -/

/-- Stands where a part of an expression was. -/
def hole : Expr := .fail ⟨0, .nowhere⟩ none

/-- An expression without its parts, and without what its names refer to and its host code captures. -/
def form : Expr → Expr
  | .ref tag name _ => .ref tag name .unresolved
  | .seq tag _ cls? => .seq tag [] cls?
  | .choice tag _ => .choice tag []
  | .list tag _ least most => .list tag hole (least.map Bound.form) (most.map Bound.form)
  | .sep tag _ _ flags => .sep tag hole hole flags
  | .opt tag _ => .opt tag hole
  | .apply tag _ _ applyLeft => .apply tag hole hole applyLeft
  | .discard tag _ _ discardLeft => .discard tag hole hole discardLeft
  | .expect tag _ => .expect tag hole
  | .expectNot tag _ => .expectNot tag hole
  | .bound tag name _ _ => .bound tag name hole hole
  | .satisfying tag _ _ => .satisfying tag hole hole
  | .skip tag _ => .skip tag []
  | .call tag callee _ _ => .call tag callee [] .unresolved
  | .host tag snippet => .host tag snippet.form
  | .operators tag _ levels => .operators tag hole ((levels.map (·.1)).map (·, hole))
  | e => e

theorem id_form (e : Expr) : e.form.id = e.id := by cases e <;> rfl

theorem id_eq_of_form {e out : Expr} (h : out.form = e.form) : out.id = e.id := by
  rw [← id_form out, h, id_form]

/-- Whether an expression calls a rule with arguments. -/
def isCall : Expr → Bool
  | .call _ _ _ _ => true
  | _ => false

theorem isCall_form (e : Expr) : e.form.isCall = e.isCall := by cases e <;> rfl

/-- What an expression becomes when its names find what they refer to: it keeps its form, and its
parts their places, but for the arguments of a call, which come into the order of the parameters. -/
inductive Becomes : Expr → Expr → Prop
  | intro {e out : Expr} {parts : List Expr} (form : out.form = e.form)
      (below : List.Forall₂ Becomes e.children parts)
      (order : parts = out.children ∨ e.isCall = true ∧ parts.Perm out.children) : Becomes e out

/-! ### What is found -/

/-- An expression before its names have found anything: matches all skip ignored content, or none
does. -/
def Marked (skips : Bool) : Expr → Prop
  | .str _ _ flags | .regex _ _ flags => flags.skip = skips
  | .ref _ _ binding => binding = .unresolved
  | _ => True

/-- Host code that captures exactly the names in scope among those that it reads. -/
def Captures (scope : List String) (e : Expr) : Prop :=
  ∀ s ∈ e.snippets, s.locals = s.term.freeNames.filter scope.contains

/-- An expression whose names have found their locals. -/
def Localized (skips : Bool) (scope : List String) (e : Expr) : Prop :=
  e.Captures scope ∧
    match e with
    | .str _ _ flags | .regex _ _ flags => flags.skip = skips
    | .ref _ name binding => binding = if name ∈ scope then .local else .unresolved
    | _ => True

/-- An expression that has found what it needs: a name is a local exactly if it is in scope and
otherwise that of a rule without parameters, a call has an argument by position for each parameter of
a rule, and host code captures exactly the names in scope among those that it reads. -/
def Found (rules : Signatures) (skips : Bool) (scope : List String) (e : Expr) : Prop :=
  e.Captures scope ∧
    match e with
    | .str _ _ flags | .regex _ _ flags => flags.skip = skips
    | .ref _ name binding => if name ∈ scope then binding = .local else
        binding = .rule (ruleFunction name) ∧ (name, []) ∈ rules
    | .call _ callee args binding => binding = .rule (ruleFunction callee) ∧
        (∃ params, (callee, params) ∈ rules ∧ args.length = params.length) ∧
        ∀ arg ∈ args, arg.1 = none
    | _ => True

/-! ### Locals -/

section

variable {known : Known} {scope : List String}

theorem forall₂_scopedAll {es out : List Expr} (h : scopedAll known scope es = .ok out) :
    List.Forall₂ (fun e c => e.scoped known scope = .ok c) es out := by
  induction es generalizing out with
  | nil =>
      obtain rfl : [] = out := by simpa [scopedAll] using h
      exact .nil
  | cons e es ih =>
      obtain ⟨x, first, h⟩ := Except.bind_eq_ok.1 h
      obtain ⟨rest, found, h⟩ := Except.bind_eq_ok.1 h
      obtain rfl := Except.pure_eq_ok.1 h
      exact .cons first (ih found)

theorem forall₂_scopedArgs {args out : List (Option String × Expr)}
    (h : scopedArgs known scope args = .ok out) :
    List.Forall₂ (fun e c => e.scoped known scope = .ok c) (args.map (·.2)) (out.map (·.2)) := by
  induction args generalizing out with
  | nil =>
      obtain rfl : [] = out := by simpa [scopedArgs] using h
      exact .nil
  | cons arg args ih =>
      obtain ⟨x, first, h⟩ := Except.bind_eq_ok.1 h
      obtain ⟨rest, found, h⟩ := Except.bind_eq_ok.1 h
      obtain rfl := Except.pure_eq_ok.1 h
      exact .cons first (ih found)

theorem forall₂_scopedLevels {levels out : List (Fixity × Expr)}
    (h : scopedLevels known scope levels = .ok out) :
    List.Forall₂ (fun e c => e.scoped known scope = .ok c) (levels.map (·.2)) (out.map (·.2)) := by
  induction levels generalizing out with
  | nil =>
      obtain rfl : [] = out := by simpa [scopedLevels] using h
      exact .nil
  | cons level levels ih =>
      obtain ⟨x, first, h⟩ := Except.bind_eq_ok.1 h
      obtain ⟨rest, found, h⟩ := Except.bind_eq_ok.1 h
      obtain rfl := Except.pure_eq_ok.1 h
      exact .cons first (ih found)

theorem fixities_scopedLevels {levels out : List (Fixity × Expr)}
    (h : scopedLevels known scope levels = .ok out) : out.map (·.1) = levels.map (·.1) := by
  induction levels generalizing out with
  | nil =>
      obtain rfl : [] = out := by simpa [scopedLevels] using h
      rfl
  | cons level levels ih =>
      obtain ⟨x, first, h⟩ := Except.bind_eq_ok.1 h
      obtain ⟨rest, found, h⟩ := Except.bind_eq_ok.1 h
      obtain rfl := Except.pure_eq_ok.1 h
      exact congrArg (level.1 :: ·) (ih found)

/-- The parts of two expressions go together: each is in the same scope, and related by `R`. -/
abbrev Together (R : List String → Expr → Expr → Prop) :
    List (List String × Expr) → List (List String × Expr) → Prop :=
  List.Forall₂ fun p q => p.1 = q.1 ∧ R p.1 p.2 q.2

theorem together_scopedFields {fields : List String} {es out : List Expr}
    (h : scopedFields known scope fields es = .ok out) :
    Together (fun scope e c => e.scoped known scope = .ok c) (fieldParts scope fields es)
      (fieldParts scope fields out) := by
  induction es generalizing out scope fields with
  | nil =>
      obtain rfl : [] = out := by simpa [scopedFields] using h
      exact .nil
  | cons e es ih =>
      obtain ⟨x, first, h⟩ := Except.bind_eq_ok.1 h
      obtain ⟨rest, found, h⟩ := Except.bind_eq_ok.1 h
      obtain rfl := Except.pure_eq_ok.1 h
      exact .cons ⟨rfl, first⟩ (ih found)

/-- Parts in one scope go together if the expressions do. -/
theorem together_map {R : List String → Expr → Expr → Prop} {es out : List Expr}
    (h : List.Forall₂ (R scope) es out) :
    Together R (es.map (scope, ·)) (out.map (scope, ·)) := by
  induction h with
  | nil => exact .nil
  | cons first _ ih => exact .cons ⟨rfl, first⟩ ih

theorem captures_of_nil {e : Expr} (h : e.snippets = []) : e.Captures scope := by
  simp [Captures, h]

/-- What an expression has found in the scope around it. -/
theorem scoped_localized {skips : Bool} {e out : Expr} (marked : e.Marked skips)
    (h : e.scoped known scope = .ok out) :
    out.form = e.form ∧ out.Localized skips scope ∧
      Together (fun scope e c => e.scoped known scope = .ok c) (e.parts scope)
        (out.parts scope) := by
  cases e with
  | str | regex =>
      obtain rfl : _ = out := by simpa [Expr.scoped] using h
      exact ⟨rfl, ⟨captures_of_nil rfl, marked⟩, .nil⟩
  | fail =>
      obtain rfl : _ = out := by simpa [Expr.scoped] using h
      exact ⟨rfl, ⟨captures_of_nil rfl, trivial⟩, .nil⟩
  | ref tag name binding =>
      obtain rfl : binding = .unresolved := marked
      simp only [Expr.scoped] at h
      split at h
      · next inside =>
          obtain rfl : _ = out := by simpa using h
          refine ⟨rfl, ⟨captures_of_nil rfl, ?_⟩, .nil⟩
          simp [List.contains_iff_mem.1 inside]
      · next outside =>
          split at h
          · obtain rfl : _ = out := by simpa using h
            refine ⟨rfl, ⟨captures_of_nil rfl, ?_⟩, .nil⟩
            simp [show name ∉ scope by simpa using outside]
          · exact absurd h not_refuse_eq_ok
  | seq tag items cls? =>
      obtain ⟨items, done, h⟩ := Except.bind_eq_ok.1 h
      obtain rfl := Except.pure_eq_ok.1 h
      exact ⟨rfl, ⟨captures_of_nil rfl, trivial⟩, together_scopedFields done⟩
  | choice tag items | skip tag items =>
      obtain ⟨out, done, h⟩ := Except.bind_eq_ok.1 h
      obtain rfl := Except.pure_eq_ok.1 h
      exact ⟨rfl, ⟨captures_of_nil rfl, trivial⟩, together_map (forall₂_scopedAll done)⟩
  | list tag item least most =>
      obtain ⟨x, first, h⟩ := Except.bind_eq_ok.1 h
      obtain ⟨least', second, h⟩ := Except.bind_eq_ok.1 h
      obtain ⟨most', third, h⟩ := Except.bind_eq_ok.1 h
      obtain rfl := Except.pure_eq_ok.1 h
      refine ⟨?_, ⟨fun s mem => ?_, trivial⟩, .cons ⟨rfl, first⟩ .nil⟩
      · rw [form, form, Bound.scoped_form second, Bound.scoped_form third]
      rcases List.mem_append.1 mem with mem | mem
      · exact Bound.scoped_locals second s mem
      · exact Bound.scoped_locals third s mem
  | opt tag inner | expect tag inner | expectNot tag inner =>
      obtain ⟨x, first, h⟩ := Except.bind_eq_ok.1 h
      obtain rfl := Except.pure_eq_ok.1 h
      exact ⟨rfl, ⟨captures_of_nil rfl, trivial⟩, .cons ⟨rfl, first⟩ .nil⟩
  | sep tag a b | apply tag a b | discard tag a b | bound tag _ a b | satisfying tag a b =>
      obtain ⟨x, first, h⟩ := Except.bind_eq_ok.1 h
      obtain ⟨y, second, h⟩ := Except.bind_eq_ok.1 h
      obtain rfl := Except.pure_eq_ok.1 h
      exact ⟨rfl, ⟨captures_of_nil rfl, trivial⟩, .cons ⟨rfl, first⟩ (.cons ⟨rfl, second⟩ .nil)⟩
  | call tag callee args binding =>
      simp only [Expr.scoped] at h
      split at h
      · exact absurd h not_refuse_eq_ok
      · obtain ⟨out, done, h⟩ := Except.bind_eq_ok.1 h
        obtain rfl := Except.pure_eq_ok.1 h
        exact ⟨rfl, ⟨captures_of_nil rfl, trivial⟩, together_map (forall₂_scopedArgs done)⟩
  | host tag snippet =>
      obtain ⟨t, done, h⟩ := Except.bind_eq_ok.1 h
      obtain rfl := Except.pure_eq_ok.1 h
      refine ⟨congrArg (Expr.host tag) (Snippet.scoped_form done), ⟨fun s mem => ?_, trivial⟩, .nil⟩
      obtain rfl : s = t := List.mem_singleton.1 mem
      exact Snippet.scoped_locals done
  | operators tag atom levels =>
      obtain ⟨x, first, h⟩ := Except.bind_eq_ok.1 h
      obtain ⟨out, done, h⟩ := Except.bind_eq_ok.1 h
      obtain rfl := Except.pure_eq_ok.1 h
      refine ⟨?_, ⟨captures_of_nil rfl, trivial⟩,
        together_map (.cons first (forall₂_scopedLevels done))⟩
      rw [form, form, fixities_scopedLevels done]

end

/-! ### Rules -/

section

variable {rules : Signatures} {scope : List String} {skips : Bool}

/-- The parts of an expression go together with others, which for a call may stand in another
order. -/
def Rearranged (call : Bool) (R : List String → Expr → Expr → Prop)
    (ps qs : List (List String × Expr)) : Prop :=
  ∃ mid, Together R ps mid ∧ (mid = qs ∨ call = true ∧ mid.Perm qs)

theorem Together.rearranged {call : Bool} {R : List String → Expr → Expr → Prop}
    {ps qs : List (List String × Expr)} (h : Together R ps qs) : Rearranged call R ps qs :=
  ⟨qs, h, .inl rfl⟩

theorem perm_of_order {α : Type} {call : Bool} {xs ys : List α}
    (h : xs = ys ∨ call = true ∧ xs.Perm ys) : xs.Perm ys := by
  rcases h with rfl | h
  · exact .refl _
  · exact h.2

theorem together_resolvedFields {fields : List String} {es out : List Expr}
    (h : resolvedAll rules es = .ok out) :
    Together (fun _ e c => e.resolved rules = .ok c) (fieldParts scope fields es)
      (fieldParts scope fields out) := by
  induction es generalizing out scope fields with
  | nil =>
      obtain rfl : [] = out := by simpa [resolvedAll] using h
      exact .nil
  | cons e es ih =>
      obtain ⟨x, first, h⟩ := Except.bind_eq_ok.1 h
      obtain ⟨rest, found, h⟩ := Except.bind_eq_ok.1 h
      obtain rfl := Except.pure_eq_ok.1 h
      exact .cons ⟨rfl, first⟩ (ih found)

theorem fixities_resolvedLevels {levels out : List (Fixity × Expr)}
    (h : resolvedLevels rules levels = .ok out) : out.map (·.1) = levels.map (·.1) := by
  induction levels generalizing out with
  | nil =>
      obtain rfl : [] = out := by simpa [resolvedLevels] using h
      rfl
  | cons level levels ih =>
      obtain ⟨x, first, h⟩ := Except.bind_eq_ok.1 h
      obtain ⟨rest, found, h⟩ := Except.bind_eq_ok.1 h
      obtain rfl := Except.pure_eq_ok.1 h
      exact congrArg (level.1 :: ·) (ih found)

theorem mem_of_lookup {α : Type} {pairs : List (String × α)} {k : String} {a : α}
    (h : pairs.lookup k = some a) : (k, a) ∈ pairs := by
  obtain ⟨before, behind, rfl, -⟩ := List.lookup_eq_some_iff.1 h
  simp

/-- What an expression has found behind all passes. -/
theorem resolved_found {e out : Expr} (localized : e.Localized skips scope)
    (h : e.resolved rules = .ok out) :
    out.form = e.form ∧ out.Found rules skips scope ∧
      Rearranged e.isCall (fun _ e c => e.resolved rules = .ok c) (e.parts scope) (out.parts scope) := by
  have captures : out.Captures scope := by
    rw [Captures, snippets_resolved h]
    exact localized.1
  replace localized := localized.2
  cases e with
  | str | regex =>
      obtain rfl : _ = out := by simpa [Expr.resolved] using h
      exact ⟨rfl, ⟨captures, localized⟩, Together.rearranged .nil⟩
  | fail | host =>
      obtain rfl : _ = out := by simpa [Expr.resolved] using h
      exact ⟨rfl, ⟨captures, trivial⟩, Together.rearranged .nil⟩
  | ref tag name binding =>
      obtain rfl : binding = if name ∈ scope then .local else .unresolved := localized
      by_cases inside : name ∈ scope
      · rw [if_pos inside] at h ⊢
        obtain rfl : _ = out := by simpa [Expr.resolved] using h
        exact ⟨rfl, ⟨captures, by simp [inside]⟩, Together.rearranged .nil⟩
      · rw [if_neg inside] at h ⊢
        replace h : resolveRef rules tag name = .ok out := h
        simp only [resolveRef] at h
        split at h
        · exact absurd h not_refuse_eq_ok
        · next known =>
            obtain rfl : _ = out := by simpa using h
            refine ⟨rfl, ⟨captures, ?_⟩, Together.rearranged .nil⟩
            simpa [inside] using mem_of_lookup known
        · exact absurd h not_refuse_eq_ok
  | seq tag items cls? =>
      obtain ⟨items, done, h⟩ := Except.bind_eq_ok.1 h
      obtain rfl := Except.pure_eq_ok.1 h
      exact ⟨rfl, ⟨captures, trivial⟩, (together_resolvedFields done).rearranged⟩
  | choice tag items | skip tag items =>
      obtain ⟨out, done, h⟩ := Except.bind_eq_ok.1 h
      obtain rfl := Except.pure_eq_ok.1 h
      exact ⟨rfl, ⟨captures, trivial⟩, (together_map (mem_resolvedAll done)).rearranged⟩
  | list tag item | opt tag item | expect tag item | expectNot tag item =>
      obtain ⟨x, first, h⟩ := Except.bind_eq_ok.1 h
      obtain rfl := Except.pure_eq_ok.1 h
      exact ⟨rfl, ⟨captures, trivial⟩, Together.rearranged (.cons ⟨rfl, first⟩ .nil)⟩
  | sep tag a b | apply tag a b | discard tag a b | bound tag _ a b | satisfying tag a b =>
      obtain ⟨x, first, h⟩ := Except.bind_eq_ok.1 h
      obtain ⟨y, second, h⟩ := Except.bind_eq_ok.1 h
      obtain rfl := Except.pure_eq_ok.1 h
      exact ⟨rfl, ⟨captures, trivial⟩,
        Together.rearranged (.cons ⟨rfl, first⟩ (.cons ⟨rfl, second⟩ .nil))⟩
  | call tag callee args binding =>
      obtain ⟨mid, final, params, done, known, filled, rfl⟩ := resolved_call h
      obtain ⟨xs, filling, rfl⟩ := resolveArgs_eq_ok_iff.1 filled
      have unnamed : ∀ arg ∈ xs.map ((none : Option String), ·), arg.1 = none := by simp
      refine ⟨rfl, ⟨captures, rfl, ⟨params, mem_of_lookup known, ?_⟩, unnamed⟩,
        _, together_map (mem_resolvedArgs done), .inr ⟨rfl, ?_⟩⟩
      · simpa using length_fillSlots filling
      · refine List.Perm.map _ ?_
        have all := perm_of_fillSlots filling
        simpa [children, List.flatMap_map, Function.comp_def] using all.symm
  | operators tag atom levels =>
      obtain ⟨x, first, h⟩ := Except.bind_eq_ok.1 h
      obtain ⟨out, done, h⟩ := Except.bind_eq_ok.1 h
      obtain rfl := Except.pure_eq_ok.1 h
      refine ⟨?_, ⟨captures, trivial⟩,
        (together_map (.cons first (mem_resolvedLevels done))).rearranged⟩
      rw [form, form, fixities_resolvedLevels done]

end

/-! ### Whole expressions -/

/-- Numbers stay with their expressions when the parts of one are put into another order. -/
theorem ids_perm {R : List String → Expr → Expr → Prop} {scope : List String} {call : Bool}
    {e out : Expr} (same : out.id = e.id) (parts : Rearranged call R (e.parts scope) (out.parts scope))
    (below : ∀ p ∈ e.parts scope, ∀ c, R p.1 p.2 c → c.ids.Perm p.2.ids) : out.ids.Perm e.ids := by
  obtain ⟨mid, together, order⟩ := parts
  have perm := perm_of_order order
  rw [ids_eq, ids_eq, same, ← parts_snd scope, ← parts_snd scope]
  refine List.Perm.cons _ (((perm.map _).flatMap_right _).symm.trans ?_)
  clear order perm
  revert below
  generalize e.parts scope = ps at together
  intro below
  induction together with
  | nil => exact .refl _
  | @cons p q ps qs first _ ih =>
      exact (below p List.mem_cons_self _ first.2).append
        (ih fun p mem => below p (List.mem_cons_of_mem _ mem))

section

variable {skips : Bool} {scope : List String} {e out : Expr}

/-- Finding locals, in a whole expression. -/
theorem scoped_everywhere {known : Known} (h : e.Every (Marked skips))
    (done : e.scoped known scope = .ok out) :
    Everywhere (fun scope e => e.Localized skips scope) scope out ∧ out.ids.Perm e.ids := by
  induction h generalizing scope out with
  | @intro e marked _ ih =>
      obtain ⟨form, localized, together⟩ := scoped_localized marked done
      have mem {p : List String × Expr} (of : p ∈ e.parts scope) : p.2 ∈ e.children := by
        rw [← parts_snd scope]
        exact List.mem_map_of_mem of
      have parts : Rearranged false _ (e.parts scope) (out.parts scope) := together.rearranged
      refine ⟨⟨localized, fun q of => ?_⟩,
        ids_perm (id_eq_of_form form) parts fun p of c done => (ih p.2 (mem of) done).2⟩
      obtain ⟨p, of, same, done⟩ := exists_of_forall₂ together of
      exact same ▸ (ih p.2 (mem of) done).1

/-- Finding rules, in a whole expression. -/
theorem resolved_everywhere {rules : Signatures}
    (h : Everywhere (fun scope e => e.Localized skips scope) scope e)
    (done : e.resolved rules = .ok out) :
    Everywhere (fun scope e => e.Found rules skips scope) scope out ∧ out.ids.Perm e.ids := by
  induction h generalizing out with
  | @intro scope e localized _ ih =>
      obtain ⟨form, found, parts⟩ := resolved_found localized done
      refine ⟨⟨found, fun q of => ?_⟩,
        ids_perm (id_eq_of_form form) parts fun p of c done => (ih p of done).2⟩
      obtain ⟨mid, together, order⟩ := parts
      obtain ⟨p, of, same, done⟩ :=
        exists_of_forall₂ together ((perm_of_order order).mem_iff.2 of)
      exact same ▸ (ih p of done).1

/-- Parts that go together twice, with what that comes to for each. -/
theorem Together.trans {R R' : List String → Expr → Expr → Prop} {Q : Expr → Expr → Prop}
    {ps qs rs : List (List String × Expr)} (h : Together R ps qs) (h' : Together R' qs rs)
    (imp : ∀ p ∈ ps, ∀ c x, R p.1 p.2 c → R' p.1 c x → Q p.2 x) :
    List.Forall₂ Q (ps.map (·.2)) (rs.map (·.2)) := by
  induction h generalizing rs with
  | nil =>
      cases h'
      exact .nil
  | @cons p q ps qs first _ ih =>
      cases h' with
      | cons first' rest' =>
          refine .cons (imp p List.mem_cons_self _ _ first.2 (first.1 ▸ first'.2)) ?_
          exact ih rest' fun p mem => imp p (List.mem_cons_of_mem _ mem)

/-- Finding locals and then rules changes nothing else. -/
theorem becomes_of_passes {known : Known} {rules : Signatures} {mid : Expr}
    (h : e.Every (Marked skips)) (scoping : e.scoped known scope = .ok mid)
    (resolving : mid.resolved rules = .ok out) : e.Becomes out := by
  induction h generalizing scope mid out with
  | @intro e marked _ ih =>
      obtain ⟨form, localized, together⟩ := scoped_localized marked scoping
      obtain ⟨form', -, xs, together', order⟩ := resolved_found localized resolving
      have mem {p : List String × Expr} (of : p ∈ e.parts scope) : p.2 ∈ e.children := by
        rw [← parts_snd scope]
        exact List.mem_map_of_mem of
      have parts := together.trans together' fun p of c x first second => ih p.2 (mem of) first second
      rw [parts_snd] at parts
      refine ⟨form'.trans form, parts, ?_⟩
      rw [← parts_snd scope out]
      refine order.imp (congrArg _) fun ⟨calls, perm⟩ => ⟨?_, perm.map _⟩
      rwa [← isCall_form, ← form, isCall_form]

end

/-! ### Numbers -/

theorem numbered_marked {skips : Bool} {e : Expr} (h : e.Every (Marked skips)) (n : Nat) :
    (e.numbered n).1.Every (Marked skips) := by
  induction h generalizing n with
  | @intro e here _ ih =>
      refine ⟨?_, fun c mem => ?_⟩
      · cases e <;> exact here
      · obtain ⟨x, of, m, rfl⟩ := children_numbered mem
        exact ih x of m

/-- Numbers that were given one after the other. -/
def Counted (ids : List Nat) (n n' : Nat) : Prop := n ≤ n' ∧ ids = List.range' (n + 1) (n' - n)

theorem Counted.nil (n : Nat) : Counted [] n n := ⟨Nat.le_refl n, by simp⟩

theorem Counted.append {ids ids' : List Nat} {n n' n'' : Nat} (h : Counted ids n n')
    (h' : Counted ids' n' n'') : Counted (ids ++ ids') n n'' := by
  obtain ⟨le, rfl⟩ := h
  obtain ⟨le', rfl⟩ := h'
  refine ⟨le.trans le', ?_⟩
  have behind : n + 1 + 1 * (n' - n) = n' + 1 := by omega
  rw [← behind, List.range'_append, show n' - n + (n'' - n') = n'' - n by omega]

theorem Counted.cons {ids : List Nat} {n n' : Nat} (h : Counted ids (n + 1) n') :
    Counted ((n + 1) :: ids) n n' := by
  have first : Counted [n + 1] n (n + 1) := ⟨Nat.le_succ n, by simp⟩
  exact first.append h

/-- The next number is given to an expression. -/
abbrev Numbers (e : Expr) : Prop := ∀ n, Counted (e.numbered n).1.ids n (e.numbered n).2

theorem counted_numberedAll {es : List Expr} (all : ∀ e ∈ es, e.Numbers) (n : Nat) :
    Counted ((numberedAll es n).1.flatMap ids) n (numberedAll es n).2 := by
  induction es generalizing n with
  | nil => exact .nil n
  | cons e es ih =>
      exact (all e List.mem_cons_self n).append
        (ih (fun e mem => all e (List.mem_cons_of_mem _ mem)) _)

theorem counted_numberedArgs {args : List (Option String × Expr)}
    (all : ∀ e ∈ args.map (·.2), e.Numbers) (n : Nat) :
    Counted (((numberedArgs args n).1.map (·.2)).flatMap ids) n (numberedArgs args n).2 := by
  induction args generalizing n with
  | nil => exact .nil n
  | cons arg args ih =>
      exact (all arg.2 List.mem_cons_self n).append
        (ih (fun e mem => all e (List.mem_cons_of_mem _ mem)) _)

theorem counted_numberedLevels {levels : List (Fixity × Expr)}
    (all : ∀ e ∈ levels.map (·.2), e.Numbers) (n : Nat) :
    Counted (((numberedLevels levels n).1.map (·.2)).flatMap ids) n (numberedLevels levels n).2 := by
  induction levels generalizing n with
  | nil => exact .nil n
  | cons level levels ih =>
      exact (all level.2 List.mem_cons_self n).append
        (ih (fun e mem => all e (List.mem_cons_of_mem _ mem)) _)

/-- Expressions are numbered one after the other, each before those below it. -/
theorem numbers_of_every {P : Expr → Prop} {e : Expr} (h : e.Every P) : e.Numbers := by
  induction h with
  | @intro e _ _ ih =>
      intro n
      rw [ids_eq]
      cases e with
      | str | regex | ref | fail | host => exact .cons (.nil _)
      | seq tag items | choice tag items | skip tag items =>
          exact .cons (counted_numberedAll ih (n + 1))
      | list tag inner | opt tag inner | expect tag inner | expectNot tag inner =>
          exact .cons ((ih inner List.mem_cons_self (n + 1)).append (.nil _))
      | sep tag a b | apply tag a b | discard tag a b | bound tag _ a b | satisfying tag a b =>
          exact .cons ((ih a List.mem_cons_self (n + 1)).append
            ((ih b (List.mem_cons_of_mem _ List.mem_cons_self) _).append (.nil _)))
      | call tag callee args => exact .cons (counted_numberedArgs ih (n + 1))
      | operators tag atom levels =>
          exact .cons ((ih atom List.mem_cons_self (n + 1)).append
            (counted_numberedLevels (fun e mem => ih e (List.mem_cons_of_mem _ mem)) _))

end Expr

/-! ### Grammars -/

/-- The numbers of all expressions of a grammar. -/
def Grammar.ids (g : Grammar) : List Nat := g.definitions.flatMap (·.body.ids)

/-- Whether matches of a definition skip ignored content: there is some, and the definition neither is
ignored itself nor was made to skip it. -/
def Grammar.skipsIn (g : Grammar) (d : Definition) : Bool :=
  g.definitions.any (·.ignored) && !d.ignored && !d.synthetic

/-- What holds of analyzed grammars. -/
structure Grammar.WellBound (g : Grammar) : Prop where
  /-- Definitions have different names. -/
  names : (g.definitions.map (·.name)).Nodup
  /-- Names that are written begin with a letter, and go on with letters, digits and underscores. -/
  spelled : ∀ d ∈ g.definitions, d.synthetic = false → ∃ c cs, d.name.toList = c :: cs ∧
    c.isAlpha = true ∧ ∀ x ∈ cs, x.isAlphanum = true ∨ x = '_'
  /-- All expressions have numbers of their own. -/
  numbers : g.ids.Nodup ∧ 0 ∉ g.ids
  /-- All expressions have found what they need. -/
  found : ∀ d ∈ g.definitions,
    Expr.Everywhere (Expr.Found g.signatures (g.skipsIn d)) d.paramList d.body

/-- What a grammar becomes by analysis: its host code and its definitions stay as they are, but for
their bodies, and what skipping has been woven into and numbers have been given to finds what it
refers to. -/
structure Grammar.Becomes (g out : Grammar) : Prop where
  sections : out.sections = g.sections
  definitions : Passes (fun d body => ∃ n, ((g.weave d).body.numbered n).1.Becomes body)
    g.definitions out.definitions

theorem spelled_of_checkDefinitions {seen : List String} {ds : List Definition}
    (h : checkDefinitions seen ds = .ok ()) :
    ∀ d ∈ ds, d.synthetic = false → isRuleName d.name = true := by
  induction ds generalizing seen with
  | nil => simp
  | cons d ds ih =>
      obtain ⟨_, here, h⟩ := Except.bind_eq_ok.1 h
      intro x mem written
      rcases List.mem_cons.1 mem with rfl | mem
      · simp only [Definition.checkNames] at here
        split at here
        · exact absurd here not_refuse_eq_ok
        · next fit => simpa [written] using fit
      · exact ih h x mem written

theorem spelled_of_isRuleName {name : String} (h : isRuleName name = true) :
    ∃ c cs, name.toList = c :: cs ∧ c.isAlpha = true ∧
      ∀ x ∈ cs, x.isAlphanum = true ∨ x = '_' := by
  rw [isRuleName] at h
  split at h
  · simp at h
  · next c cs same => exact ⟨c, cs, same, by simpa using h⟩

/-- A description has a rule that skips ignored content exactly if it ignores something. -/
theorem Description.lower_hasIgnored {description : Description} {text : String} {g : Grammar}
    (h : description.lower text = .ok g) : g.hasIgnored = g.definitions.any (·.ignored) := by
  obtain ⟨before, written, h⟩ := Description.lower_eq_ok h
  simp only [addSkipRule] at h
  split at h
  · next none =>
      obtain rfl : before = g := by simpa using h
      rw [Grammar.hasIgnored, List.any_eq_false.2 fun d mem => by simp [written d mem],
        List.any_eq_false.2 fun d mem ignored => ?_]
      exact absurd (List.mem_filter.2 ⟨mem, ignored⟩) (by simp [List.isEmpty_iff.1 none])
  · next some =>
      split at h
      · exact absurd h not_refuse_eq_ok
      · obtain rfl : _ = g := by simpa using h
        obtain ⟨d, mem⟩ := List.exists_mem_of_ne_nil _ fun none => some (List.isEmpty_iff.2 none)
        obtain ⟨mem, ignored⟩ := List.mem_filter.1 mem
        rw [Grammar.hasIgnored,
          List.any_eq_true.2 ⟨_, List.mem_append_right _ (List.mem_singleton.2 rfl), rfl⟩,
          List.any_eq_true.2 ⟨d, List.mem_append_left _ mem, ignored⟩]

namespace Grammar

open Packrat.Expr

variable {g out : Grammar} {natives : List String}

/-- Matches are marked where skipping has been woven in, and nowhere else. -/
theorem weave_marked {d : Definition} (ignores : g.hasIgnored = g.definitions.any (·.ignored))
    (raw : d.Raw) : (g.weave d).body.Every (Marked (g.skipsIn d)) := by
  have plain : d.body.Every (Marked false) := raw.body.mono fun e h => by
    cases e <;> simp_all [Plain, Marked]
  have woven : d.body.skipping.Every (Marked true) :=
    (raw.body.skipping.and raw.body.skipping_skips).mono fun e h => by
      cases e <;> simp_all [Plain, Marked, Skipping]
  rw [skipsIn, ← ignores, weave]
  cases g.hasIgnored with
  | false => simpa using plain
  | true =>
      simp only [if_true, Bool.true_and, Definition.weaveIgnored]
      cases apart : d.ignored || d.synthetic with
      | true =>
          rw [← Bool.not_or, apart]
          simpa using plain
      | false =>
          obtain ⟨heeded, written⟩ := Bool.or_eq_false_iff.1 apart
          rw [heeded, written]
          simp only [Bool.false_eq_true, if_false]
          split
          · refine ⟨trivial, fun c mem => ?_⟩
            simp only [children, List.mem_cons, List.not_mem_nil, or_false] at mem
            rcases mem with rfl | rfl
            · exact ⟨rfl, by simp [children]⟩
            · exact woven
          · exact woven

/-- Numbers are given one after the other through all definitions. -/
theorem counted_numberedDefinitions {ds : List Definition}
    (all : ∀ d ∈ ds, d.body.Numbers) (n : Nat) :
    Counted ((numberedDefinitions ds n).1.flatMap (·.body.ids)) n (numberedDefinitions ds n).2 := by
  induction ds generalizing n with
  | nil => exact .nil n
  | cons d ds ih =>
      exact (all d List.mem_cons_self n).append
        (ih (fun d mem => all d (List.mem_cons_of_mem _ mem)) _)

/-- Definitions that keep their numbers, in whatever order. -/
theorem ids_perm_of_passes {R : Definition → Expr → Prop} {ds es : List Definition}
    (passes : Passes R ds es) (keep : ∀ d ∈ ds, ∀ body, R d body → body.ids.Perm d.body.ids) :
    (es.flatMap (·.body.ids)).Perm (ds.flatMap (·.body.ids)) := by
  induction passes with
  | nil => exact .refl _
  | cons first _ ih =>
      obtain ⟨body, rfl, related⟩ := first
      exact (keep _ List.mem_cons_self body related).append
        (ih fun d mem => keep d (List.mem_cons_of_mem _ mem))

/-- The body of a definition, through all passes. -/
theorem found_of_analyze (ignores : g.hasIgnored = g.definitions.any (·.ignored))
    (raw : ∀ d ∈ g.definitions, d.Raw) (h : g.analyze natives = .ok out) :
    ∀ d ∈ out.definitions,
      Everywhere (Found g.signatures (g.skipsIn d)) d.paramList d.body := by
  obtain ⟨-, passes⟩ := Grammar.passes_of_analyze h
  intro e mem
  obtain ⟨d, of, body, rfl, n, mid, scoping, resolving⟩ := exists_of_forall₂ passes mem
  have marked := numbered_marked (weave_marked ignores (raw d of)) n
  exact (resolved_everywhere (scoped_everywhere marked scoping).1 resolving).1

theorem becomes_of_analyze (ignores : g.hasIgnored = g.definitions.any (·.ignored))
    (raw : ∀ d ∈ g.definitions, d.Raw) (h : g.analyze natives = .ok out) : g.Becomes out := by
  obtain ⟨sections, passes⟩ := Grammar.passes_of_analyze h
  refine ⟨sections, passes.imp fun d of body ⟨n, mid, scoping, resolving⟩ => ⟨n, ?_⟩⟩
  exact becomes_of_passes (numbered_marked (weave_marked ignores (raw d of)) n) scoping resolving

/-- All expressions of an analyzed grammar have numbers of their own, counted from one. -/
theorem ids_of_analyze (ignores : g.hasIgnored = g.definitions.any (·.ignored))
    (raw : ∀ d ∈ g.definitions, d.Raw) (h : g.analyze natives = .ok out) :
    ∃ n, out.ids.Perm (List.range' 1 n) := by
  obtain ⟨_, -, h⟩ := Except.bind_eq_ok.1 h
  obtain ⟨mid, h', h⟩ := Except.bind_eq_ok.1 h
  obtain ⟨ds, scoping, final⟩ := Except.bind_eq_ok.1 h'
  obtain rfl := Except.pure_eq_ok.1 final
  obtain ⟨es, resolving, final⟩ := Except.bind_eq_ok.1 h
  obtain rfl := Except.pure_eq_ok.1 final
  have weaving := g.weaveIgnored_passes
  have marked : ∀ d ∈ g.weaveIgnored.definitions, ∃ skips, d.body.Every (Marked skips) := by
    intro e mem
    obtain ⟨d, of, body, rfl, rfl⟩ := exists_of_forall₂ weaving mem
    exact ⟨_, weave_marked ignores (raw d of)⟩
  have numbered_ : ∀ d ∈ g.weaveIgnored.numbered.definitions,
      ∃ skips, d.body.Every (Marked skips) := by
    intro e mem
    obtain ⟨d, of, body, rfl, n, rfl⟩ :=
      exists_of_forall₂ (numbered_passes g.weaveIgnored.definitions 0) mem
    obtain ⟨skips, every⟩ := marked d of
    exact ⟨skips, numbered_marked every n⟩
  have counted := counted_numberedDefinitions
    (fun d mem => numbers_of_every (marked d mem).choose_spec) 0
  have scoped_ := ids_perm_of_passes (scoped_passes scoping) fun d mem body done =>
    (scoped_everywhere (numbered_ d mem).choose_spec done).2
  have localized : ∀ d ∈ ds, ∃ skips scope,
      Everywhere (fun scope e => e.Localized skips scope) scope d.body := by
    intro e mem
    obtain ⟨d, of, body, rfl, done⟩ := exists_of_forall₂ (scoped_passes scoping) mem
    obtain ⟨skips, every⟩ := numbered_ d of
    exact ⟨skips, _, (scoped_everywhere every done).1⟩
  have resolved_ := ids_perm_of_passes (resolved_passes resolving) fun d mem body done => by
    obtain ⟨skips, scope, every⟩ := localized d mem
    exact (resolved_everywhere every done).2
  obtain ⟨-, same⟩ := counted
  refine ⟨_, (resolved_.trans scoped_).trans (List.Perm.of_eq same)⟩

/-- **Every name of an analyzed grammar is bound.** For the grammar of any description
that analysis accepts, nothing but what is found changes, beside the skipping that is woven in and
the numbers that are given; definitions have different names, spelled as they must be; expressions have
numbers of their own; a name is a local exactly where it is in scope and otherwise that of a rule
without parameters; calls have an argument by position for each parameter of a rule; host code
captures exactly the names in scope among those it reads; and exactly the matches of definitions that
are not ignored skip ignored content, if there is any. -/
theorem wellBound_of_analyze {description : Description} {text : String}
    (lowered : description.lower text = .ok g) (analyzed : g.analyze natives = .ok out) :
    g.Becomes out ∧ out.WellBound := by
  have raw := Description.lower_raw lowered
  have ignores := Description.lower_hasIgnored lowered
  have checked := Grammar.checkNames_of_analyze analyzed
  have history := Grammar.history_of_analyze raw analyzed
  have signatures : out.signatures = g.signatures := history.same _ fun _ _ => rfl
  obtain ⟨n, numbers⟩ := ids_of_analyze ignores raw analyzed
  refine ⟨becomes_of_analyze ignores raw analyzed, ?_, fun d mem written => ?_,
    ⟨?_, fun zero => ?_⟩, fun d mem => ?_⟩
  · rw [history.same (·.name) fun _ _ => rfl]
    exact (names_of_checkDefinitions checked).1
  · obtain ⟨-, passes⟩ := Grammar.passes_of_analyze analyzed
    obtain ⟨x, of, body, rfl, -⟩ := exists_of_forall₂ passes mem
    exact spelled_of_isRuleName (spelled_of_checkDefinitions checked x of written)
  · exact numbers.nodup_iff.2 List.nodup_range'
  · simpa using numbers.mem_iff.1 zero
  · have any : out.definitions.any (·.ignored) = g.definitions.any (·.ignored) := by
      have ignored := history.same (·.ignored) fun _ _ => rfl
      simpa [List.any_map, Function.comp_def] using congrArg (List.any · id) ignored
    rw [signatures, skipsIn, any]
    exact found_of_analyze ignores raw analyzed d mem

end Grammar

/-! ### An example -/

/-- Ignored blanks, a class whose second field reads the first, a rule with parameters, and a call of
it by keywords. -/
def Description.twice : Description := .statements [
  .rule ⟨"space", none, .str .nowhere " " false false, true, ⟨1, 1⟩⟩,
  .cls ⟨"Twice", none, [⟨"once", .str .nowhere "a" false false, .nowhere⟩,
    ⟨"again", .ref .nowhere "once", .nowhere⟩], false, ⟨1, 1⟩⟩,
  .rule ⟨"pair", some ["l", "r"], .sequence .nowhere [.ref .nowhere "l", .host .nowhere "r"],
    false, ⟨1, 1⟩⟩,
  .rule ⟨"start", none, .bound .nowhere "l" (.ref .nowhere "Twice")
    (.call .nowhere "pair" [(some "r", .ref .nowhere "l"), (some "l", .ref .nowhere "space")]),
    false, ⟨1, 1⟩⟩]

/-- The grammar of these, analyzed. -/
def Grammar.twice : Grammar where
  definitions := [
    ⟨"space", none, .str ⟨1, .nowhere⟩ [32] ⟨false, false, false⟩, true, none, false, "", ⟨1, 1⟩⟩,
    ⟨"Twice", none, .seq ⟨2, ⟨1, 1⟩⟩ [.str ⟨3, .nowhere⟩ [97] ⟨false, false, true⟩,
      .ref ⟨4, .nowhere⟩ "once" .local] (some ⟨"Twice", ["once", "again"]⟩),
      false, some ["once", "again"], false, "", ⟨1, 1⟩⟩,
    ⟨"pair", some ["l", "r"], .seq ⟨5, .nowhere⟩ [.ref ⟨6, .nowhere⟩ "l" .local,
      .host ⟨7, .nowhere⟩ ⟨"r", .name "r", ["r"]⟩] none, false, none, false, "", ⟨1, 1⟩⟩,
    ⟨"start", none, .discard ⟨8, .nowhere⟩
      (.ref ⟨9, .nowhere⟩ ignoredRule (.rule (ruleFunction ignoredRule)))
      (.bound ⟨10, .nowhere⟩ "l" (.ref ⟨11, .nowhere⟩ "Twice" (.rule (ruleFunction "Twice")))
        (.call ⟨12, .nowhere⟩ "pair" [
          (none, .ref ⟨14, .nowhere⟩ "space" (.rule (ruleFunction "space"))),
          (none, .ref ⟨13, .nowhere⟩ "l" .local)] (.rule (ruleFunction "pair")))) true,
      false, none, false, "", ⟨1, 1⟩⟩,
    ⟨ignoredRule, none, .skip ⟨15, .nowhere⟩ [
      .ref ⟨16, ⟨1, 1⟩⟩ "space" (.rule (ruleFunction "space"))],
      false, none, true, "_ignored = Skip(space)", .nowhere⟩]
  sections := []

theorem Grammar.analyze_twice :
    (Description.twice.lower "" >>= fun g => g.analyze []) = .ok .twice := by with_unfolding_all rfl

/-- A grammar with ignored content, a field that is read, parameters, host code and keywords. -/
theorem Grammar.wellBound_of_analyze_twice : ∃ lowered, Description.twice.lower "" = .ok lowered ∧
    lowered.analyze [] = .ok .twice ∧ lowered.Becomes .twice ∧ Grammar.twice.WellBound := by
  obtain ⟨lowered, lowering, analyzed⟩ := Except.bind_eq_ok.1 analyze_twice
  exact ⟨lowered, lowering, analyzed, wellBound_of_analyze lowering analyzed⟩

end Packrat
