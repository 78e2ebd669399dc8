import Packrat.Proofs.Analysis.Lowering
import Packrat.Proofs.Simulation.Realizing

/-
**Expressions and the numbers chosen for them, part by part.**

The parts of an expression that are read in place have layouts of their own.  An argument that is no
local and no host code is not read in place: it has become a function, and its layout holds the number.
Behind an alternative that always succeeds nothing is written, so there are no layouts either.

Main definitions:

* `Packrat.Expr.inPlace`, `Packrat.Expr.handed` — the parts that are read in place, and the arguments
  that have become functions;
* `Packrat.Expr.Throughout` — what is true of an expression and of all that is written for it.

Main results:

* `Packrat.Expr.mem_closures` — the closures of an expression are those of its parts and those of its
  arguments;
* `Packrat.Expr.Throughout.closure` — what is true throughout an expression is true throughout its
  closures.
-/

set_option autoImplicit false

namespace Packrat

/-- Expressions with their layouts. -/
def zipLayouts : List Expr → List Layout → List (Expr × Layout)
  | [], _ => []
  | e :: es, ls => (e, ls.headD .blank) :: zipLayouts es ls.tail

/-- Alternatives with their layouts, up to the first that always succeeds. -/
def alternativeParts : List Expr → List Layout → List (Expr × Layout)
  | [], _ => []
  | e :: es, ls =>
    (e, ls.headD .blank) :: (if e.alwaysSucceeds then [] else alternativeParts es ls.tail)

/-- The operators of levels with their layouts, which are those of parts of functions. -/
def levelParts : List (Fixity × Expr) → List Layout → List (Expr × Layout)
  | [], _ => []
  | (_, e) :: rest, ls => (e, (ls.headD .blank).part 0) :: levelParts rest ls.tail

/-- Arguments that have become functions, with their layouts. -/
def handedArgs : List (Option String × Expr) → List Layout → List (Expr × Layout)
  | [], _ => []
  | (_, e) :: rest, ls =>
    (if e.direct then [] else [(e, ls.headD .blank)]) ++ handedArgs rest ls.tail

namespace Expr

/-- The parts of an expression that are read in place, with their layouts. -/
def inPlace : Expr → Layout → List (Expr × Layout)
  | .str _ _ _, _ | .regex _ _ _, _ | .ref _ _ _, _ | .fail _ _, _ | .host _ _, _
  | .call _ _ _ _, _ => []
  | .seq _ items _, l | .skip _ items, l => zipLayouts items l.parts
  | .choice _ alternatives, l => alternativeParts alternatives l.parts
  | .list _ inner _ _, l | .opt _ inner, l | .expect _ inner, l | .expectNot _ inner, l =>
    [(inner, l.part 0)]
  | .sep _ item separator _, l => [(item, l.part 0), (separator, l.part 1), (item, l.part 2)]
  | .apply _ a b _, l | .discard _ a b _, l | .bound _ _ a b, l | .satisfying _ a b, l =>
    [(a, l.part 0), (b, l.part 1)]
  | .operators _ atom levels, l => (atom, (l.part 0).part 0) :: levelParts levels l.parts.tail

/-- The arguments of a call that have become functions, with their layouts. -/
def handed : Expr → Layout → List (Expr × Layout)
  | .call _ _ args _, l => handedArgs args l.parts
  | _, _ => []

section

variable {e c : Expr} {l : Layout} {x : Expr × Layout}

theorem mem_of_mem_zipLayouts {es : List Expr} {ls : List Layout} (mem : x ∈ zipLayouts es ls) :
    x.1 ∈ es := by
  induction es generalizing ls with
  | nil => cases mem
  | cons e es ih =>
      rcases List.mem_cons.1 mem with rfl | mem
      · exact List.mem_cons_self
      · exact List.mem_cons_of_mem _ (ih mem)

theorem mem_of_mem_alternativeParts {es : List Expr} {ls : List Layout}
    (mem : x ∈ alternativeParts es ls) : x.1 ∈ es := by
  induction es generalizing ls with
  | nil => cases mem
  | cons e es ih =>
      rcases List.mem_cons.1 mem with rfl | mem
      · exact List.mem_cons_self
      · split at mem
        · cases mem
        · exact List.mem_cons_of_mem _ (ih mem)

theorem mem_of_mem_levelParts {levels : List (Fixity × Expr)} {ls : List Layout}
    (mem : x ∈ levelParts levels ls) : x.1 ∈ levels.map (·.2) := by
  induction levels generalizing ls with
  | nil => cases mem
  | cons level levels ih =>
      rcases List.mem_cons.1 mem with rfl | mem
      · exact List.mem_cons_self
      · exact List.mem_cons_of_mem _ (ih mem)

theorem mem_of_mem_handedArgs {args : List (Option String × Expr)} {ls : List Layout}
    (mem : x ∈ handedArgs args ls) : x.1 ∈ args.map (·.2) ∧ x.1.direct = false := by
  induction args generalizing ls with
  | nil => cases mem
  | cons arg args ih =>
      rcases List.mem_append.1 mem with mem | mem
      · split at mem
        · cases mem
        · next own =>
            obtain rfl := List.mem_singleton.1 mem
            exact ⟨List.mem_cons_self, Bool.eq_false_iff.2 own⟩
      · exact (ih mem).imp_left (List.mem_cons_of_mem _)

/-- Parts are written below the expression. -/
theorem mem_children_of_mem_inPlace (mem : x ∈ e.inPlace l) : x.1 ∈ e.children := by
  cases e with
  | str | regex | ref | fail | host | call => cases mem
  | seq | skip => exact mem_of_mem_zipLayouts mem
  | choice => exact mem_of_mem_alternativeParts mem
  | operators _ atom levels =>
      rcases List.mem_cons.1 mem with rfl | mem
      · exact List.mem_cons_self
      · exact List.mem_cons_of_mem _ (mem_of_mem_levelParts mem)
  | list | opt | expect | expectNot | sep | apply | discard | bound | satisfying =>
      simp only [inPlace, List.mem_cons, List.not_mem_nil, or_false] at mem
      rcases mem with rfl | rfl | rfl <;> simp [children]

theorem mem_children_of_mem_handed (mem : x ∈ e.handed l) : x.1 ∈ e.children := by
  cases e with
  | call => exact (mem_of_mem_handedArgs mem).1
  | _ => cases mem

@[simp] theorem inPlace_bare (e : Expr) (l : Layout) : e.inPlace l.bare = e.inPlace l := by
  cases e <;> rfl

@[simp] theorem handed_bare (e : Expr) (l : Layout) : e.handed l.bare = e.handed l := by
  cases e <;> rfl

end

end Expr

/-! ### Closures -/

section

variable {rule : String} {kc : Nat × Closure}

theorem mem_closuresAll {es : List Expr} {ls : List Layout} :
    kc ∈ closuresAll rule es ls ↔ ∃ x ∈ zipLayouts es ls, kc ∈ x.1.closures rule x.2 := by
  induction es generalizing ls with
  | nil => simp [closuresAll, zipLayouts]
  | cons e es ih => simp [closuresAll, zipLayouts, ih]

theorem mem_closuresAlternatives {es : List Expr} {ls : List Layout} :
    kc ∈ closuresAlternatives rule es ls ↔
      ∃ x ∈ alternativeParts es ls, kc ∈ x.1.closures rule x.2 := by
  induction es generalizing ls with
  | nil => simp [closuresAlternatives, alternativeParts]
  | cons e es ih =>
      cases always : e.alwaysSucceeds <;>
        simp [closuresAlternatives, alternativeParts, always, ih]

theorem mem_closuresLevels {levels : List (Fixity × Expr)} {ls : List Layout} :
    kc ∈ closuresLevels rule levels ls ↔ ∃ x ∈ levelParts levels ls, kc ∈ x.1.closures rule x.2 := by
  induction levels generalizing ls with
  | nil => simp [closuresLevels, levelParts]
  | cons level levels ih => simp [closuresLevels, levelParts, ih]

/-- A closure of an argument that has become a function is the argument or within it. -/
theorem mem_closuresArgs {args : List (Option String × Expr)} {ls : List Layout} :
    kc ∈ closuresArgs rule args ls ↔ ∃ x ∈ handedArgs args ls,
      kc = (x.2.function, x.1.closure rule x.2) ∨ kc ∈ x.1.closures rule x.2 := by
  induction args generalizing ls with
  | nil => simp [closuresArgs, handedArgs]
  | cons arg args ih =>
      obtain ⟨keyword, e⟩ := arg
      cases direct : e.direct <;> simp [closuresArgs, handedArgs, direct, ih, or_assoc]

/-- The closures of an expression are those of its parts, and its arguments with those in them. -/
theorem Expr.mem_closures {e : Expr} {l : Layout} :
    kc ∈ e.closures rule l ↔ (∃ x ∈ e.inPlace l, kc ∈ x.1.closures rule x.2) ∨
      ∃ x ∈ e.handed l, kc = (x.2.function, x.1.closure rule x.2) ∨ kc ∈ x.1.closures rule x.2 := by
  cases e with
  | str | regex | ref | fail | host => simp [closures, inPlace, handed]
  | seq | skip => simp [closures, inPlace, handed, mem_closuresAll]
  | choice => simp [closures, inPlace, handed, mem_closuresAlternatives]
  | operators => simp [closures, inPlace, handed, mem_closuresLevels]
  | call => simp [closures, inPlace, handed, mem_closuresArgs]
  | list | opt | expect | expectNot => simp [closures, inPlace, handed]
  | sep | apply | discard | bound | satisfying => simp [closures, inPlace, handed]

end

namespace Expr

variable {P Q : Expr → Layout → Prop} {e : Expr} {l : Layout}

/-- What is true of an expression, of its parts and of its arguments. -/
inductive Throughout (P : Expr → Layout → Prop) : Expr → Layout → Prop
  | intro {e : Expr} {l : Layout} (here : P e l) (parts : ∀ x ∈ e.inPlace l, Throughout P x.1 x.2)
      (handed : ∀ x ∈ e.handed l, Throughout P x.1 x.2.bare) : Throughout P e l

namespace Throughout

theorem here : Throughout P e l → P e l
  | .intro here _ _ => here

theorem part : Throughout P e l → ∀ x ∈ e.inPlace l, Throughout P x.1 x.2
  | .intro _ parts _ => parts

theorem hand : Throughout P e l → ∀ x ∈ e.handed l, Throughout P x.1 x.2.bare
  | .intro _ _ handed => handed

theorem mono (h : Throughout P e l) (imp : ∀ e l, P e l → Q e l) : Throughout Q e l := by
  induction h with
  | intro here _ _ parts handed => exact .intro (imp _ _ here) parts handed

/-- What is true of an expression is true throughout it if it is kept from above to below. -/
theorem of_closed (parts : ∀ e l, P e l → ∀ x ∈ e.inPlace l, P x.1 x.2)
    (handed : ∀ e l, P e l → ∀ x ∈ e.handed l, P x.1 x.2.bare) (e : Expr) (l : Layout)
    (here : P e l) : Throughout P e l :=
  .intro here (fun x mem => of_closed parts handed x.1 x.2 (parts e l here x mem))
    fun x mem => of_closed parts handed x.1 x.2.bare (handed e l here x mem)
termination_by sizeOf e
decreasing_by
  · exact sizeOf_lt_of_mem_children (mem_children_of_mem_inPlace mem)
  · exact sizeOf_lt_of_mem_children (mem_children_of_mem_handed mem)

theorem and (h : Throughout P e l) (h' : Throughout Q e l) :
    Throughout (fun e l => P e l ∧ Q e l) e l := by
  induction h with
  | intro here _ _ parts handed =>
      exact .intro ⟨here, h'.here⟩ (fun x mem => parts x mem (h'.part x mem))
        fun x mem => handed x mem (h'.hand x mem)

/-- What is true throughout an expression is true throughout the bodies of its closures. -/
theorem closure {rule : String} {kc : Nat × Closure} (h : Throughout P e l)
    (mem : kc ∈ e.closures rule l) : Throughout P kc.2.body kc.2.layout := by
  induction h with
  | @intro e l _ _ handed ihParts ihHanded =>
      rcases mem_closures.1 mem with ⟨x, part, mem⟩ | ⟨x, hand, rfl | mem⟩
      · exact ihParts x part mem
      · exact handed x hand
      · exact ihHanded x hand (mem_closures.2 (by simpa using mem_closures.1 mem))

end Throughout

/-- The numbers of arguments that have become functions stand for closures. -/
theorem handed_known {rule : String} {known : Nat → Prop} (e : Expr) (l : Layout)
    (all : ∀ kc ∈ e.closures rule l, known kc.1) :
    Throughout (fun e l => ∀ x ∈ e.handed l, known x.2.function) e l := by
  refine (Throughout.of_closed (P := fun e l => ∀ kc ∈ e.closures rule l, known kc.1) ?_ ?_ e l
    all).mono fun e l all x mem => all _ (mem_closures.2 (.inr ⟨x, mem, .inl rfl⟩))
  · exact fun e l all x part kc mem => all kc (mem_closures.2 (.inl ⟨x, part, mem⟩))
  · exact fun e l all x hand kc mem => all kc (mem_closures.2 (.inr ⟨x, hand, .inr
      (mem_closures.2 (by simpa using mem_closures.1 mem))⟩))

end Expr

end Packrat
