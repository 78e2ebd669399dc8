import Mathlib.Data.List.Zip
import Packrat.Proofs.Meaning.Agreement
import Packrat.Proofs.Meaning.Throughout

/-
**Two layouts of one expression.**

A nesting budget decides which parts of an expression become functions of their own, and so which numbers
its layout holds.  The arguments that become functions do so whatever the budget is.  So two layouts of an
expression hand over the same arguments, and their numbers go together as soon as those of the arguments
do.

Main definitions:

* `Packrat.Expr.Hands` — an argument that is handed over within an expression, with its two layouts.

Main results:

* `Packrat.Expr.matches_of_parts` — numbers go together if those of parts and arguments do;
* `Packrat.Expr.matches_of_hands` — **two layouts go together if the numbers of arguments do**.
-/

set_option autoImplicit false

namespace Packrat

/-! ### Parts side by side -/

section

variable {x x' : Expr × Layout}

/-- Parts that stand side by side are the same expression. -/
theorem fst_eq_of_mem_zip {xs ys : List (Expr × Layout)} (same : xs.map (·.1) = ys.map (·.1))
    (mem : (x, x') ∈ xs.zip ys) : x'.1 = x.1 := by
  obtain ⟨i, inside, at_⟩ := List.getElem_of_mem mem
  rw [List.getElem_zip] at at_
  obtain ⟨rfl, rfl⟩ := Prod.mk.inj at_
  have := congrArg (·[i]?) same
  simp only [List.getElem?_map] at this
  rw [List.length_zip, Nat.lt_min] at inside
  simpa [inside.1, inside.2] using this.symm

theorem fst_zipLayouts (es : List Expr) (ls : List Layout) : (zipLayouts es ls).map (·.1) = es := by
  induction es generalizing ls with
  | nil => rfl
  | cons e es ih => rw [zipLayouts, List.map_cons, ih]

theorem fst_alternativeParts (es : List Expr) (ls ls' : List Layout) :
    (alternativeParts es ls).map (·.1) = (alternativeParts es ls').map (·.1) := by
  induction es generalizing ls ls' with
  | nil => rfl
  | cons e es ih =>
      rw [alternativeParts, alternativeParts, List.map_cons, List.map_cons]
      split
      · rfl
      · rw [ih]

theorem fst_levelParts (levels : List (Fixity × Expr)) (ls : List Layout) :
    (levelParts levels ls).map (·.1) = levels.map (·.2) := by
  induction levels generalizing ls with
  | nil => rfl
  | cons level levels ih => rw [levelParts, List.map_cons, List.map_cons, ih]

theorem fst_handedArgs (args : List (Option String × Expr)) (ls ls' : List Layout) :
    (handedArgs args ls).map (·.1) = (handedArgs args ls').map (·.1) := by
  induction args generalizing ls ls' with
  | nil => rfl
  | cons arg args ih =>
      rw [handedArgs, handedArgs, List.map_append, List.map_append, ih ls.tail ls'.tail]
      split <;> rfl

namespace Expr

/-- What is read in place does not depend on layouts. -/
theorem fst_inPlace (e : Expr) (l l' : Layout) :
    (e.inPlace l).map (·.1) = (e.inPlace l').map (·.1) := by
  cases e with
  | seq | skip => rw [inPlace, inPlace, fst_zipLayouts, fst_zipLayouts]
  | choice => exact fst_alternativeParts _ _ _
  | operators =>
      rw [inPlace, inPlace, List.map_cons, List.map_cons, fst_levelParts, fst_levelParts]
  | _ => rfl

/-- What is handed over does not depend on layouts. -/
theorem fst_handed (e : Expr) (l l' : Layout) :
    (e.handed l).map (·.1) = (e.handed l').map (·.1) := by
  cases e with
  | call => exact fst_handedArgs _ _ _
  | _ => rfl

end Expr

end

/-! ### Arguments side by side -/

namespace Expr

/-- An argument that is handed over within an expression, with what two layouts of the expression hold for
it. -/
inductive Hands : Expr → Layout → Layout → Expr → Layout → Layout → Prop
  | here {e : Expr} {l l' : Layout} {x x' : Expr × Layout}
      (mem : (x, x') ∈ (e.handed l).zip (e.handed l')) : Hands e l l' x.1 x.2 x'.2
  | inPlace {e arg : Expr} {l l' m m' : Layout} {x x' : Expr × Layout}
      (mem : (x, x') ∈ (e.inPlace l).zip (e.inPlace l')) (below : Hands x.1 x.2 x'.2 arg m m') :
      Hands e l l' arg m m'
  | within {e arg : Expr} {l l' m m' : Layout} {x x' : Expr × Layout}
      (mem : (x, x') ∈ (e.handed l).zip (e.handed l')) (below : Hands x.1 x.2 x'.2 arg m m') :
      Hands e l l' arg m m'

variable {e arg arg' : Expr} {l l' m m' k k' : Layout}

theorem Hands.trans (h : e.Hands l l' arg m m') (h' : arg.Hands m m' arg' k k') :
    e.Hands l l' arg' k k' := by
  induction h with
  | here mem => exact .within mem h'
  | inPlace mem _ ih => exact .inPlace mem (ih h')
  | within mem _ ih => exact .within mem (ih h')

theorem Hands.symm (h : e.Hands l l' arg m m') : e.Hands l' l arg m' m := by
  have swap {xs ys : List (Expr × Layout)} {x x' : Expr × Layout} (mem : (x, x') ∈ xs.zip ys) :
      (x', x) ∈ ys.zip xs := by
    rw [← List.zip_swap]
    exact List.mem_map.2 ⟨_, mem, rfl⟩
  induction h with
  | here mem =>
      have same := fst_eq_of_mem_zip (fst_handed _ _ _) mem
      exact same ▸ .here (swap mem)
  | inPlace mem _ ih =>
      have same := fst_eq_of_mem_zip (fst_inPlace _ _ _) mem
      exact .inPlace (swap mem) (same ▸ ih)
  | within mem _ ih =>
      have same := fst_eq_of_mem_zip (fst_handed _ _ _) mem
      exact .within (swap mem) (same ▸ ih)

/-- An argument that is handed over within an expression is one of its closures. -/
theorem Hands.closure (h : e.Hands l l' arg m m') (rule : String) :
    (m.function, arg.closure rule m) ∈ e.closures rule l := by
  induction h with
  | here mem => exact mem_closures.2 (.inr ⟨_, (List.of_mem_zip mem).1, .inl rfl⟩)
  | inPlace mem _ ih => exact mem_closures.2 (.inl ⟨_, (List.of_mem_zip mem).1, ih⟩)
  | within mem _ ih => exact mem_closures.2 (.inr ⟨_, (List.of_mem_zip mem).1, .inr ih⟩)

end Expr

/-! ### Numbers that go together -/

section

variable {L : Likeness} {e : Expr} {l l' : Layout}

theorem matchesAll_of_zip {es : List Expr} {ls ls' : List Layout}
    (h : ∀ x x', (x, x') ∈ (zipLayouts es ls).zip (zipLayouts es ls') → x.1.Matches L x.2 x'.2) :
    matchesAll L es ls ls' := by
  induction es generalizing ls ls' with
  | nil => trivial
  | cons e es ih =>
      exact ⟨h _ _ List.mem_cons_self, ih fun x x' mem => h x x' (List.mem_cons_of_mem _ mem)⟩

theorem matchesAlternatives_of_zip {es : List Expr} {ls ls' : List Layout}
    (h : ∀ x x', (x, x') ∈ (alternativeParts es ls).zip (alternativeParts es ls') →
      x.1.Matches L x.2 x'.2) : matchesAlternatives L es ls ls' := by
  induction es generalizing ls ls' with
  | nil => trivial
  | cons e es ih =>
      refine ⟨h _ _ List.mem_cons_self, fun may => ih fun x x' mem => h x x' ?_⟩
      simp only [alternativeParts, may, Bool.false_eq_true, if_false]
      exact List.mem_cons_of_mem _ mem

theorem matchesLevels_of_zip {levels : List (Fixity × Expr)} {ls ls' : List Layout}
    (h : ∀ x x', (x, x') ∈ (levelParts levels ls).zip (levelParts levels ls') →
      x.1.Matches L x.2 x'.2) : matchesLevels L levels ls ls' := by
  induction levels generalizing ls ls' with
  | nil => trivial
  | cons level levels ih =>
      exact ⟨h _ _ List.mem_cons_self, ih fun x x' mem => h x x' (List.mem_cons_of_mem _ mem)⟩

theorem matchesArgs_of_zip {args : List (Option String × Expr)} {ls ls' : List Layout}
    (h : ∀ x x', (x, x') ∈ (handedArgs args ls).zip (handedArgs args ls') →
      L.functions x.2.function x'.2.function) : matchesArgs L args ls ls' := by
  induction args generalizing ls ls' with
  | nil => trivial
  | cons arg args ih =>
      obtain ⟨keyword, e⟩ := arg
      refine ⟨fun own => h (e, ls.headD .blank) (e, ls'.headD .blank) ?_,
        ih fun x x' mem => h x x' ?_⟩
      · simp [handedArgs, own]
      · cases own : e.direct <;> simp [handedArgs, own, mem]

namespace Expr

/-- Two layouts go together if those of parts do and the numbers of arguments do. -/
theorem matches_of_parts (ids : ∀ i j, L.ids i j)
    (parts : ∀ x x', (x, x') ∈ (e.inPlace l).zip (e.inPlace l') → x.1.Matches L x.2 x'.2)
    (handed : ∀ x x', (x, x') ∈ (e.handed l).zip (e.handed l') →
      L.functions x.2.function x'.2.function) : e.Matches L l l' := by
  cases e with
  | str | regex | ref | fail | host => trivial
  | seq | skip =>
      rw [Matches]
      exact matchesAll_of_zip parts
  | choice =>
      rw [Matches]
      exact matchesAlternatives_of_zip parts
  | call =>
      rw [Matches]
      exact matchesArgs_of_zip handed
  | operators =>
      rw [Matches]
      exact ⟨parts _ _ List.mem_cons_self,
        matchesLevels_of_zip fun x x' mem => parts x x' (List.mem_cons_of_mem _ mem)⟩
  | list | opt | expect | expectNot =>
      rw [Matches]
      exact parts _ _ List.mem_cons_self
  | sep tag item separator =>
      rw [Matches]
      exact ⟨ids _ _, parts (item, l.part 0) (item, l'.part 0) (by simp [inPlace]),
        parts (separator, l.part 1) (separator, l'.part 1) (by simp [inPlace]),
        parts (item, l.part 2) (item, l'.part 2) (by simp [inPlace])⟩
  | apply tag a b | discard tag a b | bound tag _ a b | satisfying tag a b =>
      rw [Matches]
      exact ⟨parts (a, l.part 0) (a, l'.part 0) (by simp [inPlace]),
        parts (b, l.part 1) (b, l'.part 1) (by simp [inPlace])⟩

/-- **Two layouts of an expression go together if the numbers of its arguments do.** -/
theorem matches_of_hands (ids : ∀ i j, L.ids i j) (e : Expr) (l l' : Layout)
    (functions : ∀ arg m m', e.Hands l l' arg m m' → L.functions m.function m'.function) :
    e.Matches L l l' := by
  refine matches_of_parts ids (fun x x' mem => ?_) fun x x' mem => functions _ _ _ (.here mem)
  exact matches_of_hands ids x.1 x.2 x'.2 fun arg m m' below => functions arg m m' (.inPlace mem below)
termination_by sizeOf e
decreasing_by
  exact sizeOf_lt_of_mem_children (mem_children_of_mem_inPlace (List.of_mem_zip mem).1)

/-- The whole body of a function has no number of its own. -/
theorem Matches.bare (h : e.Matches L l l') : e.Matches L l.bare l'.bare := by
  cases e <;> exact h

end Expr

end

end Packrat
