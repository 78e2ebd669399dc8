import Packrat.Proofs.Analysis.Resolution
import Mathlib.Data.List.Nodup
import Mathlib.Data.List.Perm.Basic

/-
**Which arguments match.**

A call is accepted exactly when each parameter is supplied once: by position, counting the arguments
without a keyword, or by its name.  A builtin form asks for some of its parameters only.  The order of
the keywords, among each other and between the other arguments, does not matter.

Main definitions:

* `Packrat.positionals`, `Packrat.keyed` — arguments by position and under a name;
* `Packrat.supplied` — all that is supplied for a parameter;
* `Packrat.Matching` — arguments of which each parameter gets what it needs, and nothing twice;
* `Packrat.Reorders` — arguments whose keywords are in another order.

Main results:

* `Packrat.fillSlots_eq_ok_iff` — the slots of parameters hold what is supplied for them;
* `Packrat.arguments_match` — **calls and forms accept exactly the arguments that match**.
-/

set_option autoImplicit false

namespace Packrat

variable {α β : Type} {params : List String} {args args' : List (Option String × α)}

/-! ### What is supplied -/

/-- The arguments given by position, in their order. -/
def positionals (args : List (Option String × α)) : List α :=
  args.filterMap fun arg => if arg.1.isNone then some arg.2 else none

/-- The arguments given under a name. -/
def keyed (param : String) (args : List (Option String × α)) : List α :=
  args.filterMap fun arg => if arg.1 = some param then some arg.2 else none

/-- All that is supplied for the parameter of a number, by position and by its name. -/
def supplied (params : List String) (args : List (Option String × α)) (i : Nat) : List α :=
  (positionals args)[i]?.toList ++ params[i]?.toList.flatMap (keyed · args)

/-- Arguments that match parameters, the first `required` of which must be given. -/
structure Matching (params : List String) (required : Nat) (args : List (Option String × α)) :
    Prop where
  /-- There is a parameter for every argument given by position. -/
  fits : (positionals args).length ≤ params.length
  /-- Every keyword names a parameter. -/
  known : ∀ arg ∈ args, ∀ name, arg.1 = some name → name ∈ params
  /-- No parameter is given twice. -/
  once : ∀ i < params.length, (supplied params args i).length ≤ 1
  /-- No parameter is missing. -/
  given : ∀ i < params.length, i < required → supplied params args i ≠ []

/-- The same arguments, with the keywords in another order among each other and between those given
by position. -/
def Reorders (args args' : List (Option String × α)) : Prop :=
  args.Perm args' ∧ positionals args = positionals args'

@[simp] theorem positionals_nil : positionals ([] : List (Option String × α)) = [] := rfl

@[simp] theorem positionals_unnamed (x : α) :
    positionals ((none, x) :: args) = x :: positionals args := rfl

@[simp] theorem positionals_named (name : String) (x : α) :
    positionals ((some name, x) :: args) = positionals args := rfl

@[simp] theorem keyed_unnamed (param : String) (x : α) :
    keyed param ((none, x) :: args) = keyed param args := by
  rw [keyed, List.filterMap_cons]
  rfl

@[simp] theorem keyed_named (param name : String) (x : α) :
    keyed param ((some name, x) :: args) =
      (if name = param then [x] else []) ++ keyed param args := by
  rw [keyed, List.filterMap_cons]
  by_cases same : name = param <;> simp [same, keyed]

theorem Reorders.supplied (h : Reorders args args') (i : Nat) :
    (supplied params args i).Perm (supplied params args' i) := by
  obtain ⟨perm, same⟩ := h
  rw [Packrat.supplied, Packrat.supplied, same]
  exact (List.Perm.flatMap_left _ fun _ _ => perm.filterMap _).append_left _

/-! ### Slots -/

/-- The slot that an argument is meant for; `next` is that of the next argument given by position. -/
def target? (params : List String) (next : Nat) : Option String → Option Nat
  | none => some next
  | some name => params.idxOf? name

/-- What is supplied for the parameter of a number, when the next argument given by position is for
the parameter `next`. -/
def suppliedFrom (params : List String) (next : Nat) (args : List (Option String × α)) (i : Nat) :
    List α :=
  (if next ≤ i then (positionals args)[i - next]?.toList else []) ++
    params[i]?.toList.flatMap (keyed · args)

/-- What a slot holds. -/
def held (slots : List (Option α)) (i : Nat) : List α := slots[i]?.join.toList

theorem eq_of_perm_toList {a b : Option α} (h : a.toList.Perm b.toList) : a = b := by
  cases a <;> cases b <;> simp_all

theorem length_held_le (slots : List (Option α)) (i : Nat) : (held slots i).length ≤ 1 := by
  rw [held]
  cases slots[i]?.join <;> simp

theorem idxOf?_eq_some_iff (distinct : params.Nodup) {name : String} {i : Nat}
    (inside : i < params.length) : params.idxOf? name = some i ↔ params[i]? = some name := by
  rw [List.idxOf?_eq_some_iff, List.getElem?_eq_getElem inside]
  constructor
  · rintro ⟨_, same, -⟩
    simpa using same
  · intro same
    refine ⟨inside, by simpa using same, fun j before => ?_⟩
    have other : params[j] ≠ params[i] := fun twice =>
      absurd ((List.Nodup.getElem_inj_iff distinct).1 twice) (by omega)
    simpa [Option.some.inj same] using other

theorem mem_of_target? {next j : Nat} {name : String}
    (h : target? params next (some name) = some j) : name ∈ params := by
  obtain ⟨inside, same, -⟩ := List.idxOf?_eq_some_iff.1 (show params.idxOf? name = some j from h)
  exact List.mem_of_getElem (by simpa using same)

theorem exists_target? {next : Nat} {name : String} (mem : name ∈ params) :
    ∃ j, target? params next (some name) = some j ∧ j < params.length := by
  obtain ⟨j, aims⟩ := Option.isSome_iff_exists.1 (List.isSome_idxOf?.2 mem)
  obtain ⟨inside, -⟩ := List.idxOf?_eq_some_iff.1 aims
  exact ⟨j, aims, inside⟩

/-- An argument is supplied for the parameter of its slot. -/
theorem suppliedFrom_cons (distinct : params.Nodup) {next i : Nat} {keyword : Option String} {x : α}
    (inside : i < params.length) :
    (suppliedFrom params next ((keyword, x) :: args) i).Perm
      ((if target? params next keyword = some i then [x] else []) ++
        suppliedFrom params (if keyword.isNone then next + 1 else next) args i) := by
  cases keyword with
  | none =>
      simp only [suppliedFrom, target?, positionals_unnamed, keyed_unnamed, Option.some.injEq,
        Option.isNone_none, if_true]
      rcases Nat.lt_trichotomy next i with before | rfl | behind
      · obtain ⟨k, rfl⟩ : ∃ k, i = next + 1 + k := ⟨i - (next + 1), by omega⟩
        simp [show next ≤ next + 1 + k by omega, show next ≠ next + 1 + k by omega,
          show next + 1 + k - next = k + 1 by omega]
      · simp
      · simp [show ¬ next ≤ i by omega, show ¬ next + 1 ≤ i by omega, show next ≠ i by omega]
  | some name =>
      simp only [suppliedFrom, target?, positionals_named, Option.isNone_some, Bool.false_eq_true,
        if_false, idxOf?_eq_some_iff distinct inside, List.getElem?_eq_getElem inside,
        Option.toList_some, List.flatMap_cons, List.flatMap_nil, List.append_nil, keyed_named,
        Option.some.injEq, eq_comm (a := name)]
      rw [← List.append_assoc, ← List.append_assoc]
      exact List.perm_append_comm.append_right _

theorem held_set {slots : List (Option α)} {j : Nat} {x : α} (empty : slots[j]? = some none)
    (i : Nat) :
    held (slots.set j (some x)) i = (if some j = some i then [x] else []) ++ held slots i := by
  rw [held, held, List.getElem?_set]
  obtain ⟨inside, nothing⟩ := List.getElem?_eq_some_iff.1 empty
  by_cases same : j = i
  · subst same
    simp [inside, nothing]
  · simp [same]

theorem fillFrom_eq (next : Nat) (slots : List (Option α)) (keyword : Option String) (x : α) :
    fillFrom params next slots ((keyword, x) :: args) =
      match target? params next keyword with
      | none => .error (.unexpected (keyword.getD ""))
      | some j =>
        match slots[j]? with
        | none => .error .tooMany
        | some (some _) => .error (.repeated (params.getD j ""))
        | some none =>
          fillFrom params (if keyword.isNone then next + 1 else next) (slots.set j (some x))
            args := by
  cases keyword <;> rfl

/-- The first argument goes to an empty slot. -/
theorem fillFrom_cons {next : Nat} {slots filled : List (Option α)} {keyword : Option String}
    {x : α} :
    fillFrom params next slots ((keyword, x) :: args) = .ok filled ↔
      ∃ j, target? params next keyword = some j ∧ slots[j]? = some none ∧
        fillFrom params (if keyword.isNone then next + 1 else next) (slots.set j (some x)) args =
          .ok filled := by
  rw [fillFrom_eq]
  cases target? params next keyword with
  | none => simp
  | some j => rcases known : slots[j]? with _ | _ | y <;> simp [known]

/-- Slots are filled with what is supplied, each with one argument at most. -/
theorem fillFrom_eq_ok_iff (distinct : params.Nodup) {next : Nat} {slots filled : List (Option α)}
    (length : slots.length = params.length) :
    fillFrom params next slots args = .ok filled ↔
      (∀ i < (positionals args).length, next + i < params.length) ∧
      (∀ arg ∈ args, ∀ name, arg.1 = some name → name ∈ params) ∧
      filled.length = params.length ∧
      ∀ i < params.length, (held slots i ++ suppliedFrom params next args i).Perm (held filled i) := by
  induction args generalizing next slots with
  | nil =>
      have nothing (i : Nat) : suppliedFrom params next ([] : List (Option String × α)) i = [] := by
        simp [suppliedFrom, keyed]
      simp only [fillFrom, Except.ok.injEq, positionals_nil, List.length_nil, Nat.not_lt_zero,
        List.not_mem_nil, nothing, List.append_nil, false_imp_iff, implies_true, true_and]
      constructor
      · rintro rfl
        exact ⟨length, fun _ _ => .refl _⟩
      · rintro ⟨length', same⟩
        refine List.ext_getElem (by omega) fun i inside inside' => ?_
        have here := eq_of_perm_toList (same i (by omega))
        simpa [List.getElem?_eq_getElem inside, List.getElem?_eq_getElem inside'] using here
  | cons arg args ih =>
      obtain ⟨keyword, x⟩ := arg
      rw [fillFrom_cons]
      -- Filling a slot moves the argument from what is supplied to what is held.
      have moved {j : Nat} (aims : target? params next keyword = some j)
          (empty : slots[j]? = some none) (i : Nat) (inside : i < params.length) :
          (held slots i ++ suppliedFrom params next ((keyword, x) :: args) i).Perm
            (held (slots.set j (some x)) i ++
              suppliedFrom params (if keyword.isNone then next + 1 else next) args i) := by
        refine ((suppliedFrom_cons distinct inside).append_left _).trans ?_
        rw [held_set empty, aims, ← List.append_assoc]
        exact List.perm_append_comm.append_right _
      constructor
      · rintro ⟨j, aims, empty, done⟩
        obtain ⟨inside, -⟩ := List.getElem?_eq_some_iff.1 empty
        obtain ⟨fits, known, length', same⟩ := (ih (by simpa using length)).1 done
        have same' := fun i here => (moved aims empty i here).trans (same i here)
        cases keyword with
        | none =>
            obtain rfl : next = j := Option.some.inj aims
            refine ⟨fun i here => ?_, fun arg mem => ?_, length', same'⟩
            · cases i with
              | zero => omega
              | succ i =>
                  have := fits i (by simpa using here)
                  simp only [Option.isNone_none, if_true] at this
                  omega
            · rcases List.mem_cons.1 mem with rfl | mem
              · simp
              · exact known arg mem
        | some name =>
            refine ⟨fits, fun arg mem => ?_, length', same'⟩
            rcases List.mem_cons.1 mem with rfl | mem
            · rintro _ ⟨⟩
              exact mem_of_target? aims
            · exact known arg mem
      · rintro ⟨fits, known, length', same⟩
        obtain ⟨j, aims, inside⟩ :
            ∃ j, target? params next keyword = some j ∧ j < params.length := by
          cases keyword with
          | none => exact ⟨next, rfl, by simpa using fits 0 (by simp)⟩
          | some name => exact exists_target? (known _ List.mem_cons_self name rfl)
        -- Otherwise two arguments would be meant for the slot.
        have empty : slots[j]? = some none := by
          have known_ := List.getElem?_eq_getElem (show j < slots.length by omega)
          cases value : slots[j] with
          | none => rw [known_, value]
          | some y =>
              have one := (same j inside).length_eq
              have few := length_held_le filled j
              have here : 1 ≤ (suppliedFrom params next ((keyword, x) :: args) j).length := by
                rw [(suppliedFrom_cons distinct inside).length_eq, aims, if_pos rfl]
                simp
              have there : held slots j = [y] := by rw [held, known_, value]; rfl
              rw [List.length_append, there, List.length_singleton] at one
              omega
        refine ⟨j, aims, empty, (ih (by simpa using length)).2 ⟨?_, ?_, length', fun i here =>
          (moved aims empty i here).symm.trans (same i here)⟩⟩
        · cases keyword with
          | none =>
              intro i here
              have := fits (i + 1) (by simpa using here)
              simp only [Option.isNone_none, if_true]
              omega
          | some name => exact fits
        · exact fun arg mem => known arg (List.mem_cons_of_mem _ mem)

/-- The slots of parameters hold what is supplied for them, which is one argument at most. -/
theorem fillSlots_eq_ok_iff (distinct : params.Nodup) {filled : List (Option α)} :
    fillSlots params args = .ok filled ↔
      (positionals args).length ≤ params.length ∧
      (∀ arg ∈ args, ∀ name, arg.1 = some name → name ∈ params) ∧
      filled.length = params.length ∧
      ∀ i < params.length, (supplied params args i).Perm (held filled i) := by
  rw [fillSlots, fillFrom_eq_ok_iff distinct List.length_replicate]
  have empty (i : Nat) : held (List.replicate params.length (none : Option α)) i = [] := by
    rw [held, List.getElem?_replicate]
    split <;> rfl
  have all (i : Nat) : suppliedFrom params 0 args i = supplied params args i := by
    simp [suppliedFrom, supplied]
  simp only [empty, all, List.nil_append, Nat.zero_add]
  refine and_congr_left fun _ => ⟨fun fits => ?_, fun fits i here => by omega⟩
  by_contra more
  exact absurd (fits params.length (by omega)) (by omega)

/-- Slots can be filled unless something is given that fits none, or twice. -/
theorem exists_fillSlots_iff (distinct : params.Nodup) :
    (∃ filled, fillSlots params args = .ok filled) ↔ Matching params 0 args := by
  simp only [fillSlots_eq_ok_iff distinct]
  constructor
  · rintro ⟨filled, fits, known, -, same⟩
    refine ⟨fits, known, fun i inside => ?_, fun i _ none => absurd none (by omega)⟩
    rw [(same i inside).length_eq]
    exact length_held_le filled i
  · intro h
    refine ⟨(List.range params.length).map fun i => (supplied params args i).head?, h.fits, h.known,
      by simp, fun i inside => ?_⟩
    rw [held, List.getElem?_map, List.getElem?_range inside]
    match all : supplied params args i, h.once i inside with
    | [], _ => simp [all]
    | [x], _ => simp [all]

/-- The arguments of parameters with slots that all hold something. -/
theorem collectArgs_eq_ok_iff {callee : String} {span : Span} {slots : List (Option α)}
    {out : List (Option String × α)} (length : slots.length = params.length) :
    collectArgs callee span params slots = .ok out ↔
      ∃ xs : List α, slots = xs.map some ∧ out = xs.map (none, ·) := by
  induction params generalizing slots out with
  | nil =>
      obtain rfl := List.length_eq_zero_iff.1 length
      simp only [collectArgs, Except.ok.injEq]
      constructor
      · rintro rfl
        exact ⟨[], rfl, rfl⟩
      · rintro ⟨xs, none, rfl⟩
        rw [List.map_eq_nil_iff.1 none.symm, List.map_nil]
  | cons p ps ih =>
      rcases slots with _ | ⟨_ | x, slots⟩
      · cases length
      · refine iff_of_false not_refuse_eq_ok ?_
        rintro ⟨_ | ⟨x, xs⟩, same, -⟩ <;> simp at same
      · rw [collectArgs, Except.bind_eq_ok]
        simp only [Except.pure_eq_ok, ih (show slots.length = ps.length by simpa using length)]
        constructor
        · rintro ⟨_, ⟨xs, rfl, rfl⟩, rfl⟩
          exact ⟨x :: xs, rfl, rfl⟩
        · rintro ⟨_ | ⟨y, xs⟩, same, rfl⟩
          · simp at same
          · obtain ⟨rfl, rfl⟩ : x = y ∧ slots = xs.map some := by simpa using same
            exact ⟨_, ⟨xs, rfl, rfl⟩, rfl⟩

theorem firstMissing?_eq_none_iff {slots : List (Option α)} {required : Nat}
    (length : slots.length = params.length) :
    firstMissing? (params.take required) slots = none ↔
      ∀ i < params.length, i < required → held slots i ≠ [] := by
  induction params generalizing slots required with
  | nil => simp [firstMissing?]
  | cons p ps ih =>
      cases required with
      | zero => simp [firstMissing?]
      | succ required =>
          match slots with
          | none :: slots =>
              refine iff_of_false (by simp [firstMissing?]) fun all => ?_
              exact all 0 (by simp) (by omega) rfl
          | some x :: slots =>
              have rest : firstMissing? (ps.take required) slots = none ↔ _ :=
                ih (by simpa using length)
              rw [List.take_succ_cons, firstMissing?, rest]
              constructor
              · rintro all (_ | i) inside below
                · exact List.cons_ne_nil _ _
                · exact all i (by simpa using inside) (by omega)
              · exact fun all i inside below =>
                  all (i + 1) (by simpa using inside) (by omega)

/-- An argument that goes to an empty slot is added to what the slots hold. -/
theorem flatMap_set {slots : List (Option α)} {j : Nat} {x : α} (empty : slots[j]? = some none) :
    ((slots.set j (some x)).flatMap Option.toList).Perm (x :: slots.flatMap Option.toList) := by
  induction slots generalizing j with
  | nil => simp at empty
  | cons slot slots ih =>
      cases j with
      | zero =>
          obtain rfl : slot = none := by simpa using empty
          exact .refl _
      | succ j =>
          rw [List.set_cons_succ, List.flatMap_cons, List.flatMap_cons]
          exact ((ih (by simpa using empty)).append_left _).trans List.perm_middle

/-- No argument is dropped, and none is used twice. -/
theorem perm_of_fillFrom {next : Nat} {slots filled : List (Option α)}
    (h : fillFrom params next slots args = .ok filled) :
    (filled.flatMap Option.toList).Perm (slots.flatMap Option.toList ++ args.map (·.2)) := by
  induction args generalizing next slots with
  | nil =>
      obtain rfl : slots = filled := by simpa [fillFrom] using h
      simp
  | cons arg args ih =>
      obtain ⟨j, -, empty, h⟩ := fillFrom_cons.1 h
      refine (ih h).trans (((flatMap_set empty).append_right _).trans ?_)
      exact List.perm_middle.symm

theorem perm_of_fillSlots {filled : List (Option α)} (h : fillSlots params args = .ok filled) :
    (filled.flatMap Option.toList).Perm (args.map (·.2)) := by
  have nothing : (List.replicate params.length (none : Option α)).flatMap Option.toList = [] := by
    simp
  simpa [nothing] using perm_of_fillFrom h

/-- The order of the keywords does not matter. -/
theorem Reorders.fillSlots (h : Reorders args args') (distinct : params.Nodup)
    {filled : List (Option α)} (done : fillSlots params args = .ok filled) :
    Packrat.fillSlots params args' = .ok filled := by
  obtain ⟨fits, known, length, same⟩ := (fillSlots_eq_ok_iff distinct).1 done
  refine (fillSlots_eq_ok_iff distinct).2 ⟨h.2 ▸ fits, fun arg mem => known arg (h.1.mem_iff.2 mem),
    length, fun i inside => (h.supplied i).symm.trans (same i inside)⟩

/-- Behind the last parameter nothing is supplied. -/
theorem supplied_eq_held (distinct : params.Nodup) {filled : List (Option α)}
    (h : fillSlots params args = .ok filled) (i : Nat) : supplied params args i = held filled i := by
  obtain ⟨fits, -, length, same⟩ := (fillSlots_eq_ok_iff distinct).1 h
  by_cases inside : i < params.length
  · have here := same i inside
    rw [held] at here ⊢
    cases slot : filled[i]?.join with
    | none =>
        rw [slot] at here
        exact List.perm_nil.1 here
    | some x =>
        rw [slot] at here
        exact List.perm_singleton.1 here
  · rw [supplied, held, List.getElem?_eq_none (by omega), List.getElem?_eq_none (by omega),
      List.getElem?_eq_none (by omega)]
    rfl

/-- What is filled is all that is supplied, so required parameters are given when it is theirs. -/
theorem matching_iff (distinct : params.Nodup) {filled : List (Option α)} {required : Nat}
    (h : fillSlots params args = .ok filled) :
    Matching params required args ↔ ∀ i < params.length, i < required → held filled i ≠ [] := by
  have ok := (exists_fillSlots_iff distinct).1 ⟨filled, h⟩
  constructor
  · intro matching i inside below
    exact supplied_eq_held distinct h i ▸ matching.given i inside below
  · intro given
    refine ⟨ok.fits, ok.known, ok.once, fun i inside below => ?_⟩
    exact supplied_eq_held distinct h i ▸ given i inside below

theorem Matching.fillable {required : Nat} (h : Matching params required args) :
    Matching params 0 args :=
  ⟨h.fits, h.known, h.once, fun _ _ none => absurd none (by omega)⟩

/-! ### Calls of rules -/

theorem exists_map_some {slots : List (Option α)} (full : ∀ slot ∈ slots, slot.isSome = true) :
    ∃ xs : List α, slots = xs.map some := by
  induction slots with
  | nil => exact ⟨[], rfl⟩
  | cons slot slots ih =>
      obtain ⟨x, rfl⟩ := Option.isSome_iff_exists.1 (full _ List.mem_cons_self)
      obtain ⟨xs, rfl⟩ := ih fun slot mem => full slot (List.mem_cons_of_mem _ mem)
      exact ⟨x :: xs, rfl⟩

/-- The arguments of a call with a slot each. -/
theorem resolveArgs_eq_ok_iff {callee : String} {span : Span} {out : List (Option String × α)} :
    resolveArgs callee span params args = .ok out ↔
      ∃ xs : List α, fillSlots params args = .ok (xs.map some) ∧ out = xs.map (none, ·) := by
  rw [resolveArgs]
  cases filling : fillSlots params args with
  | error e => cases e <;> simp [not_refuse_eq_ok]
  | ok slots =>
      simp only [collectArgs_eq_ok_iff (length_fillSlots filling), Except.ok.injEq]

theorem exists_resolveArgs_iff (distinct : params.Nodup) {callee : String} {span : Span} :
    (∃ out, resolveArgs callee span params args = .ok out) ↔
      Matching params params.length args := by
  simp only [resolveArgs_eq_ok_iff]
  constructor
  · rintro ⟨_, xs, filling, rfl⟩
    refine (matching_iff distinct filling).2 fun i inside _ => ?_
    have length : xs.length = params.length := by simpa using length_fillSlots filling
    simp [held, List.getElem?_eq_getElem (show i < xs.length by omega)]
  · intro matching
    obtain ⟨filled, filling⟩ := (exists_fillSlots_iff distinct).2 matching.fillable
    have given := (matching_iff distinct filling).1 matching
    have length := length_fillSlots filling
    have full : ∀ slot ∈ filled, slot.isSome = true := by
      intro slot mem
      obtain ⟨i, inside, rfl⟩ := List.getElem_of_mem mem
      have here := given i (by omega) (by omega)
      rw [held, List.getElem?_eq_getElem inside] at here
      cases slot : filled[i] with
      | none => simp [slot] at here
      | some x => rfl
    obtain ⟨xs, rfl⟩ := exists_map_some full
    exact ⟨_, xs, filling, rfl⟩

/-- Arguments in the order of the parameters, with what is supplied for each. -/
structure Arranged (params : List String) (args : List (Option String × α)) (xs : List α) :
    Prop where
  length : xs.length = params.length
  /-- Each parameter gets what is supplied for it. -/
  each : ∀ i, supplied params args i = xs[i]?.toList
  /-- No argument is dropped, and none is used twice. -/
  all : xs.Perm (args.map (·.2))

theorem arranged_of_fillSlots (distinct : params.Nodup) {xs : List α}
    (h : fillSlots params args = .ok (xs.map some)) : Arranged params args xs where
  length := by simpa using length_fillSlots h
  each i := by
    rw [supplied_eq_held distinct h, held, List.getElem?_map]
    cases xs[i]? <;> rfl
  all := by simpa [List.flatMap_map] using perm_of_fillSlots h

/-! ### Arguments that have been resolved -/

/-- Arguments with other values under the same keywords. -/
abbrev revalued (f : α → β) (args : List (Option String × α)) : List (Option String × β) :=
  args.map (Prod.map id f)

theorem positionals_revalued (f : α → β) (args : List (Option String × α)) :
    positionals (revalued f args) = (positionals args).map f := by
  rw [positionals, positionals, List.filterMap_map, List.map_filterMap]
  refine List.filterMap_congr fun ⟨keyword, x⟩ _ => ?_
  cases keyword <;> rfl

theorem keyed_revalued (f : α → β) (param : String) (args : List (Option String × α)) :
    keyed param (revalued f args) = (keyed param args).map f := by
  rw [keyed, keyed, List.filterMap_map, List.map_filterMap]
  refine List.filterMap_congr fun arg _ => ?_
  by_cases same : arg.1 = some param <;> simp [same]

theorem supplied_revalued (f : α → β) (args : List (Option String × α)) (i : Nat) :
    supplied params (revalued f args) i = (supplied params args i).map f := by
  rw [supplied, supplied, positionals_revalued, List.map_append, List.getElem?_map,
    List.map_flatMap]
  simp only [keyed_revalued]
  cases (positionals args)[i]? <;> rfl

/-- Whether arguments match does not depend on what they are. -/
theorem matching_revalued {f : α → β} {required : Nat} :
    Matching params required (revalued f args) ↔ Matching params required args := by
  constructor
  · rintro ⟨fits, known, once, given⟩
    refine ⟨by simpa [positionals_revalued] using fits, fun arg mem => ?_,
      fun i inside => ?_, fun i inside below none => ?_⟩
    · exact known (Prod.map id f arg) (List.mem_map_of_mem mem)
    · simpa [supplied_revalued] using once i inside
    · exact given i inside below (by simp [supplied_revalued, none])
  · rintro ⟨fits, known, once, given⟩
    refine ⟨by simpa [positionals_revalued] using fits, fun arg mem => ?_,
      fun i inside => ?_, fun i inside below none => ?_⟩
    · obtain ⟨arg', mem', rfl⟩ := List.mem_map.1 mem
      exact known arg' mem'
    · simpa [supplied_revalued] using once i inside
    · exact given i inside below (by simpa [supplied_revalued] using none)

theorem Reorders.revalued (h : Reorders args args') (f : α → β) :
    Reorders (revalued f args) (revalued f args') :=
  ⟨h.1.map _, by rw [positionals_revalued, positionals_revalued, h.2]⟩

/-- What an expression resolves to, if it does. -/
def settle (rules : Signatures) (e : Expr) : Expr :=
  match e.resolved rules with
  | .ok out => out
  | .error _ => e

theorem resolvedArgs_eq_ok_iff {rules : Signatures} {args mid : List (Option String × Expr)} :
    resolvedArgs rules args = .ok mid ↔
      (∀ arg ∈ args, ∃ e, arg.2.resolved rules = .ok e) ∧ mid = revalued (settle rules) args := by
  induction args generalizing mid with
  | nil => simp [resolvedArgs, eq_comm]
  | cons arg args ih =>
      obtain ⟨keyword, e⟩ := arg
      rw [resolvedArgs, Except.bind_eq_ok]
      simp only [Except.bind_eq_ok, Except.pure_eq_ok, ih]
      constructor
      · rintro ⟨x, first, _, ⟨all, rfl⟩, rfl⟩
        refine ⟨fun arg mem => ?_, by simp [settle, first]⟩
        rcases List.mem_cons.1 mem with rfl | mem
        · exact ⟨x, first⟩
        · exact all arg mem
      · rintro ⟨all, rfl⟩
        obtain ⟨x, first⟩ := all _ List.mem_cons_self
        exact ⟨x, first, _, ⟨fun arg mem => all arg (List.mem_cons_of_mem _ mem), rfl⟩,
          by simp [settle, show e.resolved rules = .ok x from first]⟩

/-- A call of a rule whose arguments have been resolved. -/
theorem resolved_call_eq_ok_iff {rules : Signatures} {tag : Tag} {callee : String}
    {args mid : List (Option String × Expr)} {binding : Binding} {e : Expr}
    (inner : resolvedArgs rules args = .ok mid) (known : rules.lookup callee = some params) :
    (Expr.call tag callee args binding).resolved rules = .ok e ↔
      ∃ xs : List Expr, fillSlots params mid = .ok (xs.map some) ∧
        e = .call tag callee (xs.map (none, ·)) (.rule (ruleFunction callee)) := by
  rw [Expr.resolved, inner]
  simp only [Except.bind_eq_ok, resolveCall, known, Except.pure_eq_ok, resolveArgs_eq_ok_iff]
  constructor
  · rintro ⟨_, same, _, ⟨xs, filling, rfl⟩, rfl⟩
    obtain rfl := Except.ok.inj same
    exact ⟨xs, filling, rfl⟩
  · rintro ⟨xs, filling, rfl⟩
    exact ⟨mid, rfl, _, ⟨xs, filling, rfl⟩, rfl⟩

/-- The slots of a form. -/
theorem formSlots_eq_ok_iff {form : String} {required : Nat} {span : Span}
    {given : List (Option String × FormArg)} {slots : List (Option FormArg)} :
    formSlots form params required span given = .ok slots ↔
      fillSlots params given = .ok slots ∧ ∀ i < params.length, i < required → held slots i ≠ [] := by
  rw [formSlots]
  cases filling : fillSlots params given with
  | error e => cases e <;> simp [not_refuse_eq_ok]
  | ok filled =>
      have missing : firstMissing? (params.take required) filled = none ↔ _ :=
        firstMissing?_eq_none_iff (length_fillSlots filling)
      cases found : firstMissing? (params.take required) filled with
      | none =>
          simp only [found, Except.ok.injEq, iff_self_and]
          rintro rfl
          exact missing.1 found
      | some param =>
          simp only [found]
          refine iff_of_false not_refuse_eq_ok ?_
          rintro ⟨same, given⟩
          obtain rfl := Except.ok.inj same
          exact absurd (missing.2 given) (by simp [found])

/-! ### Calls and forms -/

/-- **Calls of rules accept exactly the arguments that match, and so do forms.** A call whose
arguments resolve, one by one, is resolved itself exactly if each parameter is supplied once, by
position or by its name, and nothing else is given.  Then the arguments are those of the parameters in
their order, none dropped or used twice, and other orders of the keywords come to the same.  Forms
accept arguments by the same law, but only some of their parameters must be given. -/
theorem arguments_match {rules : Signatures} {callee : String} {args mid : List (Option String × Expr)}
    (tag : Tag) (binding : Binding) (distinct : params.Nodup)
    (known : rules.lookup callee = some params) (inner : resolvedArgs rules args = .ok mid) :
    ((∃ e, (Expr.call tag callee args binding).resolved rules = .ok e) ↔
      Matching params params.length args) ∧
    (∀ e, (Expr.call tag callee args binding).resolved rules = .ok e →
      (∃ xs, e = .call tag callee (xs.map (none, ·)) (.rule (ruleFunction callee)) ∧
        Arranged params mid xs) ∧
      ∀ args', Reorders args args' →
        (Expr.call tag callee args' binding).resolved rules = .ok e) ∧
    ∀ (form : String) (required : Nat) (span : Span) (given : List (Option String × FormArg)),
      ((∃ slots, formSlots form params required span given = .ok slots) ↔
        Matching params required given) ∧
      ∀ slots, formSlots form params required span given = .ok slots →
        (slots.length = params.length ∧ (∀ i, supplied params given i = (slot? slots i).toList) ∧
          (slots.flatMap Option.toList).Perm (given.map (·.2))) ∧
        ∀ given', Reorders given given' →
          formSlots form params required span given' = .ok slots := by
  refine ⟨?_, fun e done => ⟨?_, fun args' reorders => ?_⟩, fun form required span given =>
    ⟨?_, fun slots done => ?_⟩⟩
  · obtain ⟨-, rfl⟩ := resolvedArgs_eq_ok_iff.1 inner
    simp only [resolved_call_eq_ok_iff inner known]
    rw [← matching_revalued, ← @exists_resolveArgs_iff _ _ _ distinct callee tag.span]
    simp only [resolveArgs_eq_ok_iff]
    exact ⟨fun ⟨_, xs, filling, _⟩ => ⟨_, xs, filling, rfl⟩,
      fun ⟨_, xs, filling, _⟩ => ⟨_, xs, filling, rfl⟩⟩
  · obtain ⟨xs, filling, rfl⟩ := (resolved_call_eq_ok_iff inner known).1 done
    exact ⟨xs, rfl, arranged_of_fillSlots distinct filling⟩
  · obtain ⟨xs, filling, rfl⟩ := (resolved_call_eq_ok_iff inner known).1 done
    obtain ⟨each, rfl⟩ := resolvedArgs_eq_ok_iff.1 inner
    have inner' : resolvedArgs rules args' = .ok (revalued (settle rules) args') :=
      resolvedArgs_eq_ok_iff.2 ⟨fun arg mem => each arg (reorders.1.mem_iff.2 mem), rfl⟩
    exact (resolved_call_eq_ok_iff inner' known).2
      ⟨xs, (reorders.revalued _).fillSlots distinct filling, rfl⟩
  · simp only [formSlots_eq_ok_iff]
    constructor
    · rintro ⟨slots, filling, given⟩
      exact (matching_iff distinct filling).2 given
    · intro matching
      obtain ⟨slots, filling⟩ := (exists_fillSlots_iff distinct).2 matching.fillable
      exact ⟨slots, filling, (matching_iff distinct filling).1 matching⟩
  · obtain ⟨filling, complete⟩ := formSlots_eq_ok_iff.1 done
    refine ⟨⟨length_fillSlots filling, supplied_eq_held distinct filling,
      perm_of_fillSlots filling⟩, fun given' reorders => ?_⟩
    exact formSlots_eq_ok_iff.2 ⟨reorders.fillSlots distinct filling, complete⟩

/-- The call `pair(y="b", "a")` of a rule `pair(x, y)`: the keyword stands before the argument given by
position, which is the first parameter. -/
theorem arguments_match_pair :
    let a := Expr.str ⟨2, .nowhere⟩ [97] ⟨false, false, false⟩
    let b := Expr.str ⟨1, .nowhere⟩ [98] ⟨false, false, false⟩
    let args := [(some "y", b), (none, a)]
    ["x", "y"].Nodup ∧ List.lookup "pair" [("pair", ["x", "y"])] = some ["x", "y"] ∧
      resolvedArgs [("pair", ["x", "y"])] args = .ok args ∧ Matching ["x", "y"] 2 args ∧
      ∃ xs, (Expr.call ⟨0, .nowhere⟩ "pair" args .unresolved).resolved [("pair", ["x", "y"])] =
          .ok (.call ⟨0, .nowhere⟩ "pair" (xs.map (none, ·)) (.rule "_try_pair")) ∧
        Arranged ["x", "y"] args xs ∧ xs = [a, b] := by
  intro a b args
  have matching : Matching ["x", "y"] 2 args := by
    refine ⟨by decide, ?_, by decide, fun i inside _ => ?_⟩
    · simp [args]
    · match i, inside with
      | 0, _ | 1, _ => exact List.cons_ne_nil _ _
  have law := @arguments_match ["x", "y"] [("pair", ["x", "y"])] "pair" args args ⟨0, .nowhere⟩
    .unresolved (by decide) rfl rfl
  obtain ⟨e, done⟩ := law.1.2 matching
  obtain ⟨⟨xs, rfl, arranged⟩, -⟩ := law.2.1 e done
  refine ⟨by decide, rfl, rfl, matching, xs, done, arranged, ?_⟩
  match xs, arranged.length, arranged.each 0, arranged.each 1 with
  | [x, y], _, first, second =>
      obtain rfl : a = x := List.singleton_inj.1 first
      obtain rfl : b = y := List.singleton_inj.1 second
      rfl

end Packrat
