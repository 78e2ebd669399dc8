/-
**Matching of arguments to parameters.**

Arguments are given by position or by keyword.  Those given by position fill the parameters from
the first on; a keyword fills the parameter of its name.  No parameter may be filled twice.

Main definitions:

* `Packrat.SlotError` — why arguments do not match;
* `Packrat.fillSlots` — the argument of each parameter, where there is one;
* `Packrat.firstMissing?` — the first of some parameters without an argument.

Main results:

* `Packrat.length_fillSlots` — there is a slot for each parameter.
-/

set_option autoImplicit false

namespace Packrat

variable {α : Type}

/-- Why arguments do not match parameters. -/
inductive SlotError where
  | unexpected (keyword : String)
  | tooMany
  | repeated (param : String)
deriving DecidableEq, Repr

/-- Fills the slots of parameters. `next` is the slot of the next argument given by position. -/
def fillFrom (params : List String) (next : Nat) (slots : List (Option α)) :
    List (Option String × α) → Except SlotError (List (Option α))
  | [] => .ok slots
  | (keyword, x) :: rest =>
    let index? :=
      match keyword with
      | none => some next
      | some k => params.idxOf? k
    match index? with
    | none => .error (.unexpected (keyword.getD ""))
    | some index =>
      match slots[index]? with
      | none => .error .tooMany
      | some (some _) => .error (.repeated (params.getD index ""))
      | some none =>
        fillFrom params (if keyword.isNone then next + 1 else next) (slots.set index (some x)) rest

/-- The argument of each parameter, where there is one. -/
def fillSlots (params : List String) (args : List (Option String × α)) :
    Except SlotError (List (Option α)) :=
  fillFrom params 0 (List.replicate params.length none) args

theorem length_fillFrom {params : List String} {next : Nat} {slots filled : List (Option α)}
    {args : List (Option String × α)} (h : fillFrom params next slots args = .ok filled) :
    filled.length = slots.length := by
  induction args generalizing next slots with
  | nil =>
    simp only [fillFrom, Except.ok.injEq] at h
    rw [h]
  | cons arg rest ih =>
    obtain ⟨keyword, x⟩ := arg
    simp only [fillFrom] at h
    split at h
    · simp at h
    · split at h
      · simp at h
      · simp at h
      · rw [ih h, List.length_set]

theorem length_fillSlots {params : List String} {filled : List (Option α)}
    {args : List (Option String × α)} (h : fillSlots params args = .ok filled) :
    filled.length = params.length := by
  rw [length_fillFrom h, List.length_replicate]

/-- The first of some parameters whose slot is empty. -/
def firstMissing? : List String → List (Option α) → Option String
  | p :: _, none :: _ => some p
  | _ :: ps, some _ :: slots => firstMissing? ps slots
  | _, _ => none

end Packrat
