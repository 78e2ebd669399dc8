import Packrat.Grammar.Basic

/-
**Names of a grammar.**

Names of rules and classes begin with a letter and are all different, and so are the parameters
and fields of each.

Main definitions:

* `Packrat.isRuleName` — the form of a name;
* `Packrat.Grammar.checkNames` — refuses a grammar whose names are not in order.

Main results:

* `Packrat.repeated?_eq_none` — a list holds no name twice exactly when none is reported.
-/

set_option autoImplicit false

namespace Packrat

/-- Whether a name begins with a letter and holds letters, digits and underscores only. -/
def isRuleName (name : String) : Bool :=
  match name.toList with
  | [] => false
  | c :: cs => c.isAlpha && cs.all fun d => d.isAlphanum || d == '_'

/-- The first name of a list that occurs before, in the list or among `seen`. -/
def repeated? (seen : List String) : List String → Option String
  | [] => none
  | n :: ns => if seen.contains n then some n else repeated? (n :: seen) ns

theorem repeated?_eq_none {seen names : List String} :
    repeated? seen names = none ↔ names.Nodup ∧ ∀ n ∈ names, n ∉ seen := by
  induction names generalizing seen with
  | nil => simp [repeated?]
  | cons n ns ih =>
    simp only [repeated?]
    by_cases h : n ∈ seen
    · simp [h]
    · simp only [List.contains_eq_mem, h, decide_false, Bool.false_eq_true, ↓reduceIte, ih,
        List.mem_cons, not_or, List.nodup_cons, forall_eq_or_imp, not_false_eq_true, true_and]
      constructor
      · rintro ⟨hd, hs⟩
        exact ⟨⟨fun hn => (hs n hn).1 rfl, hd⟩, fun m hm => (hs m hm).2⟩
      · rintro ⟨⟨hn, hd⟩, hs⟩
        exact ⟨hd, fun m hm => ⟨fun he => hn (he ▸ hm), hs m hm⟩⟩

/-- Refuses a definition with an unfit name, or with a parameter or field given twice. -/
def Definition.checkNames (seen : List String) (d : Definition) : Except Failure Unit :=
  if !d.synthetic && !isRuleName d.name then
    refuse (if d.name.startsWith "_" then .underscoreName d.name else .invalidName d.name) d.span
  else if seen.contains d.name then refuse (.duplicateRule d.name) d.span
  else
    match repeated? [] (d.paramList ++ d.fields.getD []) with
    | some name => refuse (.duplicateLocal name d.name) d.span
    | none => .ok ()

/-- Refuses definitions whose names are not in order. `seen` are the names before them. -/
def checkDefinitions (seen : List String) : List Definition → Except Failure Unit
  | [] => .ok ()
  | d :: ds => do
    d.checkNames seen
    checkDefinitions (d.name :: seen) ds

/-- Refuses a grammar whose names are not in order. -/
def Grammar.checkNames (g : Grammar) : Except Failure Unit := checkDefinitions [] g.definitions

end Packrat
