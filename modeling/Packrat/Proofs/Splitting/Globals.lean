import Packrat.Proofs.Conduct.Programs
import Packrat.Proofs.Evaluation.Contents
import Packrat.Proofs.Evaluation.Faithful
import Packrat.Proofs.Safety.Names

/-
**Globals of programs that are loaded one after the other.**

The globals of a parser are made while it is loaded.  A parser that is loaded later draws other
identities, but it draws them in the same order: so each identity is a fixed distance behind the one that
it goes with, and not even a comparison by identity tells such globals apart.

Main definitions:

* `Packrat.Likeness.shifted` — identities at a fixed distance from each other.

Main results:

* `Packrat.Parser.globals_shifted` — **programs with the same classes and the same sections have globals
  that are alike**.
-/

set_option autoImplicit false

namespace Packrat

open Likeness

namespace Likeness

/-- Identities that are as far behind one moment as they are behind another.  No functions of programs are
among the values. -/
def shifted (start start' : Nat) : Likeness where
  ids i j := i + start' = j + start
  counters i j := i + start' = j + start
  functions _ _ := False
  marks := False
  closures := False
  fresh h := ⟨h, by omega⟩

theorem shifted_faithful (start start' : Nat) : (shifted start start').Faithful where
  ids h h' := by
    simp only [shifted] at h h'
    omega
  functions h := h.elim

/-- Identities at a fixed distance are not asked for where nothing is asked of identities. -/
theorem shifted_finer {L : Likeness} (ids : ∀ i j, L.ids i j) (start start' : Nat) :
    (shifted start start').Finer L :=
  ⟨fun _ => ids _ _, False.elim, False.elim, False.elim⟩

end Likeness

/-- Two runs through the same list, of which each step keeps what they have in common. -/
theorem foldlM_both {α σ : Type} {P : σ → Nat → σ → Nat → Prop}
    {f : σ → α → StateT Nat (Except Failure) σ} {as : List α}
    (keeps : ∀ a ∈ as, ∀ s n t m s' n' t' m', P s n t m → f s a n = .ok (s', n') →
      f t a m = .ok (t', m') → P s' n' t' m') {s t s' t' : σ} {n m n' m' : Nat} (start : P s n t m)
    (h : as.foldlM f s n = .ok (s', n')) (h' : as.foldlM f t m = .ok (t', m')) : P s' n' t' m' := by
  induction as generalizing s t n m with
  | nil =>
      obtain ⟨rfl, rfl⟩ := Exec.pure_eq_ok h
      obtain ⟨rfl, rfl⟩ := Exec.pure_eq_ok h'
      exact start
  | cons a as ih =>
      rw [List.foldlM_cons] at h h'
      obtain ⟨⟨s₁, n₁⟩, first, rest⟩ := Except.bind_eq_ok.1 h
      obtain ⟨⟨t₁, m₁⟩, first', rest'⟩ := Except.bind_eq_ok.1 h'
      exact ih (fun b mem => keeps b (List.mem_cons_of_mem _ mem))
        (keeps a List.mem_cons_self _ _ _ _ _ _ _ _ start first first') rest rest'

namespace Parser

variable {natives : Host.Natives} {L : Likeness} {env env' out out' : Env} {n n' m m' : Nat}

/-- Environments that are alike, at moments that go together. -/
def Alongside (L : Likeness) (env : Env) (n : Nat) (env' : Env) (n' : Nat) : Prop :=
  AlikeEnv L env env' ∧ L.counters n n'

theorem globalsOf_alongside {program program' : Program} (classes : program'.classes = program.classes)
    (counters : L.counters n n') (h : globalsOf natives program n = .ok (out, m))
    (h' : globalsOf natives program' n' = .ok (out', m')) : Alongside L out m out' m' := by
  have same : initialFunctions natives program' = initialFunctions natives program := by
    simp only [initialFunctions, classes]
  rw [globalsOf, same] at h'
  refine foldlM_both (P := Alongside L) (fun x mem env n env' n' out m out' m' along h h' => ?_)
    ⟨.nil, counters⟩ h h'
  obtain ⟨name, f⟩ := x
  obtain ⟨rfl, rfl⟩ := Exec.pure_eq_ok (show (pure ((name, Value.func n f) :: env) : Exec Env)
    (n + 1) = .ok (out, m) from h)
  obtain ⟨rfl, rfl⟩ := Exec.pure_eq_ok (show (pure ((name, Value.func n' f) :: env') : Exec Env)
    (n' + 1) = .ok (out', m') from h')
  obtain ⟨ids, next⟩ := L.fresh along.2
  refine ⟨.cons name (.func ids ?_) along.1, next⟩
  simp only [initialFunctions, List.mem_append, List.mem_map, Prod.mk.injEq] at mem
  rcases mem with (⟨x, -, -, rfl⟩ | ⟨b, -, -, rfl⟩) | ⟨cls, -, -, rfl⟩
  · exact .native _
  · exact .builtin b
  · exact .constructor cls

theorem assign_alongside (respects : L.Respects ⟨natives, Host.compareOp⟩) {a : Host.Assignment}
    (along : Alongside L env n env' n') (h : assign natives env a n = .ok (out, m))
    (h' : assign natives env' a n' = .ok (out', m')) : Alongside L out m out' m' := by
  have agree : AgreeOn L (Alike L) (a.value.eval natives env) (a.value.eval natives env') :=
    respects.evalIn (.inl along.1)
  have both := agree n n' along.2
  simp only [assign, StateT.run] at h h'
  revert both h h'
  generalize a.value.eval natives env n = r
  generalize a.value.eval natives env' n' = r'
  intro h h' both
  cases both with
  | error => cases h
  | ok both =>
      obtain ⟨rfl, rfl⟩ := Prod.mk.inj (Except.ok.inj h)
      obtain ⟨rfl, rfl⟩ := Prod.mk.inj (Except.ok.inj h')
      exact ⟨.cons _ both.1 along.1, both.2⟩

/-- Parsers of one description whose programs have the same classes have **globals that are alike**. -/
theorem globals_shifted [Regex.Engine] {options options' : Options} {description : String}
    {p p' : Parser} {start start' : Nat}
    (built : build options natives description start = .ok (p, n))
    (built' : build options' natives description start' = .ok (p', n'))
    (classes : p'.program.classes = p.program.classes) {compare : Host.Compare}
    (outside : ∀ L : Likeness, L.Respects ⟨natives, compare⟩) : ∃ m m', AlikeEnv
    (shifted m m') p.globals p'.globals := by
  obtain ⟨g, program, m, env, k, found, compiled, initial, assigned, rfl, -⟩ := build_eq_ok built
  obtain ⟨g', program', m', env', k', found', compiled', initial', assigned', rfl, -⟩ :=
    build_eq_ok built'
  obtain rfl : g = g' := Except.ok.inj (found.symm.trans found')
  obtain ⟨-, -, -, -, sections⟩ := Grammar.adds_of_compile compiled
  obtain ⟨-, -, -, -, sections'⟩ := Grammar.adds_of_compile compiled'
  rw [sections', ← sections] at assigned'
  have respects : (shifted m m').Respects ⟨natives, Host.compareOp⟩ :=
    ⟨fun op _ _ _ _ ha hb => (shifted_faithful m m').compareOp_eq op ha hb, (outside _).natives⟩
  have first : Alongside (shifted m m') env k env' k' :=
    globalsOf_alongside classes (Nat.add_comm m m') initial initial'
  exact ⟨m, m', (foldlM_both (f := assign natives) (P := Alongside (shifted m m'))
    (fun _ _ _ _ _ _ _ _ _ _ along => assign_alongside respects along) first assigned assigned').1⟩

end Parser

end Packrat
