import Packrat.Proofs.Analysis.Classes
import Packrat.Proofs.Conduct.Programs
import Packrat.Proofs.Meaning.Worlds

/-
**Parsers are ready to be read.**

In the world of a compiled grammar the functions of all rules can be read: names have found rules and
locals, patterns have automata, and an argument that has become a function stands for a closure.  The
globals of a parser are made while it is loaded; no node among them has a place.

Main definitions:

* `Packrat.Grammar.Nests` — grammars in which the spans of nodes nest;
* `Packrat.Parser.world` — the world of a parse.

Main results:

* `Packrat.Grammar.ready_of_compile` — **the world of a compiled grammar is ready**;
* `Packrat.Parser.globals_on` — the globals of a parser are on a heap;
* `Packrat.Parser.ready_of_build` — **the worlds of a parser are ready**.
-/

set_option autoImplicit false

namespace Packrat

/-! ### Expressions -/

namespace Expr

variable {program : Program} {rules : List (String × Nat)} {rule : String} {e : Expr} {l : Layout}

/-- An expression that has been written into a program has automata for its patterns. -/
theorem Written.patterned [Regex.Engine] (written : e.Written program rules rule)
    (sound : ∀ r ∈ program.regexes, r.Sound) (l : Layout) :
    e.Throughout (fun e _ => e.Patterned) l := by
  obtain ⟨d, p, d', p', writes, hosts, -, -⟩ := written
  refine e.emit_needs l d p () d' p' (fun r mem => sound r ?_) writes
  obtain ⟨i, found⟩ := Array.mem_iff_getElem?.1 mem
  have there := (hosts.back (e.emit_tame.pools writes)).regexes i r found
  exact Array.mem_of_getElem? there

/-- A closure takes the locals that its body reads. -/
theorem closures_params {kc : Nat × Closure} (e : Expr) (l : Layout) (mem : kc ∈ e.closures rule l) :
    kc.2.params = kc.2.body.freeLocals := by
  rcases mem_closures.1 mem with ⟨x, part, mem⟩ | ⟨x, hand, rfl | mem⟩
  · exact closures_params x.1 x.2 mem
  · rfl
  · exact closures_params x.1 x.2 mem
termination_by sizeOf e
decreasing_by
  · exact sizeOf_lt_of_mem_children (mem_children_of_mem_inPlace part)
  · exact sizeOf_lt_of_mem_children (mem_children_of_mem_handed hand)

/-- An expression that looks ahead. -/
def looksAhead : Expr → Bool
  | .expect _ _ => true
  | _ => false

/-- What the body of a definition has and hands down to what is written in it: its names are settled,
and no nodes are built below its top. Where spans nest nothing is looked ahead for, and a node is built
without reading anything from around it. -/
structure Legible [Regex.Engine] (nested : Prop) (signatures : Signatures) (e : Expr) : Prop where
  settled : e.Every (Settled signatures)
  ahead : nested → e.Every (·.looksAhead = false)
  closed : nested → e.cls? ≠ none → e.readLocals [] = []
  crowned : ∀ c ∈ e.children, c.Every (·.cls? = none)

theorem Legible.child [Regex.Engine] {nested : Prop} {signatures : Signatures} {c : Expr}
    (legible : e.Legible nested signatures) (mem : c ∈ e.children) : c.Legible nested signatures where
  settled := legible.settled.parts c mem
  ahead nest := (legible.ahead nest).parts c mem
  closed _ builds := absurd (legible.crowned c mem).here builds
  crowned := (legible.crowned c mem).parts

/-- The body of a definition may be read where a survey is kept to. -/
theorem Legible.surveyable [Regex.Engine] {S : Survey} {signatures : Signatures}
    (legible : e.Legible S.nested signatures) (patterned : e.Throughout (fun e _ => e.Patterned) l)
    (callable : e.Throughout (fun e l => ∀ x ∈ e.handed l, S.callable x.2.function) l) :
    e.Throughout (Surveyable S signatures) l := by
  have settled : e.Throughout (fun e _ => e.Legible S.nested signatures) l :=
    .of_closed (fun _ _ here _ mem => here.child (mem_children_of_mem_inPlace mem))
      (fun _ _ here _ mem => here.child (mem_children_of_mem_handed mem)) e l legible
  refine ((settled.and patterned).and callable).mono fun e l h => ?_
  obtain ⟨⟨legible, patterned⟩, callable⟩ := h
  refine ⟨legible.settled, patterned, callable, fun nest tag inner same => ?_,
    fun nest tag items c same => legible.closed nest (by rw [same]; exact Option.some_ne_none c)⟩
  have := (legible.ahead nest).here
  rw [same] at this
  cases this

end Expr

/-! ### Grammars -/

namespace Grammar

/-- A grammar in which the spans of nodes nest: nothing is looked ahead for, and no rule and no class
takes arguments. -/
structure Nests (g : Grammar) : Prop where
  params : ∀ d ∈ g.definitions, d.paramList = []
  ahead : ∀ d ∈ g.definitions, d.body.Every (·.looksAhead = false)

variable {g : Grammar} {maxBlocks identity identity' : Nat} {program : Program} {ls : List Layout}

/-- Closures are those of definitions or of what is written in their bodies. -/
theorem Numbers.closure_cases (numbers : g.Numbers program ls) {k : Nat} {c : Closure}
    (known : (g.naming program ls).closure? k = some c) :
    ∃ d r l, (d, r) ∈ g.definitions.zip program.rules ∧
      (c = d.closure l ∨ (k, c) ∈ d.body.closures d.name l) ∧
      ∀ kc ∈ d.body.closures d.name l, (g.naming program ls).closure? kc.1 = some kc.2 := by
  have side {x : (Definition × RuleEntry) × Layout}
      (mem : x ∈ (g.definitions.zip program.rules).zip ls) :
      ∀ kc ∈ x.1.1.body.closures x.1.1.name x.2, (g.naming program ls).closure? kc.1 = some kc.2 :=
    fun kc of => numbers.closure?.2 (List.mem_append_right _ (List.mem_flatMap.2 ⟨x, mem, of⟩))
  rcases List.mem_append.1 (numbers.closure?.1 known) with own | written
  · obtain ⟨x, mem, same⟩ := List.mem_map.1 own
    obtain ⟨rfl, rfl⟩ := Prod.mk.inj same
    exact ⟨x.1.1, x.1.2, x.2, (List.of_mem_zip mem).1, .inl rfl, side mem⟩
  · obtain ⟨x, mem, of⟩ := List.mem_flatMap.1 written
    exact ⟨x.1.1, x.1.2, x.2, (List.of_mem_zip mem).1, .inr of, side mem⟩

/-- The functions of rules have numbers, and stand for closures. -/
theorem Numbers.rule [Regex.Engine] (numbers : g.Numbers program ls) {name : String}
    {params : List String} (known : g.signatures.lookup name = some params) :
    ∃ f, (g.naming program ls).rules.lookup (ruleFunction name) = some f ∧
      ∃ c, (g.naming program ls).closure? f = some c := by
  have length : program.rules.length = g.definitions.length := by
    simpa using congrArg List.length numbers.rules
  let p : Pools := { Pools.initial 0 0 with
    ruleFunctions := ruleNumbers (g.definitions.zip program.rules) }
  obtain ⟨f, found⟩ := knows (p := p) (Nat.le_of_eq length.symm) rfl name params known
  refine ⟨f, found, ?_⟩
  obtain ⟨before, behind, same, -⟩ := List.lookup_eq_some_iff.1 found
  have mem : (ruleFunction name, f) ∈ ruleNumbers (g.definitions.zip program.rules) := by
    change _ ∈ p.ruleFunctions
    rw [same]
    simp
  simp only [ruleNumbers, List.mem_reverse, List.mem_map] at mem
  obtain ⟨⟨d, r⟩, mem, same⟩ := mem
  obtain ⟨-, rfl⟩ := Prod.mk.inj same
  exact (numbers.definition mem).elim fun _ found => ⟨_, found⟩

/-- **The world of a compiled grammar is ready**, and fits the machine. -/
theorem ready_of_compile [Regex.Engine] (analyzed : g.Analyzed)
    (crowned : ∀ d ∈ g.definitions, ∀ c ∈ d.body.children, c.Every (·.cls? = none))
    (compiled : g.compile maxBlocks identity = .ok (program, identity')) :
    ∃ ls, g.Numbers program ls ∧ ∀ (setting : Setting) (memoize : Bool), setting.program = program →
      setting.bytes.size < 2 ^ 63 →
      (setting.world (g.naming program ls) memoize (some false)).Fits setting ∧
      ∀ (before : Heap) (nested : Prop), (nested → g.Nests) →
        setting.library.natives.HandOn → Env.Holds (before.Knows fun _ => False) setting.globals →
        (setting.world (g.naming program ls) memoize (some false)).Ready g.signatures before nested := by
  obtain ⟨ls, numbers, fits⟩ := fits_of_compile compiled
  obtain ⟨-, -, -, sound, -⟩ := numbers_of_compile compiled
  refine ⟨ls, numbers, fun setting memoize same small =>
    ⟨fits setting memoize (some false) same small (by simp), fun before nested nests hands globals =>
      ⟨hands, by simp [Setting.world], globals, fun name params known => ?_, fun k c known => ?_,
        fun k c known => ?_⟩⟩⟩
  · obtain ⟨f, found, c⟩ := numbers.rule known
    refine ⟨f, found, c, fun nest => ?_⟩
    obtain ⟨before, behind, same, -⟩ := List.lookup_eq_some_iff.1 known
    have mem : (name, params) ∈ g.signatures := by rw [same]; simp
    obtain ⟨d, of, ⟨⟩⟩ := List.mem_map.1 mem
    exact (nests nest).params d of
  · obtain ⟨d, r, l, mem, rfl | side, -⟩ := numbers.closure_cases known
    · exact analyzed.closed d (List.of_mem_zip mem).1
    · intro n reads
      rw [Expr.closures_params _ _ side]
      exact Expr.mem_freeLocals.2 reads
  · obtain ⟨d, r, l, mem, which, all⟩ := numbers.closure_cases known
    have of := (List.of_mem_zip mem).1
    let S := (setting.world (g.naming program ls) memoize (some false)).survey before nested
    have legible : d.body.Legible nested g.signatures := by
      refine ⟨analyzed.settled d of, fun nest => (nests nest).ahead d of, fun nest _ => ?_, crowned d of⟩
      refine List.eq_nil_iff_forall_not_mem.2 fun n reads => ?_
      have := analyzed.closed d of n reads
      rw [(nests nest).params d of] at this
      cases this
    have body : d.body.Throughout (Expr.Surveyable S g.signatures) l :=
      legible.surveyable ((written_of_compile compiled mem).patterned sound l)
        (d.body.handed_known l fun kc mem => ⟨kc.2, all kc mem⟩)
    rcases which with rfl | side
    · exact body
    · exact body.closure side

end Grammar

/-! ### Parsers -/

namespace Parser

variable {options : Options} {natives : Host.Natives} {description : String} {p : Parser} {n n' : Nat}

/-- Globals that are made from a moment on are on a heap, and no node among them has a place. -/
def GlobalsOn (globals : Env) (n : Nat) : Prop :=
  ∃ h : Heap, h.next = n ∧ Env.Holds (h.Knows fun _ => False) globals

theorem globalsOf_on {program : Program} {env : Env}
    (h : globalsOf natives program n = .ok (env, n')) : GlobalsOn env n' := by
  refine foldlM_keeps (P := GlobalsOn) (fun x mem env n env' n' on step => ?_)
    ⟨⟨fun _ => .none, n⟩, rfl, .nil⟩ h
  obtain ⟨heap, rfl, on⟩ := on
  obtain ⟨name, f⟩ := x
  obtain ⟨rfl, rfl⟩ := Exec.pure_eq_ok (show (pure ((name, Value.func heap.next f) :: env) : Exec Env)
    (heap.next + 1) = .ok (env', n') from step)
  refine ⟨heap.draw, rfl, .cons name (.func _ ?_) (on.later heap.grows_draw)⟩
  simp only [initialFunctions, List.mem_append, List.mem_map, Prod.mk.injEq] at mem
  rcases mem with (⟨x, -, -, rfl⟩ | ⟨b, -, -, rfl⟩) | ⟨cls, -, -, rfl⟩
  · exact .native _
  · exact .builtin b
  · exact .constructor cls

theorem assign_on (hands : natives.HandOn) {env env' : Env} {a : Host.Assignment}
    (on : GlobalsOn env n) (h : assign natives env a n = .ok (env', n')) : GlobalsOn env' n' := by
  obtain ⟨heap, rfl, on⟩ := on
  simp only [assign, Host.Term.eval] at h
  split at h
  · next v m found =>
      obtain ⟨rfl, rfl⟩ : _ = env' ∧ _ = n' := by simpa using h
      have outside : (⟨natives, Host.compareOp⟩ : Host.Library).natives.HandOn := hands
      obtain ⟨heap', later, rfl, value⟩ := Host.handsOn_evalIn outside on _ _ _ found
      exact ⟨heap', rfl, .cons _ value (on.later later)⟩
  · simp at h

/-- The globals of a parser are on a heap. -/
theorem globals_on [Regex.Engine] (built : build options natives description n = .ok (p, n'))
    (hands : natives.HandOn) : GlobalsOn p.globals n' := by
  obtain ⟨g, program, _, env, _, -, -, start, assigned, -, -⟩ := build_eq_ok built
  exact foldlM_keeps (P := GlobalsOn) (fun a _ s n s' n' on step => assign_on hands on step)
    (globalsOf_on start) assigned

/-- The world of a parse. -/
def world (p : Parser) (naming : Naming) (input : Input) : World :=
  (p.setting input).world naming true (some false)

/-- **The worlds of a parser are ready**, and fit the machine. -/
theorem ready_of_build [Regex.Engine] (built : build options natives description n = .ok (p, n'))
    (hands : natives.HandOn) :
    ∃ g ls before, grammarOf natives description = .ok g ∧ g.Numbers p.program ls ∧
      before.next = n' ∧ ∀ input : Input, input.size < 2 ^ 63 →
        (p.world (g.naming p.program ls) input).Fits (p.setting input) ∧
        ∀ nested : Prop, (nested → g.Nests) →
          (p.world (g.naming p.program ls) input).Ready g.signatures before nested := by
  obtain ⟨before, next, globals⟩ := globals_on built hands
  obtain ⟨g, program, m, env, _, found, compiled, -, -, rfl, rfl⟩ := build_eq_ok built
  obtain ⟨_, -, h⟩ := Except.bind_eq_ok.1 found
  obtain ⟨lowered, lowers, analyzes⟩ := Except.bind_eq_ok.1 h
  have analyzed := Grammar.analyzed_of_analyze (Description.lower_raw lowers) analyzes
  obtain ⟨ls, numbers, worlds⟩ :=
    Grammar.ready_of_compile analyzed (Grammar.crowned_of_analyze lowers analyzes) compiled
  refine ⟨g, ls, before, found, numbers, next, fun input small => ?_⟩
  obtain ⟨fits, ready⟩ := worlds (p.setting input) true rfl small
  exact ⟨fits, fun nested nests => ready before nested nests hands globals⟩

end Parser

end Packrat
