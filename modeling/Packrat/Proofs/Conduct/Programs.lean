import Packrat.Proofs.Conduct.Expressions
import Packrat.Proofs.Safety.Names

/-
**The functions of a program serve.**

Whatever a description is compiled to, each of its functions keeps its promise: those of rules, and
those that were written on the side.  There are two regimes in which to say so.  In the open one any
function may be a parser and any call is accounted for, which is what an invariant of all states of a
parse rests on.  In the closed one there are no parsers, and only calls without arguments are accounted
for, by the memo table; so the others have to come to an end by themselves.

Main definitions:

* `Packrat.Program.permit`, `Packrat.Permit.noParsers` — what values may hold in a parse;
* `Packrat.Regime.open`, `Packrat.Regime.closed` — the two regimes of a parse.

Main results:

* `Packrat.Grammar.Analyzed.serves` — **all functions of a compiled grammar serve**;
* `Packrat.Parser.globals_proper` — the globals of a parser are proper;
* `Packrat.Parser.serves_open`, `Packrat.Parser.serves_closed` — **so do those of a parser, in either
  regime**.
-/

set_option autoImplicit false

namespace Packrat

variable {signatures : Signatures}

/-! ### Definitions -/

/-- The function of a definition serves, and so do those written along with it. -/
theorem Definition.serves [Regex.Engine] {d : Definition} {r : RuleEntry} {p p' : Pools} {u : Unit}
    (h : (d.emit r.function).Adds p u p') (reserved : p.functions[r.function]? = some none)
    (settled : d.body.Every (Expr.Settled signatures)) {setting : Setting} {R : Regime}
    (pools : setting.program.Hosts p') (fits : R.Fits setting signatures p.ruleFunctions) :
    setting.Serves R r.function ∧
      ∀ k, p.functions.size ≤ k → k < p'.functions.size → setting.Serves R k := by
  obtain ⟨_, p₁, h₁, h⟩ := Build.adds_bind.1 h
  obtain rfl := Build.adds_modify.1 h₁
  obtain ⟨draft, p₂, f, w, done, rfl⟩ := Emit.adds_define h
  have conducts := (Expr.emit_conducts settled).within d.body
  have grown := conducts.tame.pools w
  obtain ⟨room, -⟩ := Array.getElem?_eq_some_iff.1 reserved
  obtain ⟨within, known⟩ := pools.unwrite ((grown.written _ room).trans reserved)
  refine ⟨Setting.serves_of_safe known done (conducts.tame.draft w) fun site hs hf => ?_,
    fun k low high => ?_⟩
  · subst hs
    exact conducts.safe _ _ _ _ w site R (hf ▸ (Draft.function_eq_ok done).1) within fits
  · exact (conducts.staffs _ _ _ _ _ w).serves setting R within fits k low (by simpa using high)

/-- The functions of definitions serve, and so do those written along with them. -/
theorem serves_all [Regex.Engine] {ds : Entries} {p p' : Pools} {u : Unit}
    (h : (ds.forM fun x => x.1.emit x.2.function).Adds p u p')
    (distinct : (ds.map (·.2.function)).Nodup)
    (reserved : ∀ x ∈ ds, p.functions[x.2.function]? = some none)
    (settled : ∀ x ∈ ds, x.1.body.Every (Expr.Settled signatures)) {setting : Setting} {R : Regime}
    (pools : setting.program.Hosts p') (fits : R.Fits setting signatures p.ruleFunctions) :
    (∀ x ∈ ds, setting.Serves R x.2.function) ∧
      ∀ k, p.functions.size ≤ k → k < p'.functions.size → setting.Serves R k := by
  induction ds generalizing p with
  | nil =>
      obtain ⟨-, rfl⟩ := Build.adds_pure.1 h
      exact ⟨by simp, fun k low high => absurd high (by omega)⟩
  | cons x ds ih =>
      obtain ⟨d, r⟩ := x
      obtain ⟨_, p₁, h₁, h⟩ := (Build.adds_bind (x := d.emit r.function)).1 h
      rw [List.map_cons, List.nodup_cons] at distinct
      obtain ⟨l, first⟩ := Definition.settles h₁ (reserved _ List.mem_cons_self)
      have open_ : ∀ y ∈ ds, p₁.functions[y.2.function]? = some none := fun y mem => by
        have mem := List.mem_cons_of_mem (d, r) mem
        obtain ⟨room, -⟩ := Array.getElem?_eq_some_iff.1 (reserved y mem)
        rw [first.written _ room, reserved y mem]
        rintro x hx same
        obtain rfl := List.mem_singleton.1 hx
        exact distinct.1 (List.mem_map.2 ⟨y, by assumption, same.symm⟩)
      obtain ⟨ls, -, others⟩ := settles_all h distinct.2 open_
      obtain ⟨own, side⟩ := Definition.serves h₁ (reserved _ List.mem_cons_self)
        (settled _ List.mem_cons_self) (others.hosts _ pools) fits
      obtain ⟨owns, sides⟩ := ih h distinct.2 open_ (fun y mem => settled y (by simp [mem]))
        (by rw [first.rules]; exact fits)
      refine ⟨fun y mem => ?_, fun k low high => ?_⟩
      · rcases List.mem_cons.1 mem with rfl | mem
        · exact own
        · exact owns y mem
      · rcases Nat.lt_or_ge k p₁.functions.size with lt | ge
        · exact side k low lt
        · exact sides k ge high

/-! ### Programs -/

namespace Grammar

variable {g : Grammar} {maxBlocks identity identity' : Nat} {program : Program}

/-- **All functions of a compiled grammar serve**, wherever the calls between them are accounted for. -/
theorem Analyzed.serves [Regex.Engine] (h : g.Analyzed)
    (compiled : g.compile maxBlocks identity = .ok (program, identity')) {setting : Setting}
    {R : Regime} (same : setting.program = program)
    (fits : R.Fits setting g.signatures (ruleNumbers (g.definitions.zip program.rules))) :
    ∀ k < program.functions.size, setting.Serves R k := by
  obtain ⟨p, he, hosts, size, -, -⟩ := compile_eq_ok compiled
  obtain ⟨rules, p₁, h₁, he⟩ := Build.adds_bind.1 he
  obtain ⟨_, p₂, h₂, he⟩ := Build.adds_bind.1 he
  obtain ⟨hr, rfl⟩ := Build.adds_pure.1 he
  subst hr same
  obtain ⟨names, numbers, hp₁, -⟩ := adds_reserveAll h₁
  have length : setting.program.rules.length = g.definitions.length := by
    simpa using congrArg List.length names
  have begun : p₁.functions.size = g.definitions.length := by
    rw [hp₁]
    simp [Pools.initial]
  have reserved : ∀ x ∈ g.definitions.zip setting.program.rules,
      p₁.functions[x.2.function]? = some none := by
    intro x hx
    have mem : x.2.function ∈ List.range' 0 g.definitions.length :=
      numbers ▸ List.mem_map.2 ⟨x, hx, rfl⟩
    have lt : x.2.function < g.definitions.length := by simpa using mem
    rw [hp₁]
    simp [Pools.initial, lt]
  have distinct : ((g.definitions.zip setting.program.rules).map (·.2.function)).Nodup := by
    rw [numbers]
    exact List.nodup_range'
  obtain ⟨own, side⟩ := serves_all h₂ distinct reserved
    (fun x mem => h.settled _ (List.of_mem_zip mem).1) hosts (R := R) (by
      rw [hp₁]
      simpa [Pools.initial] using fits)
  intro k lt
  rcases Nat.lt_or_ge k p₁.functions.size with first | ge
  · have mem : k ∈ (g.definitions.zip setting.program.rules).map (·.2.function) := by
      rw [numbers]
      simpa [Pools.initial, ← begun] using first
    obtain ⟨x, of, rfl⟩ := List.mem_map.1 mem
    exact own x of
  · exact side k ge (size ▸ lt)

/-- Rules have functions that take their parameters. -/
theorem Analyzed.rule_takes [Regex.Engine] (h : g.Analyzed)
    (compiled : g.compile maxBlocks identity = .ok (program, identity')) {name : String}
    {params : List String} {k : Nat} (signature : g.signatures.lookup name = some params)
    (found : (ruleNumbers (g.definitions.zip program.rules)).lookup (ruleFunction name) = some k) :
    program.Takes k params.length := by
  obtain ⟨p, adds, hosts, -⟩ := compile_eq_ok compiled
  have emitted := (Build.gives_of_adds adds).1 (h.emitted maxBlocks identity)
  exact h.takes (emitted.takes program hosts) signature found

end Grammar

/-! ### Globals -/

namespace Parser

variable {may : Permit} {natives : Host.Natives} {program : Program} {n n' : Nat}

theorem initialFunctions_proper {name : String} {f : Callable Value}
    (mem : (name, f) ∈ initialFunctions natives program) : Callable.Proper may f := by
  simp only [initialFunctions, List.mem_append, List.mem_map, Prod.mk.injEq] at mem
  rcases mem with (⟨x, -, -, rfl⟩ | ⟨b, -, -, rfl⟩) | ⟨cls, -, -, rfl⟩
  · exact .native _
  · exact .builtin b
  · exact .constructor cls

/-- A fold in the monad of failures keeps what each of its steps keeps. -/
theorem foldlM_keeps {α σ : Type} {P : σ → Nat → Prop}
    {f : σ → α → StateT Nat (Except Failure) σ} :
    ∀ {as : List α} {s s' : σ} {n n' : Nat}, (∀ a ∈ as, ∀ s n s' n', P s n → f s a n = .ok (s', n') →
      P s' n') → P s n → as.foldlM f s n = .ok (s', n') → P s' n'
  | [], _, _, _, _, _, hs, h => by
      obtain ⟨rfl, rfl⟩ := Exec.pure_eq_ok h
      exact hs
  | a :: as, s, s', n, n', keeps, hs, h => by
      rw [List.foldlM_cons] at h
      obtain ⟨⟨s₁, n₁⟩, first, rest⟩ := Except.bind_eq_ok.1 h
      exact foldlM_keeps (fun b mem => keeps b (List.mem_cons_of_mem _ mem))
        (keeps a List.mem_cons_self s n s₁ n₁ hs first) rest

theorem globalsOf_proper {env : Env} (h : globalsOf natives program n = .ok (env, n')) :
    Env.Proper may env := by
  refine foldlM_keeps (P := fun env _ => Env.Proper may env) (fun x mem env n env' n' proper step => ?_)
    .nil h
  obtain ⟨name, f⟩ := x
  obtain ⟨rfl, -⟩ := Exec.pure_eq_ok
    (show (pure ((name, Value.func n f) :: env) : Exec Env) (n + 1) = .ok (env', n') from step)
  exact .cons name (.func n (initialFunctions_proper mem)) proper

theorem assign_proper (proper : natives.Proper may) {env env' : Env} {a : Host.Assignment}
    (globals : Env.Proper may env) (h : assign natives env a n = .ok (env', n')) :
    Env.Proper may env' := by
  simp only [assign, Host.Term.eval] at h
  split at h
  · next v m found =>
      obtain ⟨rfl, -⟩ : _ = env' ∧ _ = n' := by simpa using h
      have outside : (⟨natives, Host.compareOp⟩ : Host.Library).natives.Proper may := proper
      exact .cons _ (Host.Library.proper_evalIn outside globals _ found) globals
  · simp at h

/-- The globals of a parser are proper if the functions registered from outside make proper values. -/
theorem globals_proper [Regex.Engine] {options : Options} {description : String} {p : Parser}
    (built : build options natives description n = .ok (p, n')) (proper : natives.Proper may) :
    Env.Proper may p.globals := by
  obtain ⟨g, program, _, env, _, -, -, start, assigned, -, -⟩ := build_eq_ok built
  exact foldlM_keeps (P := fun env _ => Env.Proper may env)
    (fun a _ s n s' n' globals step => assign_proper proper globals step) (globalsOf_proper start) assigned

end Parser

/-! ### The regimes of a parse -/

/-- Values without marks of failures, and without parsers but functions of a program. -/
def Program.permit (program : Program) : Permit where
  parsers k := k < program.functions.size
  marks := False

/-- Values without parsers. -/
def Permit.noParsers : Permit where
  parsers _ := False
  marks := True

/-- Any function of a program may be a parser, and any call is accounted for. -/
def Regime.open (program : Program) : Regime where
  may := program.permit
  calls _ args := Value.AllProper program.permit args

/-- There are no parsers, and calls without arguments are accounted for. -/
def Regime.closed : Regime where
  may := .noParsers
  calls _ args := args = []

namespace Parser

variable {options : Options} {natives : Host.Natives} {description : String} {n n' : Nat}
variable {p : Parser} {input : Input}

/-- What compiling a description comes to. -/
theorem compiled_of_build [Regex.Engine]
    (built : build options natives description n = .ok (p, n')) : p.natives = natives ∧ ∃ g :
    Grammar, g.Analyzed ∧
      ∃ m, g.compile options.maxBlocks n = .ok (p.program, m) := by
  obtain ⟨g, program, m, env, _, found, compiled, -, -, rfl, rfl⟩ := build_eq_ok built
  obtain ⟨lowered, raw, analyzed⟩ := analyze_of_grammarOf found
  exact ⟨rfl, g, Grammar.analyzed_of_analyze raw analyzed, m, compiled⟩

/-- Where calls are accounted for, the functions of a parser serve. -/
theorem serves_open [Regex.Engine] (built : build options natives description n = .ok (p, n'))
    (proper : natives.Proper p.program.permit) (small : input.size < 2 ^ 63) :
    ∀ k < p.program.functions.size,
      (p.setting input).Serves (.open p.program) k := by
  obtain ⟨rfl, g, analyzed, m, compiled⟩ := compiled_of_build built
  refine analyzed.serves compiled rfl ⟨proper, globals_proper built proper, small,
    fun name params k signature found => ?_, fun k lt => ⟨lt, fun _ h => h⟩,
    fun _ _ _ _ k lt => lt⟩
  obtain ⟨f, known, -⟩ := analyzed.rule_takes compiled signature found
  exact ⟨(Array.getElem?_eq_some_iff.1 known).1, fun _ h _ => h⟩

/-- Rules without parameters have signatures without. -/
theorem signature_eq_nil [Regex.Engine] {g : Grammar} {program : Program} {maxBlocks m m' : Nat}
    (analyzed : g.Analyzed) (compiled : g.compile maxBlocks m = .ok (program, m'))
    (bare : ∀ r ∈ program.rules, r.params.getD [] = []) {name : String} {params : List String}
    (signature : g.signatures.lookup name = some params) : params = [] := by
  obtain ⟨pools, adds, -, -⟩ := Grammar.compile_eq_ok compiled
  have emitted := (Build.gives_of_adds adds).1 (analyzed.emitted maxBlocks m)
  obtain ⟨before, behind, same, -⟩ := List.lookup_eq_some_iff.1 signature
  have mem : (name, params) ∈ g.signatures := by rw [same]; simp
  obtain ⟨d, of, ⟨⟩⟩ := List.mem_map.1 mem
  rw [← List.map_fst_zip (Nat.le_of_eq emitted.length.symm)] at of
  obtain ⟨x, inside, rfl⟩ := List.mem_map.1 of
  rw [Definition.paramList, ← emitted.params x inside]
  exact bare _ (List.of_mem_zip inside).2

/-- Where no rule takes parameters, the functions of a parser serve without parsers. -/
theorem serves_closed [Regex.Engine] (built : build options natives description n = .ok (p, n'))
    (proper : natives.Proper .noParsers)
    (bare : ∀ r ∈ p.program.rules, r.params.getD [] = []) (small : input.size < 2 ^ 63) :
    ∀ k < p.program.functions.size, (p.setting input).Serves .closed k := by
  obtain ⟨rfl, g, analyzed, m, compiled⟩ := compiled_of_build built
  refine analyzed.serves compiled rfl ⟨proper, globals_proper built proper, small,
    fun name params k signature found => ?_, fun _ => False.elim, fun name params signature some => ?_⟩
  · obtain ⟨f, known, -⟩ := analyzed.rule_takes compiled signature found
    refine ⟨(Array.getElem?_eq_some_iff.1 known).1, fun args _ len => ?_⟩
    rw [signature_eq_nil analyzed compiled bare signature] at len
    exact List.length_eq_zero_iff.1 len
  · exact absurd (signature_eq_nil analyzed compiled bare signature) some

end Parser

end Packrat
