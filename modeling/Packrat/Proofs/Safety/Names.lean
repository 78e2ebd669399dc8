import Packrat.Parser.Parse
import Packrat.Proofs.Emission.Snippets
import Packrat.Proofs.Evaluation.Coincidence
import Packrat.Proofs.Evaluation.Names
import Packrat.Proofs.Safety.Compilation

/-
**Names of host code.**

A parser has a global for every name that analysis takes for known: those of registered functions, of
builtins, of classes and of the assignments in host sections.  Any other name of a piece of host code
is a local that it captures.  So wherever a piece of host code is evaluated, the names written in it
are bound, and those written in its functions are when these are called.

What is called may have been written elsewhere: in a host section, where functions see only the names
assigned before them, or outside.  Such a function may still miss a name.

Main definitions:

* `Packrat.Host.Term.Resolves` — a term of which no part misses a name.

Main results:

* `Packrat.Parser.globals_bind` — the globals of a parser;
* `Packrat.Parser.snippets_resolve` — **host code of a parser misses no names**.
-/

set_option autoImplicit false

namespace Packrat

/-! ### Host code and classes of programs -/

/-- What a compilation takes from the pools. -/
theorem Grammar.adds_of_compile [Regex.Engine] {g : Grammar} {maxBlocks identity identity' : Nat}
    {program : Program} (h : g.compile maxBlocks identity = .ok (program, identity')) :
    ∃ p, g.emit.Adds (.initial maxBlocks identity) program.rules p ∧ program.hosts = p.hosts ∧
      program.classes = p.classes ∧ program.sections = g.sections := by
  rw [compile_eq] at h
  cases found : g.emit (.initial maxBlocks identity) with
  | error e => simp [found] at h
  | ok r =>
      rw [found] at h
      dsimp only at h
      split at h
      · cases h
      · obtain ⟨rfl, -⟩ := Prod.mk.inj (Except.ok.inj h)
        exact ⟨r.2, found, rfl, rfl, rfl⟩

/-- Reserving the function of a definition asks for the class that it is, if it is one. -/
theorem Definition.reserve_cls {d : Definition} {p p' : Pools} {r : RuleEntry}
    (h : d.reserve.Adds p r p') :
    match d.fields with
    | none => p'.classes = p.classes
    | some fields => ∃ q n, q.classes = p.classes ∧ (Build.cls ⟨d.name, fields⟩).Adds q n p' := by
  obtain ⟨f, p₁, h₁, h⟩ := Build.adds_bind.1 h
  obtain ⟨rfl, rfl⟩ := Build.adds_reserve.1 h₁
  obtain ⟨_, p₂, h₂, h⟩ := Build.adds_bind.1 h
  obtain rfl := Build.adds_modify.1 h₂
  dsimp only at h
  cases fields : d.fields with
  | none =>
      rw [fields] at h
      obtain ⟨-, rfl⟩ := Build.adds_pure.1 h
      rfl
  | some names =>
      rw [fields] at h
      obtain ⟨_, p₃, h₃, h⟩ := Build.adds_bind.1 h
      obtain ⟨-, rfl⟩ := Build.adds_pure.1 h
      change (Build.cls ⟨d.name, names⟩ >>= fun _ => pure ()).Adds _ _ _ at h₃
      obtain ⟨n, p₄, h₄, h₅⟩ := Build.adds_bind.1 h₃
      obtain ⟨-, rfl⟩ := Build.adds_pure.1 h₅
      refine ⟨_, n, ?_, h₄⟩
      rfl

/-- Reserving the function of a definition adds the class if it is one. -/
theorem Definition.reserve_classes [Regex.Engine] {d : Definition} {p p' : Pools} {r : RuleEntry}
    (h : d.reserve.Adds p r p') : Extends p.classes p'.classes ∧
      (d.isClass → ∃ c ∈ p'.classes, c.name = d.name) := by
  have asks := Definition.reserve_cls h
  cases fields : d.fields with
  | none =>
      rw [fields] at asks
      exact ⟨asks ▸ .refl _, fun isClass => by simp [Definition.isClass, fields] at isClass⟩
  | some names =>
      rw [fields] at asks
      obtain ⟨q, n, same, asks⟩ := asks
      obtain ⟨grown, known, -, found⟩ := Build.adds_cls asks
      have mem := Array.mem_toList_iff.1 (List.mem_of_find?_eq_some found)
      refine ⟨same ▸ grown.classes, fun _ => ⟨known, mem, ?_⟩⟩
      simpa using List.find?_some found

theorem Extends.mem {α : Type} {xs ys : Array α} (h : Extends xs ys) {x : α} (mem : x ∈ xs) :
    x ∈ ys := by
  obtain ⟨i, at_⟩ := Array.getElem?_of_mem mem
  exact Array.mem_of_getElem? (h i x at_)

theorem reserveAll_classes [Regex.Engine] {ds : List Definition} {p p' : Pools}
    {rs : List RuleEntry} (h : (ds.mapM Definition.reserve).Adds p rs p') :
    Extends p.classes p'.classes ∧
      ∀ d ∈ ds, d.isClass → ∃ c ∈ p'.classes, c.name = d.name := by
  induction ds generalizing p rs with
  | nil =>
      obtain ⟨-, rfl⟩ := Build.adds_pure.1 h
      exact ⟨.refl _, by simp⟩
  | cons d ds ih =>
      obtain ⟨r, p₁, rs, h₁, h₂, -⟩ := Build.adds_mapM_cons.1 h
      obtain ⟨grown₁, own⟩ := Definition.reserve_classes h₁
      obtain ⟨grown₂, others⟩ := ih h₂
      refine ⟨grown₁.trans grown₂, fun x mem isClass => ?_⟩
      rcases List.mem_cons.1 mem with rfl | mem
      · obtain ⟨c, mem, same⟩ := own isClass
        exact ⟨c, grown₂.mem mem, same⟩
      · exact others x mem isClass

/-- Writing the functions of definitions adds host code and classes of these, and loses no class. -/
theorem emitAll_retains [Regex.Engine] {S : Stock} {ds : Entries} {p p' : Pools} {u : PUnit}
    (hosted : ∀ x ∈ ds, x.1.body.Hosted S)
    (h : (ds.forM fun (d, rule) => d.emit rule.function : Build PUnit).Adds p u p') :
    Extends p.classes p'.classes ∧ (p.Holds S → p'.Holds S) := by
  induction ds generalizing p with
  | nil =>
      obtain ⟨-, rfl⟩ := Build.adds_pure.1 h
      exact ⟨.refl _, fun holds => holds⟩
  | cons x ds ih =>
      obtain ⟨_, p₁, h₁, h⟩ := Build.adds_bind.1 h
      obtain ⟨grown, kept⟩ := ih (fun x mem => hosted x (List.mem_cons_of_mem _ mem)) h
      refine ⟨.trans ?_ grown, fun holds => kept
        (Definition.emit_retains (hosted x List.mem_cons_self) _ h₁ holds)⟩
      obtain ⟨_, p₂, h₂, h₃⟩ := Build.adds_bind.1 h₁
      obtain rfl := Build.adds_modify.1 h₂
      obtain ⟨draft, p₃, function, w, -, rfl⟩ := Emit.adds_define h₃
      exact ((Emit.Tame.within x.1.body x.1.body.emit_tame).pools w).classes

/-- A program is written in two rounds: all functions are reserved before the first is written. -/
theorem Grammar.rounds_of_compile [Regex.Engine] {g : Grammar} {maxBlocks identity identity' : Nat}
    {program : Program} (h : g.compile maxBlocks identity = .ok (program, identity')) :
    ∃ p₁ p₂ u, (g.definitions.mapM Definition.reserve).Adds (.initial maxBlocks identity)
        program.rules p₁ ∧
      ((g.definitions.zip program.rules).forM fun (d, rule) => d.emit rule.function :
        Build PUnit).Adds p₁ u p₂ ∧ program.hosts = p₂.hosts ∧ program.classes = p₂.classes := by
  obtain ⟨p, w, hosts, classes, -⟩ := adds_of_compile h
  obtain ⟨rs, p₁, h₁, w⟩ := Build.adds_bind.1 w
  obtain ⟨u, p₂, h₂, w⟩ := Build.adds_bind.1 w
  obtain ⟨rfl, rfl⟩ := Build.adds_pure.1 w
  exact ⟨p₁, p, u, h₁, h₂, hosts, classes⟩

/-- The host code of a program is that of its grammar, and it has the classes of its grammar. -/
theorem Grammar.hosts_of_compile [Regex.Engine] {S : Snippet → Prop} {g : Grammar}
    {maxBlocks identity identity' : Nat} {program : Program}
    (h : g.compile maxBlocks identity = .ok (program, identity'))
    (hosted : ∀ d ∈ g.definitions, d.body.Every fun e => ∀ s ∈ e.snippets, S s) :
    (∀ s ∈ program.hosts, S s) ∧
      ∀ d ∈ g.definitions, d.isClass → ∃ c ∈ program.classes, c.name = d.name := by
  obtain ⟨p₁, p₂, u, h₁, h₂, hosts, classes⟩ := rounds_of_compile h
  obtain ⟨-, reserved⟩ := reserveAll_classes h₁
  obtain ⟨grown, kept⟩ := emitAll_retains (S := ⟨S, fun _ => True⟩) (fun x mem =>
    (hosted x.1 (List.of_mem_zip mem).1).mono fun e own => ⟨own, fun _ _ _ _ _ => trivial⟩) h₂
  rw [hosts, classes]
  refine ⟨(kept ⟨?_, trivial⟩).hosts, fun d mem isClass => ?_⟩
  · obtain ⟨-, -, start, -⟩ := adds_reserveAll h₁
    rw [start]
    intro s mem
    simp [Pools.initial] at mem
  · obtain ⟨c, mem, same⟩ := reserved d mem isClass
    exact ⟨c, grown.mem mem, same⟩

/-! ### Globals -/

theorem Env.Binds.cons {env : Env} {names : List String} (h : env.Binds names) (name : String)
    (v : Value) : Env.Binds ((name, v) :: env) names := by
  intro x mem
  simp only [List.lookup_cons]
  split
  · rfl
  · exact h x mem

theorem Env.binds_append {env : Env} {names names' : List String} :
    env.Binds (names ++ names') ↔ env.Binds names ∧ env.Binds names' :=
  ⟨fun h => ⟨h.left, h.right⟩, fun h x mem => (List.mem_append.1 mem).elim (h.1 x) (h.2 x)⟩

/-- Names that are bound one after the other. -/
theorem binds_of_foldlM {γ : Type} {step : Env → γ → StateT Nat (Except Failure) Env}
    {name : γ → String} (each : ∀ env x n env' n', step env x n = .ok (env', n') →
      ∃ v, env' = (name x, v) :: env) {xs : List γ} {env env' : Env} {n n' : Nat}
    (h : xs.foldlM step env n = .ok (env', n')) :
    env'.Binds (xs.map name) ∧ ∀ names, env.Binds names → env'.Binds names := by
  induction xs generalizing env n with
  | nil =>
      obtain ⟨rfl, -⟩ := Prod.mk.inj (Except.ok.inj h)
      exact ⟨by simp [Env.Binds], fun _ h => h⟩
  | cons x xs ih =>
      rw [List.foldlM_cons] at h
      obtain ⟨⟨mid, m⟩, first, rest⟩ := Except.bind_eq_ok.1 h
      obtain ⟨v, rfl⟩ := each _ _ _ _ _ first
      obtain ⟨own, kept⟩ := ih rest
      refine ⟨?_, fun names h => kept names (h.cons _ _)⟩
      rw [List.map_cons, ← List.singleton_append, Env.binds_append]
      exact ⟨kept _ (by simp [Env.Binds]), own⟩

namespace Parser

theorem globalsOf_binds {natives : Host.Natives} {program : Program} {env : Env} {n n' : Nat}
    (h : globalsOf natives program n = .ok (env, n')) :
    env.Binds ((initialFunctions natives program).map (·.1)) := by
  refine (binds_of_foldlM (fun env x n env' n' h => ?_) h).1
  change (Value.newFunc x.2 n >>= fun r => Except.ok ((x.1, r.1) :: env, r.2)) = _ at h
  obtain ⟨⟨func, m⟩, -, h⟩ := Except.bind_eq_ok.1 h
  obtain ⟨rfl, -⟩ := Prod.mk.inj (Except.ok.inj h)
  exact ⟨func, rfl⟩

theorem assign_eq {natives : Host.Natives} {env env' : Env} {a : Host.Assignment} {n n' : Nat}
    (h : assign natives env a n = .ok (env', n')) : ∃ v, env' = (a.name, v) :: env := by
  simp only [assign] at h
  split at h
  · obtain ⟨rfl, -⟩ := Prod.mk.inj (Except.ok.inj h)
    exact ⟨_, rfl⟩
  · cases h

/-- What building a parser goes through. -/
theorem build_eq_ok [Regex.Engine] {options : Options} {natives : Host.Natives}
    {description : String} {identity identity' : Nat} {parser : Parser}
    (h : build options natives description identity = .ok (parser, identity')) :
    ∃ g program n env m, grammarOf natives description = .ok g ∧
      g.compile options.maxBlocks identity = .ok (program, n) ∧
      globalsOf natives program n = .ok (env, m) ∧
      (program.sections.flatMap (·.assignments)).foldlM (assign natives) env m =
        .ok (parser.globals, identity') ∧
      parser.program = program ∧ parser.natives = natives := by
  rw [build] at h
  cases checked : options.check with
  | error e =>
      rw [checked] at h
      cases h
  | ok _ =>
    rw [checked] at h
    dsimp only at h
    obtain ⟨⟨g, n₁⟩, analyzed, h⟩ := Except.bind_eq_ok.1 h
    obtain ⟨g', found, same⟩ := Except.bind_eq_ok.1 analyzed
    obtain ⟨rfl, rfl⟩ := Prod.mk.inj (Except.ok.inj same)
    obtain ⟨⟨program, n₂⟩, compiled, h⟩ := Except.bind_eq_ok.1 h
    obtain ⟨⟨env, n₃⟩, start, h⟩ := Except.bind_eq_ok.1 h
    obtain ⟨⟨globals, n₄⟩, assigned, h⟩ := Except.bind_eq_ok.1 h
    obtain ⟨rfl, rfl⟩ := Prod.mk.inj (Except.ok.inj h)
    exact ⟨g', program, n₂, env, n₃, found, compiled, start, assigned, rfl, rfl⟩

/-- The analysis that a grammar has come through. -/
theorem analyze_of_grammarOf {natives : Host.Natives} {description : String} {g : Grammar}
    (h : grammarOf natives description = .ok g) :
    ∃ lowered : Grammar, (∀ d ∈ lowered.definitions, d.Raw) ∧
      lowered.analyze (natives.map (·.1)) = .ok g := by
  obtain ⟨d, -, h⟩ := Except.bind_eq_ok.1 h
  obtain ⟨lowered, raw, h⟩ := Except.bind_eq_ok.1 h
  exact ⟨lowered, Description.lower_raw raw, h⟩

theorem mem_initialFunctions {natives : Host.Natives} {program : Program} {x : String} :
    x ∈ (initialFunctions natives program).map (·.1) ↔
      x ∈ natives.map (·.1) ∨ x ∈ Builtin.all.map (·.name) ∨
        (∃ c ∈ program.classes, c.name = x) ∨
        x ∈ [NodeClass.infixOp.name, NodeClass.prefixOp.name, NodeClass.postfixOp.name] := by
  simp [initialFunctions, eq_comm]

/-- The globals of a parser: every name that is known to analysis stands for something, and host code
has captured all others. -/
theorem globals_bind [Regex.Engine] {options : Options} {natives : Host.Natives}
    {description : String} {identity identity' : Nat} {parser : Parser}
    (built : build options natives description identity = .ok (parser, identity')) :
    ∃ names, parser.globals.Binds names ∧ ∀ s ∈ parser.program.hosts, s.Named names := by
  obtain ⟨g, program, n, env, m, found, compiled, start, assigned, rfl, -⟩ := build_eq_ok built
  obtain ⟨lowered, raw, analyzed⟩ := analyze_of_grammarOf found
  have history := Grammar.history_of_analyze raw analyzed
  obtain ⟨named, classes⟩ := Grammar.hosts_of_compile compiled
    (Grammar.named_of_analyze raw analyzed)
  refine ⟨_, ?_, named⟩
  obtain ⟨sections, kept⟩ :=
    binds_of_foldlM (fun _ _ _ _ _ h => assign_eq h) assigned
  have functions := kept _ (globalsOf_binds start)
  obtain ⟨_, -, -, -, same⟩ := Grammar.adds_of_compile compiled
  rw [same, history.sections] at sections
  rw [Grammar.known]
  simp only [Env.binds_append]
  refine ⟨⟨⟨⟨?_, ?_⟩, ?_⟩, sections⟩, ?_⟩
  · exact fun x mem => functions x (mem_initialFunctions.2 (.inl mem))
  · exact fun x mem => functions x (mem_initialFunctions.2 (.inr (.inr (.inr mem))))
  · intro x mem
    obtain ⟨d, inside, rfl⟩ := List.mem_map.1 mem
    obtain ⟨written, isClass⟩ := List.mem_filter.1 inside
    have kind : (d.isClass, d.name) ∈ g.definitions.map fun d => (d.isClass, d.name) :=
      history.same (fun d => (d.isClass, d.name)) (fun _ _ => rfl) ▸
        List.mem_map.2 ⟨d, written, rfl⟩
    obtain ⟨e, analyzed, kind⟩ := List.mem_map.1 kind
    obtain ⟨kind, name⟩ := Prod.mk.inj kind
    obtain ⟨c, reserved, found⟩ := classes e analyzed (kind.trans isClass)
    exact functions _ (mem_initialFunctions.2 (.inr (.inr (.inl ⟨c, reserved, found.trans name⟩))))
  · exact fun x mem => functions x (mem_initialFunctions.2 (.inr (.inl mem)))

end Parser

/-! ### Evaluation -/

/-- A term in an environment where no part of it misses a name, nor do the functions written in it:
what they read is bound, and they fail for want of a name only where a function fails so that they
call and that was written elsewhere. -/
structure Host.Term.Resolves (lib : Host.Library) (t : Host.Term) (env : Env) : Prop where
  bound : ∀ u scope, t.Within env u scope → scope.Binds u.freeNames
  closed : ∀ params body scope, t.Within env (.lambda params body) scope →
    Callable.closed (.lambda params body scope)
  blames : ∀ u scope, t.Within env u scope → ∀ reword depth,
    Host.Blames reword (u.evalWith lib.compare (Host.apply lib depth) scope)
      (u.evalWith lib.compare (Host.applyBlaming lib reword depth) scope)

theorem Host.Term.resolves {lib : Host.Library}
    (comparisons : ∀ op a b, Host.Resolved (lib.compare op a b)) {t : Host.Term} {env : Env}
    (h : env.Binds (t.readNames [])) : t.Resolves lib env where
  bound _ _ within _ mem := within.binds h _ (Host.Term.mem_freeNames.1 mem)
  closed params body scope within := by
    have binds := within.binds h
    rw [Host.Term.readNames, List.append_nil] at binds
    exact Callable.closed_lambda.2 binds
  blames _ _ within reword depth :=
    Host.Rewords.evalWith ⟨comparisons, Host.apply_blames comparisons reword depth⟩ _
      (within.binds h)

/-- The names of host code are bound where it is evaluated: the captured ones before the others. -/
theorem Setting.scope_binds {setting : Setting} {names : List String} {s : Snippet}
    (globals : setting.globals.Binds names) (named : s.Named names) {values : List Value}
    (length : values.length = s.locals.length) :
    (setting.scope s.locals values).Binds (s.term.readNames []) :=
  .bindAll length fun x mem free =>
    globals x ((named x (Host.Term.mem_freeNames.2 mem)).resolve_left free)

theorem Frame.length_slotList {frame : Frame} {vs : List Nat} {xs : List Value}
    (h : frame.slotList vs = .ok xs) : xs.length = vs.length := by
  induction vs generalizing xs with
  | nil =>
      obtain rfl := Except.ok.inj h
      rfl
  | cons v vs ih =>
      obtain ⟨x, -, h⟩ := Except.bind_eq_ok.1 h
      obtain ⟨rest, found, h⟩ := Except.bind_eq_ok.1 h
      obtain rfl := Except.pure_eq_ok.1 h
      simp [ih found]

/-- The host code that an instruction evaluates is there, and captures as many locals as it is
given. -/
theorem Program.WellFormed.eval {setting : Setting} (h : setting.program.WellFormed) {frame : Frame}
    {host : Nat} {captures : List Nat}
    (fetched : Machine.fetch setting frame = .ok (.eval host captures)) :
    ∃ s, setting.program.hosts[host]? = some s ∧ s.locals.length = captures.length := by
  obtain ⟨f, found, fetched⟩ := Except.bind_eq_ok.1 fetched
  rw [poolEntry] at found
  split at found
  · next there =>
      obtain rfl := Except.ok.inj found
      split at fetched
      · next at_ =>
          obtain rfl := Except.pure_eq_ok.1 fetched
          exact ((h.functions _ (Array.mem_of_getElem? there)).code _
            (Array.mem_of_getElem? at_)).refers
      · cases fetched
  · cases found

namespace Parser

theorem build_wellFormed [Regex.Engine] {options : Options} {natives : Host.Natives}
    {description : String} {identity identity' : Nat} {parser : Parser}
    (built : build options natives description identity = .ok (parser, identity')) :
    parser.program.WellFormed := by
  obtain ⟨g, program, n, env, m, found, compiled, -, -, rfl, -⟩ := build_eq_ok built
  have sound := (analyzed_of_grammarOf found).compiles options.maxBlocks identity
  rw [compiled] at sound
  exact sound.1

/-- **Host code of a parser misses no names.** Whenever a function of the parser is at a piece of
host code, all names written in that are bound, those in its functions included; evaluating it, and
calling these functions later, fails for want of a name only where a function fails so that was
written elsewhere. For what host code comes to, only the names that it reads matter. -/
theorem snippets_resolve [Regex.Engine] {options : Options} {natives : Host.Natives}
    {description : String} {identity identity' : Nat} {parser : Parser}
    (built : build options natives description identity = .ok (parser, identity')) :
    (∀ (input : Input) (frame : Frame) (host : Nat) (captures : List Nat),
      Machine.fetch (parser.setting input) frame = .ok (.eval host captures) →
        ∃ s, parser.program.hosts[host]? = some s ∧
          ∀ values, frame.slotList captures = .ok values →
            s.term.Resolves (parser.setting input).library
              ((parser.setting input).scope s.locals values)) ∧
    (natives.Outward → ∀ (t : Host.Term) (env env' : Env),
      (∀ x ∈ t.freeNames,
        Likeness.AlikeOption .outward (env.lookup x) (env'.lookup x)) →
      Likeness.AgreeOn .outward (Likeness.Alike .outward)
        (t.evalIn ⟨natives, Host.compareOp⟩ env) (t.evalIn ⟨natives, Host.compareOp⟩ env')) := by
  refine ⟨fun input frame host captures fetched => ?_, fun outside t env env' => ?_⟩
  · obtain ⟨names, globals, named⟩ := globals_bind built
    have sound : (parser.setting input).program.WellFormed := build_wellFormed built
    obtain ⟨s, there, length⟩ := sound.eval fetched
    refine ⟨s, there, fun values read => Host.Term.resolves Host.resolved_compareOp ?_⟩
    exact Setting.scope_binds globals (named s (Array.mem_of_getElem? there))
      ((Frame.length_slotList read).trans length.symm)
  · exact Host.Term.evalIn_agree outside

theorem capture_fetched : (match build {} [] "start = let x = \"a\" in `lambda y: x + y`" 0 with
    | .ok (parser, _) =>
      match Machine.fetch (parser.setting (.text "a")) ⟨0, 3, true, .none, 1, #[.str "a"], none⟩ with
      | .ok (.eval 0 [0]) => true
      | _ => false
    | .error _ => false) = true := by decide +kernel

/-- The captured text of a function that adds to it, whatever else there is. -/
theorem snippets_resolve_capture : ∃ parser identity,
    build {} [] "start = let x = \"a\" in `lambda y: x + y`" 0 = .ok (parser, identity) ∧
      (∃ s, parser.program.hosts[0]? = some s ∧
        s.term.Resolves (parser.setting (.text "a")).library
          ((parser.setting (.text "a")).scope s.locals [.str "a"])) ∧
      Likeness.AgreeOn .outward (Likeness.Alike .outward)
        ((Host.Term.name "x").evalIn ⟨[], Host.compareOp⟩ [("y", .none), ("x", .str "a")])
        ((Host.Term.name "x").evalIn ⟨[], Host.compareOp⟩ [("x", .str "a")]) := by
  have fetched := capture_fetched
  split at fetched
  · next parser identity built =>
      split at fetched
      · next at_ =>
          have resolve := snippets_resolve built
          obtain ⟨s, there, resolves⟩ := resolve.1 _ _ _ _ at_
          refine ⟨parser, identity, built, ⟨s, there, resolves _ rfl⟩, resolve.2 ?_ _ _ _ ?_⟩
          · intro name run found
            cases found
          · intro x mem
            obtain rfl : x = "x" := by
              simpa [Host.Term.readNames] using Host.Term.mem_freeNames.1 mem
            exact .some (.str "a")
      · cases fetched
  · cases fetched

theorem late_fails : (match build {} [] "```\nf = lambda: y\ny = 1\n```\nstart = `f() + y`" 0 with
    | .ok (parser, identity) =>
      match parser.program.hosts.toList with
      | [s] => s.term.freeNames.contains "y" && match parser.defaultRule with
        | .ok rule => match parser.parse rule (.text "") 0 true identity with
          | .error (.host (.unbound name)) => name == "y"
          | _ => false
        | .error _ => false
      | _ => false
    | .error _ => false) = true := by decide +kernel

/-- A function of a host section was written before a name in it was assigned: it misses this name,
also where the host code that calls it has it. -/
theorem snippet_fails_late : ∃ parser identity s rule,
    build {} [] "```\nf = lambda: y\ny = 1\n```\nstart = `f() + y`" 0 = .ok (parser, identity) ∧
      parser.program.hosts = #[s] ∧ "y" ∈ s.term.freeNames ∧ parser.defaultRule = .ok rule ∧
      parser.parse rule (.text "") 0 true identity = .error (.host (.unbound "y")) := by
  have fails := late_fails
  split at fails
  · next parser identity built =>
      split at fails
      · next s hosts =>
          obtain ⟨written, fails⟩ := Bool.and_eq_true_iff.1 fails
          split at fails
          · next rule found =>
              split at fails
              · next name failed =>
                  obtain rfl := eq_of_beq fails
                  exact ⟨parser, identity, s, rule, built, Array.toList_inj.1 hosts,
                    List.contains_iff_mem.1 written, found, failed⟩
              · cases fails
          · cases fails
      · cases fails
  · cases fails

end Parser

end Packrat
