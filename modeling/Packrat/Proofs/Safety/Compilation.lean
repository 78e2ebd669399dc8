import Packrat.Proofs.Emission.Progress
import Packrat.Proofs.Simulation.Programs
import Packrat.Regex.Search

/-
**Compiled programs are well-formed.**

The functions of all definitions are reserved before the first of them is written, so that rules may
call each other.  Writing them one after the other leaves none unwritten, and what calls of rules have
been told about the parameters of functions turns out to be so.

Main definitions:

* `Packrat.Completes` — what has been done when the functions of definitions are written;
* `Packrat.Grammar.Emitted` — the same of a whole grammar;
* `Packrat.Grammar.Implements` — a program has a function for every definition, with the code of its
  body;
* `Packrat.Grammar.Rejected` — the failure of a pattern that stands in a grammar.

Main results:

* `Packrat.Grammar.Analyzed.compiles` — an analyzed grammar is compiled to a well-formed program that
  implements it;
* `Packrat.Parser.compile_wellFormed` — **a description that can be read and analyzed is compiled to
  such a program, unless a pattern in it has no automaton**.
-/

set_option autoImplicit false

namespace Packrat

variable {stops : Failure → Prop} {rules : Signatures}

/-! ### Reserving -/

theorem Build.adds_cls_any (c : NodeClass) (p : Pools) : ∃ n p', (Build.cls c).Adds p n p' := by
  simp only [Build.cls, Build.pooled, Build.adds_get_bind]
  split
  · exact ⟨_, _, Build.adds_pure.2 ⟨rfl, rfl⟩⟩
  · exact ⟨_, _, Build.adds_set_bind.2 (Build.adds_pure.2 ⟨rfl, rfl⟩)⟩

/-- Functions of definitions can be reserved. -/
theorem Definition.reserve_adds (d : Definition) (p : Pools) : ∃ r p', d.reserve.Adds p r p' := by
  let q : Pools := { p with
    functions := p.functions.push none
    ruleFunctions := (ruleFunction d.name, p.functions.size) :: p.ruleFunctions }
  let r : RuleEntry :=
    ⟨d.name, p.functions.size, d.params, d.source, d.isClass, d.ignored, d.synthetic⟩
  refine ⟨r, ?_⟩
  rw [Definition.reserve]
  cases d.fields with
  | none =>
      exact ⟨q, Build.adds_bind.2 ⟨_, _, Build.adds_reserve.2 ⟨rfl, rfl⟩,
        Build.adds_bind.2 ⟨(), q, Build.adds_modify.2 rfl, Build.adds_pure.2 ⟨rfl, rfl⟩⟩⟩⟩
  | some fields =>
      obtain ⟨n, p', w⟩ := Build.adds_cls_any ⟨d.name, fields⟩ q
      have forgotten : (discard (Build.cls ⟨d.name, fields⟩) : Build Unit).Adds q () p' := by
        change (Build.cls ⟨d.name, fields⟩ >>= fun _ => pure ()).Adds q () p'
        exact Build.adds_bind.2 ⟨n, p', w, Build.adds_pure.2 ⟨rfl, rfl⟩⟩
      exact ⟨p', Build.adds_bind.2 ⟨_, _, Build.adds_reserve.2 ⟨rfl, rfl⟩,
        Build.adds_bind.2 ⟨(), q, Build.adds_modify.2 rfl,
          Build.adds_bind.2 ⟨(), p', forgotten, Build.adds_pure.2 ⟨rfl, rfl⟩⟩⟩⟩⟩

theorem reserveAll_adds (ds : List Definition) (p : Pools) :
    ∃ rs p', (ds.mapM Definition.reserve).Adds p rs p' ∧
      ∀ x ∈ ds.zip rs, x.2.params = x.1.params := by
  induction ds generalizing p with
  | nil => exact ⟨[], p, Build.adds_pure.2 ⟨rfl, rfl⟩, by simp⟩
  | cons d ds ih =>
      obtain ⟨r, p₁, w₁⟩ := d.reserve_adds p
      obtain ⟨rs, p₂, w₂, same⟩ := ih p₁
      refine ⟨r :: rs, p₂, ?_, fun x mem => ?_⟩
      · rw [List.mapM_cons]
        exact Build.adds_bind.2 ⟨r, p₁, w₁, Build.adds_bind.2 ⟨rs, p₂, w₂,
          Build.adds_pure.2 ⟨rfl, rfl⟩⟩⟩
      · rw [List.zip_cons_cons] at mem
        rcases List.mem_cons.1 mem with rfl | mem
        · rw [(Definition.adds_reserve w₁).1]
        · exact same x mem

/-! ### Writing -/

/-- What has been done when the functions of definitions are written. -/
structure Completes (rules : Signatures) (ds : Entries) (p p' : Pools) : Prop where
  names : p'.ruleFunctions = p.ruleFunctions
  size : p.functions.size ≤ p'.functions.size
  kept : ∀ k < p.functions.size, (∀ x ∈ ds, x.2.function ≠ k) → p'.functions[k]? = p.functions[k]?
  done : ∀ k : Nat, p'.functions[k]? = some none →
    p.functions[k]? = some none ∧ ∀ x ∈ ds, x.2.function ≠ k
  hosts : ∀ program : Program, program.Hosts p' → program.Hosts p
  takes : ∀ program : Program, program.Hosts p' →
    ∀ x ∈ ds, program.Takes x.2.function x.1.paramList.length
  sound : p'.Vows rules fun program => p.Sound program → p'.Sound program

theorem Completes.refl (p : Pools) : Completes rules [] p p :=
  ⟨rfl, Nat.le_refl _, fun _ _ _ => rfl, fun _ h => ⟨h, by simp⟩, fun _ h => h, by simp,
    fun _ _ h => h⟩

theorem Completes.cons {x : Definition × RuleEntry} {ds : Entries} {p p₁ p' : Pools}
    (first : Completes rules [x] p p₁) (rest : Completes rules ds p₁ p') :
    Completes rules (x :: ds) p p' where
  names := rest.names.trans first.names
  size := Nat.le_trans first.size rest.size
  kept k hk other := by
    rw [rest.kept k (Nat.lt_of_lt_of_le hk first.size)
      fun y mem => other y (List.mem_cons_of_mem _ mem)]
    exact first.kept k hk fun y mem => other y (by simp_all)
  done k open_ := by
    obtain ⟨open_, others⟩ := rest.done k open_
    obtain ⟨open_, other⟩ := first.done k open_
    exact ⟨open_, by simpa using ⟨by simpa using other, fun a b mem => others (a, b) mem⟩⟩
  hosts program hosts := first.hosts program (rest.hosts program hosts)
  takes program hosts y mem := by
    rcases List.mem_cons.1 mem with rfl | mem
    · exact first.takes program (rest.hosts program hosts) _ (List.mem_singleton_self _)
    · exact rest.takes program hosts y mem
  sound program fits sound := by
    refine rest.sound program fits (first.sound program ⟨rest.hosts program fits.hosts, ?_⟩ sound)
    intro name params f known found
    exact fits.rules known (by rw [rest.names]; exact found)

/-- The function of a definition is written. -/
theorem Definition.completes [Regex.Engine] {d : Definition} {r : RuleEntry} {p : Pools}
    (settled : d.body.Every (Expr.Settled rules))
    (may : ∀ f : Failure, d.body.Somewhere (Expr.Rejected f) → stops f)
    (closed : ∀ n ∈ d.body.readLocals [], n ∈ d.paramList)
    (known : p.Knows rules) (reserved : p.functions[r.function]? = some none) :
    Build.Gives stops (d.emit r.function) p fun _ p' => Completes rules [(d, r)] p p' := by
  refine Build.gives_bind.2 ?_
  change Build.Gives stops (Build.define _ _ _ _) { p with rule := d.name } _
  have writable := Expr.emit_writable settled
    (settled.somewhere.mono fun x found f bad => may f (found f bad))
  refine (Build.gives_define (p := { p with rule := d.name })
    (writable.within _ _ (.begin known closed))).mono ?_
  rintro _ _ ⟨p₁, function, advances, params, sound, rfl⟩
  obtain ⟨room, -⟩ := Array.getElem?_eq_some_iff.1 reserved
  have open_ : p₁.functions[r.function]? = some none :=
    (advances.grows.written _ room).trans reserved
  refine ⟨advances.grows.rules, ?_, fun k hk other => ?_, fun k unwritten => ?_, fun program hosts => ?_,
    fun program hosts x mem => ?_, fun program fits sound' n f found => ?_⟩
  · have := advances.grows.functions
    simpa [Pools.write] using this
  · rw [Pools.write, Array.getElem?_setIfInBounds, if_neg (other _ (List.mem_singleton_self _))]
    exact advances.grows.written k hk
  · obtain ⟨other, unwritten⟩ := Pools.write_eq_none.1 unwritten
    exact ⟨advances.done k unwritten, by simpa using other.symm⟩
  · exact { (hosts.unwrite open_).1.back advances.grows with }
  · obtain rfl := List.mem_singleton.1 mem
    exact ⟨function, (hosts.unwrite open_).2, by rw [params]⟩
  · have fits₁ : program.Fits rules p₁ := ⟨(fits.hosts.unwrite open_).1, fits.rules⟩
    rcases Pools.write_eq_some found with rfl | found
    · exact sound program fits₁
    · exact advances.sound program fits₁ sound' n f found

/-- The functions of all definitions are written. -/
theorem completes_all [Regex.Engine] {ds : Entries} {p : Pools}
    (settled : ∀ x ∈ ds, x.1.body.Every (Expr.Settled rules))
    (may : ∀ x ∈ ds, ∀ f : Failure, x.1.body.Somewhere (Expr.Rejected f) → stops f)
    (closed : ∀ x ∈ ds, ∀ n ∈ x.1.body.readLocals [], n ∈ x.1.paramList)
    (known : p.Knows rules) (distinct : (ds.map (·.2.function)).Nodup)
    (reserved : ∀ x ∈ ds, p.functions[x.2.function]? = some none) :
    Build.Gives stops (ds.forM fun x => x.1.emit x.2.function) p
      fun _ p' => Completes rules ds p p' := by
  induction ds generalizing p with
  | nil => exact .refl p
  | cons x ds ih =>
      rw [List.map_cons, List.nodup_cons] at distinct
      have first := Definition.completes (settled x (by simp)) (may x (by simp))
        (closed x (by simp)) known (reserved x (by simp))
      refine (Build.gives_bind (x := x.1.emit x.2.function)).2 (first.mono fun _ p₁ first => ?_)
      refine (ih (fun y mem => settled y (by simp [mem])) (fun y mem => may y (by simp [mem]))
        (fun y mem => closed y (by simp [mem])) ?_ distinct.2 fun y mem => ?_).mono
        fun _ p' rest => first.cons rest
      · intro name params found
        rw [first.names]
        exact known name params found
      · have mem' := List.mem_cons_of_mem x mem
        obtain ⟨room, -⟩ := Array.getElem?_eq_some_iff.1 (reserved y mem')
        rw [first.kept _ room, reserved y mem']
        rintro z hz same
        obtain rfl := List.mem_singleton.1 hz
        exact distinct.1 (List.mem_map.2 ⟨y, mem, same.symm⟩)

/-! ### Programs -/

theorem written_of_all {k : Nat} {fs : List (Option Function)} (h : none ∉ fs) :
    ∃ gs, written k fs = .ok gs := by
  induction fs generalizing k with
  | nil => exact ⟨[], rfl⟩
  | cons f fs ih =>
      obtain ⟨first, rest⟩ := not_or.1 (List.mem_cons.not.1 h)
      obtain ⟨gs, done⟩ := ih (k := k + 1) rest
      cases f with
      | none => exact absurd rfl first
      | some f => exact ⟨f :: gs, by simp only [written, done]; rfl⟩

namespace Grammar

variable {g : Grammar}

/-- The functions of rules take the parameters of the rules. -/
theorem Analyzed.takes (h : g.Analyzed) {rs : List RuleEntry} {program : Program}
    (takes : ∀ x ∈ g.definitions.zip rs, program.Takes x.2.function x.1.paramList.length)
    {name : String} {params : List String} {f : Nat} (known : g.signatures.lookup name = some params)
    (found : (ruleNumbers (g.definitions.zip rs)).lookup (ruleFunction name) = some f) :
    program.Takes f params.length := by
  obtain ⟨before, behind, same, -⟩ := List.lookup_eq_some_iff.1 found
  have mem : (ruleFunction name, f) ∈ ruleNumbers (g.definitions.zip rs) := by rw [same]; simp
  simp only [ruleNumbers, List.mem_reverse, List.mem_map, Prod.mk.injEq] at mem
  obtain ⟨⟨d, r⟩, of, alike, rfl⟩ := mem
  obtain rfl : d.name = name := ruleFunction_injective alike
  have signature : g.signatures.lookup d.name = some d.paramList := by
    refine lookup_of_mem ?_ (List.mem_map.2 ⟨d, (List.of_mem_zip of).1, rfl⟩)
    simpa [signatures, Function.comp_def] using h.names
  obtain rfl : d.paramList = params := by simpa [signature] using known
  exact takes _ of

/-- The functions of all rules have numbers. -/
theorem knows {rs : List RuleEntry} {p : Pools} (length : g.definitions.length ≤ rs.length)
    (numbers : p.ruleFunctions = ruleNumbers (g.definitions.zip rs)) : p.Knows g.signatures := by
  intro name params known
  obtain ⟨before, behind, same, -⟩ := List.lookup_eq_some_iff.1 known
  have mem : (name, params) ∈ g.signatures := by rw [same]; simp
  obtain ⟨d, of, ⟨⟩⟩ := List.mem_map.1 mem
  rw [← List.map_fst_zip length] at of
  obtain ⟨x, inside, rfl⟩ := List.mem_map.1 of
  refine Option.isSome_iff_exists.1 (List.lookup_isSome_iff.2
    ⟨(ruleFunction x.1.name, x.2.function), ?_, by simp⟩)
  rw [numbers, ruleNumbers, List.mem_reverse]
  exact List.mem_map.2 ⟨x, inside, rfl⟩

/-- A compilation fails with the failure of a pattern that stands in a definition of the grammar. -/
def Rejected [Regex.Engine] (g : Grammar) (e : Failure) : Prop :=
  ∃ d ∈ g.definitions, d.body.Somewhere (Expr.Rejected e)

/-- What has been written when a grammar has: nothing is left to be written, and whatever program
contains it takes what it says. -/
structure Emitted (g : Grammar) (rs : List RuleEntry) (p : Pools) : Prop where
  names : rs.map (·.name) = g.definitions.map (·.name)
  numbers : rs.map (·.function) = List.range g.definitions.length
  params : ∀ x ∈ g.definitions.zip rs, x.2.params = x.1.params
  done : none ∉ p.functions.toList
  takes : ∀ program : Program, program.Hosts p →
    ∀ x ∈ g.definitions.zip rs, program.Takes x.2.function x.1.paramList.length
  sound : ∀ program : Program, program.Hosts p → p.Sound program

theorem Emitted.length {rs : List RuleEntry} {p : Pools} (h : g.Emitted rs p) :
    rs.length = g.definitions.length := by simpa using congrArg List.length h.names

theorem Analyzed.emitted [Regex.Engine] (h : g.Analyzed) (maxBlocks identity : Nat) :
    Build.Gives g.Rejected g.emit (.initial maxBlocks identity) fun rs p => g.Emitted rs p := by
  obtain ⟨rs, p₁, reserved, params⟩ := reserveAll_adds g.definitions (.initial maxBlocks identity)
  obtain ⟨names, numbers, start, -⟩ := adds_reserveAll reserved
  have length : rs.length = g.definitions.length := by simpa using congrArg List.length names
  have rules : p₁.ruleFunctions = ruleNumbers (g.definitions.zip rs) := by
    rw [start]
    simp [Pools.initial]
  have functions : p₁.functions = Array.replicate g.definitions.length none := by
    rw [start]
    simp [Pools.initial]
  have inside (x : Definition × RuleEntry) (mem : x ∈ g.definitions.zip rs) :
      x.2.function < g.definitions.length := by
    have : x.2.function ∈ List.range' 0 g.definitions.length := numbers ▸ List.mem_map.2 ⟨x, mem, rfl⟩
    simpa using this
  have written : Build.Gives g.Rejected _ p₁
      fun _ p' => Completes g.signatures (g.definitions.zip rs) p₁ p' :=
    completes_all (fun x mem => h.settled _ (List.of_mem_zip mem).1)
      (fun x mem f bad => ⟨x.1, (List.of_mem_zip mem).1, bad⟩)
    (fun x mem => h.closed _ (List.of_mem_zip mem).1) (knows (Nat.le_of_eq length.symm) rules)
    (by rw [numbers]; exact List.nodup_range')
    (fun x mem => by rw [functions]; simp [inside x mem])
  refine Build.gives_bind.2 ((Build.gives_of_adds reserved).2 (Build.gives_bind.2 ?_))
  refine written.mono fun _ p₂ completes => ?_
  have order : rs.map (·.function) = List.range g.definitions.length := by
    rw [← List.map_snd_zip (Nat.le_of_eq length), List.map_map, List.range_eq_range']
    exact numbers
  refine ⟨names, order, params, fun unwritten => ?_, completes.takes, fun program hosts => ?_⟩
  · -- A number that is still open is that of a definition, and these have all been written.
    obtain ⟨k, hk, open_⟩ := List.getElem_of_mem unwritten
    obtain ⟨open_, others⟩ := completes.done k (by
      rw [← Array.getElem?_toList, List.getElem?_eq_getElem hk, open_])
    have room : k < g.definitions.length := by
      obtain ⟨room, -⟩ := Array.getElem?_eq_some_iff.1 open_
      simpa [functions] using room
    have mem : k ∈ (g.definitions.zip rs).map (·.2.function) := by
      rw [numbers]
      simpa [Pools.initial] using room
    obtain ⟨x, mem, same⟩ := List.mem_map.1 mem
    exact others x mem same
  · refine completes.sound program ⟨hosts, fun known found => ?_⟩ fun n f found => ?_
    · exact h.takes (completes.takes program hosts) known (by rw [← rules, ← completes.names, found])
    · rw [functions] at found
      simp [Array.getElem?_replicate] at found

/-- A compilation writes the functions and collects them. -/
theorem compile_eq [Regex.Engine] (g : Grammar) (maxBlocks identity : Nat) :
    g.compile maxBlocks identity =
      match g.emit (.initial maxBlocks identity) with
      | .error e => .error e
      | .ok (rs, p) =>
        match written 0 p.functions.toList with
        | .error e => .error e
        | .ok functions => .ok (⟨functions.toArray, p.literals, p.regexes, p.hosts, p.classes,
            p.failures, rs, g.sections⟩, p.identity) := by
  change ((g.emit (.initial maxBlocks identity) >>= fun r => Except.ok (r, identity)) >>= _) = _
  cases g.emit (.initial maxBlocks identity) with
  | error e => rfl
  | ok r =>
      obtain ⟨rs, p⟩ := r
      change ((written 0 p.functions.toList >>= fun fs => Except.ok (fs, identity)) >>= _) = _
      dsimp only
      cases written 0 p.functions.toList <;> rfl

/-- What has been emitted is well-formed when it has been collected. -/
theorem Emitted.wellFormed [Regex.Engine] {rs : List RuleEntry} {p : Pools} {program : Program}
    (h : g.Emitted rs p) (hosts : program.Hosts p) (rules : program.rules = rs)
    (functions : program.functions.toList.map some = p.functions.toList)
    (seeded : leftRecursion < program.failures.size) : program.WellFormed where
  functions f mem := by
    obtain ⟨n, hn, rfl⟩ := List.getElem_of_mem (Array.mem_toList_iff.2 mem)
    refine h.sound _ hosts n _ ?_
    rw [← Array.getElem?_toList, ← functions]
    simp
  rules r mem := by
    rw [rules, ← List.map_snd_zip (Nat.le_of_eq h.length)] at mem
    obtain ⟨x, inside, rfl⟩ := List.mem_map.1 mem
    rw [h.params x inside]
    exact h.takes _ hosts x inside
  leftRecursion := seeded

/-- A program whose rules are the definitions of a grammar, in their order: the functions of the rules
come first, and their code is that of the bodies of the definitions. -/
structure Implements [Regex.Engine] (g : Grammar) (maxBlocks : Nat) (program : Program) : Prop where
  names : program.rules.map (·.name) = g.definitions.map (·.name)
  params : program.rules.map (·.params) = g.definitions.map (·.params)
  numbers : program.rules.map (·.function) = List.range g.definitions.length
  bodies : ∀ x ∈ g.definitions.zip program.rules,
    x.1.Written program (ruleNumbers (g.definitions.zip program.rules)) maxBlocks x.2.function

/-- An analyzed grammar is compiled to a well-formed program that implements it, unless one of its
patterns stops the compilation. -/
theorem Analyzed.compiles [Regex.Engine] (h : g.Analyzed) (maxBlocks identity : Nat) :
    match g.compile maxBlocks identity with
    | .error e => g.Rejected e
    | .ok (program, _) => program.WellFormed ∧ g.Implements maxBlocks program := by
  have emitted := h.emitted maxBlocks identity
  unfold Build.Gives at emitted
  have compiles := compile_eq g maxBlocks identity
  cases found : g.emit (.initial maxBlocks identity) with
  | error e =>
      rw [found] at emitted compiles
      rw [compiles]
      exact emitted
  | ok r =>
      obtain ⟨rs, p⟩ := r
      rw [found] at emitted compiles
      obtain ⟨functions, all⟩ := written_of_all (k := 0) emitted.done
      simp only [all] at compiles
      rw [compiles]
      obtain ⟨p', adds, hosts, -⟩ := compile_eq_ok compiles
      obtain rfl : p = p' := by simpa [Build.Adds, found] using adds
      obtain ⟨ls, -, seeded, -, -, written⟩ := numbers_of_compile compiles
      refine ⟨emitted.wellFormed hosts rfl (written_eq_ok all).symm
        (Array.getElem?_eq_some_iff.1 seeded).1, emitted.names, ?_, emitted.numbers, written⟩
      calc rs.map (·.params)
          = ((g.definitions.zip rs).map (·.2)).map (·.params) := by
            rw [List.map_snd_zip (Nat.le_of_eq emitted.length)]
        _ = ((g.definitions.zip rs).map (·.1)).map (·.params) := by
            simpa using emitted.params
        _ = g.definitions.map (·.params) := by
            rw [List.map_fst_zip (Nat.le_of_eq emitted.length.symm)]

end Grammar

namespace Parser

theorem analyzed_of_grammarOf {natives : Host.Natives} {description : String} {g : Grammar}
    (h : grammarOf natives description = .ok g) : g.Analyzed := by
  obtain ⟨d, -, h⟩ := Except.bind_eq_ok.1 h
  obtain ⟨lowered, h', h⟩ := Except.bind_eq_ok.1 h
  exact Grammar.analyzed_of_analyze (Description.lower_raw h') h

/-- A description that can be read and analyzed is compiled to a well-formed program that implements
it, unless a pattern in one of its definitions has no automaton. -/
theorem compile_wellFormed [Regex.Engine] {natives : Host.Natives} {description : String}
    {g : Grammar} (analyzed : grammarOf natives description = .ok g) (maxBlocks identity : Nat) :
    match g.compile maxBlocks identity with
    | .error e => g.Rejected e
    | .ok (program, _) => program.WellFormed ∧ g.Implements maxBlocks program :=
  (analyzed_of_grammarOf analyzed).compiles maxBlocks identity

theorem compile_let : (do
    let g ← grammarOf [] "start = let x = \"a\" in ([\"b\", x] | x*)"
    g.compile 2 0 : Except Failure (Program × Nat)).isOk = true := by decide +kernel

/-- A name bound by `let` is read in a choice that gets a function of its own. -/
theorem compile_wellFormed_let : ∃ g program identity,
    grammarOf [] "start = let x = \"a\" in ([\"b\", x] | x*)" = .ok g ∧
      g.compile 2 0 = .ok (program, identity) ∧ program.WellFormed ∧ g.Implements 2 program := by
  obtain ⟨⟨program, identity⟩, found⟩ := Except.exists_of_isOk compile_let
  obtain ⟨g, analyzed, compiled⟩ := Except.bind_eq_ok.1 found
  have sound := compile_wellFormed analyzed 2 0
  rw [compiled] at sound
  exact ⟨g, program, identity, analyzed, compiled, sound⟩

end Parser

end Packrat
