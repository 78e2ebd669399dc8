import Packrat.Proofs.Execution.Actions
import Packrat.Proofs.Meaning.Chains
import Packrat.Proofs.Simulation.Definitions
import Packrat.Regex.Search

/-
**Programs mean what their grammars mean.**

A grammar that has been compiled has a naming: its layouts hold the numbers that were chosen while
the program was written.  A machine that runs a function of the program from its first instruction
ends with what the function means.

Main definitions:

* `Packrat.Grammar.naming`, `Packrat.Grammar.Numbers` — what the functions of a program stand for;
* `Packrat.Setting.Ends` — what a run of the machine ends with, however many steps it is given.

Main results:

* `Packrat.Grammar.numbers_of_compile` — a compiled grammar has its numbers;
* `Packrat.World.ends` — **a run of a function ends with what the function means**.
-/

set_option autoImplicit false

namespace Packrat

/-! ### Finished programs -/

theorem written_eq_ok {k : Nat} {fs : List (Option Function)} {gs : List Function}
    (h : written k fs = .ok gs) : fs = gs.map some := by
  induction fs generalizing k gs with
  | nil =>
      obtain rfl : [] = gs := by simpa [written] using h
      rfl
  | cons f fs ih =>
      cases f with
      | none => simp [written, fault] at h
      | some f =>
          simp only [written, bind, Except.bind] at h
          split at h
          · simp at h
          · next rest hr =>
              obtain rfl : f :: rest = gs := by simpa [pure, Except.pure] using h
              rw [List.map_cons, ← ih hr]

namespace Grammar

variable {g : Grammar} {maxBlocks identity identity' : Nat} {program : Program}

/-- A program contains the pools that it was made from. -/
theorem compile_eq_ok [Regex.Engine] (h : g.compile maxBlocks identity = .ok (program, identity')) :
    ∃ p, g.emit.Adds (.initial maxBlocks identity) program.rules p ∧ program.Hosts p ∧
      program.functions.size = p.functions.size ∧ program.regexes = p.regexes ∧
      identity' = p.identity := by
  obtain ⟨_, _, got, h⟩ := Exec.bind_eq_ok h
  cases got
  obtain ⟨⟨rules, p⟩, hg, h⟩ := Exec.lift_bind_eq_ok h
  obtain ⟨functions, hw, h⟩ := Exec.lift_bind_eq_ok h
  obtain ⟨_, _, done, h⟩ := Exec.bind_eq_ok h
  cases done
  obtain ⟨rfl, rfl⟩ := Exec.pure_eq_ok h
  have all := written_eq_ok hw
  refine ⟨p, hg, ⟨.refl _, .refl _, .refl _, .refl _, .refl _, fun n f hf => ?_⟩, ?_, rfl, rfl⟩
  · rw [← Array.getElem?_toList, all] at hf
    simpa using hf
  · have := congrArg List.length all
    simpa using this.symm

/-- What the functions of a program stand for, under the numbers that layouts hold. -/
def naming (g : Grammar) (program : Program) (ls : List Layout) : Naming where
  rules := ruleNumbers (g.definitions.zip program.rules)
  classes := program.classes.toList
  closure? k := List.lookup k (ownClosures (g.definitions.zip program.rules) ls
    ++ sideClosures (g.definitions.zip program.rules) ls)

/-- Layouts that hold the numbers of a program: the functions of the definitions come first and in
their order, then those that are written on the side. -/
structure Numbers (g : Grammar) (program : Program) (ls : List Layout) : Prop where
  rules : program.rules.map (·.name) = g.definitions.map (·.name)
  layouts : ls.length = g.definitions.length
  rising : Rising 0 program.functions.size (ownClosures (g.definitions.zip program.rules) ls
    ++ sideClosures (g.definitions.zip program.rules) ls)

variable {ls : List Layout}

/-- What a function stands for is found under its number. -/
theorem Numbers.closure? (h : g.Numbers program ls) {k : Nat} {c : Closure} :
    (g.naming program ls).closure? k = some c ↔
      (k, c) ∈ ownClosures (g.definitions.zip program.rules) ls
        ++ sideClosures (g.definitions.zip program.rules) ls := by
  refine ⟨fun hk => ?_, h.rising.lookup⟩
  obtain ⟨before, behind, hs, -⟩ := List.lookup_eq_some_iff.1 hk
  rw [hs]
  simp

/-- A compiled grammar has its numbers, what its functions stand for is placed in the program, and
the bodies of its definitions have been written into it. -/
theorem numbers_of_compile [Regex.Engine]
    (h : g.compile maxBlocks identity = .ok (program, identity')) : ∃ ls, g.Numbers program ls ∧
      program.failures[leftRecursion]? = some ⟨"", "", .leftRecursion⟩ ∧
      (∀ e ∈ program.regexes, e.Sound) ∧
      (∀ k c, (g.naming program ls).closure? k = some c →
        c.Placed program (g.naming program ls).rules k) ∧
      ∀ x ∈ g.definitions.zip program.rules,
        x.1.Written program (g.naming program ls).rules maxBlocks x.2.function := by
  obtain ⟨p, he, hosts, size, regexes, -⟩ := compile_eq_ok h
  obtain ⟨rules, p₁, h₁, he⟩ := Build.adds_bind.1 he
  obtain ⟨_, p₂, h₂, he⟩ := Build.adds_bind.1 he
  obtain ⟨hr, rfl⟩ := Build.adds_pure.1 he
  subst hr
  obtain ⟨names, numbers, hp₁, own⟩ := adds_reserveAll h₁
  have some_ : ∀ x ∈ g.definitions.zip program.rules, p₁.functions[x.2.function]? = some none := by
    intro x hx
    have mem : x.2.function ∈ List.range' 0 g.definitions.length :=
      numbers ▸ List.mem_map.2 ⟨x, hx, rfl⟩
    have lt : x.2.function < g.definitions.length := by simpa using mem
    rw [hp₁]
    simp [Pools.initial, lt]
  have distinct : ((g.definitions.zip program.rules).map (·.2.function)).Nodup := by
    rw [numbers]
    exact List.nodup_range'
  obtain ⟨ls, len, settles⟩ := settles_all h₂ distinct some_
  have length : program.rules.length = g.definitions.length := by
    simpa using congrArg List.length names
  have numbers' : g.Numbers program ls := by
    refine ⟨names, by simpa [length] using len, ?_⟩
    rw [size]
    exact (own ls).append settles.rising
  have initial := settles.hosts program hosts
  refine ⟨ls, numbers', ?_, ?_, fun k c hk => ?_, fun x mem => ?_⟩
  · refine initial.failures _ _ ?_
    rw [hp₁]
    rfl
  · rw [regexes]
    refine settles.sound ?_
    rw [hp₁]
    simp [Pools.initial]
  · have placed := settles.placed program hosts (k, c) (numbers'.closure?.1 hk)
    rw [hp₁] at placed
    simpa [Pools.initial, naming] using placed
  · have written := settles.bodies program hosts x mem
    rw [hp₁] at written
    simpa [Pools.initial, naming] using written

/-- The bodies of definitions have been written into a program. -/
theorem written_of_compile [Regex.Engine]
    (h : g.compile maxBlocks identity = .ok (program, identity')) {d : Definition} {r : RuleEntry}
    (mem : (d, r) ∈ g.definitions.zip program.rules) : d.body.Written program
    (ruleNumbers (g.definitions.zip program.rules)) d.name := by
  obtain ⟨ls, -, -, -, -, written⟩ := numbers_of_compile h
  exact (written _ mem).body

/-- The function of a definition stands for its body. -/
theorem Numbers.definition (h : g.Numbers program ls) {d : Definition} {r : RuleEntry}
    (mem : (d, r) ∈ g.definitions.zip program.rules) :
    ∃ l, (g.naming program ls).closure? r.function = some (d.closure l) := by
  have length : (g.definitions.zip program.rules).length ≤ ls.length := by
    rw [List.length_zip, h.layouts]
    exact Nat.min_le_left _ _
  rw [← List.map_fst_zip length] at mem
  obtain ⟨x, hx, same⟩ := List.mem_map.1 mem
  refine ⟨x.2, h.closure?.2 (List.mem_append_left _ (List.mem_map.2 ⟨x, hx, ?_⟩))⟩
  rw [same]

end Grammar

/-- The world of a parse, for functions that stand for what a naming says. -/
def Setting.world (setting : Setting) (naming : Naming) (memoize : Bool)
    (leastNone? : Option Bool) : World where
  naming := naming
  library := setting.library
  globals := setting.globals
  bytes := setting.bytes
  isBinary := setting.isBinary
  memoize := memoize
  leastNone? := leastNone?

/-- A compiled grammar has a naming that fits every parse with its program. -/
theorem Grammar.fits_of_compile [Regex.Engine] {g : Grammar} {maxBlocks identity identity' : Nat}
    {program : Program} (h : g.compile maxBlocks identity = .ok (program, identity')) :
    ∃ ls, g.Numbers program ls ∧ ∀ (setting : Setting) (memoize : Bool) (leastNone? : Option Bool),
      setting.program = program → setting.bytes.size < 2 ^ 63 → leastNone? ≠ some true →
      (setting.world (g.naming program ls) memoize leastNone?).Fits setting := by
  obtain ⟨ls, numbers, seeded, sound, placed, -⟩ := numbers_of_compile h
  refine ⟨ls, numbers, fun setting memoize leastNone? hp small settled => ?_⟩
  refine ⟨rfl, rfl, rfl, rfl, settled, congrArg (·.classes.toList) hp.symm, fun name k hk => ?_, small,
    hp ▸ seeded, hp ▸ sound, hp ▸ placed⟩
  obtain ⟨before, behind, hs, -⟩ := List.lookup_eq_some_iff.1 hk
  have mem : (name, k) ∈ (g.naming program ls).rules := by
    change (name, k) ∈ (setting.world (g.naming program ls) memoize leastNone?).naming.rules
    rw [hs]
    simp
  simp only [naming, ruleNumbers, List.mem_reverse, List.mem_map] at mem
  obtain ⟨⟨d, r⟩, mem, ⟨⟩⟩ := mem
  obtain ⟨l, hl⟩ := numbers.definition mem
  obtain ⟨f, draft, budget, hf, -, name, -⟩ := placed _ _ hl
  exact ⟨f, hp ▸ hf, name⟩

/-! ### Runs -/

namespace Setting

/-- A run of a function for so many steps at most; the registers and the next identity. -/
def runFor (setting : Setting) (memoize : Bool) (fuel function : Nat) (args : List Value)
    (pos identity : Nat) : Except Failure (Outcome × Nat) := do
  let frame ← Machine.enter setting function args pos none
  Machine.run setting memoize fuel ⟨[frame], ∅, identity⟩

/-- What a run of a function ends with, however many steps it is given. -/
def Ends (setting : Setting) (memoize : Bool) (function : Nat) (args : List Value)
    (pos identity : Nat) (out : Except Failure (Outcome × Nat)) : Prop :=
  ∃ fuel, ∀ extra, setting.runFor memoize (fuel + extra) function args pos identity = out

theorem run_eq (setting : Setting) (memoize : Bool) (function : Nat) (args : List Value)
    (pos identity : Nat) :
    setting.run memoize function args pos identity =
      setting.runFor memoize stepLimit function args pos identity := rfl

/-- A run ends in one way only. -/
theorem Ends.unique {setting : Setting} {memoize : Bool} {function : Nat} {args : List Value}
    {pos identity : Nat} {out out' : Except Failure (Outcome × Nat)}
    (h : setting.Ends memoize function args pos identity out)
    (h' : setting.Ends memoize function args pos identity out') : out = out' := by
  obtain ⟨fuel, h⟩ := h
  obtain ⟨fuel', h'⟩ := h'
  rw [← h fuel', ← h' fuel, Nat.add_comm]

/-- A run comes to its end unless it may take no more steps. -/
theorem Ends.or_outOfSteps {setting : Setting} {memoize : Bool} {function : Nat} {args : List Value}
    {pos identity : Nat} {out : Except Failure (Outcome × Nat)}
    (h : setting.Ends memoize function args pos identity out) (limit : Nat) :
    setting.runFor memoize limit function args pos identity = out ∨
      setting.runFor memoize limit function args pos identity = fault .outOfSteps := by
  obtain ⟨fuel, ends⟩ := h
  have ended := ends limit
  unfold Setting.runFor at ended ⊢
  cases enters : Machine.enter setting function args pos none with
  | error e =>
      rw [enters] at ended
      exact .inl ended
  | ok frame =>
      rw [enters] at ended
      rcases Machine.run_enough setting memoize limit ⟨[frame], ∅, identity⟩ with short | enough
      · exact .inr short
      · refine .inl (Eq.trans ?_ ended)
        rw [Nat.add_comm]
        exact (enough fuel).symm

end Setting

/-- What the run of a function has in common with its meaning: it ends with the same verdict and
the same identities drawn or with the same error of host code, and it goes on for as long. -/
def Setting.Shows (setting : Setting) (memoize : Bool) (rounds function : Nat) (args : List Value)
    (pos identity : Nat) : Option (Except Stop (Verdict Value × Store)) → Prop
  | some (.ok (v, s)) =>
    ∃ o, setting.Ends memoize function args pos identity (.ok (o, s.identity)) ∧
      setting.Leaves o v
  | some (.error (.host e)) =>
    setting.Ends memoize function args pos identity (.error (.host e))
  | some (.error .stuck) => True
  | none => ∀ fuel < rounds,
    setting.runFor memoize fuel function args pos identity = fault .outOfSteps

/-- The store that a parse begins with. -/
def Store.start (identity : Nat) : Store := ⟨identity, fun _ => none⟩

/-- A machine at the first instruction of a function. -/
theorem Setting.runFor_begin {setting : Setting} {memoize : Bool} {k pos : Nat} {args : List Value}
    {g : Function} (hg : setting.program.functions[k]? = some g)
    (arity : args.length = g.params.length) (fuel identity : Nat) :
    setting.runFor memoize fuel k args pos identity =
      Machine.run setting memoize fuel ⟨[Frame.begin k g args pos none], ∅, identity⟩ := by
  rw [Setting.runFor, Machine.enter_ok hg arity]
  rfl

/-- A run of a function whose code performs a reading. -/
theorem Setting.shows_performed {setting : Setting} {memoize : Bool} {rounds k pos budget : Nat}
    {g : Function} {name : String} {params : List String} {draft : Draft} {env : Env}
    {r : Nat → Reading (Verdict Value)} {args : List Value}
    (hg : setting.program.functions[k]? = some g) (done : draft.function = .ok g)
    (grown : (Draft.begin name params budget).Grows draft)
    (performs : ∀ site : Site, site.setting = setting → site.memoize = memoize →
      site.function = g → site.Performs rounds (Draft.begin name params budget) draft env r)
    (arity : args.length = params.length)
    (knows : ∀ slots, (Draft.begin name params budget).Knows env (args ++ slots).toArray)
    (inside : pos ≤ setting.bytes.size) (identity : Nat) :
    setting.Shows memoize (rounds + 1) k args pos identity (r pos (.start identity)) := by
  obtain ⟨-, -, given, slots, ret⟩ := Draft.function_eq_ok done
  rw [grown.params] at given
  let site : Site := ⟨setting, memoize, k, g, hg, none, []⟩
  let σ : Moment := ⟨false, .none, pos,
    (args ++ List.replicate (g.slots - args.length) Value.none).toArray, ∅, identity⟩
  have room : args.length ≤ g.slots := by
    rw [slots, arity]
    exact grown.slots
  have ready : site.Ready (Draft.begin name params budget) env σ (.start identity) :=
    ⟨by simp [σ, site]; omega, inside, knows _, rfl, .empty setting⟩
  have follows : site.Follows rounds 0 σ (r pos (.start identity)) _ :=
    performs site rfl rfl rfl σ _ ready
  have begins (fuel : Nat) : setting.runFor memoize fuel k args pos identity =
      Machine.run setting memoize fuel (site.machine 0 σ) :=
    Setting.runFor_begin hg (by rw [given]; exact arity) fuel identity
  revert follows
  generalize r pos (.start identity) = out
  intro follows
  match out, follows with
  | none, ⟨steps, m', enough, leads⟩ =>
      intro fuel lt
      rw [begins]
      exact leads.run_short (by omega)
  | some (.error .stuck), _ => trivial
  | some (.error (.host e)), ⟨steps, m', leads, stops⟩ =>
      refine ⟨steps + 1, fun extra => ?_⟩
      rw [begins, Nat.add_assoc, leads.run_add, Nat.add_comm, Machine.run, stops]
  | some (.ok (v, s)), ⟨steps, m', leads, σ', hm, leaves, behind⟩ =>
      refine ⟨σ'.outcome, ⟨steps + 1, fun extra => ?_⟩, leaves⟩
      rw [begins, Nat.add_assoc, leads.run_add, Nat.add_comm, Machine.run, hm,
        site.step_done ret rfl, behind.agrees.identity]

namespace World

variable {w : World} {setting : Setting} {k pos : Nat} {args : List Value}

/-- A run of a function ends with what the function means. -/
theorem shows [Regex.Engine] (fits : w.Fits setting) (inside : pos ≤ setting.bytes.size)
    (rounds identity : Nat) :
    setting.Shows w.memoize rounds k args pos identity
      (w.run rounds k args pos (.start identity)) := by
  cases rounds with
  | zero => exact fun fuel lt => absurd lt (Nat.not_lt_zero _)
  | succ rounds =>
      cases hc : w.naming.closure? k with
      | none =>
          rw [run_none hc]
          trivial
      | some c =>
          obtain ⟨g, draft, budget, hg, done, name, grown, performs⟩ := fits.placed k c hc
          by_cases arity : args.length = c.params.length
          · rw [run_some hc arity]
            exact Setting.shows_performed hg done grown
              (fun site hs hm hf => performs site (w.scene c.rule rounds) _ (by rw [hs]) hf
                (by rw [hs, hm]; exact fits.scene (calls fits rounds) c.rule))
              arity (fun _ => Draft.knows_begin_bindAll arity) inside identity
          · rw [run_arity hc arity]
            obtain ⟨-, -, params, -, -⟩ := Draft.function_eq_ok done
            have given : g.params.length = c.params.length := by rw [params, grown.params]; rfl
            refine ⟨0, fun extra => ?_⟩
            rw [Setting.runFor, Machine.enter_arity hg (given ▸ arity), given, name]
            rfl

end World

/-! ### Compiled grammars -/

/-- **The compiler is correct.** Whatever the functions of a compiled grammar mean, without a memo
table the machine shows it: with the same verdict, place and identities drawn, or with the same
error of host code.

A repetition whose least number of items is none is where machine and documentation part: any number
of items should be enough then, and the machine refuses all of them. So the meaning either says
nothing about this case or says what the machine does. -/
theorem Grammar.run_shows_meaning [Regex.Engine] {g : Grammar} {maxBlocks identity identity' : Nat}
    {program : Program} (compiled : g.compile maxBlocks identity = .ok (program, identity')) :
    ∃ ls, g.Numbers program ls ∧
      ∀ (setting : Setting) (leastNone? : Option Bool) (function : Nat) (args : List Value)
        (rounds pos n : Nat), setting.program = program → setting.bytes.size < 2 ^ 63 →
        leastNone? ≠ some true → pos ≤ setting.bytes.size →
        setting.Shows false rounds function args pos n
          ((setting.world (g.naming program ls) false leastNone?).run rounds function args pos
            (.start n)) := by
  obtain ⟨ls, numbers, fits⟩ := fits_of_compile compiled
  refine ⟨ls, numbers, fun setting leastNone? function args rounds pos n hp small settled inside => ?_⟩
  exact World.shows (fits setting false leastNone? hp small settled) inside rounds n

/-- A definition without parameters. -/
def Definition.plain (name : String) (body : Expr) : Definition where
  name := name
  params := none
  body := body
  ignored := false
  fields := none
  synthetic := false
  source := ""
  span := .nowhere

/-- Any number of letters b. -/
def Expr.tail : Expr :=
  .list ⟨1, .nowhere⟩ (.str ⟨2, .nowhere⟩ [98] ⟨false, false, false⟩) none none

/-- The letter a, and what the rule for letters b reads behind it. -/
def Expr.headed : Expr :=
  .seq ⟨3, .nowhere⟩ [.str ⟨4, .nowhere⟩ [97] ⟨false, false, false⟩,
    .ref ⟨5, .nowhere⟩ "tail" (.rule (ruleFunction "tail"))] none

/-- An a and any number of letters b behind it, in rules of their own. -/
def Grammar.letters : Grammar where
  definitions := [.plain "start" .headed, .plain "tail" .tail]
  sections := []

theorem Grammar.compile_letters : ∃ program identity,
    Grammar.letters.compile 4 0 = .ok (program, identity) ∧
      program.rules.map (·.function) = [0, 1] := by
  have found : (match Grammar.letters.compile 4 0 with
    | .ok out => out.1.rules.map (·.function)
    | .error _ => []) = [0, 1] := by decide +kernel
  split at found
  · next out compiled => exact ⟨out.1, out.2, compiled, found⟩
  · cases found

/-- A world in which an a, two letters b and a c are read. -/
def Naming.letters (naming : Naming) : World :=
  ⟨naming, ⟨[], Host.compareOp⟩, [], ⟨#[97, 98, 98, 99]⟩, false, false, some false⟩

section

variable [Regex.Engine] {naming : Naming}

/-- Behind the a are two letters b. -/
theorem Expr.meaning_tail (l : Layout) :
    Expr.tail.meaning (naming.letters.scene "tail" 4) [] l 1 (.start 7) =
      some (.ok (.success (.list 7 [.str "b", .str "b"]) 3, .start 8)) := by
  have items (pos : Nat) := Expr.reads_literal
    (rfl : (naming.letters.scene "tail" 4).memoize = false) ⟨2, .nowhere⟩ [98] false [] (l.part 0) pos
  rw [Expr.tail, Expr.meaning]
  simp only [items]
  rfl

/-- What the rules come to, with their functions in a row. -/
theorem Naming.run_letters {l l' : Layout}
    (start : naming.closure? 0 = some ((Definition.plain "start" .headed).closure l))
    (tail : naming.closure? 1 = some ((Definition.plain "tail" .tail).closure l'))
    (known : naming.rules.lookup (ruleFunction "tail") = some 1) :
    naming.letters.run 6 0 [] 0 (.start 7) =
      some (.ok (.success (.list 8 [.str "a", .list 7 [.str "b", .str "b"]]) 3, .start 9)) := by
  have called : (naming.letters.scene "start" 5).callRule (ruleFunction "tail") 1 (.start 7) =
      some (.ok (.success (.list 7 [.str "b", .str "b"]) 3, .start 8)) := by
    change (Reading.found (naming.rules.lookup (ruleFunction "tail")) >>= _) _ = _
    rw [known]
    change naming.letters.run 5 1 [] 1 (.start 7) = _
    rw [World.run_some tail rfl, Layout.read_plain rfl]
    exact Expr.meaning_tail l'
  have reads (l : Layout) : Expr.reads (.ref ⟨5, .nowhere⟩ "tail" (.rule (ruleFunction "tail")))
      (naming.letters.scene "start" 5) [] l 1 (.start 7) =
        some (.ok (.success (.list 7 [.str "b", .str "b"]) 3, .start 8)) := by
    rw [Expr.reads, Layout.read_plain rfl, Expr.meaning]
    exact called
  rw [World.run_some start rfl, Layout.read_plain rfl]
  change Expr.headed.meaning (naming.letters.scene "start" 5) [] l 0 (.start 7) = _
  rw [Expr.headed, Expr.meaning, Scene.andThen_eq_success]
  refine ⟨[.str "a", .list 7 [.str "b", .str "b"]], 3, .start 8, ?_, rfl⟩
  -- The items one after the other, and nothing behind them.
  exact Scene.andThen_eq_success.2 ⟨_, _, _, Expr.finds_literal rfl rfl rfl _,
    Scene.andThen_eq_success.2 ⟨_, _, _, Scene.andThen_eq_success.2 ⟨_, _, _, reads _, rfl⟩, rfl⟩⟩

end

/-- A parse of two rules ends with what they come to. -/
theorem Grammar.run_shows_meaning_letters :
    ∃ program identity, Grammar.letters.compile 4 0 = .ok (program, identity) ∧
      (Setting.mk program ⟨[], Host.compareOp⟩ [] ⟨#[97, 98, 98, 99]⟩ false).Ends false 0 [] 0 7
        (.ok (⟨true, .list 8 [.str "a", .list 7 [.str "b", .str "b"]], 3⟩, 9)) := by
  obtain ⟨program, identity, compiled, functions⟩ := Grammar.compile_letters
  obtain ⟨r, rest, rules, first, functions⟩ := List.map_eq_cons_iff.1 functions
  obtain ⟨r', rfl, second⟩ := List.map_eq_singleton_iff.1 functions
  obtain ⟨ls, numbers, shows⟩ := Grammar.run_shows_meaning compiled
  have both : Grammar.letters.definitions.zip program.rules =
      [(.plain "start" .headed, r), (.plain "tail" .tail, r')] := by
    rw [rules]
    rfl
  obtain ⟨l, start⟩ := numbers.definition (by rw [both]; exact .head _)
  obtain ⟨l', tail⟩ := numbers.definition (by rw [both]; exact .tail _ (.head _))
  have known : (Grammar.letters.naming program ls).rules.lookup (ruleFunction "tail") = some 1 := by
    rw [Grammar.naming, both, ← second]
    rfl
  have small : (⟨#[97, 98, 98, 99]⟩ : ByteArray).size < 2 ^ 63 := by decide
  have shown : Setting.Shows _ false 6 0 [] 0 7
      ((Grammar.letters.naming program ls).letters.run 6 0 [] 0 (.start 7)) :=
    shows ⟨program, ⟨[], Host.compareOp⟩, [], ⟨#[97, 98, 98, 99]⟩, false⟩ (some false) 0 [] 6 0 7
      rfl small (by decide) (Nat.zero_le _)
  rw [Naming.run_letters (first ▸ start) (second ▸ tail) known] at shown
  obtain ⟨o, ends, rfl, -⟩ := shown
  exact ⟨program, identity, compiled, ends⟩

end Packrat
