import Mathlib.Data.List.Nodup
import Packrat.Proofs.Analysis.Weaving
import Packrat.Proofs.Meaning.Skipped
import Packrat.Proofs.Recursion.Arrivals

/-
**Ignored content is skipped as far as it goes.**

An expression that skips comes to rest where none of its parts reads anything, and stays there when
it is run again.  In a grammar that ignores something this is so behind every match outside of
ignored rules and before the body of the start rule: no ignored rule reads anything there.

A parse remembers what functions come to, so this takes more than the loop.  An ignored rule that is
called later at the same place may be answered from the memo table, and the table may have been
filled while another function was at work.  What the table holds is right about everything that
comes to an end without it.

Main definitions:

* `Packrat.Setting.Barren` — a place where no ignored rule reads anything;
* `Packrat.Site.Meets` — a parse that has come to the beginning of some code;
* `Packrat.World.Reads` — a reading that does not depend on the identities of values.

Main results:

* `Packrat.Expr.skipped_whole` — what skips comes to rest, and stays there;
* `Packrat.Grammar.skips_maximally` — **ignored content is skipped as far as it goes**.
-/

set_option autoImplicit false

namespace Packrat

open Likeness (contents AlikeEnv)

variable {w : World} {setting : Setting} {lib : Host.Library} {d d' : Draft} {p p' : Pools}

/-! ### Numbers of rules -/

namespace Grammar

variable {g : Grammar} {program : Program} {ls : List Layout}

theorem Numbers.heads (h : g.Numbers program ls) :
    (g.definitions.zip program.rules).map (·.1) = g.definitions := by
  refine List.map_fst_zip (Nat.le_of_eq ?_)
  simpa using (congrArg List.length h.rules).symm

/-- The rule of a definition has a number. -/
theorem Numbers.entry (h : g.Numbers program ls) {x : Definition} (mem : x ∈ g.definitions) :
    ∃ r, (x, r) ∈ g.definitions.zip program.rules := by
  rw [← h.heads] at mem
  obtain ⟨⟨_, r⟩, of, rfl⟩ := List.mem_map.1 mem
  exact ⟨r, of⟩

/-- The function of a rule is found by its name. -/
theorem Numbers.lookup (h : g.Numbers program ls) (names : (g.definitions.map (·.name)).Nodup)
    {x : Definition} {r : RuleEntry} (mem : (x, r) ∈ g.definitions.zip program.rules) :
    (g.naming program ls).rules.lookup (ruleFunction x.name) = some r.function := by
  refine lookup_of_mem ?_ (List.mem_reverse.2 (List.mem_map.2 ⟨(x, r), mem, rfl⟩))
  have functions : ((g.naming program ls).rules.map (·.1)).reverse =
      (((g.definitions.zip program.rules).map (·.1)).map (·.name)).map ruleFunction := by
    simp [naming, ruleNumbers, Function.comp_def]
  rw [h.heads] at functions
  rw [← List.nodup_reverse, functions]
  exact names.map fun _ _ => ruleFunction_injective

end Grammar

/-! ### Parses and readings -/

section Skipping

variable [Regex.Engine]

/-- A world that knows a parse, and a library for it that looks at contents only. -/
structure World.Serves (w : World) (setting : Setting) (lib : Host.Library) : Prop where
  fits : w.Fits setting
  plain : w.memoize = false
  respects : contents.Respects lib

/-- Code that has been written for an expression of a rule, in the program of a parse. -/
structure Expr.Stands (e : Expr) (w : World) (setting : Setting) (d : Draft) (p : Pools)
    (d' : Draft) (p' : Pools) : Prop where
  writes : e.emit.Writes d p () d' p'
  pools : setting.program.Hosts p'
  rules : w.naming.rules = p.ruleFunctions

/-- A parse that has come to the beginning of some code, where names stand for values. -/
structure Site.Meets (site : Site) (setting : Setting) (lib : Host.Library) (d d' : Draft)
    (env : Env) (σ : Moment) : Prop where
  same : site.setting = setting
  code : site.function.Hosts d'
  begins : site.Begins d env σ
  visits : setting.Visits lib (site.machine d.code.size σ)

/-- A reading that comes to an end, and to the same one if host code looks at contents only. -/
structure World.Reads (w : World) (lib : Host.Library) (rule : String) (rounds : Nat)
    (r : Scene → Reading (Verdict Value)) (n : Nat) (v : Verdict Value) (s : Store) : Prop where
  ends : r (w.scene rule rounds) (.start n) = some (.ok (v, s))
  blind : r ((w.using lib).scene rule rounds) (.start n) = some (.ok (v, s))

/-- Code arrives at what it is read as. -/
theorem Expr.Stands.arrives {e : Expr} (stands : e.Stands w setting d p d' p')
    (serves : w.Serves setting lib) :
    ∃ l : Layout, ∀ (site : Site) (env : Env) (σ : Moment) (rounds n : Nat) (v : Verdict Value)
      (s : Store), site.Meets setting lib d d' env σ →
      e.meaning ((w.using lib).scene p.rule rounds) env l σ.pos (.start n) = some (.ok (v, s)) →
      site.Attains d.code.size d'.code.size σ v := by
  refine ⟨e.layout none (d.stage p), fun site env σ rounds n v s meets reading => ?_⟩
  obtain ⟨rfl, code, begins, visits⟩ := meets
  exact (e.compiles _ _ _ _ stands.writes none).arrives code stands.pools serves.fits serves.plain stands.rules
    serves.respects visits begins reading

/-! ### Skipping -/

namespace Expr

open Reading

/-- Parts that read nothing do not do so later either, whatever identities have been drawn. -/
theorem Idle.again {scene : Scene} {env env' : Env} {es : List Expr} {ls : List Layout} {pos : Nat}
    {s t u : Store} (like : Scene.Like contents scene scene) (same : AlikeEnv contents env env')
    (h : Idle scene env pos es ls s t) : ∃ u', Idle scene env' pos es ls u u' := by
  have both := Expr.skipped_agrees like es (matchesAll_refl contents.reflexive es ls) same pos s u
    trivial
  rw [meaningSkipped_eq_ok.2 (.inl ⟨rfl, h⟩)] at both
  generalize again : meaningSkipped scene es env' ls pos u = out at both
  match out, both with
  | some (.ok (.inr place, u')), .some (.ok ⟨.inr here, _⟩) =>
      rcases meaningSkipped_eq_ok.1 again with ⟨-, idle⟩ | ⟨next, ⟨⟩, -⟩
      exact ⟨u', idle⟩

/-- Parts that are skipped as far as it goes. Where skipping them comes to an end without a memo
table, it takes steps until none of them reads anything, and succeeds with none. A parse with a memo
table arrives there as well, and is still there when the same code is run again from there. -/
def SkippedWhole (w : World) (setting : Setting) (lib : Host.Library) (tag : Tag)
    (items : List Expr) : Prop :=
  ∀ (d : Draft) (p : Pools) (d' : Draft) (p' : Pools),
    (Expr.skip tag items).Stands w setting d p d' p' →
    ∃ l : Layout, ∀ (site : Site) (env : Env) (σ : Moment) (rounds n : Nat) (v : Verdict Value)
      (s : Store), site.Meets setting lib d d' env σ →
      w.Reads lib p.rule rounds (fun scene => (Expr.skip tag items).meaning scene env l σ.pos) n v
        s →
      ∃ stop, v = .success .none stop ∧
        Skips (w.scene p.rule rounds) env items l.parts rounds σ.pos (.start n) stop s ∧
        (∃ t, Idle (w.scene p.rule rounds) env stop items l.parts t s) ∧
        site.Attains d.code.size d'.code.size σ v ∧
        ∀ (site' : Site) (env' : Env) (σ' : Moment), site'.Meets setting lib d d' env' σ' →
          σ'.pos = stop → AlikeEnv contents env env' →
          site'.Attains d.code.size d'.code.size σ' (.success .none stop)

/-- **What skips comes to rest.** -/
theorem skipped_whole (serves : w.Serves setting lib) (tag : Tag) (items : List Expr) :
    SkippedWhole w setting lib tag items := by
  intro d p d' p' stands
  obtain ⟨l, arrives⟩ := stands.arrives serves
  refine ⟨l, fun site env σ rounds n v s meets reads => ?_⟩
  obtain ⟨stop, rfl, skips⟩ := meaning_skip.1 reads.ends
  refine ⟨stop, rfl, skips, skips.rested.2, arrives site env σ rounds n _ s meets reads.blind, ?_⟩
  intro site' env' σ' meets' here same
  obtain ⟨stop', ⟨⟩, blind⟩ := meaning_skip.1 reads.blind
  obtain ⟨some, t, idle⟩ := blind.rested
  have like : Scene.Like contents ((w.using lib).scene p.rule rounds)
      ((w.using lib).scene p.rule rounds) :=
    (World.like_self (w := w.using lib) serves.respects serves.plain).scenes p.rule rounds
  obtain ⟨u, again⟩ := idle.again (u := .start n) like same
  subst here
  exact arrives site' env' σ' rounds n _ u meets' (meaning_skip.2 ⟨_, rfl, again.skips some⟩)

end Expr

/-! ### Ignored rules -/

/-- A place where no ignored rule reads anything: wherever a parse is about to call one there, the
call fails or succeeds where it began. -/
def Setting.Barren (setting : Setting) (lib : Host.Library) (g : Grammar) (pos : Nat) : Prop :=
  ∀ x ∈ g.definitions.zip setting.program.rules, x.1.ignored = true →
    ∀ (frame caller callee : Frame) (rest : List Frame) (memo : Std.HashMap MemoKey Outcome)
      (n m : Nat), setting.Visits lib ⟨frame :: rest, memo, n⟩ →
      frame.turn setting n = .ok (.call caller x.2.function [] callee, m) → caller.pos = pos →
      ∃ k o memo' n', Machine.Leads setting true k ⟨frame :: rest, memo, n⟩
        ⟨caller.resume o :: rest, memo', n'⟩ ∧ (o.status = true → o.pos = pos)

/-- Each of some parts that read nothing does so. -/
theorem Expr.Idle.of_mem {scene : Scene} {env : Env} {es : List Expr} {ls : List Layout} {pos : Nat}
    {s t : Store} (h : Idle scene env pos es ls s t) {e : Expr} (mem : e ∈ es) :
    ∃ l u u', Reading.Idle (e.reads scene env l) pos u u' := by
  induction h with
  | nil => exact absurd mem List.not_mem_nil
  | cons here _ ih =>
      rcases List.mem_cons.1 mem with rfl | mem
      · exact ⟨_, _, _, here⟩
      · exact ih mem

namespace Grammar

variable {g : Grammar} {ls : List Layout} {rule : String} {rounds pos n : Nat} {v : Verdict Value}
variable {s s' : Store}

/-- The call of a rule without arguments, by its number. -/
theorem Numbers.callRule (numbers : g.Numbers setting.program ls)
    (names : (g.definitions.map (·.name)).Nodup) (named : w.naming = g.naming setting.program ls)
    {x : Definition} {r : RuleEntry} (mem : (x, r) ∈ g.definitions.zip setting.program.rules) :
    (w.scene rule rounds).callRule (ruleFunction x.name) pos = w.call rounds r.function [] pos := by
  have found : (w.scene rule rounds).ruleNumber (ruleFunction x.name) = pure r.function := by
    change Reading.found (w.naming.rules.lookup _) = _
    rw [named, numbers.lookup names mem]
    rfl
  rw [Scene.callRule, found]
  rfl

/-- The call of a rule without arguments reads its body. -/
theorem Numbers.run_body (numbers : g.Numbers setting.program ls)
    (named : w.naming = g.naming setting.program ls) (plain : w.memoize = false) {x : Definition}
    {r : RuleEntry} (mem : (x, r) ∈ g.definitions.zip setting.program.rules)
    (params : x.paramList = []) :
    ∃ l, ∀ rounds pos, w.call (rounds + 1) r.function [] pos =
      x.body.meaning (w.scene x.name rounds) [] l pos := by
  obtain ⟨l, closure⟩ := numbers.definition mem
  have arity : ([] : List Value).length = (x.closure l).params.length := by
    rw [show (x.closure l).params = x.paramList from rfl, params]
    rfl
  rw [← named] at closure
  refine ⟨l, fun rounds pos => ?_⟩
  rw [World.call_plain plain, World.run_some closure arity, Layout.read_plain plain]
  simp only [Definition.closure, params]
  rfl

/-- Where the rule for ignored content has come to an end no ignored rule reads anything. -/
theorem Woven.barren (woven : g.Woven) (numbers : g.Numbers setting.program ls)
    (names : (g.definitions.map (·.name)).Nodup) (named : w.naming = g.naming setting.program ls)
    (serves : w.Serves setting lib)
    (reading : ((w.using lib).scene rule rounds).callRule (ruleFunction ignoredRule) pos s =
      some (.ok (v, s'))) :
    ∃ stop, v = .success .none stop ∧ (stop ≤ setting.bytes.size → setting.Barren lib g stop) := by
  have plain : (w.using lib).memoize = false := serves.plain
  obtain ⟨x, mem, name, params, tag, items, body, refer⟩ := woven.skips
  obtain ⟨r, of⟩ := numbers.entry mem
  rw [← name, numbers.callRule (w := w.using lib) names named of] at reading
  cases rounds with
  | zero =>
      rw [World.call_plain plain] at reading
      cases reading
  | succ rounds =>
      obtain ⟨l, reads⟩ := numbers.run_body (w := w.using lib) named plain of params
      rw [reads, body] at reading
      obtain ⟨stop, rfl, skips⟩ := Expr.meaning_skip.1 reading
      obtain ⟨-, t, idle⟩ := skips.rested
      refine ⟨stop, rfl, fun inside => ?_⟩
      rintro ⟨y, r'⟩ mem ignored frame caller callee rest memo n m visits turn here
      -- The rule is one of the parts, and read nothing in the last round.
      obtain ⟨e, part, tag, rfl⟩ := Expr.exists_of_forall₂ refer.flip
        (List.mem_map.2 ⟨y, List.mem_filter.2 ⟨(List.of_mem_zip mem).1, ignored⟩, rfl⟩)
      obtain ⟨l', u, u', nothing⟩ := idle.of_mem part
      have reads (q : Nat) : Expr.reads (.ref tag y.name (.rule (ruleFunction y.name)))
          ((w.using lib).scene x.name rounds) [] l' q =
          (w.using lib).call rounds r'.function [] q := by
        rw [Expr.reads, Layout.read_plain plain, Expr.meaning]
        exact numbers.callRule (w := w.using lib) names named mem
      have ends : ∃ v, (w.using lib).call rounds r'.function [] stop u = some (.ok (v, u')) ∧
          (∀ x place, v = .success x place → place = stop) := by
        rcases nothing with ⟨entry, place, misses⟩ | ⟨x, finds⟩
        · rw [reads] at misses
          exact ⟨_, misses, fun _ _ same => by cases same⟩
        · rw [Reading.Finds, reads] at finds
          exact ⟨_, finds, fun _ _ same => (Verdict.success.inj same).2.symm⟩
      obtain ⟨v, call, stays⟩ := ends
      obtain ⟨v', s', call', same⟩ :=
        World.call_again (u := .start 0) serves.respects plain call
      rw [World.call_plain plain, ← here] at call'
      obtain ⟨k, o, memo', n', leads, shown⟩ := World.answers serves.fits serves.plain
        serves.respects visits turn (here ▸ inside) call'
      refine ⟨k, o, memo', n', leads, fun status => ?_⟩
      cases same with
      | success _ place => exact shown.2.2.trans (stays _ _ rfl)
      | failure => exact absurd (status.symm.trans shown.1) (by simp)

end Grammar

/-! ### Matches and start rules -/

/-- A literal or a pattern. -/
def Expr.IsMatch : Expr → Prop
  | .str _ _ _ | .regex _ _ _ => True
  | _ => False

omit [Regex.Engine] in
/-- A match that skips ends where the rule for ignored content does. -/
theorem Scene.skips_of_success {scene : Scene} {verdict : Verdict Value} {s s' : Store} {x : Value}
    {stop : Nat} (h : scene.skipping true verdict s = some (.ok (.success x stop, s'))) :
    ∃ pos v, scene.callRule (ruleFunction ignoredRule) pos s = some (.ok (v, s')) ∧
      v.pos = stop := by
  cases verdict with
  | success y pos =>
      obtain ⟨v, s₁, call, rest⟩ := Reading.bind_eq_ok.1 h
      obtain ⟨same, rfl⟩ := Reading.pure_eq_ok.1 rest
      exact ⟨pos, v, call, (Verdict.success.inj same).2.symm⟩
  | failure => cases (Reading.pure_eq_ok.1 h).1

theorem Expr.skips_of_success {e : Expr} {scene : Scene} {env : Env} {l : Layout} {pos stop : Nat}
    {s s' : Store} {x : Value} (isMatch : e.IsMatch) (skips : e.Skipping)
    (h : e.meaning scene env l pos s = some (.ok (.success x stop, s'))) :
    ∃ pos s v, scene.callRule (ruleFunction ignoredRule) pos s = some (.ok (v, s')) ∧
      v.pos = stop := by
  cases e with
  | str tag value flags =>
      rw [Expr.meaning, show flags.skip = true from skips] at h
      dsimp only at h
      split at h
      all_goals
        obtain ⟨verdict, s₁, -, rest⟩ := Reading.bind_eq_ok.1 h
        obtain ⟨pos, v, call⟩ := Scene.skips_of_success rest
        exact ⟨pos, s₁, v, call⟩
  | regex tag pattern flags =>
      rw [Expr.meaning, show flags.skip = true from skips] at h
      obtain ⟨verdict, s₁, -, rest⟩ := Reading.bind_eq_ok.1 h
      obtain ⟨pos, v, call⟩ := Scene.skips_of_success rest
      exact ⟨pos, s₁, v, call⟩
  | _ => exact isMatch.elim

namespace Grammar

variable {g : Grammar} {ls : List Layout}

/-- A match behind which no ignored rule reads anything. -/
def BarrenBehind (g : Grammar) (w : World) (setting : Setting) (lib : Host.Library) (e : Expr) :
    Prop :=
  ∀ (d : Draft) (p : Pools) (d' : Draft) (p' : Pools), e.Stands w setting d p d' p' →
    ∃ l : Layout, ∀ (site : Site) (env : Env) (σ : Moment) (rounds n : Nat) (x : Value) (stop : Nat)
      (s : Store), site.Meets setting lib d d' env σ →
      w.Reads lib p.rule rounds (fun scene => e.meaning scene env l σ.pos) n (.success x stop) s →
      site.Attains d.code.size d'.code.size σ (.success x stop) ∧ setting.Barren lib g stop

/-- A body before which no ignored rule reads anything, after some code that skips them. -/
def BarrenBefore (g : Grammar) (w : World) (setting : Setting) (lib : Host.Library)
    (e body : Expr) : Prop :=
  ∀ (d : Draft) (p : Pools) (d' : Draft) (p' : Pools), e.Stands w setting d p d' p' →
    ∃ d₁ p₁ d₂, (Emit.within body body.emit).Writes d₁ p₁ () d₂ p' ∧
      d'.code.size = d₂.code.size ∧ (∀ f : Function, f.Hosts d' → f.Hosts d₂) ∧
      ∀ (site : Site) (env : Env) (σ : Moment) (rounds n : Nat) (v : Verdict Value) (s : Store),
        site.Meets setting lib d d' env σ →
        w.Reads lib p.rule rounds (·.callRule (ruleFunction ignoredRule) σ.pos) n v s →
        ∃ k σ', Machine.Leads setting true k (site.machine d.code.size σ)
          (site.machine d₁.code.size σ') ∧ σ'.pos = v.pos ∧ setting.Barren lib g v.pos

/-- Behind a match that skips no ignored rule reads anything. -/
theorem Woven.behind (woven : g.Woven) (numbers : g.Numbers setting.program ls)
    (names : (g.definitions.map (·.name)).Nodup) (named : w.naming = g.naming setting.program ls)
    (serves : w.Serves setting lib) {e : Expr} (isMatch : e.IsMatch) (skips : e.Skipping) :
    g.BarrenBehind w setting lib e := by
  intro d p d' p' stands
  obtain ⟨l, arrives⟩ := stands.arrives serves
  refine ⟨l, fun site env σ rounds n x stop s meets reads => ?_⟩
  have arrived := arrives site env σ rounds n _ s meets reads.blind
  obtain ⟨pos, s₁, v, call, last⟩ := Expr.skips_of_success isMatch skips reads.blind
  obtain ⟨place, rfl, barren⟩ := woven.barren numbers names named serves call
  obtain rfl : place = stop := last
  refine ⟨arrived, barren ?_⟩
  obtain ⟨_, σ', -, ⟨-, -, same⟩, inside⟩ := arrived
  rw [← meets.same, ← same]
  exact inside

/-- Before the body of a start rule no ignored rule reads anything. -/
theorem Woven.before (woven : g.Woven) (numbers : g.Numbers setting.program ls)
    (names : (g.definitions.map (·.name)).Nodup) (named : w.naming = g.naming setting.program ls)
    (serves : w.Serves setting lib) {tag : Tag} {first body : Expr}
    (refers : first.Refers ignoredRule) :
    g.BarrenBefore w setting lib (.discard tag first body true) body := by
  rintro d p d' p' ⟨writes, pools, rules⟩
  rw [Expr.emit, Emit.keepOne] at writes
  have tame := Emit.Tame.within first first.emit_tame
  have tame' := Emit.Tame.within body body.emit_tame
  obtain ⟨d₂, w₁, size, hosts⟩ := Emit.hosts_block
    (fun exit => tame.bind fun _ => (Emit.Tame.leaveOnFailure exit).bind fun _ => tame') writes
  obtain ⟨_, d₃, p₃, w₂, wa⟩ := Emit.writes_bind.1 w₁
  obtain ⟨_, d₁, p₁, w₃, w₄⟩ := Emit.writes_bind.1 wa
  obtain ⟨rfl, rfl⟩ := Emit.writes_leaveOnFailure.1 w₃
  have realizes := first.embeds _ _ _ _ w₂
  refine ⟨_, _, d₂, w₄, size, fun f h => (hosts f h).1, ?_⟩
  rintro site env σ rounds n v s ⟨rfl, code, begins, visits⟩ reads
  have start := (hosts _ code).1.back (tame'.draft w₄)
  have begins' : site.Begins (Emit.entered d.addLabel) env σ :=
    ⟨begins.size, begins.inside, begins.knows⟩
  obtain ⟨_, rfl⟩ := refers
  have reading := reads.blind
  obtain ⟨k, σ', leads, shown, inside⟩ := realizes.arrives start.add (pools.back (tame'.pools w₄))
    serves.fits serves.plain rules serves.respects visits begins' (n := n) (v := v) (s := s) (by
      rwa [Layout.read_plain serves.plain, Expr.meaning])
  obtain ⟨stop, rfl, barren⟩ := woven.barren numbers names named serves reading
  obtain ⟨status, -, same⟩ := shown
  refine ⟨k + 1, σ', leads.trans (.step ?_ (.refl _)), same, barren (same ▸ inside)⟩
  -- Behind its first part the code does not leave.
  have passes : (site.frame (d₃.code.size + 1) σ').holds .notStatus = .ok false := by
    rw [Frame.holds]
    exact congrArg (fun b => Except.ok (!b)) status
  rw [Site.size_add]
  exact { site with memoize := true : Site }.step_next start.instr (Exec.lift_bind passes _ _) rfl

/-- **Ignored content is skipped as far as it goes.** In a program made of a description all
expressions that skip come to rest. If some rules are ignored, then none of them reads anything
behind a match of a rule that is not ignored, and none does where the body of a start rule
begins. -/
theorem skips_maximally {description : Description} {text : String} {natives : List String}
    {before g : Grammar} {maxBlocks identity identity' : Nat} {program : Program}
    (lowered : description.lower text = .ok before) (analyzed : before.analyze natives = .ok g)
    (compiled : g.compile maxBlocks identity = .ok (program, identity')) :
    ∃ ls, g.Numbers program ls ∧
      ∀ (setting : Setting) (lib : Host.Library), setting.program = program →
        setting.bytes.size < 2 ^ 63 → contents.Respects lib →
        let w := setting.world (g.naming program ls) false (some false)
        (∀ tag items, Expr.SkippedWhole w setting lib tag items) ∧
        ((∃ x ∈ g.definitions, x.ignored = true) →
          (∀ x ∈ g.definitions, x.ignored = false → x.synthetic = false →
            x.body.Every fun e => e.IsMatch → g.BarrenBehind w setting lib e) ∧
          ∀ x ∈ g.definitions, x.isStartRule = true → ∃ tag first body,
            x.body = .discard tag first body true ∧ g.BarrenBefore w setting lib x.body body) := by
  obtain ⟨ls, numbers, fits⟩ := fits_of_compile compiled
  have names := (analyzed_of_analyze (Description.lower_raw lowered) analyzed).names
  refine ⟨ls, numbers, fun setting lib same small respects => ?_⟩
  subst same
  have serves :
      (setting.world (g.naming setting.program ls) false (some false)).Serves setting lib :=
    ⟨fits setting false (some false) rfl small (by simp), rfl, respects⟩
  refine ⟨Expr.skipped_whole serves, fun ⟨y, mem, ignored⟩ => ?_⟩
  have woven := woven_of_analyze lowered analyzed mem ignored
  refine ⟨fun x mem heeded real => ?_, fun x mem start => ?_⟩
  · exact (woven.matches' x mem heeded real).mono fun e skips isMatch =>
      woven.behind numbers names rfl serves isMatch skips
  · obtain ⟨tag, first, body, shape, refers⟩ := woven.starts x mem start
    rw [shape]
    exact ⟨tag, first, body, rfl, woven.before numbers names rfl serves refers⟩

end Grammar

end Skipping

/-! ### An example -/

/-- A parse meets the body of a rule without parameters where its function begins. -/
theorem Definition.Written.meets [Regex.Engine] {x : Definition} {rules : List (String × Nat)}
    {maxBlocks k : Nat} (h : x.Written setting.program rules maxBlocks k) (params : x.paramList = [])
    (fits : x.body.numBlocks ≤ maxBlocks - 1) (named : w.naming.rules = rules)
    (blind : ∀ entry n, Machine.Indifferent setting lib true ⟨[entry], ∅, n⟩) {pos : Nat}
    (inside : pos ≤ setting.bytes.size) (n : Nat) :
    ∃ (d d' : Draft) (p p' : Pools) (site : Site) (σ : Moment),
      x.body.Stands w setting d p d' p' ∧ p.rule = x.name ∧
      site.Meets setting lib d d' [] σ ∧ d.code.size = 0 ∧ σ.pos = pos := by
  obtain ⟨f, draft, p, p', known, done, writes, pools, rfl, rule⟩ := h
  obtain ⟨hosts, -, given, -, -⟩ := Draft.function_eq_ok done
  have inPlace : x.body.emit.Writes (.begin (ruleFunction x.name) x.paramList maxBlocks) p () draft
      p' := (congrFun (Emit.within_fits fits).symm p).trans writes
  have grown := (Emit.Tame.within x.body x.body.emit_tame).draft writes
  have arity : ([] : List Value).length = f.params.length := by
    rw [given, grown.params]
    exact congrArg List.length params.symm
  refine ⟨_, draft, p, p', ⟨setting, true, k, f, known, none, []⟩,
    ⟨false, .none, pos, ([] ++ List.replicate f.slots Value.none).toArray, ∅, n⟩,
    ⟨inPlace, pools, named⟩, rule, ⟨rfl, hosts, ⟨by simp, inside, ?_⟩, ?_⟩, rfl, rfl⟩
  · rw [params]
    exact Draft.knows_begin rfl
  · exact ⟨k, [], pos, n, _, 0, Machine.enter_ok known arity, blind _ _, .refl _⟩

/-- Spaces are ignored around a letter. -/
def Description.spaced : Description := .statements [
  .rule ⟨"space", none, .str .nowhere " " false false, true, .nowhere⟩,
  .rule ⟨"start", none, .str .nowhere "a" false false, false, .nowhere⟩]

/-- Whether a grammar is that of a letter between spaces. -/
def Grammar.isSpaced (g : Grammar) : Bool :=
  match g.definitions with
  | [⟨space, none, .str _ [32] ⟨false, _, false⟩, true, _, false, _, _⟩,
     ⟨start, none, .discard _ _ _ true, false, none, false, _, _⟩,
     ⟨ignored, none, .skip _ [.ref _ part (.rule function)], false, _, true, _, _⟩] =>
    space == "space" && start == "start" && ignored == ignoredRule && part == "space" &&
      function == ruleFunction "space"
  | _ => false

theorem Grammar.eq_of_isSpaced {g : Grammar} (h : g.isSpaced = true) :
    ∃ space start ignored, g.definitions = [space, start, ignored] ∧
      (space.name = "space" ∧ space.params = none ∧ ∃ tag binary,
        space.body = .str tag [32] ⟨false, binary, false⟩) ∧
      (start.isStartRule = true ∧ start.params = none ∧ ∃ tag first body,
        start.body = .discard tag first body true) ∧
      (ignored.name = ignoredRule ∧ ignored.params = none ∧ ∃ tag tag',
        ignored.body = .skip tag [.ref tag' "space" (.rule (ruleFunction "space"))]) ∧
      space.ignored = true := by
  unfold isSpaced at h
  split at h
  · next same =>
      simp only [Bool.and_eq_true, beq_iff_eq] at h
      obtain ⟨⟨⟨⟨rfl, rfl⟩, rfl⟩, rfl⟩, rfl⟩ := h
      have starts : (isStart "start" && !false && true) = true := by decide +kernel
      exact ⟨_, _, _, same, ⟨rfl, rfl, _, _, rfl⟩, ⟨starts, rfl, _, _, _, rfl⟩,
        ⟨rfl, rfl, _, _, rfl⟩, rfl⟩
  · cases h

/-- What is ignored before the letter is one space. -/
theorem Grammar.Numbers.skips_space [Regex.Engine] {g : Grammar} {ls : List Layout}
    (numbers : g.Numbers setting.program ls) (names : (g.definitions.map (·.name)).Nodup)
    (named : w.naming = g.naming setting.program ls) (plain : w.memoize = false)
    (bytes : w.bytes = ⟨#[32, 97]⟩) (text : w.isBinary = false) (spaced : g.isSpaced = true)
    (rule : String) (n : Nat) :
    (w.scene rule 3).callRule (ruleFunction ignoredRule) 0 (.start n) =
      some (.ok (.success .none 1, .start n)) := by
  obtain ⟨space, start, ignored, all, ⟨name, params, tag, binary, body⟩, -, skip, -⟩ :=
    Grammar.eq_of_isSpaced spaced
  obtain ⟨name', params', tag', tag'', body'⟩ := skip
  obtain ⟨r, mem⟩ := numbers.entry (x := space) (by simp [all])
  obtain ⟨r', mem'⟩ := numbers.entry (x := ignored) (by simp [all])
  obtain ⟨l, reads⟩ := numbers.run_body named plain mem (by simp [Definition.paramList, params])
  obtain ⟨l', reads'⟩ := numbers.run_body named plain mem' (by simp [Definition.paramList, params'])
  rw [← name', numbers.callRule names named mem', reads', body']
  have part (layout : Layout) (pos : Nat) (s : Store) :
      Expr.reads (.ref tag'' "space" (.rule (ruleFunction "space"))) (w.scene ignored.name 2) []
        layout pos s =
      (Expr.str tag [32] ⟨false, binary, false⟩).meaning (w.scene space.name 1) [] l pos s := by
    have call : (Expr.ref tag'' "space" (.rule (ruleFunction "space"))).meaning
        (w.scene ignored.name 2) [] layout pos =
        (w.scene ignored.name 2).callRule (ruleFunction "space") pos := by rw [Expr.meaning]
    rw [Expr.reads, Layout.read_plain plain, call, ← name, numbers.callRule names named mem, reads,
      body]
  have finds (layout : Layout) : Reading.Finds
      (Expr.reads (.ref tag'' "space" (.rule (ruleFunction "space"))) (w.scene ignored.name 2) []
        layout) 0 (.start n) (.str " ") 1 (.start n) := by
    have found : bytesAt w.bytes 0 [32] = true := by rw [bytes]; decide +kernel
    have letter : Input.excise w.isBinary w.bytes 0 1 = .str " " := by rw [bytes, text]; rfl
    rw [Reading.Finds, part, Expr.meaning, ← letter]
    simp only [World.scene, found, Bool.false_eq_true, if_false, if_true]
    rfl
  have misses (layout : Layout) : Reading.Misses
      (Expr.reads (.ref tag'' "space" (.rule (ruleFunction "space"))) (w.scene ignored.name 2) []
        layout) 1 (.start n) (.start n) := by
    have missed : bytesAt w.bytes 1 [32] = false := by rw [bytes]; decide +kernel
    refine ⟨⟨space.name, Expr.text (.str tag [32] ⟨false, binary, false⟩),
      .literal (String.ofList (Expr.literalChars [32] binary))⟩, 1, ?_⟩
    rw [part, Expr.meaning]
    simp only [World.scene, missed, Bool.false_eq_true, if_false]
    rfl
  exact Expr.meaning_skip.2 ⟨1, rfl, .step (.here (finds _) (by decide))
    (.rests (.cons (.inl (misses _)) .nil))⟩

theorem Description.spaced_compiles : (match Description.spaced.lower "" with
    | .error _ => false
    | .ok before =>
      match before.analyze [] with
      | .error _ => false
      | .ok g => g.isSpaced && match g.compile 2 0 with
        | .error _ => false
        | .ok (program, _) => program.functions.all fun f => f.code.all fun i => !i.runsHost) =
    true := by
  decide +kernel

/-- From the beginning of the start rule a parse passes over the space, and behind it nothing is
ignored any more. -/
theorem Grammar.skips_maximally_spaced :
    ∃ before g program n, Description.spaced.lower "" = .ok before ∧
      before.analyze [] = .ok g ∧ g.compile 2 0 = .ok (program, n) ∧
      ∃ (site : Site) (σ σ' : Moment) (pc k : Nat),
        site.setting = program.given ⟨#[32, 97]⟩ ∧
        site.setting.Visits .blind (site.machine 0 σ) ∧ σ.pos = 0 ∧
        Machine.Leads site.setting true k (site.machine 0 σ) (site.machine pc σ') ∧ σ'.pos = 1 ∧
        site.setting.Barren .blind g 1 := by
  have evaluated := Description.spaced_compiles
  cases lowered : Description.spaced.lower "" with
  | error e => simp [lowered] at evaluated
  | ok before =>
    cases analyzed : before.analyze [] with
    | error e => simp [lowered, analyzed] at evaluated
    | ok g =>
      cases compiled : g.compile 2 0 with
      | error e => simp [lowered, analyzed, compiled] at evaluated
      | ok out =>
        obtain ⟨program, n⟩ := out
        simp only [lowered, analyzed, compiled, Bool.and_eq_true] at evaluated
        obtain ⟨spaced, hostless⟩ := evaluated
        refine ⟨before, g, program, n, rfl, analyzed, compiled, ?_⟩
        obtain ⟨space, start, ignored, all, -, ⟨starts, params, tag, first, body, shape⟩, -,
          ignores⟩ := Grammar.eq_of_isSpaced spaced
        have names := (analyzed_of_analyze (Description.lower_raw lowered) analyzed).names
        obtain ⟨ls, numbers, skips⟩ := skips_maximally lowered analyzed compiled
        have known : ∀ x ∈ g.definitions.zip program.rules,
            x.1.Written program (g.naming program ls).rules 2 x.2.function := by
          obtain ⟨_, -, -, -, -, written⟩ := numbers_of_compile compiled
          exact written
        obtain ⟨r, mem⟩ := numbers.entry (x := start) (by simp [all])
        have hostless' : ∀ f ∈ program.functions, ∀ i ∈ f.code, i.runsHost = false := by
          intro f hf i hi
          have code := Array.all_eq_true_iff_forall_mem.1 hostless f hf
          simpa using Array.all_eq_true_iff_forall_mem.1 code i hi
        obtain ⟨d, d', p, p', site, σ, stands, rule, meets, zero, here⟩ :=
          @Definition.Written.meets ((program.given ⟨#[32, 97]⟩).world (g.naming program ls) false
            (some false)) (program.given ⟨#[32, 97]⟩) .blind _ _ _ _ _ (known (start, r) mem)
            (by simp [Definition.paramList, params]) (by rw [shape]; exact Nat.le_refl 1) rfl
            (fun _ _ => Machine.indifferent_of_hostless hostless' _ _ _)
            _ (show 0 ≤ 2 from Nat.zero_le 2) 0
        obtain ⟨-, barren⟩ := skips (program.given ⟨#[32, 97]⟩) .blind rfl
          (show 2 < 2 ^ 63 by decide)
          Host.Library.respects_blind
        obtain ⟨-, starting⟩ := barren ⟨space, by simp [all], ignores⟩
        obtain ⟨_, _, body', -, before_⟩ := starting start (by simp [all]) starts
        obtain ⟨d₁, _, _, -, -, -, arrives⟩ := before_ d p d' p' stands
        have reading (lib : Host.Library) := @Grammar.Numbers.skips_space
          (World.using ((program.given ⟨#[32, 97]⟩).world (g.naming program ls) false
            (some false)) lib) (program.given ⟨#[32, 97]⟩) _ g ls numbers
          names rfl rfl rfl rfl spaced p.rule 0
        obtain ⟨k, σ', leads, place, nothing⟩ := arrives site [] σ 3 0 (.success .none 1) (.start 0)
          meets (by rw [here]; exact ⟨reading _, reading _⟩)
        obtain ⟨same, -, -, visits⟩ := meets
        rw [zero] at leads visits
        exact ⟨site, σ, σ', _, k, same, same ▸ visits, here, same ▸ leads, place, same ▸ nothing⟩

/-- A grammar that skips what its third rule has come to, if two functions are equal, and a letter
behind it. The third rule skips in the same way; the last one does so twice at the same place. -/
def Grammar.wavering : Grammar where
  definitions := [
    { name := "k", params := none
      body := .host ⟨1, .nowhere⟩ ⟨"lambda x: x", .lambda ["x"] (.name "x"), []⟩
      ignored := false, fields := none, synthetic := false, source := "", span := .nowhere },
    { name := "sk", params := some ["x"]
      body := .skip ⟨2, .nowhere⟩
        [.discard ⟨3, .nowhere⟩
          (.discard ⟨4, .nowhere⟩
            (.satisfying ⟨5, .nowhere⟩
              (.seq ⟨6, .nowhere⟩ [.ref ⟨7, .nowhere⟩ "k" (.rule (ruleFunction "k")),
                .ref ⟨8, .nowhere⟩ "k" (.rule (ruleFunction "k"))] none)
              (.host ⟨9, .nowhere⟩ ⟨"lambda p: p[0] == p[1]", .lambda ["p"]
                (.compare (.index (.name "p") (.literal (.int 0)))
                  [(.eq, .index (.name "p") (.literal (.int 1)))]), []⟩))
            (.ref ⟨10, .nowhere⟩ "f" (.rule (ruleFunction "f"))) true)
          (.str ⟨11, .nowhere⟩ [120] ⟨false, false, false⟩) true]
      ignored := false, fields := none, synthetic := false, source := "", span := .nowhere },
    { name := "f", params := none
      body := .call ⟨12, .nowhere⟩ "sk"
        [(none, .host ⟨13, .nowhere⟩ ⟨"1", .literal (.int 1), []⟩)] (.rule (ruleFunction "sk"))
      ignored := false, fields := none, synthetic := false, source := "", span := .nowhere },
    { name := "start", params := none
      body := .seq ⟨14, .nowhere⟩
        [.ref ⟨15, .nowhere⟩ "f" (.rule (ruleFunction "f")),
          .expect ⟨16, .nowhere⟩ (.str ⟨17, .nowhere⟩ [120] ⟨false, false, false⟩),
          .call ⟨18, .nowhere⟩ "sk"
            [(none, .host ⟨19, .nowhere⟩ ⟨"1", .literal (.int 1), []⟩)]
            (.rule (ruleFunction "sk"))] none
      ignored := false, fields := none, synthetic := false, source := "", span := .nowhere }]
  sections := []

/-- Whether a run has come to nothing at a place. -/
def Outcome.isNone (pos : Nat) : Outcome → Bool
  | ⟨true, .none, p⟩ => p == pos
  | _ => false

theorem Outcome.eq_of_isNone {pos : Nat} {o : Outcome} (h : o.isNone pos = true) :
    o = ⟨true, .none, pos⟩ := by
  unfold isNone at h
  split at h
  · rw [eq_of_beq h]
  · cases h

/-- Two calls of a function in a parse, one after the other, with the same argument at the same
place. -/
inductive Setting.CallsTwice (setting : Setting) (entry pos identity function : Nat) (arg : Value)
    (o o' : Outcome) : Prop
  | intro {start : Frame} {k k' : Nat} {m m₁ m' m₂ : Machine}
      (enters : Machine.enter setting entry [] pos none = .ok start)
      (begins : Machine.Leads setting true k ⟨[start], ∅, identity⟩ m)
      (first : Machine.Calls setting function arg m pos o m₁)
      (onward : Machine.Leads setting true k' m₁ m')
      (second : Machine.Calls setting function arg m' pos o' m₂)

/-- Whether the rule that skips, called twice by the last one, goes further the second time. -/
def Grammar.wavers (setting : Setting) (n : Nat) : Bool :=
  match Machine.enter setting 3 [] 0 none with
  | .error _ => false
  | .ok start =>
    match Machine.Listed.after setting 3 ⟨[start], [], n⟩ with
    | none => false
    | some m =>
      match m.call? setting 1 25 with
      | some (.int 1, 0, ⟨true, .none, 0⟩, m) =>
        match m.after setting 10 with
        | none => false
        | some m =>
          match m.call? setting 1 75 with
          | some (.int 1, 0, ⟨true, .none, 1⟩, _) => true
          | _ => false
      | _ => false

theorem Grammar.callsTwice_of_wavers {setting : Setting} {n : Nat} (h : wavers setting n = true) :
    setting.CallsTwice 3 0 n 1 (.int 1) ⟨true, .none, 0⟩ ⟨true, .none, 1⟩ := by
  unfold wavers at h
  split at h
  · cases h
  · next start enters =>
      split at h
      · cases h
      · next m begins =>
          split at h
          · next m₁ first =>
              split at h
              · cases h
              · next m' onward =>
                  split at h
                  · next m₂ second =>
                      obtain ⟨_, begins, lists⟩ := Machine.leads_of_listed .empty begins
                      obtain ⟨_, first, lists⟩ := Machine.calls_of_listed lists first
                      obtain ⟨_, onward, lists⟩ := Machine.leads_of_listed lists onward
                      obtain ⟨_, second, -⟩ := Machine.calls_of_listed lists second
                      exact ⟨enters, begins, first, onward, second⟩
                  · cases h
          · cases h

theorem Grammar.wavering_evaluates : (match Grammar.wavering.compile 8 0 with
    | .error _ => false
    | .ok (program, n) =>
      let setting := program.given ⟨#[120]⟩
      Setting.comesTo (fun o => o.status && o.pos == 0) (setting.runFor false 200 3 [] 0 n) &&
      Setting.comesTo (fun o => o.status && o.pos == 1) (setting.runListed 200 3 [] 0 n) &&
      Setting.comesTo (·.isNone 0) (setting.runFor false 200 1 [.int 1] 0 n) &&
      wavers setting n) = true := by
  decide +kernel

/-- Without a memo table what skips stays before the letter, and so it does when the third rule runs
it in a parse. When the parse runs it once more from there it passes over the letter: the two
functions are one by then, and the third rule is not at work any more. -/
theorem Grammar.skips_further_wavering :
    ∃ program n o o' n₁ n₂ n₃, Grammar.wavering.compile 8 0 = .ok (program, n) ∧
      (program.given ⟨#[120]⟩).Ends false 3 [] 0 n (.ok (o, n₁)) ∧
      (program.given ⟨#[120]⟩).Ends true 3 [] 0 n (.ok (o', n₂)) ∧
      (o.status && o.pos == 0) = true ∧ (o'.status && o'.pos == 1) = true ∧
      (program.given ⟨#[120]⟩).Ends false 1 [.int 1] 0 n (.ok (⟨true, .none, 0⟩, n₃)) ∧
      (program.given ⟨#[120]⟩).CallsTwice 3 0 n 1 (.int 1) ⟨true, .none, 0⟩ ⟨true, .none, 1⟩ := by
  have evaluated := Grammar.wavering_evaluates
  cases compiled : Grammar.wavering.compile 8 0 with
  | error e =>
      rw [compiled] at evaluated
      cases evaluated
  | ok p =>
      obtain ⟨program, n⟩ := p
      simp only [compiled, Bool.and_eq_true] at evaluated
      obtain ⟨⟨⟨plain, remembered⟩, alone⟩, wavers⟩ := evaluated
      obtain ⟨o, n₁, run, shape⟩ := Setting.eq_ok_of_comesTo plain
      obtain ⟨o', n₂, run', shape'⟩ := Setting.eq_ok_of_comesTo remembered
      obtain ⟨o₃, n₃, run₃, shape₃⟩ := Setting.eq_ok_of_comesTo alone
      obtain rfl := Outcome.eq_of_isNone shape₃
      exact ⟨program, n, o, o', n₁, n₂, n₃, rfl, .of_runFor run, .of_runListed run',
        by simpa using shape, by simpa using shape', .of_runFor run₃, callsTwice_of_wavers wavers⟩

end Packrat
