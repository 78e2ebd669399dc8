import Packrat.Proofs.Places.Nodes
import Packrat.Proofs.Recursion.Transparency
import Packrat.Proofs.Splitting.Globals
import Packrat.Proofs.Splitting.Programs

/-
**What is parsed does not depend on the nesting budget.**

A part of an expression that has become a function of its own is remembered, and it is refused where it
is called while it is at work.  If a parse comes to an end without a memo table neither makes a
difference: two parsers of one description that differ in their nesting budgets come to values of the
same shape, or to the same report.  Where a function that takes arguments begins with itself, with other
arguments, the budget does matter.

Main definitions:

* `Packrat.Outcome.Corresponds` — outcomes of two programs that report the same;
* `Packrat.Parser.Indifferent` — parses in which host code sees no more than another library;
* `Packrat.Parser.SameResult` — parses that come to the same.

Main results:

* `Packrat.World.Like.ends` — runs of worlds that are alike end alike;
* `Packrat.Value.Placed.alike` — values of the same shape are put in the same places;
* `Packrat.Parser.splitting_agrees` — **parses of two parsers that differ in their nesting budgets**.
-/

set_option autoImplicit false

namespace Packrat

open Likeness (Alike AlikeAll shape contents)

/-! ### Outcomes -/

/-- Outcomes of two programs that report the same: successes at the same place with values of the same
shape, or failures at the same place that are entered alike. -/
inductive Outcome.Corresponds (program program' : Program) : Outcome → Outcome → Prop
  | success {v w : Value} (same : Alike shape v w) (stop : Nat) :
      Outcome.Corresponds program program' ⟨true, v, stop⟩ ⟨true, w, stop⟩
  | failure {i j : Nat} {entry : FailureEntry} (known : program.failures[i]? = some entry)
      (known' : program'.failures[j]? = some entry) (place : Nat) :
      Outcome.Corresponds program program' ⟨false, .failure i, place⟩ ⟨false, .failure j, place⟩

/-- Ends of runs of two programs that report the same. -/
inductive SameEnd (program program' : Program) :
    Except Failure (Outcome × Nat) → Except Failure (Outcome × Nat) → Prop
  | outcome {o o' : Outcome} (same : o.Corresponds program program' o') (n n' : Nat) :
      SameEnd program program' (.ok (o, n)) (.ok (o', n'))
  | host (e : Host.Error) : SameEnd program program' (.error (.host e)) (.error (.host e))

variable {program program' : Program}

/-- Identities have no part in what an outcome reports. -/
theorem Outcome.Corresponds.like {o o' q q' : Outcome} (h : o.Corresponds program program' o')
    (l : o.Like q) (l' : o'.Like q') : q.Corresponds program program' q' := by
  obtain ⟨status, result, pos⟩ := q
  obtain ⟨status', result', pos'⟩ := q'
  obtain ⟨rfl, contents, rfl⟩ := l
  obtain ⟨rfl, contents', rfl⟩ := l'
  cases h with
  | success same stop =>
      have left : Alike shape _ result := (shape.finer id).alike contents
      have right : Alike shape _ result' := (shape.finer id).alike contents'
      exact .success (shape.euclidean.join left (shape.euclidean.trans shape.reflexive same right)) stop
  | failure known known' place =>
      cases contents
      cases contents'
      exact .failure known known' place

/-! ### Runs -/

section

variable {L : Likeness} {w w' : World} {setting setting' : Setting} {f f' pos n n' : Nat}

/-- A function that is given nothing is never stuck. -/
theorem World.Ready.unstuck [Regex.Engine] {signatures : Signatures} {before : Heap} {nested : Prop}
    (ready : w.Ready signatures before nested) (callable : ∃ c, w.naming.closure? f = some c)
    (later : before.next ≤ n) (inside : pos ≤ w.bytes.size) (rounds : Nat) :
    w.run rounds f [] pos (.start n) ≠ some (.error .stuck) := by
  have meets := run_meets (h := ⟨before.node, n⟩) ready rounds callable (fun _ => rfl) .nil inside
  exact meets.unstuck _
    ⟨rfl, ⟨later, fun _ _ => rfl⟩, (fun _ _ found => nomatch found), .empty fun _ => rfl⟩

/-- Runs of functions that go together end alike, where nothing is remembered. -/
theorem World.Like.ends [Regex.Engine] (like : World.Like L w w') (closures : ¬L.closures)
    (fits : w.Fits setting) (fits' : w'.Fits setting') (functions : L.functions f f')
    (counters : L.counters n n') (inside : pos ≤ setting.bytes.size) {rounds : Nat}
    {out : Except Stop (Verdict Value × Store)} (read : w.run rounds f [] pos (.start n) = some out)
    (unstuck : out ≠ .error .stuck) : ∃ r r', setting.Ends false f
    [] pos n r ∧ setting'.Ends false f' [] pos n' r' ∧
      SameEnd setting.program setting'.program r r' := by
  have agrees := like.call rounds functions .nil pos (.start n) (.start n') counters
  rw [call_plain like.plain, call_plain like.plain', read] at agrees
  have shows : setting.Shows w.memoize rounds f [] pos n _ := World.shows fits inside rounds n
  have inside' : pos ≤ setting'.bytes.size := by
    rw [← fits'.bytes, like.bytes, fits.bytes]
    exact inside
  have shows' : setting'.Shows w'.memoize rounds f' [] pos n' _ := World.shows fits' inside' rounds n'
  rw [like.plain, read] at shows
  rw [like.plain'] at shows'
  revert agrees shows'
  generalize w'.run rounds f' [] pos (.start n') = out'
  intro agrees shows'
  cases agrees with
  | some agree =>
      cases agree with
      | error e =>
          cases e with
          | host e => exact ⟨_, _, shows, shows', .host e⟩
          | stuck => exact absurd rfl unstuck
      | @ok x y related =>
          obtain ⟨v, s⟩ := x
          obtain ⟨v', s'⟩ := y
          obtain ⟨o, ends, leaves⟩ := shows
          obtain ⟨o', ends', leaves'⟩ := shows'
          obtain ⟨verdicts, -⟩ := related
          refine ⟨_, _, ends, ends', .outcome ?_ _ _⟩
          cases verdicts with
          | success same stop =>
              obtain ⟨rfl, -⟩ := leaves
              obtain ⟨rfl, -⟩ := leaves'
              exact .success ((shape.finer closures).alike same) stop
          | failure entry place =>
              obtain ⟨i, rfl, known, -⟩ := leaves
              obtain ⟨j, rfl, known', -⟩ := leaves'
              exact .failure known known' place

end

namespace Setting

variable {setting setting' : Setting} {lib : Host.Library} {memoize : Bool} {f f' pos n n' : Nat}
variable {args : List Value} {r r' : Except Failure (Outcome × Nat)}

/-- A run comes to the same with a library that is told apart nowhere in it. -/
theorem runFor_using (same : ∀ entry, Machine.enter setting f args pos none = .ok entry →
    Machine.Indifferent setting lib memoize ⟨[entry], ∅, n⟩) (fuel : Nat) :
    (setting.using lib).runFor memoize fuel f args pos n = setting.runFor memoize fuel f args pos n := by
  have enters : Machine.enter (setting.using lib) f args pos none =
    Machine.enter setting f args pos none := rfl
  rw [runFor, runFor, enters]
  cases entered : Machine.enter setting f args pos none with
  | error e => simp only [bind, Except.bind]
  | ok entry =>
      rw [ok_bind rfl, ok_bind rfl]
      exact (same entry entered).run fuel

/-- With a memo table, too, runs end alike that do so without one. -/
theorem sameEnd_remembered (respects : contents.Respects lib)
    (same : ∀ memoize entry, Machine.enter setting f [] pos none = .ok entry →
      Machine.Indifferent setting lib memoize ⟨[entry], ∅, n⟩)
    (same' : ∀ memoize entry, Machine.enter setting' f' [] pos none = .ok entry →
      Machine.Indifferent setting' lib memoize ⟨[entry], ∅, n'⟩)
    (ends : setting.Ends false f [] pos n r) (ends' : setting'.Ends false f' [] pos n' r')
    (h : SameEnd setting.program setting'.program r r') :
    ∃ q q', setting.Ends true f [] pos n q ∧ setting'.Ends true f' [] pos n' q' ∧
      SameEnd setting.program setting'.program q q' := by
  obtain ⟨outcomes, errors, -⟩ := ends_remembered respects same
  obtain ⟨outcomes', errors', -⟩ := ends_remembered respects same'
  cases h with
  | outcome corresponds k k' =>
      obtain ⟨o, m, ends, like⟩ := outcomes _ _ ends
      obtain ⟨o', m', ends', like'⟩ := outcomes' _ _ ends'
      exact ⟨_, _, ends, ends', .outcome (corresponds.like like like') m m'⟩
  | host e => exact ⟨_, _, errors e ends, errors' e ends', .host e⟩

end Setting

/-! ### Places -/

namespace Value

variable {place : Nat → Position}

mutual

/-- Values of the same shape are put in the same places. -/
theorem Placed.alike {v w out out' : Value} (same : Alike shape v w) (h : Placed place v out)
    (h' : Placed place w out') : Alike shape out out' := by
  cases same with
  | list _ items =>
      cases h with
      | scalar list => exact absurd rfl (list _ _)
      | list _ id all =>
          cases h' with
          | scalar list => exact absurd rfl (list _ _)
          | list _ id' all' => exact .list trivial (PlacedAll.alike items all all')
  | node _ cls values extent? =>
      cases h with
      | scalar _ node => exact absurd rfl (node _ _ _ _)
      | node _ id _ _ all =>
          cases h' with
          | scalar _ node => exact absurd rfl (node _ _ _ _)
          | node _ id' _ _ all' => exact .node trivial cls (PlacedAll.alike values all all') _
  | _ =>
      cases h
      cases h'
      constructor <;> assumption

theorem PlacedAll.alike {vs ws outs outs' : List Value} (same : AlikeAll shape vs ws)
    (h : PlacedAll place vs outs) (h' : PlacedAll place ws outs') : AlikeAll shape outs outs' := by
  cases same with
  | nil =>
      cases h
      cases h'
      exact .nil
  | cons head tail =>
      cases h with
      | cons first rest =>
          cases h' with
          | cons first' rest' => exact .cons (Placed.alike head first first') (PlacedAll.alike tail rest rest')

end

end Value

/-! ### Parses -/

namespace Parser

/-- Parses that come to the same: to values of the same shape, be they all that was read or a part of it,
or to the same report, or to the same error of host code. -/
inductive SameResult : Except Failure (Value × Nat) → Except Failure (Value × Nat) → Prop
  | value {v w : Value} (same : Alike shape v w) (n m : Nat) : SameResult (.ok (v, n)) (.ok (w, m))
  | incomplete {report : PartialParse} {w : Value} (same : Alike shape report.result w) :
      SameResult (.error (.incomplete report)) (.error (.incomplete { report with result := w }))
  | failed (report : ParseFailure) : SameResult (.error (.parse report)) (.error (.parse report))
  | stopped (e : Host.Error) : SameResult (.error (.host e)) (.error (.host e))

/-- Host code sees no more in a parse, with a memo table or without one, than another library would. -/
def Indifferent (p : Parser) (lib : Host.Library) (rule : RuleEntry) (input : Input)
    (pos identity : Nat) : Prop :=
  ∀ memoize entry, Machine.enter (p.setting input) rule.function [] pos none = .ok entry →
    Machine.Indifferent (p.setting input) lib memoize ⟨[entry], ∅, identity⟩

variable {options : Options} {natives : Host.Natives} {description : String} {p p' : Parser}
variable {n n' k k' : Nat} {rule : RuleEntry} {input : Input} {pos identity identity' : Nat}
variable {full : Bool}

/-- A success that leaves input over is reported with what was parsed, in its places. -/
theorem conclude_left [Text.Display] {v out : Value} {stop : Nat}
    (becomes : (v.resolvePlaces (LineTable.ofInput input) input).run n = (out, n'))
    (left : (full && decide (stop < input.size)) = true) : p.conclude input full ⟨true, v, stop⟩ n =
      .error (.incomplete (p.incompleteReport input (LineTable.ofInput input) out stop)) := by
  simp only [conclude, if_true, left, bind, StateT.bind, StateT.run] at becomes ⊢
  rw [becomes]
  rfl

/-- Any other success comes to its value, in its places. -/
theorem conclude_whole [Text.Display] {v out : Value} {stop : Nat}
    (becomes : (v.resolvePlaces (LineTable.ofInput input) input).run n = (out, n'))
    (whole : (full && decide (stop < input.size)) = false) :
    p.conclude input full ⟨true, v, stop⟩ n = .ok (out, n') := by
  simp only [conclude, if_true, whole, bind, StateT.bind, StateT.run] at becomes ⊢
  rw [becomes]
  rfl

theorem incompleteReport_eq [Text.Display] (width : p'.excerptWidth = p.excerptWidth)
    (table : LineTable) (v : Value) (stop : Nat) :
    p'.incompleteReport input table v stop = p.incompleteReport input table v stop := by
  unfold incompleteReport
  rw [width]

theorem failureReport_eq [Text.Display] (width : p'.excerptWidth = p.excerptWidth)
    (table : LineTable) (entry : FailureEntry) (stop : Nat) :
    p'.failureReport input table entry stop = p.failureReport input table entry stop := by
  unfold failureReport
  rw [width]

/-- A value whose nodes are put in their places by a parse that ends at a moment. -/
def Places (input : Input) (n : Nat) (v : Value) : Prop :=
  ∃ out n', (v.resolvePlaces (LineTable.ofInput input) input).run n = (out, n') ∧
    Value.Placed ((LineTable.ofInput input).position input) v out

/-- What outcomes that report the same come to, if the nodes of their values are put in their places. -/
theorem conclude_same [Text.Display] (width : p'.excerptWidth = p.excerptWidth) {o o' : Outcome}
    (same : o.Corresponds p.program p'.program o') (places : o.status = true → Places input k o.result)
    (places' : o'.status = true → Places input k' o'.result) :
    SameResult (p.conclude input full o k) (p'.conclude input full o' k') := by
  cases same with
  | @success v w same stop =>
      obtain ⟨out, m, becomes, placed⟩ := places rfl
      obtain ⟨out', m', becomes', placed'⟩ := places' rfl
      have images := placed.alike same placed'
      cases left : full && decide (stop < input.size) with
      | true =>
          rw [conclude_left becomes left, conclude_left becomes' left,
            incompleteReport_eq width]
          exact @SameResult.incomplete (p.incompleteReport input _ out stop) _ images
      | false =>
          rw [conclude_whole becomes left, conclude_whole becomes' left]
          exact .value images m m'
  | failure known known' place =>
      have fails : p.conclude input full ⟨false, .failure _, place⟩ k = _ := conclude_failed known k
      have fails' : p'.conclude input full ⟨false, .failure _, place⟩ k' = _ :=
        conclude_failed known' k'
      rw [fails, fails', failureReport_eq width]
      exact .failed _

theorem excerptWidth_of_build [Regex.Engine]
    (built : build options natives description n = .ok (p, n')) :
    p.excerptWidth = options.excerptWidth := by
  rw [build] at built
  cases checked : options.check with
  | error e =>
      rw [checked] at built
      cases built
  | ok _ =>
      rw [checked] at built
      obtain ⟨⟨g, n₁⟩, -, built⟩ := Except.bind_eq_ok.1 built
      obtain ⟨⟨program, n₂⟩, -, built⟩ := Except.bind_eq_ok.1 built
      obtain ⟨⟨env, n₃⟩, -, built⟩ := Except.bind_eq_ok.1 built
      obtain ⟨⟨globals, n₄⟩, -, built⟩ := Except.bind_eq_ok.1 built
      obtain ⟨rfl, rfl⟩ := Prod.mk.inj (Except.ok.inj built)
      rfl

/-- What a function of a rule succeeds with is put in its place. -/
theorem places_of_run [Regex.Engine] [Text.Display]
    (built : build options natives description n = .ok (p, n')) (hands : natives.HandOn)
    (mem : rule ∈ p.program.rules) (plain : rule.params.getD [] = []) (small : input.size < 2 ^ 63)
    (later : n' ≤ identity) (inside : pos ≤ input.size) {o : Outcome}
    (run : (p.setting input).run true rule.function [] pos identity = .ok (o, k))
    (succeeds : o.status = true) : Places input k o.result := by
  obtain ⟨status, v, stop⟩ := o
  obtain rfl : status = true := succeeds
  obtain ⟨g, ls, before, -, numbers, rfl, worlds⟩ := ready_of_build built hands
  obtain ⟨fits, ready⟩ := worlds input small
  have comes : p.ComesTo rule [] input pos false identity _ :=
    comesTo_of_run (by rw [plain]; rfl) inside run
  obtain ⟨h', raw, stop', run', -, placed⟩ := placed_of_comesTo (h := ⟨before.node, identity⟩) numbers
    fits (ready False False.elim) mem False.elim ⟨later, fun _ _ => rfl⟩ .nil comes
  have same := run.symm.trans run'
  simp only [Except.ok.injEq, Prod.mk.injEq, Outcome.mk.injEq] at same
  obtain ⟨⟨-, rfl, -⟩, rfl⟩ := same
  exact ⟨_, _, rfl, placed⟩

/-- What is known of two parsers of one description: their programs are those of one grammar, with the same
rules and the same classes. -/
theorem programs_of_build [Regex.Engine] {options' : Options} {start start' : Nat}
    (built : build options natives description start = .ok (p, n))
    (built' : build options' natives description start' = .ok (p', n')) :
    ∃ g : Grammar, g.Analyzed ∧ (∀ d ∈ g.definitions, ∀ c ∈ d.body.children, c.Every (·.cls? = none)) ∧
      (∃ m, g.compile options.maxBlocks start = .ok (p.program, m)) ∧
      (∃ m, g.compile options'.maxBlocks start' = .ok (p'.program, m)) ∧
      p'.program.rules = p.program.rules ∧ p'.program.classes = p.program.classes := by
  obtain ⟨g, program, m, _, _, found, compiled, -, -, rfl, -⟩ := build_eq_ok built
  obtain ⟨g', program', m', _, _, found', compiled', -, -, rfl, -⟩ := build_eq_ok built'
  obtain rfl : g = g' := Except.ok.inj (found.symm.trans found')
  obtain ⟨_, -, h⟩ := Except.bind_eq_ok.1 found
  obtain ⟨lowered, lowers, analyzes⟩ := Except.bind_eq_ok.1 h
  have crowned := Grammar.crowned_of_analyze lowers analyzes
  exact ⟨g, Grammar.analyzed_of_analyze (Description.lower_raw lowers) analyzes, crowned,
    ⟨m, compiled⟩, ⟨m', compiled'⟩,
    Grammar.rules_of_budgets crowned (Grammar.ownClass_of_analyze lowers analyzes) compiled compiled'⟩

/-- Without a memo table, runs of a rule end alike in two parsers of one description. -/
theorem ends_plain [Regex.Engine] {options' : Options} {start start' : Nat}
    (built : build options natives description start = .ok (p, n))
    (built' : build options' natives description start' = .ok (p', n')) (hands : natives.HandOn)
    {compare : Host.Compare} (impartial : ∀ L : Likeness, L.Respects ⟨natives, compare⟩)
    (mem : rule ∈ p.program.rules) (small : input.size < 2 ^ 63) (inside : pos ≤ input.size)
    (later : n ≤ identity) (same : p.Indifferent ⟨natives, compare⟩ rule input pos identity)
    (same' : p'.Indifferent ⟨natives, compare⟩ rule input pos identity') {fuel : Nat}
    (ended : (p.setting input).runFor false fuel rule.function [] pos identity ≠ fault .outOfSteps) :
    ∃ r r', (p.setting input).Ends false rule.function [] pos identity r ∧
      (p'.setting input).Ends false rule.function [] pos identity' r' ∧
      SameEnd p.program p'.program r r' := by
  obtain ⟨g, analyzed, crowned, ⟨_, compiled⟩, ⟨_, compiled'⟩, rules, classes⟩ :=
    programs_of_build built built'
  obtain ⟨ls, numbers, worlds⟩ := Grammar.ready_of_compile analyzed crowned compiled
  obtain ⟨ls', numbers', worlds'⟩ := Grammar.ready_of_compile analyzed crowned compiled'
  let lib : Host.Library := ⟨natives, compare⟩
  obtain ⟨fits, ready⟩ := worlds ((p.setting input).using lib) false rfl small
  obtain ⟨fits', -⟩ := worlds' ((p'.setting input).using lib) false rfl small
  obtain ⟨m, m', globals⟩ := globals_shifted built built' classes impartial
  have like : World.Like (g.facing p.program.rules ls ls')
      (((p.setting input).using lib).world (g.naming p.program ls) false (some false))
      (((p'.setting input).using lib).world (g.naming p'.program ls') false (some false)) := by
    refine Grammar.worlds_alike numbers numbers' rules classes (impartial _) ?_ ?_ ?_ ?_ _
    · rfl
    · exact (Likeness.shifted_finer (fun _ _ => trivial) m m').alikeEnv globals
    · rfl
    · rfl
  have length : p.program.rules.length = g.definitions.length := by
    simpa using congrArg List.length numbers.rules
  rw [← List.map_snd_zip (Nat.le_of_eq length)] at mem
  obtain ⟨⟨d, r⟩, zipped, rfl⟩ := List.mem_map.1 mem
  obtain ⟨before, rfl, on⟩ := globals_on built hands
  have unstuck := (ready before False False.elim hands on).unstuck
    ((numbers.definition zipped).elim fun _ found => ⟨_, found⟩) later inside (fuel + 1)
  have using_ := Setting.runFor_using (same false)
  have using_' := Setting.runFor_using (same' false)
  have shows : Setting.Shows ((p.setting input).using lib) false (fuel + 1) r.function [] pos identity _ :=
    World.shows fits inside (fuel + 1) identity
  revert unstuck shows
  generalize read : World.run _ (fuel + 1) r.function [] pos (.start identity) = out
  intro unstuck shows
  cases out with
  | none =>
      -- A reading gives up only where the machine has not come to its end.
      refine absurd ?_ ended
      rw [← using_]
      exact shows fuel (Nat.lt_succ_self fuel)
  | some out =>
      obtain ⟨e, e', ends, ends', sameEnd⟩ := like.ends id fits fits'
        (Grammar.faces_rule numbers numbers' zipped) trivial inside read fun stuck => unstuck (stuck ▸ rfl)
      exact ⟨e, e', ends.imp fun fuel ends extra => (using_ _).symm.trans (ends extra),
        ends'.imp fun fuel ends extra => (using_' _).symm.trans (ends extra), sameEnd⟩

/-- A parse with a rule that takes no arguments, at a place of the input. -/
theorem parse_begins [Text.Display] (plain : rule.params.getD [] = []) (inside : pos ≤ input.size) :
    p.parse rule input pos full identity =
      ((p.setting input).run true rule.function [] pos identity >>= fun r =>
        p.conclude input full r.1 r.2) := by
  rw [parse, plain]
  change p.runFunction rule.function [] input pos full identity = _
  rw [runFunction, if_neg (Nat.not_lt.2 inside)]
  rfl

/-- A parse that is given enough steps comes to what its run ends with. -/
theorem parse_of_ends [Text.Display] (plain : rule.params.getD [] = []) (inside : pos ≤ input.size)
    {r : Except Failure (Outcome × Nat)}
    (ends : (p.setting input).Ends true rule.function [] pos identity r)
    (enough : p.parse rule input pos full identity ≠ fault .outOfSteps) :
    (p.setting input).run true rule.function [] pos identity = r := by
  refine (ends.or_outOfSteps stepLimit).resolve_right fun short => enough ?_
  rw [parse_begins plain inside, Setting.run_eq, short]
  rfl

/-- **Parses of two parsers that differ in their nesting budgets** come to the same, whatever the rule, the
input and the place where they begin, if the parse with one of them comes to an end without a memo table.
So no function is called on the way that is at work, as in `ends_remembered`.  Host code sees neither
identities nor numbers of functions, functions from outside do not either, and neither parse is out of
steps. -/
theorem splitting_agrees [Regex.Engine] [Text.Display] {budget start start' : Nat}
    (built : build options natives description start = .ok (p, n))
    (built' : build { options with maxBlocks := budget } natives description start' = .ok (p', n'))
    (hands : natives.HandOn) {compare : Host.Compare}
    (impartial : ∀ L : Likeness, L.Respects ⟨natives, compare⟩) (mem : rule ∈ p.program.rules)
    (small : input.size < 2 ^ 63) (later : n ≤ identity) (later' : n' ≤ identity')
    (same : p.Indifferent ⟨natives, compare⟩ rule input pos identity)
    (same' : p'.Indifferent ⟨natives, compare⟩ rule input pos identity') {fuel : Nat}
    (ended : (p.setting input).runFor false fuel rule.function [] pos identity ≠ fault .outOfSteps)
    (enough : p.parse rule input pos full identity ≠ fault .outOfSteps)
    (enough' : p'.parse rule input pos full identity' ≠ fault .outOfSteps) :
    p'.program.rules = p.program.rules ∧
      SameResult (p.parse rule input pos full identity) (p'.parse rule input pos full identity') := by
  obtain ⟨_, -, -, -, -, rules, -⟩ := programs_of_build built built'
  refine ⟨rules, ?_⟩
  cases plain : rule.params.getD [] with
  | cons x params =>
      rw [parse, parse, plain]
      exact .stopped _
  | nil =>
      by_cases inside : pos ≤ input.size
      · obtain ⟨r, r', ends, ends', sameEnd⟩ :=
          ends_plain built built' hands impartial mem small inside later same same' ended
        obtain ⟨q, q', ends, ends', sameEnd⟩ :=
          Setting.sameEnd_remembered (impartial contents) same same' ends ends' sameEnd
        have run := parse_of_ends plain inside ends enough
        have run' := parse_of_ends plain inside ends' enough'
        rw [parse_begins plain inside, parse_begins plain inside, run, run']
        cases sameEnd with
        | outcome corresponds k k' =>
            exact conclude_same ((excerptWidth_of_build built').trans (excerptWidth_of_build built).symm)
              corresponds (places_of_run built hands mem plain small later inside run)
              (places_of_run built' hands (rules ▸ mem) plain small later' inside run')
        | host e => exact .stopped e
      · have outside (q : Parser) (i : Nat) : q.parse rule input pos full i =
            .error (.host (.startBeyondEnd pos input.size)) := by
          rw [parse, plain]
          change q.runFunction rule.function [] input pos full i = _
          rw [runFunction, if_pos (Nat.not_le.1 inside)]
          rfl
        rw [outside, outside]
        exact .stopped _

/-- A success of a run that the machine with a listed memo table comes to, so a parse is not out of
steps. -/
theorem enough_of_listed [Text.Display] {fuel : Nat} (plain : rule.params.getD [] = [])
    (inside : pos ≤ input.size) (limit : fuel ≤ stepLimit)
    (succeeds : Setting.comesTo (·.status)
      ((p.setting input).runListed fuel rule.function [] pos identity) = true) :
    p.parse rule input pos full identity ≠ fault .outOfSteps := by
  obtain ⟨⟨status, v, stop⟩, k, listed, rfl⟩ := Setting.eq_ok_of_comesTo succeeds
  obtain ⟨frame, entered, listed⟩ := Except.bind_eq_ok.1 listed
  rw [parse_begins plain inside, Machine.setting_run_of_listed entered listed limit, ok_bind rfl]
  cases left : full && decide (stop < input.size) with
  | true =>
      rw [conclude_left rfl left]
      exact fun same => nomatch same
  | false =>
      rw [conclude_whole rfl left]
      exact fun same => nomatch same

/-- A grammar that needs two functions more if blocks may not nest three deep. -/
def choosing : String := "start = (\"a\" | \"b\")* >> \"c\""

/-- No instruction of a parser runs host code. -/
def hostless (p : Parser) : Bool := p.program.functions.all fun f => f.code.all fun i => !i.runsHost

theorem choosing_evaluates :
    (match build {} [] choosing 0, build { ({} : Options) with maxBlocks := 2 } [] choosing 0 with
    | .ok (p, n), .ok (p', n') => match p.program.rules with
      | [rule] => rule.params.isNone && p.hostless && p'.hostless &&
          p.program.functions.size + 2 == p'.program.functions.size &&
          Setting.comesTo (·.status)
            ((p.setting (.text "abc")).runFor false 99 rule.function [] 0 n) &&
          Setting.comesTo (·.status)
            ((p.setting (.text "abc")).runListed 99 rule.function [] 0 n) &&
          Setting.comesTo (·.status)
            ((p'.setting (.text "abc")).runListed 99 rule.function [] 0 n')
      | _ => false
    | _, _ => false) = true := by decide +kernel

theorem indifferent_of_hostless (h : p.hostless = true) (lib : Host.Library) (rule : RuleEntry)
    (input : Input) (pos identity : Nat) : p.Indifferent lib rule input pos identity := by
  refine fun memoize entry _ => Machine.indifferent_of_hostless (fun f hf i hi => ?_) lib memoize _
  have code := Array.all_eq_true_iff_forall_mem.1 h f hf
  simpa using Array.all_eq_true_iff_forall_mem.1 code i hi

/-- Two functions have been split off, and the parse comes to the same. -/
theorem splitting_agrees_choosing : ∃ (p p' : Parser) (n n' : Nat) (rule : RuleEntry),
    build {} [] choosing 0 = .ok (p, n) ∧
      build { ({} : Options) with maxBlocks := 2 } [] choosing 0 = .ok (p', n') ∧
      p'.program.functions.size = p.program.functions.size + 2 ∧ rule ∈ p.program.rules ∧
      SameResult (p.parse rule (.text "abc") 0 true n) (p'.parse rule (.text "abc") 0 true n') := by
  have evaluates := choosing_evaluates
  split at evaluates
  · next p n p' n' built built' =>
      split at evaluates
      · next rule rules =>
          simp only [Bool.and_eq_true] at evaluates
          obtain ⟨⟨⟨⟨⟨⟨plain, pure⟩, pure'⟩, size⟩, plainly⟩, listed⟩, listed'⟩ := evaluates
          have plain : rule.params.getD [] = [] := by rw [Option.isNone_iff_eq_none.1 plain]; rfl
          obtain ⟨o, k, run, -⟩ := Setting.eq_ok_of_comesTo plainly
          have mem : rule ∈ p.program.rules := by simp [rules]
          have ended : (p.setting (.text "abc")).runFor false 99 rule.function [] 0 n ≠
              fault .outOfSteps := by rw [run]; exact fun same => nomatch same
          have enough : p.parse rule (.text "abc") 0 true n ≠ fault .outOfSteps :=
            enough_of_listed plain (Nat.zero_le _) (by decide) listed
          have agrees := splitting_agrees built built' (fun _ _ found => nomatch found)
            (fun L => @Host.Library.respects_blind L) mem (by decide) (Nat.le_refl n) (Nat.le_refl n')
            (indifferent_of_hostless pure _ rule _ 0 n) (indifferent_of_hostless pure' _ rule _ 0 n')
            ended enough (enough_of_listed plain (Nat.zero_le _) (by decide) listed')
          exact ⟨p, p', n, n', rule, built, built', (eq_of_beq size).symm, mem, agrees.2⟩
      · cases evaluates
  · cases evaluates

/-- A rule with an argument that begins with itself, with another argument. -/
def shadowing : String :=
  "start = foo(`0`)\n" ++
  "bar = foo(`1`) | \"y\"\n" ++
  "foo(x) = ((bar |> `lambda v: [v]`) | \"q\") where `lambda v: True`"

/-- Whether a value is a text, and whether it is a list of nothing but that. -/
def isText (s : String) : Value → Bool
  | .str t => t == s
  | _ => false

def isSingleton (s : String) : Value → Bool
  | .list _ [v] => isText s v
  | _ => false

theorem shadowing_evaluates :
    (match build { ({} : Options) with maxBlocks := 2 } [] shadowing 0, build {} [] shadowing 0 with
    | .ok (p, n), .ok (p', n') => match p.program.rules with
      | rule :: _ =>
          Setting.comesTo (isText "q" ·.result)
            ((p.setting (.text "q")).runListed 99 rule.function [] 0 n) &&
          Setting.comesTo (isSingleton "q" ·.result)
            ((p'.setting (.text "q")).runListed 99 rule.function [] 0 n')
      | _ => false
    | _, _ => false) = true := by decide +kernel

/-- Where a memo table is asked for a function at work, the budget matters: the body of a rule with an
argument does not read it and is remembered once it has been split off, and so it is refused where the rule
begins with itself, with another argument. -/
theorem splitting_differs_shadowing : ∃ (p p' : Parser) (n n' : Nat) (rule : RuleEntry)
    (o o' : Outcome) (k k' : Nat),
    build { ({} : Options) with maxBlocks := 2 } [] shadowing 0 = .ok (p, n) ∧
      build {} [] shadowing 0 = .ok (p', n') ∧ rule ∈ p.program.rules ∧
      (p.setting (.text "q")).Ends true rule.function [] 0 n (.ok (o, k)) ∧
      (p'.setting (.text "q")).Ends true rule.function [] 0 n' (.ok (o', k')) ∧
      isText "q" o.result = true ∧ isSingleton "q" o'.result = true := by
  have evaluates := shadowing_evaluates
  split at evaluates
  · next p n p' n' built built' =>
      split at evaluates
      · next rule others rules =>
          obtain ⟨text, list⟩ := Bool.and_eq_true_iff.1 evaluates
          obtain ⟨o, k, run, text⟩ := Setting.eq_ok_of_comesTo text
          obtain ⟨o', k', run', list⟩ := Setting.eq_ok_of_comesTo list
          exact ⟨p, p', n, n', rule, o, o', k, k', built, built', by simp [rules], .of_runListed run,
            .of_runListed run', text, list⟩
      · cases evaluates
  · cases evaluates

end Parser

end Packrat
