import Packrat.Proofs.Emission.Patterns
import Packrat.Proofs.Emission.Progress
import Packrat.Proofs.Meaning.Surveys
import Packrat.Proofs.Simulation.Matching

/-
**Expressions keep to surveys.**

Where calls keep to a survey, so do expressions whose names stand for values as asked: they are never
stuck, they come to places behind their own, and to values as asked of what lies between.  What names
stand for may have been read before the expression, so a stretch begins where the first of them was
read; but what is remembered for a place has been read from there on.

Main definitions:

* `Packrat.Survey.Binds` — names that stand for values as asked;
* `Packrat.Expr.Surveyable` — expressions that may be read where a survey is kept to;
* `Packrat.Scene.Surveyed` — scenes that keep to a survey.

Main results:

* `Packrat.Scene.levelOf_meets` — levels of operators;
* `Packrat.Expr.meaning_meets` — **expressions, by induction on them**.
-/

set_option autoImplicit false

namespace Packrat

open Reading

namespace Survey

/-- Names that stand for values as asked. -/
def Binds (S : Survey) (h : Heap) (base pos : Nat) (env : Env) (names : List String) : Prop :=
  ∀ n ∈ names, ∃ v, env.lookup n = some v ∧ S.Lies h base pos v

/-- The values of items, as asked of what was read from a place on. -/
def FindsAll (S : Survey) (h : Heap) (base pos : Nat) : Verdict (List Value) → Prop
  | .success vs stop => pos ≤ stop ∧ stop ≤ S.size ∧ S.AllLie h base stop vs
  | .failure _ place => pos ≤ place ∧ place ≤ S.size

/-- A part that keeps to a survey wherever it is read behind a place. -/
def Reads (S : Survey) (h : Heap) (base pos : Nat) (r : Nat → Reading (Verdict Value)) : Prop :=
  ∀ h', h.Grows h' → ∀ p, pos ≤ p → p ≤ S.size → Meets S h' (S.Finds · base p) (r p)

variable {S : Survey} {h h' : Heap} {base base' pos pos' low high low' high' : Nat} {env : Env}
variable {names : List String}

theorem Binds.mono (binds : S.Binds h base pos env names) (later : h.Grows h') (below : base' ≤ base)
    (above : pos ≤ pos') : S.Binds h' base' pos' env names := fun n mem =>
  (binds n mem).imp fun _ found => ⟨found.1, found.2.mono later below above⟩

theorem Binds.subset {names' : List String} (binds : S.Binds h base pos env names)
    (sub : ∀ n ∈ names', n ∈ names) : S.Binds h base pos env names' :=
  fun n mem => binds n (sub n mem)

/-- A name that stands for a new value hides what it stood for before. -/
theorem Binds.cons {name : String} {v : Value} (lies : S.Lies h base pos v)
    (binds : ∀ n ∈ names, n ≠ name → ∃ w, env.lookup n = some w ∧ S.Lies h base pos w) :
    S.Binds h base pos ((name, v) :: env) names := by
  intro n mem
  rw [List.lookup_cons]
  by_cases same : n = name
  · exact ⟨v, by simp [same], lies⟩
  · rw [beq_eq_false_iff_ne.2 same]
    exact binds n mem same

theorem Reads.later {r : Nat → Reading (Verdict Value)} (reads : S.Reads h base pos r)
    (later : h.Grows h') (le : pos ≤ pos') : S.Reads h' base pos' r :=
  fun h'' later' p le' => reads h'' (later.trans later') p (Nat.le_trans le le')

theorem Reads.here {r : Nat → Reading (Verdict Value)} (reads : S.Reads h base pos r)
    (inside : pos ≤ S.size) : Meets S h (S.Finds · base pos) (r pos) :=
  reads h (.refl h) pos (Nat.le_refl pos) inside

/-- Where spans need not nest, a value may lie anywhere. -/
theorem Asks.anywhere {v : Value} (flat : ¬S.nested) (asked : S.Asks low high v) :
    S.Asks low' high' v := by
  cases v with
  | node =>
      intro extent mem
      obtain ⟨start, stop, same, le, inside, made, -⟩ := asked extent mem
      exact ⟨start, stop, same, le, inside, made, fun nests => absurd nests flat⟩
  | parser => exact asked
  | _ => trivial

theorem AllLie.anywhere {vs : List Value} (flat : ¬S.nested) (lie : S.AllLie h low high vs) :
    S.AllLie h low' high' vs :=
  Value.AllHold.mono lie fun _ known => known.mono (.refl h) fun _ asked => asked.anywhere flat

end Survey

/-- An expression that may be read where a survey is kept to. Where spans nest nothing is looked ahead
for, and classes read nothing from around them. -/
structure Expr.Surveyable [Regex.Engine] (S : Survey) (signatures : Signatures) (e : Expr)
    (l : Layout) : Prop where
  settled : e.Every (Expr.Settled signatures)
  patterned : e.Patterned
  callable : ∀ x ∈ e.handed l, S.callable x.2.function
  ahead : S.nested → ∀ tag inner, e ≠ .expect tag inner
  closed : S.nested → ∀ tag items c, e = .seq tag items (some c) → e.readLocals [] = []

/-- The body of a level of a table over the levels below it. -/
def Scene.levelBody [Regex.Engine] (scene : Scene) (params : List String) (env : Env)
    (ls : List Layout) (atom : Nat → Reading (Verdict Value)) (below : List (Fixity × Expr))
    (fixity : Fixity) (operator : Expr) (pos : Nat) : Reading (Verdict Value) :=
  let inner := ((ls.drop below.length).headD .blank).part 0
  scene.levelOf fixity
    (fun q => inner.read scene operator.freeLocals q (operator.meaning scene env inner q))
    (fun p => meaningLevels scene below params env ls atom p) pos

/-- The atom of a table. -/
def Scene.atomBody [Regex.Engine] (scene : Scene) (env : Env) (atom : Expr) (l : Layout)
    (pos : Nat) : Reading (Verdict Value) :=
  ((l.part 0).part 0).read scene atom.freeLocals pos (atom.meaning scene env ((l.part 0).part 0) pos)

/-- The atom of a table, which is a function of its own. -/
def Scene.atomOf [Regex.Engine] (scene : Scene) (params : List String) (env : Env) (atom : Expr)
    (l : Layout) (pos : Nat) : Reading (Verdict Value) :=
  (l.part 0).read scene params pos (scene.atomBody env atom l pos)

/-- A scene that keeps to a survey. `part` says which expressions are read in it. -/
structure Scene.Surveyed [Regex.Engine] (S : Survey) (signatures : Signatures)
    (part : Expr → Layout → Prop) (scene : Scene) : Prop where
  closed : ∀ {e : Expr} {l : Layout}, part e l → ∀ x ∈ e.inPlace l, part x.1 x.2
  fine : ∀ {e : Expr} {l : Layout}, part e l → e.Surveyable S signatures l
  natives : scene.library.natives.HandOn
  size : scene.bytes.size = S.size
  least : scene.leastNone? ≠ none
  globals : Env.Holds (S.before.Knows fun _ => False) scene.globals
  rules : ∀ name params, signatures.lookup name = some params →
    ∃ f, scene.naming.rules.lookup (ruleFunction name) = some f ∧ S.callable f ∧
      (S.nested → params = [])
  calls : ∀ {h : Heap} {f : Nat} {args : List Value} {pos : Nat}, S.callable f →
    (S.nested → args = []) → S.AllLie h pos pos args → pos ≤ S.size →
      Meets S h (S.Finds · pos pos) (scene.call f args pos)
  whole : ∀ {e : Expr} {l : Layout}, part e l → ∀ f, l.function? = some f → ∀ env pos,
    S.performs f pos (e.meaning scene env l pos)
  atom : ∀ {tag : Tag} {atom : Expr} {levels : List (Fixity × Expr)} {l : Layout},
    part (.operators tag atom levels) l → ∀ f, (l.part 0).function? = some f → ∀ env pos,
      S.performs f pos (scene.atomBody env atom l pos)
  level : ∀ {tag : Tag} {atom operator : Expr} {below above : List (Fixity × Expr)} {fixity : Fixity}
    {l : Layout}, part (.operators tag atom (below ++ (fixity, operator) :: above)) l → ∀ f,
    ((l.parts.tail.drop below.length).headD .blank).function? = some f → ∀ params env pos,
      S.performs f pos (scene.levelBody params env l.parts.tail (scene.atomOf params env atom l) below
        fixity operator pos)
  made : ∀ {tag : Tag} {items : List Expr} {c : NodeClass} {l : Layout} {env : Env} {start stop : Nat}
    {values : List Value} {s s' : Store}, part (.seq tag items (some c)) l → s.Earned S.performs →
    meaningItems scene items c.fields env l.parts start s = some (.ok (.success values stop, s')) →
      S.made (scene.naming.cls c) values start stop

variable {S : Survey} {signatures : Signatures} {part : Expr → Layout → Prop} {scene : Scene}
variable {h : Heap} {base pos : Nat} {env : Env}

/-- An expression that keeps to a survey wherever its names stand for values as asked. -/
def Expr.Meets [Regex.Engine] (S : Survey) (scene : Scene) (e : Expr) (l : Layout) : Prop :=
  ∀ {h : Heap} {env : Env} {base pos : Nat}, base ≤ pos → pos ≤ S.size →
    S.Binds h base pos env (e.readLocals []) →
      Reading.Meets S h (S.Finds · base pos) (e.meaning scene env l pos)

/-! ### Functions of their own -/

/-- A part that has become a function without parameters is remembered for its place, so it must have
been read from there on. -/
theorem Layout.read_meets {l : Layout} {params : List String} {r : Reading (Verdict Value)}
    (le : base ≤ pos) (inside : pos ≤ S.size) (performs : ∀ f, l.function? = some f → S.performs f pos r)
    (own : params = [] → Reading.Meets S h (S.Finds · pos pos) r)
    (meets : Reading.Meets S h (S.Finds · base pos) r) :
    Reading.Meets S h (S.Finds · base pos) (l.read scene params pos r) := by
  unfold Layout.read
  split
  · next f found =>
      cases params with
      | nil =>
          exact (Meets.remembered inside (own rfl) (performs f found)).mono fun _ _ _ finds =>
            finds.mono (.refl _) le (Nat.le_refl _)
      | cons n names => exact meets
  · exact meets

/-- A part of an expression. -/
theorem Expr.Meets.within [Regex.Engine] (ready : scene.Surveyed S signatures part) {e : Expr}
    {l : Layout} (meets : e.Meets S scene l) (mem : part e l) (le : base ≤ pos)
    (inside : pos ≤ S.size) (binds : S.Binds h base pos env (e.readLocals [])) :
    Reading.Meets S h (S.Finds · base pos)
      (l.read scene e.freeLocals pos (e.meaning scene env l pos)) := by
  refine Layout.read_meets le inside (fun f found => ready.whole mem f found env pos) (fun none => ?_)
    (meets le inside binds)
  refine meets (Nat.le_refl pos) inside fun n reads => ?_
  rw [← mem_freeLocals, none] at reads
  cases reads

theorem Expr.Meets.reads [Regex.Engine] (ready : scene.Surveyed S signatures part) {e : Expr}
    {l : Layout} (meets : e.Meets S scene l) (mem : part e l) (le : base ≤ pos)
    (binds : S.Binds h base pos env (e.readLocals [])) :
    S.Reads h base pos fun p => l.read scene e.freeLocals p (e.meaning scene env l p) :=
  fun _ later _ le' inside => meets.within ready mem (Nat.le_trans le le') inside
    (binds.mono later (Nat.le_refl _) le')

/-! ### Parts of expressions -/

namespace Scene

theorem captured_meets {names : List String} (binds : S.Binds h base pos env names) :
    Meets S h (S.AllLie · base pos) (captured env names) := by
  refine .found ?_
  induction names with
  | nil => exact ⟨[], rfl, .nil⟩
  | cons n names ih =>
      obtain ⟨v, found, lies⟩ := binds n List.mem_cons_self
      obtain ⟨vs, rest, lie⟩ := ih (binds.subset fun _ => List.mem_cons_of_mem n)
      exact ⟨v :: vs, by simp [found, rest], .cons lies lie⟩

theorem Surveyed.scope [Regex.Engine] (ready : scene.Surveyed S signatures part)
    (later : S.before.Grows h) (keep : Value → Prop) : Env.Holds (h.Knows keep) scene.globals :=
  ready.globals.mono fun _ known => known.mono later fun _ => False.elim

theorem snippet_meets [Regex.Engine] (ready : scene.Surveyed S signatures part) {s : Snippet}
    (binds : S.Binds h base pos env s.locals) :
    Meets S h (S.Lies · base pos) (scene.snippet env s) :=
  .bind (captured_meets binds) fun _ _ _ lie => .host fun later =>
    Host.handsOn_evalIn ready.natives ((ready.scope later _).bindAll _ lie) s.term

theorem boundOf_meets [Regex.Engine] (ready : scene.Surveyed S signatures part)
    {bound? : Option Bound} (binds : S.Binds h base pos env (Expr.boundLocals [] bound?)) :
    Meets S h (fun _ _ => True) (scene.boundOf env bound?) := by
  match bound?, binds with
  | none, _ => exact .pure trivial
  | some (.const n), _ => exact .pure trivial
  | some (.host s), binds =>
      have binds : S.Binds h base pos env s.locals :=
        binds.subset fun n mem => by simpa [Expr.boundLocals, Expr.snippetLocals] using mem
      exact .bind (snippet_meets ready binds) fun _ _ _ _ => .pure trivial

theorem reaches_meets (items : Nat) (v : Value) : Meets S h (fun _ _ => True) (reaches items v) := by
  unfold reaches
  split
  · exact .pure trivial
  · split
    · exact .pure trivial
    · exact .stop _

theorem full_meets (items : Nat) (most : Option Value) :
    Meets S h (fun _ _ => True) (full items most) := by
  cases most with
  | none => exact .pure trivial
  | some v => exact reaches_meets items v

theorem enough_meets [Regex.Engine] (ready : scene.Surveyed S signatures part) (items : Nat)
    (least : Option Value) : Meets S h (fun _ _ => True) (scene.enough items least) := by
  unfold enough
  split
  · exact .pure trivial
  · obtain ⟨b, settled⟩ := Option.ne_none_iff_exists'.1 ready.least
    exact .found ⟨b, settled, trivial⟩
  · exact reaches_meets _ _

theorem callRule_meets [Regex.Engine] (ready : scene.Surveyed S signatures part) {name : String}
    (known : signatures.lookup name = some []) (inside : pos ≤ S.size) :
    Meets S h (S.Finds · pos pos) (scene.callRule (ruleFunction name) pos) := by
  obtain ⟨f, found, callable, -⟩ := ready.rules name [] known
  refine .bind (R := fun _ g => g = f) (.found ⟨f, found, rfl⟩) ?_
  rintro h' - _ rfl
  exact ready.calls callable (fun _ => rfl) .nil inside

theorem skipping_meets [Regex.Engine] (ready : scene.Surveyed S signatures part) {skip : Bool}
    (known : skip = true → signatures.lookup ignoredRule = some []) {v : Verdict Value}
    (finds : S.Finds h base pos v) : Meets S h (S.Finds · base pos) (scene.skipping skip v) := by
  cases v with
  | failure entry place => exact .pure finds
  | success v stop =>
      obtain ⟨le, inside, lies⟩ := finds
      refine .ite (fun skips => ?_) fun _ => .pure ⟨le, inside, lies⟩
      refine .bind (callRule_meets ready (known skips) inside) fun h' later ignored finds => ?_
      obtain ⟨le', inside'⟩ := finds.bounds
      exact .pure ⟨Nat.le_trans le le', inside', lies.mono later (Nat.le_refl _) le'⟩

theorem matched_finds (inside : pos ≤ S.size) (entry : FailureEntry) {stop? : Option Nat}
    (bounds : ∀ stop ∈ stop?, pos ≤ stop ∧ stop ≤ S.size) :
    S.Finds h base pos (scene.matched entry pos stop?) := by
  cases stop? with
  | none => exact ⟨Nat.le_refl pos, inside⟩
  | some stop =>
      refine ⟨(bounds stop rfl).1, (bounds stop rfl).2, ?_⟩
      unfold Input.excise
      split
      · exact .bytes _
      · exact .str _

theorem pattern_meets [Regex.Engine] (ready : scene.Surveyed S signatures part)
    {entry : FailureEntry} {pattern : String} {ignoreCase binary : Bool} (inside : pos ≤ S.size)
    (compiled : ∃ r, Regex.compile pattern ignoreCase binary = .ok r) :
    Meets S h (S.Finds · base pos) (scene.pattern entry pattern ignoreCase binary pos) := by
  obtain ⟨r, compiled⟩ := compiled
  rw [Scene.pattern, compiled]
  refine .pure (matched_finds inside entry fun stop found => ?_)
  rw [← ready.size]
  exact Regex.matchEnd?_bounds found (ready.size ▸ inside)

theorem argument_meets [Regex.Engine] (ready : scene.Surveyed S signatures part) (flat : ¬S.nested)
    {e : Expr} {l : Layout} (settled : e.Settled signatures)
    (callable : e.direct = false → S.callable l.function)
    (binds : S.Binds h base pos env (e.readLocals [])) :
    Meets S h (S.Lies · base pos) (scene.argument env l e) := by
  cases direct : e.direct with
  | false =>
      rw [argument_own direct]
      refine .bind (captured_meets (binds.subset fun n => Expr.mem_freeLocals.1)) fun _ _ vs lie => ?_
      refine .bind (.host fun _ => .fresh) fun _ later id _ => .pure ?_
      exact .parser ⟨callable direct, flat⟩ (lie.mono later (Nat.le_refl _) (Nat.le_refl _))
  | true =>
      match e, direct with
      | .ref _ name .local, _ =>
          exact .found (binds name (by simp [Expr.readLocals]))
      | .ref _ name (.rule function), _ =>
          obtain ⟨⟨⟩, known⟩ : Binding.rule function = .rule (ruleFunction name) ∧ _ :=
            settled.resolve_left (by simp)
          obtain ⟨f, found, callable, -⟩ := ready.rules name [] known
          refine .bind (R := fun _ g => g = f) (.found ⟨f, found, rfl⟩) ?_
          rintro h' - _ rfl
          exact .bind (.host fun _ => .fresh) fun _ _ _ _ => .pure (.parser ⟨callable, flat⟩ .nil)
      | .host _ s, _ =>
          exact snippet_meets ready
            (binds.subset fun n mem => by simpa [Expr.readLocals, Expr.snippetLocals] using mem)

/-! ### Repetitions -/

variable {item separator operator operand : Nat → Reading (Verdict Value)}

theorem anotherItem_meets {most : Option Value} (reads : S.Reads h base pos item)
    (a : List Value × (FailureEntry × Nat) × Nat) (far : pos ≤ a.2.1.2 ∧ a.2.1.2 ≤ S.size)
    (le : pos ≤ a.2.2) (inside : a.2.2 ≤ S.size) (lie : S.AllLie h base a.2.2 a.1) :
    Meets S h (fun h' => Sum.elim
      (fun b => (pos ≤ b.2.1.2 ∧ b.2.1.2 ≤ S.size) ∧ pos ≤ b.2.2 ∧ b.2.2 ≤ S.size ∧
        S.AllLie h' base b.2.2 b.1)
      (fun b => (pos ≤ b.2.1.2 ∧ b.2.1.2 ≤ S.size) ∧ pos ≤ b.2.2 ∧ b.2.2 ≤ S.size ∧
        S.AllLie h' base b.2.2 b.1)) (anotherItem most item a) := by
  obtain ⟨items, ⟨entry, place⟩, between⟩ := a
  refine .bind (full_meets _ _) fun h₁ later isFull _ => ?_
  have lie := lie.mono later (Nat.le_refl _) (Nat.le_refl _)
  refine .ite (fun _ => .pure ⟨far, le, inside, lie⟩) fun _ => ?_
  refine .bind (reads h₁ later between le inside) ?_
  rintro h₂ later (⟨v, stop⟩ | ⟨entry', place'⟩) finds
  · obtain ⟨le', inside, lies⟩ := finds
    have longer := (lie.mono later (Nat.le_refl _) le').append (.cons lies .nil)
    have le := Nat.le_trans le le'
    exact .ite (fun _ => .pure ⟨far, le, inside, longer⟩) fun _ => .pure ⟨far, le, inside, longer⟩
  · exact .pure ⟨⟨Nat.le_trans le finds.1, finds.2⟩, le, inside,
      lie.mono later (Nat.le_refl _) (Nat.le_refl _)⟩

theorem anotherPair_meets (flags : SepFlags) (items : S.Reads h base pos item)
    (separators : S.Reads h base pos separator) (a : List Value × Nat) (le : pos ≤ a.2)
    (inside : a.2 ≤ S.size) (lie : S.AllLie h base a.2 a.1) :
    Meets S h (fun h' => Sum.elim
      (fun b => pos ≤ b.2 ∧ b.2 ≤ S.size ∧ S.AllLie h' base b.2 b.1)
      (fun b => pos ≤ b.2 ∧ b.2 ≤ S.size ∧ S.AllLie h' base b.2 b.1))
      (anotherPair flags item separator a) := by
  obtain ⟨values, start⟩ := a
  refine .bind (separators h (.refl h) start le inside) ?_
  rintro h₁ later (⟨x, between⟩ | ⟨entry, place⟩) finds
  · obtain ⟨le₁, inside₁, lies⟩ := finds
    have lie := lie.mono later (Nat.le_refl _) (Nat.le_refl _)
    have behind : pos ≤ between := Nat.le_trans le le₁
    have kept : S.AllLie h₁ base between (if flags.discardSeparators then values else values ++ [x]) := by
      have lie := lie.mono (.refl h₁) (Nat.le_refl _) le₁
      split
      · exact lie
      · exact lie.append (.cons lies .nil)
    refine .bind (items h₁ later between behind inside₁) ?_
    rintro h₂ later' (⟨v, stop⟩ | ⟨entry, place⟩) finds
    · obtain ⟨le₂, inside₂, lies⟩ := finds
      have longer := (kept.mono later' (Nat.le_refl _) le₂).append (.cons lies .nil)
      have le := Nat.le_trans behind le₂
      exact .ite (fun _ => .pure ⟨le, inside₂, longer⟩) fun _ => .pure ⟨le, inside₂, longer⟩
    · refine .pure ?_
      -- A trailer is kept, and otherwise the separator is given back.
      cases trailer : flags.allowTrailer with
      | true => exact ⟨behind, inside₁, kept.mono later' (Nat.le_refl _) (Nat.le_refl _)⟩
      | false => exact ⟨le, inside, lie.mono later' (Nat.le_refl _) (Nat.le_refl _)⟩
  · exact .pure ⟨le, inside, lie.mono later (Nat.le_refl _) (Nat.le_refl _)⟩

/-! ### Operators -/

theorem handsOn_prefixes {keep : Value → Prop} {v : Value} {ops : List Value} (hv : Host.On keep h v)
    (all : Host.AllOn keep h ops) : Host.HandsOn h (Host.On keep) (prefixes v ops) := by
  induction ops with
  | nil => exact .pure hv
  | cons op ops ih =>
      cases all with
      | cons head tail =>
          exact .bind (ih tail) fun _ later _ right =>
            .newNode _ (.cons (head.later later) (.cons right .nil))

theorem handsOn_spine {keep : Value → Prop} {v : Value} {links : List (Value × Value)}
    (hv : Host.On keep h v)
    (all : ∀ link ∈ links, Host.On keep h link.1 ∧ Host.On keep h link.2) :
    Host.HandsOn h (Host.On keep) (spine v links) := by
  induction links with
  | nil => exact .pure hv
  | cons link links ih =>
      obtain ⟨left, op⟩ := all link List.mem_cons_self
      exact .bind (ih fun link mem => all link (List.mem_cons_of_mem _ mem)) fun _ later _ right =>
        .newNode _ (.cons (left.later later) (.cons (op.later later) (.cons right .nil)))

theorem anotherPrefix_meets (operators : S.Reads h base pos operator) (a : List Value × Nat)
    (le : pos ≤ a.2) (inside : a.2 ≤ S.size) (lie : S.AllLie h base a.2 a.1) :
    Meets S h (fun h' => Sum.elim
      (fun b => pos ≤ b.2 ∧ b.2 ≤ S.size ∧ S.AllLie h' base b.2 b.1)
      (fun b => pos ≤ b.2 ∧ b.2 ≤ S.size ∧ S.AllLie h' base b.2 b.1)) (anotherPrefix operator a) := by
  obtain ⟨ops, start⟩ := a
  refine .bind (operators h (.refl h) start le inside) ?_
  rintro h' later (⟨op, stop⟩ | ⟨entry, place⟩) finds
  · obtain ⟨le', inside', lies⟩ := finds
    have longer := (lie.mono later (Nat.le_refl _) le').append (.cons lies .nil)
    have le := Nat.le_trans le le'
    exact .ite (fun _ => .pure ⟨le, inside', longer⟩) fun _ => .pure ⟨le, inside', longer⟩
  · exact .pure ⟨le, inside, lie.mono later (Nat.le_refl _) (Nat.le_refl _)⟩

theorem anotherPostfix_meets (operators : S.Reads h base pos operator) (a : Value × Nat)
    (le : pos ≤ a.2) (inside : a.2 ≤ S.size) (lies : S.Lies h base a.2 a.1) :
    Meets S h (fun h' => Sum.elim
      (fun b => pos ≤ b.2 ∧ b.2 ≤ S.size ∧ S.Lies h' base b.2 b.1)
      (fun b => pos ≤ b.2 ∧ b.2 ≤ S.size ∧ S.Lies h' base b.2 b.1)) (anotherPostfix operator a) := by
  obtain ⟨acc, start⟩ := a
  refine .bind (operators h (.refl h) start le inside) ?_
  rintro h' later (⟨op, stop⟩ | ⟨entry, place⟩) finds
  · obtain ⟨le', inside', right⟩ := finds
    have left := lies.mono later (Nat.le_refl _) le'
    have le := Nat.le_trans le le'
    refine .bind (.host fun _ => .newNode _ (.cons left (.cons right .nil))) fun _ _ _ node => ?_
    exact .ite (fun _ => .pure ⟨le, inside', node⟩) fun _ => .pure ⟨le, inside', node⟩
  · exact .pure ⟨le, inside, lies.mono later (Nat.le_refl _) (Nat.le_refl _)⟩

theorem operatorPair_meets (operators : S.Reads h base pos operator)
    (operands : S.Reads h base pos operand) {start : Nat} (le : pos ≤ start) (inside : start ≤ S.size) :
    Meets S h (fun h' pair? => ∀ pair ∈ pair?, start ≤ pair.2.2 ∧ pair.2.2 ≤ S.size ∧
      S.Lies h' base pair.2.2 pair.1 ∧ S.Lies h' base pair.2.2 pair.2.1)
      (operatorPair operator operand start) := by
  refine .bind (operators h (.refl h) start le inside) ?_
  rintro h₁ later (⟨op, between⟩ | ⟨entry, place⟩) finds
  · obtain ⟨le₁, inside₁, left⟩ := finds
    refine .bind (operands h₁ later between (Nat.le_trans le le₁) inside₁) ?_
    rintro h₂ later' (⟨right, stop⟩ | ⟨entry, place⟩) finds
    · obtain ⟨le₂, inside₂, lies⟩ := finds
      refine .pure fun pair mem => ?_
      cases mem
      exact ⟨Nat.le_trans le₁ le₂, inside₂, left.mono later' (Nat.le_refl _) le₂, lies⟩
    · exact .pure fun pair mem => by cases mem
  · exact .pure fun pair mem => by cases mem

theorem anotherInfix_meets (once : Bool) (operators : S.Reads h base pos operator)
    (operands : S.Reads h base pos operand) (a : Value × Nat) (le : pos ≤ a.2) (inside : a.2 ≤ S.size)
    (lies : S.Lies h base a.2 a.1) :
    Meets S h (fun h' => Sum.elim
      (fun b => pos ≤ b.2 ∧ b.2 ≤ S.size ∧ S.Lies h' base b.2 b.1)
      (fun b => pos ≤ b.2 ∧ b.2 ≤ S.size ∧ S.Lies h' base b.2 b.1))
      (anotherInfix once operator operand a) := by
  obtain ⟨acc, start⟩ := a
  refine .bind (operatorPair_meets operators operands le inside) ?_
  rintro h' later (_ | ⟨op, right, stop⟩) pair
  · exact .pure ⟨le, inside, lies.mono later (Nat.le_refl _) (Nat.le_refl _)⟩
  · obtain ⟨le', inside', hop, hright⟩ := pair _ rfl
    have left := lies.mono later (Nat.le_refl _) le'
    have le := Nat.le_trans le le'
    refine .bind (.host fun _ => .newNode _ (.cons left (.cons hop (.cons hright .nil))))
      fun _ _ _ node => ?_
    exact .ite (fun _ => .pure ⟨le, inside', node⟩) fun _ => .pure ⟨le, inside', node⟩

theorem anotherLink_meets (operators : S.Reads h base pos operator)
    (operands : S.Reads h base pos operand) (a : (List (Value × Value) × Value) × Nat) (le : pos ≤ a.2)
    (inside : a.2 ≤ S.size)
    (lie : ∀ link ∈ a.1.1, S.Lies h base a.2 link.1 ∧ S.Lies h base a.2 link.2)
    (lies : S.Lies h base a.2 a.1.2) :
    Meets S h (fun h' => Sum.elim
      (fun b => pos ≤ b.2 ∧ b.2 ≤ S.size ∧
        (∀ link ∈ b.1.1, S.Lies h' base b.2 link.1 ∧ S.Lies h' base b.2 link.2) ∧
        S.Lies h' base b.2 b.1.2)
      (fun b => pos ≤ b.2 ∧ b.2 ≤ S.size ∧
        (∀ link ∈ b.1.1, S.Lies h' base b.2 link.1 ∧ S.Lies h' base b.2 link.2) ∧
        S.Lies h' base b.2 b.1.2))
      (anotherLink operator operand a) := by
  obtain ⟨⟨links, last⟩, start⟩ := a
  refine .bind (operatorPair_meets operators operands le inside) ?_
  rintro h' later (_ | ⟨op, right, stop⟩) pair
  · have moved {v : Value} (lies : S.Lies h base start v) : S.Lies h' base start v :=
      lies.mono later (Nat.le_refl _) (Nat.le_refl _)
    exact .pure ⟨le, inside, fun link mem => (lie link mem).imp moved moved, moved lies⟩
  · obtain ⟨le', inside', hop, hright⟩ := pair _ rfl
    have moved {v : Value} (lies : S.Lies h base start v) : S.Lies h' base stop v :=
      lies.mono later (Nat.le_refl _) le'
    have le := Nat.le_trans le le'
    have longer : ∀ link ∈ links ++ [(last, op)],
        S.Lies h' base stop link.1 ∧ S.Lies h' base stop link.2 := by
      intro link mem
      rcases List.mem_append.1 mem with mem | mem
      · exact (lie link mem).imp moved moved
      · obtain rfl := List.mem_singleton.1 mem
        exact ⟨moved lies, hop⟩
    exact .ite (fun _ => .pure ⟨le, inside', longer, hright⟩) fun _ => .pure ⟨le, inside', longer, hright⟩

theorem left_meets (once : Bool) (inside : pos ≤ S.size) (operators : S.Reads h base pos operator)
    (operands : S.Reads h base pos operand) :
    Meets S h (S.Finds · base pos) (levelOf.left scene operator operand pos once) := by
  refine .andThen (Nat.le_refl pos) (operands.here inside) fun h₁ later v between le inside₁ lies => ?_
  refine .bind (.repeatFrom (fun h' a => pos ≤ a.2 ∧ a.2 ≤ S.size ∧ S.Lies h' base a.2 a.1)
    (fun h' later' a inv => anotherInfix_meets once (operators.later (later.trans later') (Nat.le_refl _))
      (operands.later (later.trans later') (Nat.le_refl _)) a inv.1 inv.2.1 inv.2.2)
    scene.rounds ⟨le, inside₁, lies⟩) ?_
  rintro h₂ - ⟨acc, stop⟩ inv
  exact .pure inv

/-- A level of operators keeps to a survey if its operators and its operands do. -/
theorem levelOf_meets (fixity : Fixity) (inside : pos ≤ S.size) (operators : S.Reads h base pos operator)
    (operands : S.Reads h base pos operand) :
    Meets S h (S.Finds · base pos) (scene.levelOf fixity operator operand pos) := by
  cases fixity with
  | prefixOp =>
      refine .bind (.host fun _ => .fresh) fun h₁ later _ _ => ?_
      refine .bind (.repeatFrom (fun h' a => pos ≤ a.2 ∧ a.2 ≤ S.size ∧ S.AllLie h' base a.2 a.1)
        (fun h' later' a inv => anotherPrefix_meets
          (operators.later (later.trans later') (Nat.le_refl _)) a inv.1 inv.2.1 inv.2.2)
        scene.rounds ⟨Nat.le_refl pos, inside, .nil⟩) ?_
      rintro h₂ later₂ ⟨ops, between⟩ ⟨le, inside, lie⟩
      refine .andThen le (operands h₂ (later.trans later₂) between le inside)
        fun h₃ later₃ v stop le' inside' lies => ?_
      refine .bind (.host fun _ => handsOn_prefixes lies (lie.mono later₃ (Nat.le_refl _) le'))
        fun _ _ _ lies => ?_
      exact .pure ⟨Nat.le_trans le le', inside', lies⟩
  | postfixOp =>
      refine .andThen (Nat.le_refl pos) (operands.here inside)
        fun h₁ later v between le inside₁ lies => ?_
      refine .bind (.repeatFrom (fun h' a => pos ≤ a.2 ∧ a.2 ≤ S.size ∧ S.Lies h' base a.2 a.1)
        (fun h' later' a inv => anotherPostfix_meets
          (operators.later (later.trans later') (Nat.le_refl _)) a inv.1 inv.2.1 inv.2.2)
        scene.rounds ⟨le, inside₁, lies⟩) ?_
      rintro h₂ - ⟨acc, stop⟩ inv
      exact .pure inv
  | leftAssoc => exact left_meets false inside operators operands
  | nonAssoc => exact left_meets true inside operators operands
  | rightAssoc =>
      refine .bind (.host fun _ => .fresh) fun h₁ later _ _ => ?_
      refine .andThen (Nat.le_refl pos) (operands h₁ later pos (Nat.le_refl pos) inside)
        fun h₂ later₂ v between le inside₂ lies => ?_
      refine .bind (.repeatFrom (fun h' a => pos ≤ a.2 ∧ a.2 ≤ S.size ∧
          (∀ link ∈ a.1.1, S.Lies h' base a.2 link.1 ∧ S.Lies h' base a.2 link.2) ∧
          S.Lies h' base a.2 a.1.2)
        (fun h' later' a inv => anotherLink_meets
          (operators.later ((later.trans later₂).trans later') (Nat.le_refl _))
          (operands.later ((later.trans later₂).trans later') (Nat.le_refl _)) a inv.1 inv.2.1 inv.2.2.1
          inv.2.2.2)
        scene.rounds ⟨le, inside₂, by simp, lies⟩) ?_
      rintro h₃ - ⟨⟨links, last⟩, stop⟩ ⟨le, inside, lie, lies⟩
      exact .bind (.host fun _ => handsOn_spine lies lie) fun _ _ _ lies => .pure ⟨le, inside, lies⟩

/-! ### Alternatives -/

/-- The farther of two failures within the input is within it. -/
theorem farther_inside {isFail : Bool} {entry : FailureEntry} {place : Nat}
    {far? : Option (FailureEntry × Nat)} (here : pos ≤ place ∧ place ≤ S.size)
    (before : ∀ far ∈ far?, pos ≤ far.2 ∧ far.2 ≤ S.size) :
    ∀ far ∈ farther isFail entry place far?, pos ≤ far.2 ∧ far.2 ≤ S.size := by
  intro far mem
  cases far? with
  | none =>
      cases mem
      exact here
  | some far' =>
      rw [farther] at mem
      by_cases later : if isFail = true then far'.2 < place else far'.2 ≤ place
      · rw [if_pos later] at mem
        cases mem
        exact here
      · rw [if_neg later] at mem
        exact before far mem

theorem farther_ne_none (isFail : Bool) (entry : FailureEntry) (place : Nat)
    (far? : Option (FailureEntry × Nat)) : farther isFail entry place far? ≠ none := by
  cases far? with
  | none => simp [farther]
  | some far =>
      rw [farther]
      by_cases later : if isFail = true then far.2 < place else far.2 ≤ place <;> simp [later]

end Scene

/-! ### Lists of expressions -/

variable [Regex.Engine]

namespace Expr

open Scene

variable {es : List Expr} {ls : List Layout}

theorem items_meets (ready : scene.Surveyed S signatures part) {fields : List String}
    (settled : ∀ e ∈ es, e.Every (Settled signatures))
    (all : ∀ x ∈ zipLayouts es ls, part x.1 x.2 ∧ x.1.Meets S scene x.2) (le : base ≤ pos)
    (inside : pos ≤ S.size) (binds : S.Binds h base pos env (readLocalsFields [] fields es)) :
    Reading.Meets S h (S.FindsAll · base pos) (meaningItems scene es fields env ls pos) := by
  induction es generalizing h env fields ls pos with
  | nil =>
      rw [meaningItems]
      exact .pure ⟨Nat.le_refl pos, inside, .nil⟩
  | cons e es ih =>
      rw [meaningItems]
      obtain ⟨mem, meets⟩ := all _ List.mem_cons_self
      refine .bind (meets.within ready mem le inside
        (binds.subset fun n reads => List.mem_append_left _ reads)) ?_
      rintro h₁ later (⟨v, between⟩ | ⟨entry, place⟩) finds
      · obtain ⟨le₁, inside₁, lies⟩ := finds
        have scope : S.Binds h₁ base between ((fields.take 1).map (·, v) ++ env)
            (readLocalsFields [] (fields.drop 1) es) := by
          have others (n : String) (reads : n ∈ readLocalsFields [] (fields.drop 1) es)
              (free : n ∉ fields.take 1) : ∃ w, env.lookup n = some w ∧ S.Lies h₁ base between w := by
            refine binds.mono later (Nat.le_refl _) le₁ n (List.mem_append_right _ ?_)
            rw [List.append_nil]
            exact (mem_readLocalsFields (fun e of =>
              mem_readLocals (settled e (List.mem_cons_of_mem _ of))) _).2 ⟨reads, free⟩
          cases fields with
          | nil => exact fun n reads => others n reads (by simp)
          | cons name fields =>
              exact Survey.Binds.cons lies fun n reads other => others n reads (by simpa using other)
        refine .bind (ih (fun e of => settled e (List.mem_cons_of_mem _ of))
          (fun x of => all x (List.mem_cons_of_mem _ of)) (Nat.le_trans le le₁) inside₁ scope) ?_
        rintro h₂ later' (⟨vs, stop⟩ | ⟨entry, place⟩) finds
        · obtain ⟨le₂, inside₂, lie⟩ := finds
          exact .pure ⟨Nat.le_trans le₁ le₂, inside₂, .cons (lies.mono later' (Nat.le_refl _) le₂) lie⟩
        · exact .pure ⟨Nat.le_trans le₁ finds.1, finds.2⟩
      · exact .pure finds

theorem alternatives_meets (ready : scene.Surveyed S signatures part)
    {far? : Option (FailureEntry × Nat)}
    (all : ∀ x ∈ alternativeParts es ls, part x.1 x.2 ∧ x.1.Meets S scene x.2) (le : base ≤ pos)
    (inside : pos ≤ S.size) (binds : S.Binds h base pos env (readLocalsAll [] es))
    (far : ∀ far ∈ far?, pos ≤ far.2 ∧ far.2 ≤ S.size) (some : es = [] → far? ≠ none) :
    Reading.Meets S h (S.Finds · base pos) (meaningAlternatives scene es env ls pos far?) := by
  induction es generalizing h ls far? with
  | nil =>
      rw [meaningAlternatives]
      obtain ⟨⟨entry, place⟩, rfl⟩ := Option.ne_none_iff_exists'.1 (some rfl)
      exact .pure (far _ rfl)
  | cons e es ih =>
      rw [meaningAlternatives]
      obtain ⟨mem, meets⟩ := all _ List.mem_cons_self
      refine .bind (meets.within ready mem le inside
        (binds.subset fun n reads => List.mem_append_left _ reads)) ?_
      rintro h₁ later (⟨v, stop⟩ | ⟨entry, place⟩) finds
      · exact .pure finds
      · refine .ite (fun _ => .pure finds) fun fails => ?_
        refine ih (fun x of => all x ?_) ((binds.mono later (Nat.le_refl _) (Nat.le_refl _)).subset
          fun n reads => List.mem_append_right _ reads) (farther_inside finds far)
          fun _ => farther_ne_none _ _ _ _
        rw [alternativeParts, if_neg fails]
        exact List.mem_cons_of_mem _ of

theorem skipped_meets (ready : scene.Surveyed S signatures part)
    (all : ∀ x ∈ zipLayouts es ls, part x.1 x.2 ∧ x.1.Meets S scene x.2) (le : base ≤ pos)
    (inside : pos ≤ S.size) (binds : S.Binds h base pos env (readLocalsAll [] es)) :
    Reading.Meets S h (fun _ => Sum.elim (fun p => pos ≤ p ∧ p ≤ S.size) fun p => pos ≤ p ∧ p ≤ S.size)
      (meaningSkipped scene es env ls pos) := by
  induction es generalizing h ls with
  | nil =>
      rw [meaningSkipped]
      exact .pure ⟨Nat.le_refl pos, inside⟩
  | cons e es ih =>
      rw [meaningSkipped]
      obtain ⟨mem, meets⟩ := all _ List.mem_cons_self
      refine .bind (meets.within ready mem le inside
        (binds.subset fun n reads => List.mem_append_left _ reads)) ?_
      have rest {h₁ : Heap} (later : h.Grows h₁) : Reading.Meets S h₁
          (fun _ => Sum.elim (fun p => pos ≤ p ∧ p ≤ S.size) fun p => pos ≤ p ∧ p ≤ S.size)
          (meaningSkipped scene es env ls.tail pos) :=
        ih (fun x of => all x (List.mem_cons_of_mem _ of))
          ((binds.mono later (Nat.le_refl _) (Nat.le_refl _)).subset
            fun n reads => List.mem_append_right _ reads)
      rintro h₁ later (⟨v, stop⟩ | ⟨entry, place⟩) finds
      · exact .ite (fun _ => rest later) fun _ => .pure ⟨finds.1, finds.2.1⟩
      · exact rest later

theorem args_meets (ready : scene.Surveyed S signatures part) (flat : ¬S.nested)
    {args : List (Option String × Expr)} (settled : ∀ e ∈ args.map (·.2), e.Settled signatures)
    (callable : ∀ x ∈ handedArgs args ls, S.callable x.2.function)
    (binds : S.Binds h base pos env (readLocalsArgs [] args)) :
    Reading.Meets S h (S.AllLie · base pos) (meaningArgs scene args env ls) := by
  induction args generalizing h ls with
  | nil =>
      rw [meaningArgs]
      exact .pure .nil
  | cons arg args ih =>
      obtain ⟨keyword, e⟩ := arg
      rw [meaningArgs]
      refine .bind (argument_meets ready flat (settled e List.mem_cons_self)
        (fun own => callable (e, ls.headD .blank) (by simp [handedArgs, own]))
        (binds.subset fun n reads => List.mem_append_left _ reads)) fun h₁ later v lies => ?_
      refine .bind (ih (fun e of => settled e (List.mem_cons_of_mem _ of))
        (fun x of => callable x (List.mem_append_right _ of))
        ((binds.mono later (Nat.le_refl _) (Nat.le_refl _)).subset
          fun n reads => List.mem_append_right _ reads)) fun h₂ later' vs lie => ?_
      exact .pure (.cons (lies.mono later' (Nat.le_refl _) (Nat.le_refl _)) lie)

/-- Levels are read one after the other. -/
theorem meaningLevels_append (scene : Scene) (below above : List (Fixity × Expr)) (params : List String)
    (env : Env) (ls : List Layout) (operand : Nat → Reading (Verdict Value)) (pos : Nat) :
    meaningLevels scene (below ++ above) params env ls operand pos =
      meaningLevels scene above params env (ls.drop below.length)
        (fun p => meaningLevels scene below params env ls operand p) pos := by
  induction below generalizing ls operand with
  | nil => simp [meaningLevels]
  | cons level below ih =>
      obtain ⟨fixity, operator⟩ := level
      simp only [List.cons_append, meaningLevels, ih, List.length_cons, List.drop_tail]

omit [Regex.Engine] in
theorem levelParts_append (below above : List (Fixity × Expr)) (ls : List Layout) :
    levelParts (below ++ above) ls = levelParts below ls ++ levelParts above (ls.drop below.length) := by
  induction below generalizing ls with
  | nil => rfl
  | cons level below ih => simp [levelParts, ih]

/-- Levels keep to a survey, each over the ones below it. -/
theorem levels_read (ready : scene.Surveyed S signatures part) {tag : Tag} {atom : Expr}
    {levels : List (Fixity × Expr)} {l : Layout} {params : List String}
    (mem : part (.operators tag atom levels) l)
    (all : ∀ x ∈ levelParts levels l.parts.tail, part x.1 x.2 ∧ x.1.Meets S scene x.2)
    (closed : ∀ e ∈ levels.map (·.2), ∀ n ∈ e.readLocals [], n ∈ params)
    (atoms : ∀ {h : Heap} {base pos : Nat}, base ≤ pos → S.Binds h base pos env params →
      S.Reads h base pos (scene.atomOf params env atom l))
    (below above : List (Fixity × Expr)) (whole : levels = below ++ above) {h : Heap} {base pos : Nat}
    (le : base ≤ pos) (scope : S.Binds h base pos env params) : S.Reads h base pos
      (meaningLevels scene below params env l.parts.tail (scene.atomOf params env atom l)) := by
  induction below using List.reverseRecOn generalizing above h base pos with
  | nil =>
      intro h' later p le' inside
      rw [meaningLevels]
      exact atoms le scope h' later p le' inside
  | append_singleton below level ih =>
      obtain ⟨fixity, operator⟩ := level
      rw [List.append_assoc, List.singleton_append] at whole
      subst whole
      obtain ⟨inner, keeps⟩ := all _ (by
        rw [levelParts_append]
        exact List.mem_append_right _ List.mem_cons_self)
      have reads {h : Heap} {base pos : Nat} (le : base ≤ pos) (scope : S.Binds h base pos env params)
          (inside : pos ≤ S.size) : Reading.Meets S h (S.Finds · base pos)
            (scene.levelBody params env l.parts.tail (scene.atomOf params env atom l) below fixity
              operator pos) :=
        levelOf_meets fixity inside
          (keeps.reads ready inner le (scope.subset (closed operator (by simp))))
          (ih _ rfl le scope)
      intro h' later p le' inside
      rw [meaningLevels_append, meaningLevels, meaningLevels]
      have le := Nat.le_trans le le'
      refine Layout.read_meets le inside (fun f found => ready.level mem f found params env p)
        (fun none => ?_) (reads le (scope.mono later (Nat.le_refl _) le') inside)
      subst none
      exact reads (Nat.le_refl p) (fun n of => by cases of) inside

/-! ### Forms -/

section Forms

variable {l : Layout}

omit [Regex.Engine] in
/-- Two parts that are read one after the other. -/
theorem both_meets {first second : Nat → Reading (Verdict Value)}
    {next : Value → Value → Nat → Reading (Verdict Value)} (inside : pos ≤ S.size)
    (reads : S.Reads h base pos first) (reads' : S.Reads h base pos second)
    (meets : ∀ h', h.Grows h' → ∀ x y stop, pos ≤ stop → stop ≤ S.size → S.Lies h' base stop x →
      S.Lies h' base stop y → Reading.Meets S h' (S.Finds · base pos) (next x y stop)) :
    Reading.Meets S h (S.Finds · base pos)
      (Reading.andThen (first pos) fun x between =>
        Reading.andThen (second between) fun y stop => next x y stop) := by
  refine .andThen (Nat.le_refl pos) (reads.here inside) fun h₁ later₁ x between le₁ inside₁ hx => ?_
  refine .andThen le₁ (reads' h₁ later₁ between le₁ inside₁) fun h₂ later₂ y stop le₂ inside₂ hy => ?_
  exact meets h₂ (later₁.trans later₂) x y stop (Nat.le_trans le₁ le₂) inside₂
    (hx.mono later₂ (Nat.le_refl _) le₂) hy

variable (ready : scene.Surveyed S signatures part)
include ready

/-- A part whose names are names of the whole. -/
theorem part_reads {e : Expr} {x : Expr × Layout} (meets : part x.1 x.2 ∧ x.1.Meets S scene x.2)
    (le : base ≤ pos) (binds : S.Binds h base pos env (e.readLocals []))
    (sub : ∀ n ∈ x.1.readLocals [], n ∈ e.readLocals []) :
    S.Reads h base pos fun p => x.2.read scene x.1.freeLocals p (x.1.meaning scene env x.2 p) :=
  Meets.reads ready meets.2 meets.1 le (binds.subset sub)

theorem ref_meets {tag : Tag} {name : String} {binding : Binding}
    (mem : part (.ref tag name binding) l) : (Expr.ref tag name binding).Meets S scene l := by
  intro h env base pos le inside binds
  rcases (ready.fine mem).settled.here with rfl | ⟨rfl, known⟩
  · rw [Expr.meaning]
    refine .bind (.found (R := (S.Lies · base pos)) (binds name (by simp [readLocals]))) ?_
    intro h' later v lies
    split
    · cases lies with
      | parser known captures =>
          obtain ⟨callable, flat⟩ := known
          exact (ready.calls callable (fun nests => absurd nests flat)
            (Survey.AllLie.anywhere flat captures) inside).mono fun _ _ _ finds =>
              finds.mono (.refl _) le (Nat.le_refl _)
    · exact .pure ⟨Nat.le_refl pos, inside, lies⟩
  · rw [Expr.meaning]
    exact (callRule_meets ready known inside).mono fun _ _ _ finds =>
      finds.mono (.refl _) le (Nat.le_refl _)

theorem call_meets {tag : Tag} {callee : String} {args : List (Option String × Expr)}
    {binding : Binding} (mem : part (.call tag callee args binding) l) :
    (Expr.call tag callee args binding).Meets S scene l := by
  intro h env base pos le inside binds
  have fine := ready.fine mem
  obtain ⟨rfl, params, known, length⟩ := fine.settled.here
  obtain ⟨f, found, callable, none⟩ := ready.rules callee params known
  rw [Expr.meaning]
  refine .bind (R := fun _ g => g = f) (.found ⟨f, found, rfl⟩) ?_
  rintro h₁ later _ rfl
  by_cases nests : S.nested
  · -- No rule takes arguments.
    obtain rfl := none nests
    obtain rfl := List.length_eq_zero_iff.1 length
    rw [meaningArgs]
    exact (ready.calls callable (fun _ => rfl) .nil inside).mono fun _ _ _ finds =>
      finds.mono (.refl _) le (Nat.le_refl _)
  · refine .bind (args_meets ready nests (fun c of => (fine.settled.parts c of).here) fine.callable
      (binds.mono later (Nat.le_refl _) (Nat.le_refl _))) fun h₂ later' vs lie => ?_
    exact (ready.calls callable (fun yes => absurd yes nests) (lie.anywhere nests) inside).mono
      fun _ _ _ finds => finds.mono (.refl _) le (Nat.le_refl _)

theorem seq_meets {tag : Tag} {items : List Expr} {cls? : Option NodeClass}
    (mem : part (.seq tag items cls?) l)
    (parts : ∀ x ∈ (Expr.seq tag items cls?).inPlace l, part x.1 x.2 ∧ x.1.Meets S scene x.2) :
    (Expr.seq tag items cls?).Meets S scene l := by
  intro h env base pos le inside binds
  have fine := ready.fine mem
  cases cls? with
  | none =>
      rw [Expr.meaning]
      refine .bind (items_meets ready fine.settled.parts parts le inside binds) ?_
      rintro h₁ later (⟨vs, stop⟩ | ⟨entry, place⟩) finds
      · obtain ⟨le₁, inside₁, lie⟩ := finds
        exact .bind (.host fun _ => .newList lie) fun _ _ _ lies => .pure ⟨le₁, inside₁, lies⟩
      · exact .pure finds
  | some c =>
      rw [Expr.meaning]
      -- Where spans nest, the fields read nothing that was read before the class.
      obtain ⟨low, le₀, below, meets⟩ : ∃ low, base ≤ low ∧ (S.nested → low = pos) ∧
          Reading.Meets S h (S.FindsAll · low pos) (meaningItems scene items c.fields env l.parts pos) := by
        by_cases nests : S.nested
        · have none := fine.closed nests _ _ _ rfl
          refine ⟨pos, le, fun _ => rfl, items_meets ready fine.settled.parts parts (Nat.le_refl pos)
            inside fun n of => ?_⟩
          rw [readLocals] at none
          exact absurd (none ▸ of) List.not_mem_nil
        · exact ⟨base, Nat.le_refl _, fun yes => absurd yes nests,
            items_meets ready fine.settled.parts parts le inside binds⟩
      refine .bind meets.witnessed ?_
      rintro h₁ later (⟨vs, stop⟩ | ⟨entry, place⟩) ⟨finds, s, s', earned, read⟩
      · obtain ⟨le₁, inside₁, lie⟩ := finds
        refine .bind (.host fun _ => .freshNode _ _ (fun _ id => ?_)
          (lie.mono (.refl h₁) le₀ (Nat.le_refl stop))) fun _ _ _ node => .pure ⟨le₁, inside₁, node⟩
        rintro _ ⟨⟩
        refine ⟨pos, stop, rfl, le₁, inside₁, ready.made mem earned read, fun nests => ?_⟩
        obtain rfl := below nests
        exact ⟨le, Nat.le_refl stop, lie.between nests⟩
      · exact .pure finds

theorem list_meets {tag : Tag} {item : Expr} {least most : Option Bound}
    (parts : ∀ x ∈ (Expr.list tag item least most).inPlace l, part x.1 x.2 ∧ x.1.Meets S scene x.2) :
    (Expr.list tag item least most).Meets S scene l := by
  intro h env base pos le inside binds
  have sub (n : String) : n ∈ item.readLocals [] ∨ n ∈ boundLocals [] least ∨
      n ∈ boundLocals [] most → n ∈ (Expr.list tag item least most).readLocals [] := by
    simp only [readLocals, List.mem_append]
    tauto
  have items := part_reads ready (parts (item, l.part 0) (by simp [inPlace])) le binds
    fun n of => sub n (.inl of)
  rw [Expr.meaning]
  refine .bind (.host fun _ => .fresh) fun h₁ later₁ id old => ?_
  have binds₁ := binds.mono later₁ (Nat.le_refl _) (Nat.le_refl _)
  refine .bind (boundOf_meets ready (binds₁.subset fun n of => sub n (.inr (.inl of))))
    fun h₂ later₂ low _ => ?_
  refine .bind (boundOf_meets ready ((binds₁.mono later₂ (Nat.le_refl _) (Nat.le_refl _)).subset
    fun n of => sub n (.inr (.inr of)))) fun h₃ later₃ high _ => ?_
  have upTo := (later₁.trans later₂).trans later₃
  refine .bind (.repeatFrom (fun h' a => (pos ≤ a.2.1.2 ∧ a.2.1.2 ≤ S.size) ∧ pos ≤ a.2.2 ∧
      a.2.2 ≤ S.size ∧ S.AllLie h' base a.2.2 a.1)
    (fun h' later a inv => anotherItem_meets (items.later (upTo.trans later) (Nat.le_refl _)) a inv.1
      inv.2.1 inv.2.2.1 inv.2.2.2)
    scene.rounds ⟨⟨Nat.le_refl pos, inside⟩, Nat.le_refl pos, inside, .nil⟩) ?_
  rintro h₄ later₄ ⟨values, far, stop⟩ ⟨behind, le', inside', lie⟩
  refine .bind (enough_meets ready _ _) fun h₅ later₅ isEnough _ => ?_
  refine .ite (fun _ => .pure ⟨le', inside', .list (fun _ => ?_) (lie.mono later₅ (Nat.le_refl _)
    (Nat.le_refl _))⟩) fun _ => .pure behind
  exact Nat.lt_of_lt_of_le old (((later₂.trans later₃).trans later₄).trans later₅).next_le

theorem sep_meets {tag : Tag} {item separator : Expr} {flags : SepFlags}
    (parts : ∀ x ∈ (Expr.sep tag item separator flags).inPlace l,
      part x.1 x.2 ∧ x.1.Meets S scene x.2) : (Expr.sep tag item separator flags).Meets S scene l := by
  intro h env base pos le inside binds
  have inner (n : String) (of : n ∈ item.readLocals []) :
      n ∈ (Expr.sep tag item separator flags).readLocals [] := List.mem_append_left _ of
  have first := part_reads ready (parts (item, l.part 0) (by simp [inPlace])) le binds inner
  have separators := part_reads ready (parts (separator, l.part 1) (by simp [inPlace])) le binds
    fun n of => List.mem_append_right _ of
  have items := part_reads ready (parts (item, l.part 2) (by simp [inPlace])) le binds inner
  rw [Expr.meaning]
  refine .bind (.host fun _ => .fresh) fun h₁ later₁ id old => ?_
  refine .bind (first h₁ later₁ pos (Nat.le_refl pos) inside) ?_
  rintro h₂ later₂ (⟨v, stop⟩ | ⟨entry, place⟩) finds
  · obtain ⟨le₁, inside₁, lies⟩ := finds
    have upTo := later₁.trans later₂
    refine .bind (.repeatFrom (fun h' a => pos ≤ a.2 ∧ a.2 ≤ S.size ∧ S.AllLie h' base a.2 a.1)
      (fun h' later a inv => anotherPair_meets flags (items.later (upTo.trans later) (Nat.le_refl _))
        (separators.later (upTo.trans later) (Nat.le_refl _)) a inv.1 inv.2.1 inv.2.2)
      scene.rounds ⟨le₁, inside₁, .cons lies .nil⟩) ?_
    rintro h₃ later₃ ⟨values, stop⟩ ⟨le₂, inside₂, lie⟩
    exact .pure ⟨le₂, inside₂, .list (fun _ => Nat.lt_of_lt_of_le old
      (later₂.trans later₃).next_le) lie⟩
  · exact .ite (fun _ => .pure ⟨Nat.le_refl pos, inside, .list (fun some => absurd rfl some) .nil⟩)
      fun _ => .pure finds

theorem bound_meets {tag : Tag} {name : String} {value body : Expr}
    (mem : part (.bound tag name value body) l)
    (parts : ∀ x ∈ (Expr.bound tag name value body).inPlace l, part x.1 x.2 ∧ x.1.Meets S scene x.2) :
    (Expr.bound tag name value body).Meets S scene l := by
  intro h env base pos le inside binds
  have first := part_reads ready (parts (value, l.part 0) (by simp [inPlace])) le binds
    fun n of => List.mem_append_left _ of
  rw [Expr.meaning]
  refine .andThen (Nat.le_refl pos) (first.here inside) fun h₁ later₁ v stop le₁ inside₁ lies => ?_
  obtain ⟨inner, meets⟩ := parts (body, l.part 1) (by simp [inPlace])
  refine (Meets.within ready meets inner (Nat.le_trans le le₁) inside₁
    (.cons lies fun n of other => ?_)).mono fun _ _ _ finds => finds.mono (.refl _) (Nat.le_refl _) le₁
  refine binds.mono later₁ (Nat.le_refl _) le₁ n (List.mem_append_right _ ?_)
  exact (mem_readLocals ((ready.fine mem).settled.parts body (by simp [children])) _).2
    ⟨of, by simpa using other⟩

theorem skip_meets {tag : Tag} {items : List Expr}
    (parts : ∀ x ∈ (Expr.skip tag items).inPlace l, part x.1 x.2 ∧ x.1.Meets S scene x.2) :
    (Expr.skip tag items).Meets S scene l := by
  intro h env base pos le inside binds
  rw [Expr.meaning]
  refine .bind (.repeatFrom (R := fun _ p => pos ≤ p ∧ p ≤ S.size) (fun _ p => pos ≤ p ∧ p ≤ S.size)
    (fun h₁ later p inv => (skipped_meets ready parts (Nat.le_trans le inv.1) inv.2
      (binds.mono later (Nat.le_refl _) inv.1)).mono ?_)
    scene.rounds ⟨Nat.le_refl pos, inside⟩) fun h₁ later stop inv => .pure ⟨inv.1, inv.2, .none⟩
  rintro h₂ - (stop | stop) inv'
  · exact ⟨Nat.le_trans inv.1 inv'.1, inv'.2⟩
  · exact ⟨Nat.le_trans inv.1 inv'.1, inv'.2⟩

theorem operators_meets {tag : Tag} {atom : Expr} {levels : List (Fixity × Expr)}
    (mem : part (.operators tag atom levels) l)
    (parts : ∀ x ∈ (Expr.operators tag atom levels).inPlace l, part x.1 x.2 ∧ x.1.Meets S scene x.2) :
    (Expr.operators tag atom levels).Meets S scene l := by
  intro h env base pos le inside binds
  rw [Expr.meaning]
  have free (n : String) := mem_freeLocals (n := n) (e := .operators tag atom levels)
  obtain ⟨inner, meets⟩ := parts (atom, (l.part 0).part 0) List.mem_cons_self
  have atoms {h : Heap} {base pos : Nat} (le : base ≤ pos)
      (scope : S.Binds h base pos env (Expr.operators tag atom levels).freeLocals) :
      S.Reads h base pos (scene.atomOf (Expr.operators tag atom levels).freeLocals env atom l) := by
    intro h' later p le' inside
    have le := Nat.le_trans le le'
    have reads {base : Nat} (le : base ≤ p)
        (scope : S.Binds h' base p env (Expr.operators tag atom levels).freeLocals) :
        Reading.Meets S h' (S.Finds · base p) (scene.atomBody env atom l p) :=
      Meets.within ready meets inner le inside
        (scope.subset fun n of => (free n).2 (List.mem_append_left _ of))
    refine Layout.read_meets le inside (fun f found => ready.atom mem f found env p) (fun none => ?_)
      (reads le (scope.mono later (Nat.le_refl _) le'))
    exact reads (Nat.le_refl p) fun n of => absurd (none ▸ of) List.not_mem_nil
  refine (levels_read ready mem (fun x of => parts x (List.mem_cons_of_mem _ of))
    (fun c of n reads => (free n).2 (List.mem_append_right _ (mem_readLocalsLevels.2 ⟨c, of, reads⟩)))
    atoms levels [] (by simp) le (binds.subset fun n of => (free n).1 of)).here inside

end Forms

end Expr

open Scene Packrat.Expr in
/-- **An expression keeps to a survey wherever its names stand for values as asked**, if the calls of
the scene do. -/
theorem Expr.meaning_meets (ready : scene.Surveyed S signatures part) (e : Expr) (l : Layout)
    (mem : part e l) : e.Meets S scene l := by
  have parts : ∀ x ∈ e.inPlace l, part x.1 x.2 ∧ x.1.Meets S scene x.2 := fun x of =>
    ⟨ready.closed mem x of, meaning_meets ready x.1 x.2 (ready.closed mem x of)⟩
  have fine := ready.fine mem
  intro h env base pos le inside binds
  have reads (x : Expr × Layout) (of : x ∈ e.inPlace l)
      (sub : ∀ n ∈ x.1.readLocals [], n ∈ e.readLocals []) :
      S.Reads h base pos fun p => x.2.read scene x.1.freeLocals p (x.1.meaning scene env x.2 p) :=
    part_reads ready (parts x of) le binds sub
  cases e with
  | ref => exact ref_meets ready mem le inside binds
  | call => exact call_meets ready mem le inside binds
  | seq => exact seq_meets ready mem parts le inside binds
  | list => exact list_meets ready parts le inside binds
  | sep => exact sep_meets ready parts le inside binds
  | bound => exact bound_meets ready mem parts le inside binds
  | skip => exact skip_meets ready parts le inside binds
  | operators => exact operators_meets ready mem parts le inside binds
  | str tag value flags =>
      rw [Expr.meaning]
      refine .ite (fun ignores => ?_) fun _ => ?_
      · exact .bind (pattern_meets ready inside (fine.patterned ignores)) fun _ _ _ finds =>
          skipping_meets ready fine.settled.here finds
      · refine .bind (.pure (matched_finds inside _ fun stop found => ?_)) fun _ _ _ finds =>
          skipping_meets ready fine.settled.here finds
        split at found
        · next here =>
            cases found
            exact ⟨Nat.le_add_right pos _, ready.size ▸ matched_inside here (ready.size ▸ inside)⟩
        · cases found
  | regex tag pattern flags =>
      rw [Expr.meaning]
      exact .bind (pattern_meets ready inside fine.patterned) fun _ _ _ finds =>
        skipping_meets ready fine.settled.here finds
  | fail tag message? =>
      rw [Expr.meaning]
      exact .pure ⟨Nat.le_refl pos, inside⟩
  | host tag s =>
      rw [Expr.meaning]
      refine .bind (snippet_meets ready (binds.subset fun n of => ?_)) fun _ _ v lies =>
        .pure ⟨Nat.le_refl pos, inside, lies⟩
      simpa [readLocals, snippetLocals] using of
  | opt tag inner =>
      rw [Expr.meaning]
      refine .bind ((reads (inner, l.part 0) (by simp [inPlace]) fun n of => of).here inside) ?_
      rintro h₁ later (⟨v, stop⟩ | ⟨entry, place⟩) finds
      · exact .pure finds
      · exact .pure ⟨Nat.le_refl pos, inside, .none⟩
  | expect tag inner =>
      rw [Expr.meaning]
      refine .bind ((reads (inner, l.part 0) (by simp [inPlace]) fun n of => of).here inside) ?_
      rintro h₁ later (⟨v, stop⟩ | ⟨entry, place⟩) finds
      · -- A value from ahead lies behind the place that is come to, so spans cannot nest.
        have flat : ¬S.nested := fun nests => fine.ahead nests _ _ rfl
        refine .pure ⟨Nat.le_refl pos, inside, ?_⟩
        exact Value.Holds.mono finds.2.2 fun _ known => known.mono (.refl _) fun _ => (·.anywhere flat)
      · exact .pure ⟨Nat.le_refl pos, inside⟩
  | expectNot tag inner =>
      rw [Expr.meaning]
      refine .bind ((reads (inner, l.part 0) (by simp [inPlace]) fun n of => of).here inside) ?_
      rintro h₁ later (⟨v, stop⟩ | ⟨entry, place⟩) finds
      · exact .pure ⟨Nat.le_refl pos, inside⟩
      · exact .pure ⟨Nat.le_refl pos, inside, .none⟩
  | choice tag alternatives =>
      rcases alternatives with _ | ⟨only, _ | ⟨e', es⟩⟩
      · exact absurd rfl fine.settled.here
      · rw [Expr.meaning]
        exact (reads (only, l.part 0) (by cases first : l.parts <;>
          simp [inPlace, alternativeParts, Layout.part, first]) fun n of => by
          simpa [readLocals, readLocalsAll] using of).here inside
      · rw [Expr.meaning]
        · exact alternatives_meets ready parts le inside binds (by simp) (by simp)
        · simp
  | apply tag a b applyLeft =>
      rw [Expr.meaning]
      refine both_meets inside (reads (a, l.part 0) (by simp [inPlace]) fun n => List.mem_append_left _)
        (reads (b, l.part 1) (by simp [inPlace]) fun n => List.mem_append_right _)
        fun h₁ later x y stop le₁ inside₁ hx hy => ?_
      refine .bind (.host fun _ => ?_) fun _ _ _ lies => .pure ⟨le₁, inside₁, lies⟩
      split
      · exact Host.handsOn_callIn ready.natives hx (.cons hy .nil)
      · exact Host.handsOn_callIn ready.natives hy (.cons hx .nil)
  | discard tag a b discardLeft =>
      rw [Expr.meaning]
      refine both_meets inside (reads (a, l.part 0) (by simp [inPlace]) fun n => List.mem_append_left _)
        (reads (b, l.part 1) (by simp [inPlace]) fun n => List.mem_append_right _)
        fun h₁ later x y stop le₁ inside₁ hx hy => .pure ⟨le₁, inside₁, ?_⟩
      split
      · exact hy
      · exact hx
  | satisfying tag inner predicate =>
      rw [Expr.meaning]
      refine both_meets inside
        (reads (inner, l.part 0) (by simp [inPlace]) fun n => List.mem_append_left _)
        (reads (predicate, l.part 1) (by simp [inPlace]) fun n => List.mem_append_right _)
        fun h₁ later x f stop le₁ inside₁ hx hf => ?_
      refine .bind (.host fun _ => Host.handsOn_callIn ready.natives hf (.cons hx .nil))
        fun h₂ later₂ verdict _ => .pure ?_
      split
      · exact ⟨le₁, inside₁, hx.mono later₂ (Nat.le_refl _) (Nat.le_refl _)⟩
      · exact ⟨le₁, inside₁⟩
termination_by sizeOf e
decreasing_by exact sizeOf_lt_of_mem_children (mem_children_of_mem_inPlace of)

end Packrat
