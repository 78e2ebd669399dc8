import Packrat.Proofs.Simulation.Programs
import Packrat.Regex.Search

/-
**Operator tables in a program.**

A table is written as a tower of functions: that of its atom at the bottom, and one for each level
on top of that of the level below.  What the machine does in each of them is told by the chain that
the level reads, and by the tree it makes of it.

Main definitions:

* `Packrat.Tier`, `Packrat.Table` — the levels of a table with the numbers of their functions;
* `Packrat.Table.level` — the reading of a level, over those below it.

Main results:

* `Packrat.Table.level_succ` — a level reads chains of what the level below reads;
* `Packrat.Expr.tables_group` — **every level of a table succeeds with the tree of its chain**.
-/

set_option autoImplicit false

namespace Packrat

/-- A level of a table, with the number of its function. -/
structure Tier where
  fixity : Fixity
  operator : Expr
  layout : Layout
  function : Nat

/-- The function on top of levels over a function below them. -/
def Tier.topmost (below : Nat) (tiers : List Tier) : Nat := tiers.foldl (fun _ t => t.function) below

/-- A table as it stands in a program. -/
structure Table where
  /-- The names whose values every function of the table takes. -/
  params : List String
  atom : Expr
  layout : Layout
  /-- The function of the atom. -/
  function : Nat
  tiers : List Tier

section Towers

variable [Regex.Engine]

/-- The reading of levels over that of a function below them; operands are calls by number. -/
def Scene.tower (scene : Scene) (params : List String) (env : Env) (below : Nat)
    (r : Nat → Reading (Verdict Value)) : List Tier → Nat → Reading (Verdict Value)
  | [] => r
  | t :: tiers => scene.tower params env t.function
      (scene.levelOf t.fixity (t.operator.reads scene env t.layout) (scene.own params below r)) tiers

theorem Scene.tower_concat (scene : Scene) (params : List String) (env : Env) (below : Nat)
    (r : Nat → Reading (Verdict Value)) (tiers : List Tier) (t : Tier) :
    scene.tower params env below r (tiers ++ [t]) =
      scene.levelOf t.fixity (t.operator.reads scene env t.layout)
        (scene.own params (Tier.topmost below tiers) (scene.tower params env below r tiers)) := by
  induction tiers generalizing below r with
  | nil => rfl
  | cons first tiers ih => exact ih first.function _

namespace Table

/-- The function of a level, the atom being the first. -/
def number (t : Table) (k : Nat) : Nat := Tier.topmost t.function (t.tiers.take k)

/-- The reading of a level, the atom being the first. -/
def level (t : Table) (scene : Scene) (env : Env) (k : Nat) : Nat → Reading (Verdict Value) :=
  scene.tower t.params env t.function (t.atom.reads scene env t.layout) (t.tiers.take k)

/-- A call of a level. -/
def call (t : Table) (scene : Scene) (env : Env) (k : Nat) : Nat → Reading (Verdict Value) :=
  scene.own t.params (t.number k) (t.level scene env k)

/-- A level is read over the level below. -/
theorem level_succ {t : Table} {tier : Tier} {k : Nat} (h : t.tiers[k]? = some tier) (scene : Scene)
    (env : Env) : t.level scene env (k + 1) =
      scene.levelOf tier.fixity (tier.operator.reads scene env tier.layout) (t.call scene env k) := by
  rw [level, List.take_add_one, h]
  exact scene.tower_concat _ _ _ _ _ _

end Table

/-- The functions of levels in a program perform their readings. -/
theorem Expr.towers {levels : List (Fixity × Expr)} {id below index k : Nat} {params : List String}
    {p p' : Pools} (nodup : params.Nodup)
    (w : (emitLevels id params below index levels).Adds p k p') :
    ∃ tiers : List Tier, tiers.map (fun t => (t.fixity, t.operator)) = levels ∧
      Tier.topmost below tiers = k ∧
      ∀ (program : Program) (r : Scene → Env → Nat → Reading (Verdict Value)),
        program.Hosts p' → program.Performs p.ruleFunctions p.rule params below r →
        ∀ n, program.Performs p.ruleFunctions p.rule params (Tier.topmost below (tiers.take n))
          fun scene env => scene.tower params env below (r scene env) (tiers.take n) := by
  induction levels generalizing below index p k with
  | nil =>
      obtain ⟨rfl, rfl⟩ := Build.adds_pure.1 w
      exact ⟨[], rfl, rfl, fun program r _ h n => by rwa [List.take_nil]⟩
  | cons level levels ih =>
      obtain ⟨fixity, operator⟩ := level
      rw [emitLevels] at w
      obtain ⟨f, p₁, w₁, w₂⟩ := Build.adds_bind.1 w
      have tame := Emit.Tame.level fixity (.within operator operator.emit_tame) below params.length
      obtain ⟨rfl, draft, p₂, function, w₃, done, size, hosts⟩ := Emit.hosts_defineNew tame w₁
      obtain ⟨-, performs⟩ := operator.embeds.level fixity below params.length _ _ _ _ w₃
      have grown := (Emit.tame_defineNew _ _ tame).pools w₁
      have rest := emitLevels_tame id params p.functions.size (index + 1) levels
      obtain ⟨tiers, same, last, follow⟩ := ih w₂
      rw [grown.rules, grown.rule] at follow
      generalize operator.layoutWithin _ = l at performs
      refine ⟨⟨fixity, operator, l, p.functions.size⟩ :: tiers, by simp [same], last,
        fun program r pools below n => ?_⟩
      cases n with
      | zero => exact below
      | succ n =>
          obtain ⟨within, known⟩ := hosts program (pools.back (rest.pools w₂))
          refine follow program (fun scene env => scene.levelOf fixity (operator.reads scene env l)
            (scene.own params _ (r scene env))) pools ⟨function, draft, _, _, known, done,
              tame.draft w₃, fun site scene env hp hf fits => ?_⟩ n
          subst hp
          exact performs site scene env _ (by rw [hf]; exact (Draft.function_eq_ok done).1) within
            fits (below.operand nodup fits)

omit [Regex.Engine] in
theorem length_of_mapM {α β : Type} {f : α → Option β} {xs : List α} {ys : List β}
    (h : xs.mapM f = some ys) : ys.length = xs.length := by
  induction xs generalizing ys with
  | nil =>
      obtain rfl : [] = ys := by simpa using h
      rfl
  | cons x xs ih =>
      obtain ⟨y, -, rest, found, rfl⟩ := mapM_cons_eq_some.1 h
      rw [List.length_cons, List.length_cons, ih found]

/-- A run of a function that performs a reading where it is called with the values of names. -/
theorem Program.Performs.shows {setting : Setting} {memoize : Bool} {scene : Scene}
    {rules : List (String × Nat)} {rule : String} {params : List String} {k pos : Nat}
    {r : Scene → Env → Nat → Reading (Verdict Value)} {env : Env} {args : List Value}
    (h : setting.program.Performs rules rule params k r)
    (fits : scene.Fits setting memoize rules rule)
    (values : params.mapM (fun n => env.lookup n) = some args) (inside : pos ≤ setting.bytes.size)
    (identity : Nat) :
    setting.Shows memoize (scene.rounds + 1) k args pos identity
      (r scene env pos (.start identity)) := by
  obtain ⟨f, draft, name, budget, known, done, grown, performs⟩ := h
  refine Setting.shows_performed known done grown (fun site hs hm hf => ?_) ?_
    (fun _ => Draft.knows_begin values) inside identity
  · exact performs site scene env (by rw [hs]) hf (by rw [hs, hm]; exact fits)
  · exact length_of_mapM values

/-- **Operator precedence.** Whatever is written for a table calls the topmost of its levels. Each
level is a function of the program; a run of it shows the reading of the level, which succeeds
exactly with the tree of the longest chain over the level below. Read from left to right the tree is
what the level has read, in that order. -/
theorem Expr.tables_group {tag : Tag} {atom : Expr} {levels : List (Fixity × Expr)} {d d' : Draft}
    {p p' : Pools} (w : (Expr.operators tag atom levels).emit.Writes d p () d' p') :
    ∃ t : Table, t.params = (Expr.operators tag atom levels).freeLocals ∧ t.atom = atom ∧
      t.tiers.map (fun tier => (tier.fixity, tier.operator)) = levels ∧
      (∃ slots, d' = d.add (.call (.function (t.number levels.length)) slots)) ∧
      ∀ (setting : Setting) (memoize : Bool) (scene : Scene) (env : Env) (args : List Value),
        setting.program.Hosts p' → scene.Fits setting memoize p.ruleFunctions p.rule →
        t.params.mapM (fun n => env.lookup n) = some args →
        (∀ k pos identity, pos ≤ setting.bytes.size →
          setting.Shows memoize (scene.rounds + 1) (t.number k) args pos identity
            (t.level scene env k pos (.start identity))) ∧
        ∀ k tier, t.tiers[k]? = some tier → ∀ pos s v stop s',
          t.level scene env (k + 1) pos s = some (.ok (.success v stop, s')) ↔
            ∃ tree read, tier.fixity.Reads (tier.operator.reads scene env tier.layout)
              (t.call scene env k) scene.rounds pos s tree read stop s' ∧
              tree.value = v ∧ tree.inOrder = read := by
  rw [Expr.emit] at w
  have nodup : (Expr.operators tag atom levels).freeLocals.Nodup := Text.nodup_sortNames _
  have tame := Emit.Tame.within atom atom.emit_tame
  obtain ⟨slots, d₁, p₁, w₁, wa⟩ := Emit.writes_bind.1 w
  obtain ⟨-, rfl, rfl⟩ := Emit.writes_lookupAll.1 w₁
  obtain ⟨f, d₂, p₂, w₂, wb⟩ := Emit.writes_bind.1 wa
  obtain ⟨w₃, rfl⟩ := Emit.writes_lift.1 w₂
  obtain ⟨k, d₃, p₃, w₄, w₅⟩ := Emit.writes_bind.1 wb
  obtain ⟨w₆, rfl⟩ := Emit.writes_lift.1 w₄
  obtain ⟨rfl, rfl⟩ := Emit.writes_emit.1 w₅
  obtain ⟨rfl, draft, p₄, function, w₇, done, -, hosts⟩ := Emit.hosts_defineNew tame w₃
  have realizes := atom.embeds _ _ _ _ w₇
  generalize atom.layoutWithin _ = inner at realizes
  obtain ⟨tiers, same, last, follow⟩ := Expr.towers nodup w₆
  have grown := (Emit.tame_defineNew _ _ tame).pools w₃
  have rest := emitLevels_tame tag.id (Expr.operators tag atom levels).freeLocals
    p₁.functions.size 0 levels
  rw [grown.rules, grown.rule] at follow
  refine ⟨⟨_, atom, inner, p₁.functions.size, tiers⟩, rfl, rfl, same, ⟨slots, ?_⟩,
    fun setting memoize scene env args pools fits values => ⟨fun k pos identity inside => ?_,
      fun k tier found pos s v stop s' => ?_⟩⟩
  · rw [Table.number, List.take_of_length_le (by simp [← same]), last]
  · obtain ⟨within, known⟩ := hosts _ (pools.back (rest.pools w₆))
    have base : setting.program.Performs p₁.ruleFunctions p₁.rule _ p₁.functions.size
        fun scene env => atom.reads scene env inner :=
      ⟨function, draft, _, _, known, done, tame.draft w₇, fun site' scene env hp hf fits =>
        realizes.performs site' scene env (by rw [hf]; exact (Draft.function_eq_ok done).1)
          (by rw [hp]; exact within) fits⟩
    exact (follow setting.program _ pools base k).shows fits values inside identity
  · rw [Table.level_succ found, Scene.levelOf_eq_success]
    constructor
    · rintro ⟨tree, read, reads, value⟩
      exact ⟨tree, read, reads, value, reads.inOrder⟩
    · rintro ⟨tree, read, reads, value, -⟩
      exact ⟨tree, read, reads, value⟩

end Towers

/-- The letter a over and over, with plus signs between. -/
def Expr.sum : Expr :=
  .operators ⟨1, .nowhere⟩ (.str ⟨2, .nowhere⟩ [97] ⟨false, false, false⟩)
    [(.leftAssoc, .str ⟨3, .nowhere⟩ [43] ⟨false, false, false⟩)]

/-- A grammar whose only rule is that table. -/
def Grammar.sums : Grammar where
  definitions := [.plain "start" .sum]
  sections := []

theorem Grammar.compile_sums : (Grammar.sums.compile 4 0).isOk = true := by decide +kernel

/-- The tree of a sum of two letters. -/
def Grouping.sum (id : Nat) : Grouping :=
  .infixed id (.operand (.str "a")) (.str "+") (.operand (.str "a"))

/-- Two letters and the plus sign between them are all that a level for sums reads of them. -/
theorem Fixity.reads_sum [Regex.Engine] {scene : Scene} (plain : scene.memoize = false)
    (text : scene.isBinary = false) (bytes : scene.bytes = ⟨#[97, 43, 97]⟩) (env : Env)
    (l l' : Layout) (s : Store) :
    Fixity.Reads ((Expr.str ⟨3, .nowhere⟩ [43] ⟨false, false, false⟩).reads scene env l)
      ((Expr.str ⟨2, .nowhere⟩ [97] ⟨false, false, false⟩).reads scene env l') 5 0 s .leftAssoc
      (.sum s.identity) [.str "a", .str "+", .str "a"] 3 (s.drawn 1) := by
  have letter (pos : Nat) (here : bytesAt scene.bytes pos [97] = true)
      (cut : Input.excise scene.isBinary scene.bytes pos (pos + 1) = .str "a") (s : Store) :
      Reading.Finds ((Expr.str ⟨2, .nowhere⟩ [97] ⟨false, false, false⟩).reads scene env l')
        pos s (.str "a") (pos + 1) s := Expr.finds_literal plain here cut s
  have plus : Reading.Finds ((Expr.str ⟨3, .nowhere⟩ [43] ⟨false, false, false⟩).reads scene env l)
      1 s (.str "+") 2 s :=
    Expr.finds_literal plain (by rw [bytes]; decide) (by rw [text, bytes]; rfl) s
  have nothing (s : Store) : Reading.Misses
      ((Expr.str ⟨3, .nowhere⟩ [43] ⟨false, false, false⟩).reads scene env l) 3 s s :=
    Expr.misses_literal plain (by rw [bytes]; decide) s
  exact .left (letter 0 (by rw [bytes]; decide) (by rw [text, bytes]; rfl) s)
    (.more (.found plus (letter 2 (by rw [bytes]; decide) (by rw [text, bytes]; rfl) s)) (by decide)
      (.ends (.noOperator (nothing _))))

/-- A sum of two letters runs to its tree. -/
theorem Expr.tables_group_sum :
    ∃ program identity, Grammar.sums.compile 4 0 = .ok (program, identity) ∧
      ∃ (t : Table) (tier : Tier) (scene : Scene), t.tiers = [tier] ∧
        (Setting.mk program ⟨[], Host.compareOp⟩ [] ⟨#[97, 43, 97]⟩ false).Ends false (t.number 1)
          [] 0 7 (.ok (⟨true, (Grouping.sum 7).value, 3⟩, 8)) ∧
        tier.fixity.Reads (tier.operator.reads scene [] tier.layout) (t.call scene [] 0) 5 0
          (.start 7) (.sum 7) [.str "a", .str "+", .str "a"] 3 (.start 8) := by
  obtain ⟨⟨program, identity⟩, compiled⟩ := Except.exists_of_isOk Grammar.compile_sums
  obtain ⟨ls, numbers, fits⟩ := Grammar.fits_of_compile compiled
  obtain ⟨r, single⟩ : ∃ r, program.rules = [r] :=
    List.length_eq_one_iff.1 (by simpa [Grammar.sums] using congrArg List.length numbers.rules)
  obtain ⟨d, p, d', p', w, hosts, rules, rule⟩ := Grammar.written_of_compile compiled
    (by rw [single]; exact .head _)
  obtain ⟨t, params, atom, tiers, -, group⟩ := Expr.tables_group w
  let setting : Setting := ⟨program, ⟨[], Host.compareOp⟩, [], ⟨#[97, 43, 97]⟩, false⟩
  have small : setting.bytes.size < 2 ^ 63 := by change (3 : Nat) < 2 ^ 63; decide
  have world := fits setting false (some false) rfl small (by decide)
  have fits := world.scene (World.calls world 5) "start"
  generalize read : World.scene _ "start" 5 = scene at fits
  have rounds : scene.rounds = 5 := read ▸ rfl
  have plain : scene.memoize = false := read ▸ rfl
  obtain ⟨shows, succeeds⟩ := group setting false scene [] [] hosts (by rwa [rules, rule])
    (by rw [params]; rfl)
  obtain ⟨⟨fixity, operator, l, function⟩, single, same⟩ := List.map_eq_singleton_iff.1 tiers
  cases same
  have base : t.call scene [] 0 = Expr.reads (.str ⟨2, .nowhere⟩ [97] ⟨false, false, false⟩) scene
      [] t.layout := by
    funext pos
    rw [Table.call, Scene.own, plain, Bool.and_false, Reading.remembered_false, ← atom]
    rfl
  have reads := Fixity.reads_sum plain fits.isBinary fits.bytes [] l t.layout (.start 7)
  rw [← base, ← rounds] at reads
  have level := (succeeds 0 _ (by rw [single]; rfl) _ _ _ _ _).2 ⟨_, _, reads, rfl, rfl⟩
  have shown := shows 1 0 7 (Nat.zero_le _)
  rw [level] at shown
  obtain ⟨_, ends, rfl, -⟩ := shown
  exact ⟨program, identity, compiled, t, _, scene, single, ends, rounds ▸ reads⟩

end Packrat
