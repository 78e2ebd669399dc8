import Packrat.Proofs.Meaning.Readiness
import Packrat.Proofs.Safety.Names
import Packrat.Proofs.Splitting.Layouts

/-
**Programs that differ in their nesting budgets.**

Two programs of one grammar have the same rules, under the same numbers, and the same classes; what
differs are the functions that have been split off, and the numbers of all functions behind them.  So the
functions of rules go together, and so do the functions that the same argument has become.  Without a
memory nothing else counts, and the worlds of the two programs are alike.

Main definitions:

* `Packrat.Grammar.Faces` — the functions that go together in two programs of a grammar;
* `Packrat.Grammar.facing` — the likeness of values by which they do.

Main results:

* `Packrat.Grammar.rules_of_budgets` — rules and classes do not depend on the budget;
* `Packrat.Grammar.worlds_alike` — **the worlds of two programs of a grammar are alike**.
-/

set_option autoImplicit false

namespace Packrat

/-! ### Rules and classes -/

/-- Which class is added depends on those that are known. -/
theorem Build.cls_same {c : NodeClass} {p p' q q' : Pools} {n m : Nat} (h : (cls c).Adds p n p')
    (h' : (cls c).Adds q m q') (same : q.classes = p.classes) : q'.classes = p'.classes := by
  simp only [cls, pooled, adds_get_bind] at h h'
  rw [same] at h'
  split at h
  · next known =>
      rw [known] at h'
      rw [(adds_pure.1 h).2, (adds_pure.1 h').2, same]
  · next unknown =>
      rw [unknown, adds_set_bind] at h'
      rw [adds_set_bind] at h
      rw [(adds_pure.1 h).2, (adds_pure.1 h').2]

/-- What is reserved for a definition depends on the number of functions and on the classes. -/
theorem Definition.reserve_same {d : Definition} {p p' q q' : Pools} {r s : RuleEntry}
    (h : d.reserve.Adds p r p') (h' : d.reserve.Adds q s q')
    (size : q.functions.size = p.functions.size) (classes : q.classes = p.classes) :
    s = r ∧ q'.functions.size = p'.functions.size ∧ q'.classes = p'.classes := by
  obtain ⟨rfl, hp⟩ := Definition.adds_reserve h
  obtain ⟨rfl, hq⟩ := Definition.adds_reserve h'
  refine ⟨by rw [size], by rw [hp, hq]; simp [size], ?_⟩
  have asks := Definition.reserve_cls h
  have asks' := Definition.reserve_cls h'
  cases fields : d.fields with
  | none =>
      rw [fields] at asks asks'
      rw [asks, asks', classes]
  | some names =>
      rw [fields] at asks asks'
      obtain ⟨p₁, n, same, asks⟩ := asks
      obtain ⟨q₁, m, same', asks'⟩ := asks'
      exact Build.cls_same asks asks' (by rw [same, same', classes])

theorem reserveAll_same {ds : List Definition} {p p' q q' : Pools} {rs ss : List RuleEntry}
    (h : (ds.mapM Definition.reserve).Adds p rs p') (h' : (ds.mapM Definition.reserve).Adds q ss q')
    (size : q.functions.size = p.functions.size) (classes : q.classes = p.classes) :
    ss = rs ∧ q'.classes = p'.classes := by
  induction ds generalizing p q rs ss with
  | nil =>
      obtain ⟨rfl, rfl⟩ := Build.adds_pure.1 h
      obtain ⟨rfl, rfl⟩ := Build.adds_pure.1 h'
      exact ⟨rfl, classes⟩
  | cons d ds ih =>
      obtain ⟨r, p₁, rs, h₁, h₂, rfl⟩ := Build.adds_mapM_cons.1 h
      obtain ⟨s, q₁, ss, h₁', h₂', rfl⟩ := Build.adds_mapM_cons.1 h'
      obtain ⟨rfl, size, classes⟩ := Definition.reserve_same h₁ h₁' size classes
      obtain ⟨rfl, classes⟩ := ih h₂ h₂' size classes
      exact ⟨rfl, classes⟩

namespace Grammar

variable [Regex.Engine] {g : Grammar} {budget budget' n₀ n n₀' n' : Nat}
variable {program program' : Program}

/-- The classes of a program are those of its definitions: where nodes are built at the tops of classes
only, writing the functions adds none. -/
theorem reserved_of_compile
    (crowned : ∀ d ∈ g.definitions, ∀ c ∈ d.body.children, c.Every (·.cls? = none))
    (own : ∀ d ∈ g.definitions, ∀ c, d.body.cls? = some c → d.isClass = true ∧ c.name = d.name)
    (compiled : g.compile budget n₀ = .ok (program, n)) : ∃ p,
    (g.definitions.mapM Definition.reserve).Adds (.initial budget n₀) program.rules p ∧
      program.classes = p.classes := by
  obtain ⟨p₁, p₂, u, h₁, h₂, -, classes⟩ := rounds_of_compile compiled
  obtain ⟨-, reserved⟩ := reserveAll_classes h₁
  let S : Stock := ⟨fun _ => True, (· = p₁.classes)⟩
  have hosted : ∀ x ∈ g.definitions.zip program.rules, x.1.body.Hosted S := by
    intro x mem
    have of := (List.of_mem_zip mem).1
    refine ⟨⟨fun _ _ => trivial, fun c builds cs same unknown => ?_⟩, fun e child =>
      (crowned _ of e child).mono fun e none =>
        ⟨fun _ _ => trivial, fun c builds => nomatch none.symm.trans builds⟩⟩
    obtain ⟨isClass, name⟩ := own _ of c builds
    obtain ⟨known, inside, same'⟩ := reserved _ of isClass
    obtain rfl : cs = p₁.classes := same
    have := Array.findIdx?_eq_none_iff.1 unknown known inside
    simp [same', name] at this
  have kept : p₁.Holds S → p₂.Holds S := (emitAll_retains hosted h₂).2
  exact ⟨p₁, h₁, classes.trans (kept ⟨fun _ _ => trivial, rfl⟩).classes⟩

variable (crowned : ∀ d ∈ g.definitions, ∀ c ∈ d.body.children, c.Every (·.cls? = none))
variable (own : ∀ d ∈ g.definitions, ∀ c, d.body.cls? = some c → d.isClass = true ∧ c.name = d.name)
variable (compiled : g.compile budget n₀ = .ok (program, n))
variable (compiled' : g.compile budget' n₀' = .ok (program', n'))

include crowned own compiled compiled'

/-- Rules and classes do not depend on the budget. -/
theorem rules_of_budgets : program'.rules = program.rules ∧ program'.classes = program.classes := by
  obtain ⟨p, h, classes⟩ := reserved_of_compile crowned own compiled
  obtain ⟨p', h', classes'⟩ := reserved_of_compile crowned own compiled'
  obtain ⟨rules, same⟩ := reserveAll_same h h' rfl rfl
  exact ⟨rules, by rw [classes, classes', same]⟩

end Grammar

/-! ### Functions that go together -/

theorem mem_zip_left {α β γ : Type} {xs : List α} {ys : List β} {zs : List γ} {x : α} {y : β} {z : γ}
    (mem : (x, y, z) ∈ xs.zip (ys.zip zs)) : (x, y) ∈ xs.zip ys := by
  obtain ⟨i, inside, at_⟩ := List.getElem_of_mem mem
  simp only [List.getElem_zip, Prod.mk.injEq] at at_
  obtain ⟨rfl, rfl, -⟩ := at_
  simp only [List.length_zip, Nat.lt_min] at inside
  rw [← List.getElem_zip]
  exact List.getElem_mem (by rw [List.length_zip, Nat.lt_min]; exact ⟨inside.1, inside.2.1⟩)

theorem mem_zip_right {α β γ : Type} {xs : List α} {ys : List β} {zs : List γ} {x : α} {y : β} {z : γ}
    (mem : (x, y, z) ∈ xs.zip (ys.zip zs)) : (x, z) ∈ xs.zip zs := by
  obtain ⟨i, inside, at_⟩ := List.getElem_of_mem mem
  simp only [List.getElem_zip, Prod.mk.injEq] at at_
  obtain ⟨rfl, -, rfl⟩ := at_
  simp only [List.length_zip, Nat.lt_min] at inside
  rw [← List.getElem_zip]
  exact List.getElem_mem (by rw [List.length_zip, Nat.lt_min]; exact ⟨inside.1, inside.2.2⟩)

namespace Grammar

variable {g : Grammar} {program program' : Program} {ls ls' : List Layout}

/-- The functions that go together in two programs of a grammar: those of its rules, and those that the
same argument has become. -/
inductive Faces (g : Grammar) (rules : List RuleEntry) (ls ls' : List Layout) : Nat → Nat → Prop
  | rule {d : Definition} {r : RuleEntry} {l l' : Layout}
      (mem : ((d, r), l, l') ∈ (g.definitions.zip rules).zip (ls.zip ls')) :
      Faces g rules ls ls' r.function r.function
  | hands {d : Definition} {r : RuleEntry} {l l' : Layout} {arg : Expr} {m m' : Layout}
      (mem : ((d, r), l, l') ∈ (g.definitions.zip rules).zip (ls.zip ls'))
      (hands : d.body.Hands l l' arg m m') : Faces g rules ls ls' m.function m'.function

/-- The likeness of values by which the functions of two programs go together. Nothing is asked of
identities. -/
def facing (g : Grammar) (rules : List RuleEntry) (ls ls' : List Layout) : Likeness where
  ids _ _ := True
  counters _ _ := True
  functions := g.Faces rules ls ls'
  marks := True
  closures := False
  fresh _ := ⟨trivial, trivial⟩

/-- Functions that go together stand for the same expressions, with numbers that go together. -/
theorem Faces.closures (numbers : g.Numbers program ls) (numbers' : g.Numbers program' ls')
    (same : program'.rules = program.rules) {k k' : Nat} (faces : g.Faces program.rules ls ls' k k') :
    ∃ c c', (g.naming program ls).closure? k = some c ∧ (g.naming program' ls').closure? k' = some c' ∧
      c.Like (g.facing program.rules ls ls') c' := by
  have matches_ {d : Definition} {r : RuleEntry} {l l' : Layout}
      (mem : ((d, r), l, l') ∈ (g.definitions.zip program.rules).zip (ls.zip ls')) (e : Expr)
      (m m' : Layout) (below : ∀ arg k k', e.Hands m m' arg k k' → d.body.Hands l l' arg k k') :
      e.Matches (g.facing program.rules ls ls') m m' :=
    Expr.matches_of_hands (fun _ _ => trivial) e m m' fun arg k k' hands =>
      .hands mem (below arg k k' hands)
  cases faces with
  | @rule d r l l' mem =>
      refine ⟨d.closure l, d.closure l', numbers.closure?.2 (List.mem_append_left _ ?_),
        numbers'.closure?.2 (List.mem_append_left _ ?_), rfl, rfl, rfl, rfl,
        matches_ mem _ _ _ fun _ _ _ hands => hands⟩
      · exact List.mem_map.2 ⟨_, mem_zip_left mem, rfl⟩
      · rw [same]
        exact List.mem_map.2 ⟨_, mem_zip_right mem, rfl⟩
  | @hands d r l l' arg m m' mem hands =>
      refine ⟨arg.closure d.name m, arg.closure d.name m', numbers.closure?.2 (List.mem_append_right _ ?_),
        numbers'.closure?.2 (List.mem_append_right _ ?_), rfl, rfl, rfl, rfl,
        (matches_ mem _ _ _ fun _ _ _ below => hands.trans below).bare⟩
      · exact List.mem_flatMap.2 ⟨_, mem_zip_left mem, hands.closure d.name⟩
      · rw [same]
        exact List.mem_flatMap.2 ⟨_, mem_zip_right mem, hands.symm.closure d.name⟩

/-- The function of a rule goes with itself. -/
theorem faces_rule (numbers : g.Numbers program ls) (numbers' : g.Numbers program' ls') {d : Definition}
    {r : RuleEntry} (mem : (d, r) ∈ g.definitions.zip program.rules) :
    g.Faces program.rules ls ls' r.function r.function := by
  obtain ⟨i, inside, at_⟩ := List.getElem_of_mem mem
  have room : i < g.definitions.length := by
    rw [List.length_zip, Nat.lt_min] at inside
    exact inside.1
  have left : i < ls.length := numbers.layouts ▸ room
  have right : i < ls'.length := numbers'.layouts ▸ room
  have both : i < (ls.zip ls').length := by
    rw [List.length_zip, Nat.lt_min]
    exact ⟨left, right⟩
  have all : i < ((g.definitions.zip program.rules).zip (ls.zip ls')).length := by
    rw [List.length_zip, Nat.lt_min]
    exact ⟨inside, both⟩
  have here := List.getElem_mem all
  simp only [List.getElem_zip] at here at_
  obtain ⟨rfl, rfl⟩ := Prod.mk.inj at_
  exact .rule here

/-- **The worlds of two programs of a grammar are alike**, where nothing is remembered and host code does
not tell apart what goes together. -/
theorem worlds_alike [Regex.Engine] (numbers : g.Numbers program ls)
    (numbers' : g.Numbers program' ls') (rules : program'.rules = program.rules)
    (classes : program'.classes = program.classes) {setting setting' : Setting}
    (respects : (g.facing program.rules ls ls').Respects setting.library)
    (library : setting'.library = setting.library)
    (globals : Likeness.AlikeEnv (g.facing program.rules ls ls') setting.globals setting'.globals)
    (bytes : setting'.bytes = setting.bytes) (isBinary : setting'.isBinary = setting.isBinary)
    (leastNone? : Option Bool) : World.Like (g.facing program.rules ls ls')
      (setting.world (g.naming program ls) false leastNone?)
      (setting'.world (g.naming program' ls') false leastNone?) where
  respects := respects
  library := library
  globals := globals
  bytes := bytes
  isBinary := isBinary
  leastNone := rfl
  plain := rfl
  plain' := rfl
  classes c := by simp only [Setting.world, Naming.cls, naming, classes]
  rules name := by
    simp only [Setting.world, naming, rules]
    cases found : (ruleNumbers (g.definitions.zip program.rules)).lookup name with
    | none => exact .none
    | some k =>
        obtain ⟨before, behind, split, -⟩ := List.lookup_eq_some_iff.1 found
        have mem : (name, k) ∈ ruleNumbers (g.definitions.zip program.rules) := by rw [split]; simp
        simp only [ruleNumbers, List.mem_reverse, List.mem_map] at mem
        obtain ⟨⟨d, r⟩, mem, ⟨⟩⟩ := mem
        exact .some (faces_rule numbers numbers' mem)
  closures faces := by
    obtain ⟨c, c', found, found', like⟩ := Faces.closures numbers numbers' rules faces
    simp only [Setting.world, found, found']
    exact .some like

end Grammar

end Packrat
