import Packrat.Proofs.Emission.Stages
import Packrat.Proofs.Simulation.Calling

/-
**Expressions and what is written for them.**

What is written for an expression depends on its surroundings only as far as the stage goes that has
been reached: the stage decides which parts become functions, and which numbers they take.  An
argument of a rule that is no local and no host code becomes a function that is closed over the
locals it reads; the rule may call it from anywhere.  The functions that an expression contributes
to a program in this way are its closures.  Writing the code of an expression realizes a reading:
the code performs it, and every closure of the expression stands in the program under its number,
written in the order of the numbers.

Main definitions:

* `Packrat.Expr.layout`, `Packrat.Expr.layoutWithin` — the layout of an expression that is written at
  a stage, alone and inside of another;
* `Packrat.Expr.closures` — the closures of an expression;
* `Packrat.Closure.Placed` — a closure that stands in a program;
* `Packrat.Realizes`, `Packrat.Expr.Compiles` — what writing an expression comes to.

Main results:

* `Packrat.Rising.lookup` — a closure is found under its number;
* `Packrat.Expr.Compiles.within` — **a part of an expression, in place or as a function of its own**.
-/

set_option autoImplicit false

namespace Packrat

/-! ### Layouts -/

/-- The layout of an expression inside of another, which may take the next number for a function. -/
@[irreducible] def Layout.within (layout : Option Nat → Stage → Layout) (e : Expr) (s : Stage) :
    Layout :=
  if s.blocksLeft < e.numBlocks then layout (some s.functions) s.opened else layout none s

/-- The stage at which the operator of a level is written, in the function of the level. -/
def Fixity.operatorStage : Fixity → Stage → Stage
  | .prefixOp, s => s.entered
  | .postfixOp, s | .leftAssoc, s | .nonAssoc, s | .rightAssoc, s => s.entered.entered

mutual

/-- The layout of an expression that is written at a stage, as the function of the given number if
there is one. -/
def Expr.layout : Expr → Option Nat → Stage → Layout
  | .str _ _ _, k, _ | .regex _ _ _, k, _ | .ref _ _ _, k, _ | .fail _ _, k, _ | .host _ _, k, _ =>
    .mk k 0 []
  | .call _ _ args _, k, s => .mk k 0 (layoutArgs args s)
  | .seq _ items _, k, s => .mk k 0 (layoutItems items s.entered)
  | .choice _ [only], k, s => .mk k 0 [.within only.layout only s]
  | .choice _ alternatives, k, s => .mk k 0 (layoutAlternatives alternatives s.entered)
  | .list _ item _ _, k, s => .mk k 0 [.within item.layout item s.entered]
  | .sep _ item separator flags, k, s =>
    let found := Stage.inside item.behind item s.entered
    -- The list without items is shared, and takes the next identity if there may be none.
    let between := (found.nested (if flags.allowEmpty then .shared else id)).entered
    .mk k found.identity [.within item.layout item s.entered,
      .within separator.layout separator between,
      .within item.layout item (.tested (.inside separator.behind separator between))]
  | .opt _ inner, k, s | .expect _ inner, k, s | .expectNot _ inner, k, s =>
    .mk k 0 [.within inner.layout inner s.entered]
  | .apply _ a b _, k, s | .discard _ a b _, k, s | .bound _ _ a b, k, s | .satisfying _ a b, k, s =>
    .mk k 0 [.within a.layout a s.entered, .within b.layout b (.inside a.behind a s.entered)]
  | .skip _ items, k, s => .mk k 0 (layoutParts items s.entered)
  | .operators _ atom levels, k, s =>
    .mk k 0 (.mk (some s.functions) 0 [.within atom.layout atom s.opened] ::
      layoutLevels levels (.apart (.inside atom.behind atom) s))

/-- The layouts of items one after the other. -/
def layoutItems : List Expr → Stage → List Layout
  | [], _ => []
  | e :: es, s => .within e.layout e s :: layoutItems es (.inside e.behind e s)

/-- The layouts of alternatives, up to one that always succeeds. -/
def layoutAlternatives : List Expr → Stage → List Layout
  | [], _ => []
  | e :: es, s => .within e.layout e s ::
      if e.alwaysSucceeds then [] else layoutAlternatives es (.tested (.inside e.behind e s))

/-- The layouts of the parts of a skipping expression. -/
def layoutParts : List Expr → Stage → List Layout
  | [], _ => []
  | e :: es, s => .within e.layout e s :: layoutParts es (.tested (.inside e.behind e s))

/-- The layouts of arguments. -/
def layoutArgs : List (Option String × Expr) → Stage → List Layout
  | [], _ => []
  | (_, e) :: rest, s =>
    (if e.direct then .blank else e.layout (some s.functions) s.opened) ::
      layoutArgs rest (if e.direct then s else .apart e.behind s)

/-- The layouts of levels. -/
def layoutLevels : List (Fixity × Expr) → Stage → List Layout
  | [], _ => []
  | (fixity, operator) :: rest, s =>
    .mk (some s.functions) 0 [.within operator.layout operator (fixity.operatorStage s.opened)] ::
      layoutLevels rest (.apart (fixity.behind (.inside operator.behind operator)) s)

end

/-- The layout of an expression that is written inside of another. -/
abbrev Expr.layoutWithin (e : Expr) (s : Stage) : Layout := .within e.layout e s

theorem Expr.layoutWithin_own {e : Expr} {d : Draft} (few : d.blocksLeft < e.numBlocks) (p : Pools) :
    e.layoutWithin (d.stage p) = e.layout (some p.functions.size) (d.stage p).opened := by
  rw [layoutWithin, Layout.within]
  exact if_pos few

theorem Expr.layoutWithin_place {e : Expr} {d : Draft} (enough : ¬d.blocksLeft < e.numBlocks)
    (p : Pools) : e.layoutWithin (d.stage p) = e.layout none (d.stage p) := by
  rw [layoutWithin, Layout.within]
  exact if_neg enough

/-- The layout of an expression that is the whole body of a function. -/
def Layout.bare (l : Layout) : Layout := .mk none l.shared l.parts

theorem Expr.layout_function? (e : Expr) (k : Option Nat) (s : Stage) :
    (e.layout k s).function? = k := by
  cases e with
  | choice tag alternatives =>
      match alternatives with
      | [] | [_] | _ :: _ :: _ => simp only [layout]; rfl
  | _ => simp only [layout]; rfl

/-- The number of a function says nothing of what is in it. -/
theorem Expr.layout_bare (e : Expr) (k : Option Nat) (s : Stage) :
    (e.layout k s).bare = e.layout none s := by
  cases e with
  | choice tag alternatives =>
      match alternatives with
      | [] | [_] | _ :: _ :: _ => simp only [layout]; rfl
  | _ => simp only [layout]; rfl

/-! ### Closures -/

/-- What an argument stands for that has become a function. -/
def Expr.closure (rule : String) (e : Expr) (l : Layout) : Closure :=
  ⟨s!"_parse_function_{e.id}", e.freeLocals, rule, l.bare, e⟩

mutual

/-- The closures of an expression with their numbers. -/
def Expr.closures (rule : String) : Expr → Layout → List (Nat × Closure)
  | .str _ _ _, _ | .regex _ _ _, _ | .ref _ _ _, _ | .fail _ _, _ | .host _ _, _ => []
  | .seq _ items _, l | .skip _ items, l => closuresAll rule items l.parts
  | .choice _ alternatives, l => closuresAlternatives rule alternatives l.parts
  | .list _ inner _ _, l | .opt _ inner, l | .expect _ inner, l | .expectNot _ inner, l =>
    inner.closures rule (l.part 0)
  | .sep _ item separator _, l =>
    item.closures rule (l.part 0) ++ separator.closures rule (l.part 1)
      ++ item.closures rule (l.part 2)
  | .apply _ a b _, l | .discard _ a b _, l | .bound _ _ a b, l | .satisfying _ a b, l =>
    a.closures rule (l.part 0) ++ b.closures rule (l.part 1)
  | .call _ _ args _, l => closuresArgs rule args l.parts
  | .operators _ atom levels, l =>
    atom.closures rule ((l.part 0).part 0) ++ closuresLevels rule levels l.parts.tail

def closuresAll (rule : String) : List Expr → List Layout → List (Nat × Closure)
  | [], _ => []
  | e :: es, ls => e.closures rule (ls.headD .blank) ++ closuresAll rule es ls.tail

/-- Behind an alternative that always succeeds no others are written. -/
def closuresAlternatives (rule : String) : List Expr → List Layout → List (Nat × Closure)
  | [], _ => []
  | e :: es, ls =>
    e.closures rule (ls.headD .blank)
      ++ (if e.alwaysSucceeds then [] else closuresAlternatives rule es ls.tail)

def closuresArgs (rule : String) :
    List (Option String × Expr) → List Layout → List (Nat × Closure)
  | [], _ => []
  | (_, e) :: rest, ls =>
    let l := ls.headD .blank
    (if e.direct then [] else (l.function, e.closure rule l) :: e.closures rule l)
      ++ closuresArgs rule rest ls.tail

def closuresLevels (rule : String) : List (Fixity × Expr) → List Layout → List (Nat × Closure)
  | [], _ => []
  | (_, e) :: rest, ls =>
    e.closures rule ((ls.headD .blank).part 0) ++ closuresLevels rule rest ls.tail

end

/-! ### Numbers in order -/

/-- Closures with rising numbers between two bounds. -/
def Rising : Nat → Nat → List (Nat × Closure) → Prop
  | low, high, [] => low ≤ high
  | low, high, (k, _) :: rest => low ≤ k ∧ Rising (k + 1) high rest

namespace Rising

variable {low low' middle high k : Nat} {c : Closure} {cs cs' : List (Nat × Closure)}

theorem le (h : Rising low high cs) : low ≤ high := by
  induction cs generalizing low with
  | nil => exact h
  | cons kc cs ih => exact Nat.le_trans h.1 (Nat.le_of_succ_le (ih h.2))

theorem lower (h : Rising low high cs) (le : low' ≤ low) : Rising low' high cs := by
  cases cs with
  | nil => exact Nat.le_trans le h
  | cons kc cs => exact ⟨Nat.le_trans le h.1, h.2⟩

theorem raise {high' : Nat} (h : Rising low high cs) (le : high ≤ high') : Rising low high' cs := by
  induction cs generalizing low with
  | nil => exact Nat.le_trans h le
  | cons kc cs ih => exact ⟨h.1, ih h.2⟩

theorem append (h : Rising low middle cs) (h' : Rising middle high cs') :
    Rising low high (cs ++ cs') := by
  induction cs generalizing low with
  | nil => exact h'.lower h
  | cons kc cs ih => exact ⟨h.1, ih h.2⟩

theorem bounds (h : Rising low high cs) (mem : (k, c) ∈ cs) : low ≤ k ∧ k < high := by
  induction cs generalizing low with
  | nil => simp at mem
  | cons kc cs ih =>
      rcases List.mem_cons.1 mem with rfl | mem
      · exact ⟨h.1, h.2.le⟩
      · have := ih h.2 mem
        exact ⟨Nat.le_trans h.1 (by omega), this.2⟩

theorem lookup (h : Rising low high cs) (mem : (k, c) ∈ cs) : cs.lookup k = some c := by
  induction cs generalizing low with
  | nil => simp at mem
  | cons kc cs ih =>
      rcases List.mem_cons.1 mem with rfl | mem
      · simp
      · have above := (h.2.bounds mem).1
        rw [List.lookup_cons, beq_eq_false_iff_ne.2 (by omega)]
        exact ih h.2 mem

end Rising

/-! ### Realized readings -/

variable [Regex.Engine]

/-- A closure that stands in a program under a number: its code performs the meaning of its body
wherever it is called. -/
def Closure.Placed (program : Program) (rules : List (String × Nat)) (k : Nat) (c : Closure) :
    Prop :=
  ∃ f draft budget, program.functions[k]? = some f ∧ draft.function = .ok f ∧ f.name = c.name ∧
    (Draft.begin c.name c.params budget).Grows draft ∧
    ∀ (site : Site) (scene : Scene) (env : Env), site.setting.program = program →
      site.function = f → scene.Fits site.setting site.memoize rules c.rule →
      site.Performs scene.rounds (Draft.begin c.name c.params budget) draft env fun pos =>
        c.layout.read scene c.body.freeLocals pos (c.body.meaning scene env c.layout pos)

/-- Closures that have been written between two states of the pools. -/
structure Closes (p p' : Pools) (cs : List (Nat × Closure)) : Prop where
  rising : Rising p.functions.size p'.functions.size cs
  placed : ∀ program : Program, program.Hosts p' → ∀ kc ∈ cs,
    kc.2.Placed program p.ruleFunctions kc.1

namespace Closes

variable {p p₁ p₂ p' : Pools} {cs cs' : List (Nat × Closure)}

theorem nil (grown : p.Grows p') : Closes p p' [] := ⟨grown.functions, fun _ _ _ h => by simp at h⟩

/-- What is written before and behind has no part in closures. -/
theorem widen (h : Closes p₁ p₂ cs) (before : p.Grows p₁) (behind : p₂.Grows p') :
    Closes p p' cs where
  rising := (h.rising.lower before.functions).raise behind.functions
  placed program hosts kc mem := by
    rw [← before.rules]
    exact h.placed program (hosts.back behind) kc mem

theorem append (h : Closes p p₁ cs) (h' : Closes p₁ p' cs') (first : p.Grows p₁)
    (second : p₁.Grows p') : Closes p p' (cs ++ cs') where
  rising := h.rising.append h'.rising
  placed program hosts kc mem := by
    rcases List.mem_append.1 mem with mem | mem
    · exact h.placed program (hosts.back second) kc mem
    · rw [← first.rules]
      exact h'.placed program hosts kc mem

end Closes

/-- What writing code between two drafts comes to: the code performs a reading, and closures have
been written on the side. -/
structure Realizes (d : Draft) (p : Pools) (d' : Draft) (p' : Pools) (cs : List (Nat × Closure))
    (r : Scene → Env → Nat → Reading (Verdict Value)) : Prop where
  performs : ∀ (site : Site) (scene : Scene) (env : Env), site.function.Hosts d' →
    site.setting.program.Hosts p' →
    scene.Fits site.setting site.memoize p.ruleFunctions p.rule →
    site.Performs scene.rounds d d' env (r scene env)
  closes : Closes p p' cs

/-- Whatever code is written for an expression realizes its meaning. -/
def Expr.Compiles (e : Expr) : Prop :=
  ∀ d p d' p', e.emit.Writes d p () d' p' → ∀ k,
    Realizes d p d' p' (e.closures p.rule (e.layout k (d.stage p)))
      fun scene env pos => e.meaning scene env (e.layout k (d.stage p)) pos

/-- A part of an expression realizes what is read under its layout. -/
def Expr.Embeds (e : Expr) : Prop :=
  ∀ d p d' p', (Emit.within e e.emit).Writes d p () d' p' →
    Realizes d p d' p' (e.closures p.rule (e.layoutWithin (d.stage p)))
      fun scene env pos => (e.layoutWithin (d.stage p)).read scene e.freeLocals pos
        (e.meaning scene env (e.layoutWithin (d.stage p)) pos)

/-! ### Functions of their own -/

omit [Regex.Engine] in
/-- The values of names that have slots. -/
theorem Site.Ready.values {site : Site} {d : Draft} {env : Env} {σ : Moment} {s : Store}
    {names : List String} {vs : List Nat} (h : site.Ready d env σ s)
    (hv : names.mapM (fun n => d.scope.lookup n) = some vs) :
    ∃ xs, names.mapM (fun n => env.lookup n) = some xs ∧
      List.Forall₂ (fun v x => σ.slots[v]? = some x) vs xs ∧ xs.length = names.length := by
  induction names generalizing vs with
  | nil =>
      obtain rfl : [] = vs := by simpa using hv
      exact ⟨[], rfl, .nil, rfl⟩
  | cons n names ih =>
      obtain ⟨v, found, vs, hvs, rfl⟩ := mapM_cons_eq_some.1 hv
      obtain ⟨xs, hxs, slots, len⟩ := ih hvs
      obtain ⟨-, x, hx, hs⟩ := h.knows n v found
      exact ⟨x :: xs, by simp [hx, hxs], .cons hs slots, by simp [len]⟩

/-- An expression that has become a function, with the names it reads as parameters. -/
theorem Expr.Compiles.own {e : Expr} (ih : e.Compiles) {d d' : Draft} {p p' : Pools} {n : Nat}
    (w : (Emit.ownFunction e e.emit).Writes d p n d' p') :
    d' = d ∧ n = p.functions.size ∧ ∃ draft p₁ f,
      (Draft.begin s!"_parse_function_{e.id}" e.freeLocals p.maxBlocks).Grows draft ∧
      draft.function = .ok f ∧
      (∀ k, Realizes (Draft.begin s!"_parse_function_{e.id}" e.freeLocals p.maxBlocks)
        { p with functions := p.functions.push none } draft p₁
        (e.closures p.rule (e.layout k (d.stage p).opened))
        fun scene env pos => e.meaning scene env (e.layout k (d.stage p).opened) pos) ∧
      p'.functions.size = p₁.functions.size ∧ ∀ program : Program, program.Hosts p' →
        program.Hosts p₁ ∧ program.functions[n]? = some f := by
  obtain ⟨w₀, rfl⟩ := Emit.writes_lift.1 w
  obtain ⟨rfl, draft, p₁, f, w₁, done, size, hosts⟩ := Emit.hosts_defineNew e.emit_tame w₀
  have realizes := ih _ _ _ _ w₁
  rw [Draft.stage_begin d'] at realizes
  exact ⟨rfl, rfl, draft, p₁, f, e.emit_tame.draft w₁, done, realizes, size, hosts⟩

/-- The call of a function that takes the values of names. -/
theorem Site.follow_own {site : Site} {scene : Scene} {name rule : String} {params : List String}
    {budget k : Nat} {d draft : Draft} {f : Function} {env : Env} {r : Nat → Reading (Verdict Value)}
    {rules : List (String × Nat)} {vs : List Nat} {xs : List Value} {σ : Moment} {s : Store}
    (bound : Nat) (known : site.setting.program.functions[k]? = some f)
    (done : draft.function = .ok f) (grown : (Draft.begin name params budget).Grows draft)
    (body : ∀ site' : Site, site'.setting = site.setting → site'.memoize = site.memoize →
      site'.function = f →
      site'.Performs scene.rounds (Draft.begin name params budget) draft env r)
    (hxs : params.mapM (fun n => env.lookup n) = some xs) (len : xs.length = params.length)
    (slots : List.Forall₂ (fun v x => σ.slots[v]? = some x) vs xs)
    (fits : scene.Fits site.setting site.memoize rules rule) (ready : site.Ready d env σ s)
    (code : site.function.Hosts (d.add (.call (.function k) vs))) :
    site.Follows scene.rounds d.code.size σ
      (Reading.remembered (params.isEmpty && scene.memoize) k σ.pos (r σ.pos) s)
      (site.Done bound (d.add (.call (.function k) vs)).code.size σ.slots) := by
  have follow := (Setting.follow_callee known done grown body len
    (fun _ => Draft.knows_begin hxs) fits.seeded ready.inside ready.agrees.memo
    (by rw [← ready.agrees.identity]; exact site.step_call code (Site.execute_call slots))).weaken
    (Nat.le_succ _)
  have none : xs.isEmpty = params.isEmpty := by
    rw [Bool.eq_iff_iff, List.isEmpty_iff_length_eq_zero, List.isEmpty_iff_length_eq_zero, len]
  rw [none] at follow
  rw [fits.memoize]
  exact follow.mono fun v s' m => Site.done_of_returns

/-- Closures within a function are closures behind it. -/
theorem Closes.outside {p p₁ p' : Pools} {cs : List (Nat × Closure)}
    (h : Closes { p with functions := p.functions.push none } p₁ cs)
    (size : p'.functions.size = p₁.functions.size)
    (hosts : ∀ program : Program, program.Hosts p' → program.Hosts p₁) : Closes p p' cs where
  rising := by
    rw [size]
    exact h.rising.lower (by simp)
  placed program hp := h.placed program (hosts program hp)

theorem Expr.Compiles.within {e : Expr} (ih : e.Compiles) : e.Embeds := by
  intro d p d' p' w
  rw [Emit.within, Emit.writes_get_bind] at w
  by_cases few : d.blocksLeft < e.numBlocks
  · rw [if_pos few] at w
    rw [layoutWithin_own few]
    obtain ⟨vs, d₁, q, w₁, w₂⟩ := Emit.writes_bind.1 w
    obtain ⟨hv, rfl, rfl⟩ := Emit.writes_lookupAll.1 w₁
    obtain ⟨k, _, p₂, w₃, w₄⟩ := Emit.writes_bind.1 w₂
    obtain ⟨rfl, rfl, draft, p₁, f, grown, done, realizes, size, hosts⟩ := ih.own w₃
    obtain ⟨rfl, rfl⟩ := Emit.writes_emit.1 w₄
    refine ⟨fun site scene env code pools fits => ?_,
      (realizes _).closes.outside size fun program h => (hosts program h).1⟩
    obtain ⟨within, known⟩ := hosts _ pools
    intro σ s ready
    obtain ⟨xs, hxs, slots, len⟩ := ready.values hv
    have body (site' : Site) (hs : site'.setting = site.setting)
        (hm : site'.memoize = site.memoize) (hf : site'.function = f) :=
      (realizes (some q.functions.size)).performs site' scene env
        (by rw [hf]; exact (Draft.function_eq_ok done).1) (by rw [hs]; exact within)
        (by rw [hs, hm]; exact fits)
    simp only [Layout.read, Expr.layout_function?]
    exact Site.follow_own _ known done grown body hxs len slots fits ready code
  · rw [if_neg few] at w
    rw [layoutWithin_place few]
    have realizes := ih d p d' p' w none
    simpa only [Layout.read, Expr.layout_function?] using realizes

end Packrat
