import Packrat.Proofs.Simulation.Calls

/-
**Definitions and the functions written for them.**

Every definition of a grammar gets the number of a function before any of them is written; then
they are written one after the other.  What a function comes to stand for is a closure: for the
function of a definition its body, and for the functions written on the side the arguments that are
closed over their locals.

Main definitions:

* `Packrat.Definition.closure` — what the function of a definition stands for;
* `Packrat.ownClosures`, `Packrat.sideClosures` — what the functions of definitions stand for, and
  those written on the side.

Main results:

* `Packrat.Definition.settles` — **the function of a definition stands for its body**;
* `Packrat.settles_all` — the same of all definitions of a grammar.
-/

set_option autoImplicit false

namespace Packrat

/-- What the function of a definition stands for. -/
def Definition.closure (d : Definition) (l : Layout) : Closure :=
  ⟨ruleFunction d.name, d.paramList, d.name, l, d.body⟩

/-- Definitions with what is known about their rules. -/
abbrev Entries := List (Definition × RuleEntry)

/-- What the functions of definitions stand for. -/
def ownClosures (ds : Entries) (ls : List Layout) : List (Nat × Closure) :=
  (ds.zip ls).map fun x => (x.1.2.function, x.1.1.closure x.2)

/-- What the functions stand for that are written on the side. -/
def sideClosures (ds : Entries) (ls : List Layout) : List (Nat × Closure) :=
  (ds.zip ls).flatMap fun x => x.1.1.body.closures x.1.1.name x.2

/-- The functions of rules, by their names, the last first. -/
def ruleNumbers (ds : Entries) : List (String × Nat) :=
  (ds.map fun x => (ruleFunction x.1.name, x.2.function)).reverse

/-! ### Reserving -/

namespace Build

theorem adds_cls_eq {c : NodeClass} {p p' : Pools} {n : Nat} (h : (cls c).Adds p n p') :
    p' = { p with classes := p'.classes } := by
  simp only [cls, pooled, adds_get_bind] at h
  split at h
  · obtain ⟨rfl, rfl⟩ := adds_pure.1 h
    rfl
  · simp only [adds_set_bind] at h
    obtain ⟨rfl, rfl⟩ := adds_pure.1 h
    rfl

end Build

/-- What is left when the function of a definition has been reserved. -/
theorem Definition.adds_reserve {d : Definition} {p p' : Pools} {r : RuleEntry}
    (h : d.reserve.Adds p r p') :
    r = ⟨d.name, p.functions.size, d.params, d.source, d.isClass, d.ignored, d.synthetic⟩ ∧
      p' = { p with
        functions := p.functions.push none
        ruleFunctions := (ruleFunction d.name, p.functions.size) :: p.ruleFunctions
        classes := p'.classes } := by
  obtain ⟨f, p₁, h₁, h⟩ := Build.adds_bind.1 h
  obtain ⟨rfl, rfl⟩ := Build.adds_reserve.1 h₁
  obtain ⟨_, p₂, h₂, h⟩ := Build.adds_bind.1 h
  obtain rfl := Build.adds_modify.1 h₂
  dsimp only at h
  cases hd : d.fields with
  | none =>
      rw [hd] at h
      obtain ⟨rfl, rfl⟩ := Build.adds_pure.1 h
      exact ⟨rfl, rfl⟩
  | some fields =>
      rw [hd] at h
      obtain ⟨_, p₃, h₃, h⟩ := Build.adds_bind.1 h
      obtain ⟨rfl, rfl⟩ := Build.adds_pure.1 h
      change (Build.cls ⟨d.name, fields⟩ >>= fun _ => pure ()).Adds _ _ _ at h₃
      obtain ⟨n, p₄, h₄, h₅⟩ := Build.adds_bind.1 h₃
      obtain ⟨-, rfl⟩ := Build.adds_pure.1 h₅
      exact ⟨rfl, Build.adds_cls_eq h₄⟩

/-- What is left when the functions of definitions have been reserved. -/
theorem adds_reserveAll {ds : List Definition} {p p' : Pools} {rs : List RuleEntry}
    (h : (ds.mapM Definition.reserve).Adds p rs p') :
    rs.map (·.name) = ds.map (·.name) ∧
      (ds.zip rs).map (·.2.function) = List.range' p.functions.size ds.length ∧
      p' = { p with
        functions := p.functions ++ (Array.replicate ds.length none)
        ruleFunctions := ruleNumbers (ds.zip rs) ++ p.ruleFunctions
        classes := p'.classes } ∧
      ∀ ls, Rising p.functions.size p'.functions.size (ownClosures (ds.zip rs) ls) := by
  induction ds generalizing p rs with
  | nil =>
      obtain ⟨rfl, rfl⟩ := Build.adds_pure.1 h
      exact ⟨rfl, rfl, by simp [ruleNumbers], fun ls => Nat.le_refl _⟩
  | cons d ds ih =>
      obtain ⟨r, p₁, rs, h₁, h₂, rfl⟩ := Build.adds_mapM_cons.1 h
      obtain ⟨rfl, hp₁⟩ := Definition.adds_reserve h₁
      obtain ⟨names, numbers, hp₂, rising⟩ := ih h₂
      have size : p₁.functions.size = p.functions.size + 1 := by rw [hp₁]; simp
      refine ⟨by simp [names], ?_, ?_, fun ls => ?_⟩
      · rw [size] at numbers
        simp [numbers, List.range'_succ]
      · rw [hp₂, hp₁]
        simp [ruleNumbers, Array.replicate_succ']
      · cases ls with
        | nil =>
            have := (rising []).le
            simp only [ownClosures, List.zip_nil_right, List.map_nil, Rising]
            omega
        | cons l ls =>
            refine ⟨Nat.le_refl _, ?_⟩
            have := rising ls
            rw [size] at this
            exact this

/-! ### Writing -/

variable [Regex.Engine]

/-- An expression of a rule that has been written into a program. -/
def Expr.Written (program : Program) (rules : List (String × Nat)) (rule : String) (e : Expr) :
    Prop :=
  ∃ d p d' p', e.emit.Writes d p () d' p' ∧ program.Hosts p' ∧ p.ruleFunctions = rules ∧
    p.rule = rule

/-- An expression is written in place or as a function of its own. -/
theorem Expr.written_within {e : Expr} {d d' : Draft} {p p' : Pools} {program : Program}
    (w : (Emit.within e e.emit).Writes d p () d' p') (hosts : program.Hosts p') :
    e.Written program p.ruleFunctions p.rule := by
  rw [Emit.within, Emit.writes_get_bind] at w
  split at w
  · obtain ⟨vs, d₁, q, w₁, w₂⟩ := Emit.writes_bind.1 w
    obtain ⟨-, rfl, rfl⟩ := Emit.writes_lookupAll.1 w₁
    obtain ⟨k, _, p₂, w₃, w₄⟩ := Emit.writes_bind.1 w₂
    obtain ⟨w₅, rfl⟩ := Emit.writes_lift.1 w₃
    obtain ⟨rfl, rfl⟩ := Emit.writes_emit.1 w₄
    obtain ⟨rfl, draft, p₁, f, w₆, -, -, within⟩ := Emit.hosts_defineNew e.emit_tame w₅
    exact ⟨_, _, _, _, w₆, (within program hosts).1, rfl, rfl⟩
  · exact ⟨_, _, _, _, w, hosts, rfl, rfl⟩

/-- A definition whose body has been written into a program, as the code of a function. -/
def Definition.Written (program : Program) (rules : List (String × Nat)) (maxBlocks k : Nat)
    (d : Definition) : Prop :=
  ∃ f draft p p', program.functions[k]? = some f ∧ draft.function = .ok f ∧
    (Emit.within d.body d.body.emit).Writes
      (.begin (ruleFunction d.name) d.paramList maxBlocks) p () draft p' ∧
    program.Hosts p' ∧ p.ruleFunctions = rules ∧ p.rule = d.name

theorem Definition.Written.body {program : Program} {rules : List (String × Nat)}
    {maxBlocks k : Nat} {d : Definition} (h : d.Written program rules maxBlocks k) :
    d.body.Written program rules d.name := by
  obtain ⟨f, draft, p, p', -, -, w, hosts, rfl, named⟩ := h
  rw [← named]
  exact Expr.written_within w hosts

/-- What has been written when the bodies of definitions are there: their functions and those
written on the side stand for their closures, and other functions are what they were. -/
structure Settles (p p' : Pools) (ds : Entries) (ls : List Layout) : Prop where
  rules : p'.ruleFunctions = p.ruleFunctions
  budget : p'.maxBlocks = p.maxBlocks
  sound : (∀ e ∈ p.regexes, e.Sound) → ∀ e ∈ p'.regexes, e.Sound
  written : ∀ k < p.functions.size, (∀ x ∈ ds, x.2.function ≠ k) →
    p'.functions[k]? = p.functions[k]?
  rising : Rising p.functions.size p'.functions.size (sideClosures ds ls)
  hosts : ∀ program : Program, program.Hosts p' → program.Hosts p
  placed : ∀ program : Program, program.Hosts p' →
    ∀ kc ∈ ownClosures ds ls ++ sideClosures ds ls, kc.2.Placed program p.ruleFunctions kc.1
  bodies : ∀ program : Program, program.Hosts p' →
    ∀ x ∈ ds, x.1.Written program p.ruleFunctions p.maxBlocks x.2.function

/-- The function of a definition stands for its body. -/
theorem Definition.settles {d : Definition} {r : RuleEntry} {p p' : Pools} {u : Unit}
    (h : (d.emit r.function).Adds p u p') (reserved : p.functions[r.function]? = some none) :
    ∃ l, Settles p p' [(d, r)] [l] := by
  obtain ⟨_, p₁, h₁, h⟩ := Build.adds_bind.1 h
  obtain rfl := Build.adds_modify.1 h₁
  obtain ⟨draft, p₂, f, w, done, rfl⟩ := Emit.adds_define h
  have tame := Emit.Tame.within d.body d.body.emit_tame
  have grown := tame.pools w
  obtain ⟨room, -⟩ := Array.getElem?_eq_some_iff.1 reserved
  have open_ : p₂.functions[r.function]? = some none := (grown.written _ room).trans reserved
  have realizes := d.body.embeds _ _ _ _ w
  have name : f.name = ruleFunction d.name := by
    obtain ⟨-, name, -⟩ := Draft.function_eq_ok done
    exact name.trans (tame.draft w).name
  let begun := Draft.begin (ruleFunction d.name) d.paramList p.maxBlocks
  refine ⟨d.body.layoutWithin (begun.stage { p with rule := d.name }), grown.rules, grown.budget,
    grown.sound, ?_, ?_, fun program hosts => ?_, fun program hosts => ?_,
    fun program hosts x mem => ?_⟩
  · intro k hk other
    rw [Array.getElem?_setIfInBounds, if_neg (other _ (List.mem_singleton_self _))]
    exact grown.written k hk
  · simpa [sideClosures] using realizes.closes.rising
  · exact { (hosts.unwrite open_).1.back grown with }
  · obtain ⟨hosts', known⟩ := hosts.unwrite open_
    intro kc mem
    simp only [ownClosures, sideClosures, List.zip_cons_cons, List.zip_nil_right, List.map_cons,
      List.map_nil, List.flatMap_cons, List.flatMap_nil, List.append_nil, List.cons_append,
      List.nil_append, List.mem_cons] at mem
    rcases mem with rfl | mem
    · refine ⟨f, draft, p.maxBlocks, known, done, name, tame.draft w,
        fun site scene env hs hf fits => ?_⟩
      exact realizes.performs site scene env (hf ▸ (Draft.function_eq_ok done).1) (hs ▸ hosts') fits
    · exact realizes.closes.placed program hosts' kc mem
  · obtain rfl := List.mem_singleton.1 mem
    obtain ⟨hosts', known⟩ := hosts.unwrite open_
    exact ⟨f, draft, _, _, known, done, w, hosts', rfl, rfl⟩

/-- The functions of definitions stand for their bodies. -/
theorem settles_all {ds : Entries} {p p' : Pools} {u : Unit}
    (h : (ds.forM fun x => x.1.emit x.2.function).Adds p u p')
    (distinct : (ds.map (·.2.function)).Nodup)
    (reserved : ∀ x ∈ ds, p.functions[x.2.function]? = some none) :
    ∃ ls, ls.length = ds.length ∧ Settles p p' ds ls := by
  induction ds generalizing p with
  | nil =>
      obtain ⟨-, rfl⟩ := Build.adds_pure.1 h
      exact ⟨[], rfl, rfl, rfl, id, fun _ _ _ => rfl, Nat.le_refl _, fun _ => id, by
        simp [ownClosures, sideClosures], by simp⟩
  | cons x ds ih =>
      obtain ⟨d, r⟩ := x
      obtain ⟨_, p₁, h₁, h⟩ := (Build.adds_bind (x := d.emit r.function)).1 h
      rw [List.map_cons, List.nodup_cons] at distinct
      obtain ⟨l, first⟩ := Definition.settles h₁ (reserved _ List.mem_cons_self)
      obtain ⟨ls, len, rest⟩ := ih h distinct.2 fun y hy => by
        have mem := List.mem_cons_of_mem (d, r) hy
        obtain ⟨room, -⟩ := Array.getElem?_eq_some_iff.1 (reserved y mem)
        rw [first.written _ room, reserved y mem]
        rintro x hx same
        obtain rfl := List.mem_singleton.1 hx
        exact distinct.1 (List.mem_map.2 ⟨y, hy, same.symm⟩)
      refine ⟨l :: ls, by simp [len], rest.rules.trans first.rules,
        rest.budget.trans first.budget, rest.sound ∘ first.sound, ?_, ?_,
        fun program hosts => first.hosts program (rest.hosts program hosts),
        fun program hosts kc mem => ?_, fun program hosts x mem => ?_⟩
      · intro k hk other
        rw [rest.written k (Nat.lt_of_lt_of_le hk first.rising.le)
          fun x hx => other x (List.mem_cons_of_mem _ hx)]
        exact first.written k hk fun x hx => other x (by simp_all)
      · have side : sideClosures ((d, r) :: ds) (l :: ls) =
            sideClosures [(d, r)] [l] ++ sideClosures ds ls := by simp [sideClosures]
        rw [side]
        exact first.rising.append rest.rising
      · have own := first.placed program (rest.hosts program hosts) kc
        have others := rest.placed program hosts kc
        rw [first.rules] at others
        simp only [ownClosures, sideClosures, List.zip_cons_cons, List.zip_nil_right, List.map_cons,
          List.map_nil, List.flatMap_cons, List.flatMap_nil, List.append_nil, List.cons_append,
          List.nil_append, List.mem_cons, List.mem_append] at own others mem
        rcases mem with mem | mem | mem | mem
        · exact own (.inl mem)
        · exact others (.inl mem)
        · exact own (.inr mem)
        · exact others (.inr mem)
      · rcases List.mem_cons.1 mem with rfl | mem
        · exact first.bodies program (rest.hosts program hosts) _ (List.mem_singleton_self _)
        · rw [← first.rules, ← first.budget]
          exact rest.bodies program hosts x mem

end Packrat
