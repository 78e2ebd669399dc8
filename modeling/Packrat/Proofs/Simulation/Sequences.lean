import Packrat.Proofs.Simulation.Realizing

/-
**One part after another.**

Parts that must all succeed share a label behind them, where the code goes on after the first that
fails; values that are needed later are kept in slots on the way.

Main results:

* `Packrat.Site.follow_stored` — a part whose value is kept;
* `Packrat.Expr.Embeds.apply`, `Packrat.Expr.Embeds.discard`, `Packrat.Expr.Embeds.satisfying`,
  `Packrat.Expr.Embeds.bound` — the code of these expressions realizes their meaning if those of
  their parts do;
* `Packrat.Expr.compiles_seq` — the same for sequences.
-/

set_option autoImplicit false

namespace Packrat

namespace Site

variable {site : Site} {n : Nat} {d d₁ d' : Draft} {env : Env} {σ : Moment} {s : Store}
variable {β : Type} {r : Nat → Reading (Verdict Value)} {k : Value → Nat → Reading (Verdict β)}
variable {post : Verdict β → Store → Machine → Prop}

/-- A part before others; behind a failure the code leaves for a label. -/
theorem follow_andThen {exit target : Nat} (performs : site.Performs n d d₁ env r)
    (ready : site.Ready d env σ s) (h : site.function.Hosts (d₁.add (.branch .notStatus exit)))
    (hl : site.function.labels[exit]? = some target)
    (success : ∀ σ' s', site.Behind d.slots σ.slots σ' s' → σ'.status = true →
      site.Follows n (d₁.add (.branch .notStatus exit)).code.size σ' (k σ'.result σ'.pos s') post)
    (failure : ∀ σ' s' entry, site.Behind d.slots σ.slots σ' s' →
      site.setting.Leaves σ'.outcome (.failure entry σ'.pos) →
      post (.failure entry σ'.pos) s' (site.machine target σ')) :
    site.Follows n d.code.size σ (Reading.andThen (r σ.pos) k s) post := by
  refine follow_part performs ready ?_ ?_
  · exact fun σ' s' behind status => follow_stay h status (success σ' s' behind status)
  · intro σ' s' mark entry behind status result known
    refine follow_leave h hl status (.pure (failure σ' s' entry behind ?_))
    exact ⟨mark, by rw [Moment.outcome, status, result], known, behind.inside⟩

/-- A part whose value is kept in a slot. -/
theorem follow_stored {exit target : Nat} (performs : site.Performs n d d₁ env r)
    (grown : d.Grows d₁) (ready : site.Ready d env σ s)
    (h : site.function.Hosts
      ((d₁.add (.branch .notStatus exit)).addSlot.add (.store d₁.slots .result)))
    (hl : site.function.labels[exit]? = some target)
    (success : ∀ σ' s', site.Behind d.slots σ.slots σ' s' → σ'.status = true →
      σ'.slots[d₁.slots]? = some σ'.result →
      site.Follows n
        ((d₁.add (.branch .notStatus exit)).addSlot.add (.store d₁.slots .result)).code.size σ'
        (k σ'.result σ'.pos s') post)
    (failure : ∀ σ' s' entry, site.Behind d.slots σ.slots σ' s' →
      site.setting.Leaves σ'.outcome (.failure entry σ'.pos) →
      post (.failure entry σ'.pos) s' (site.machine target σ')) :
    site.Follows n d.code.size σ (Reading.andThen (r σ.pos) k s) post := by
  refine follow_andThen performs ready h.add.addSlot hl ?_ failure
  intro σ' s' behind status
  have room : d₁.slots < σ'.slots.size := by
    rw [behind.keeps.size, ready.size]
    exact h.add.slots
  exact follow_store (d := Draft.addSlot _) h rfl
    (success _ s' (behind.set grown.slots σ'.result) status (getElem?_set_self room _))

/-- A name that has got a slot. -/
theorem Ready.bindName {v : Nat} {x : Value} (h : site.Ready d env σ s) (name : String)
    (lt : v < d.slots) (hx : σ.slots[v]? = some x) :
    site.Ready { d with scope := (name, v) :: d.scope } ((name, x) :: env) σ s where
  size := h.size
  inside := h.inside
  agrees := h.agrees
  knows m w hw := by
    simp only [List.lookup_cons] at hw ⊢
    split at hw
    · obtain rfl := Option.some.inj hw
      exact ⟨lt, x, rfl, hx⟩
    · exact h.knows m w hw

end Site

/-! ### Two parts -/

variable [Regex.Engine]

/-- What is known of two parts of which both must succeed. -/
structure Emit.Both (d d' : Draft) (p p' : Pools) (exit a b : Nat)
    (cs : List (Nat × Closure)) (left right : Scene → Env → Nat → Reading (Verdict Value)) :
    Prop where
  closes : Closes p p' cs
  room : a < d'.slots ∧ b < d'.slots
  follow : ∀ (site : Site) (scene : Scene) (env : Env), site.function.Hosts d' →
    site.setting.program.Hosts p' →
    scene.Fits site.setting site.memoize p.ruleFunctions p.rule →
    ∀ target, site.function.labels[exit]? = some target → ∀ σ s, site.Ready d env σ s →
      ∀ {β : Type} (k : Value → Value → Nat → Reading (Verdict β))
        (post : Verdict β → Store → Machine → Prop),
        (∀ σ' s' x y, site.Behind d.slots σ.slots σ' s' → σ'.status = true →
          σ'.slots[a]? = some x → σ'.slots[b]? = some y →
          site.Follows scene.rounds d'.code.size σ' (k x y σ'.pos s') post) →
        (∀ σ' s' entry, site.Behind d.slots σ.slots σ' s' →
          site.setting.Leaves σ'.outcome (.failure entry σ'.pos) →
          post (.failure entry σ'.pos) s' (site.machine target σ')) →
        site.Follows scene.rounds d.code.size σ
          (Reading.andThen (left scene env σ.pos) (fun x between =>
            Reading.andThen (right scene env between) (k x)) s) post

theorem Expr.Embeds.both {left right : Expr} (ihl : left.Embeds) (ihr : right.Embeds)
    {d d' : Draft} {p p' : Pools} {exit a b : Nat}
    (w : (Emit.both (Emit.within left left.emit) (Emit.within right right.emit) exit).Writes d p
      (a, b) d' p') :
    let l₁ := left.layoutWithin (d.stage p)
    let l₂ := right.layoutWithin (.inside left.behind left (d.stage p))
    Emit.Both d d' p p' exit a b
      (left.closures p.rule l₁ ++ right.closures p.rule l₂)
      (fun scene env pos => l₁.read scene left.freeLocals pos (left.meaning scene env l₁ pos))
      (fun scene env pos => l₂.read scene right.freeLocals pos (right.meaning scene env l₂ pos)) := by
  rw [Emit.both] at w
  have tame := Emit.Tame.within left left.emit_tame
  have tame' := Emit.Tame.within right right.emit_tame
  obtain ⟨_, d₁, p₁, w₁, wa⟩ := Emit.writes_bind.1 w
  obtain ⟨_, d₂, p₂, w₂, wb⟩ := Emit.writes_bind.1 wa
  obtain ⟨rfl, rfl⟩ := Emit.writes_leaveOnFailure.1 w₂
  obtain ⟨_, d₃, p₃, w₃, wc⟩ := Emit.writes_bind.1 wb
  obtain ⟨rfl, rfl, rfl⟩ := Emit.writes_storeResult.1 w₃
  obtain ⟨_, d₄, p₄, w₄, wd⟩ := Emit.writes_bind.1 wc
  obtain ⟨_, d₅, p₅, w₅, we⟩ := Emit.writes_bind.1 wd
  obtain ⟨rfl, rfl⟩ := Emit.writes_leaveOnFailure.1 w₅
  obtain ⟨_, d₆, p₆, w₆, wf⟩ := Emit.writes_bind.1 we
  obtain ⟨rfl, rfl, rfl⟩ := Emit.writes_storeResult.1 w₆
  obtain ⟨hab, rfl, rfl⟩ := Emit.writes_pure.1 wf
  obtain ⟨rfl, rfl⟩ := Prod.mk.inj hab
  have realizes₁ := ihl _ _ _ _ w₁
  have realizes₂ := ihr _ _ _ _ w₄
  rw [← left.within_moves.stage w₁]
  have grown := tame.draft w₁
  have grown' := tame'.draft w₄
  have pgrown := tame.pools w₁
  rw [pgrown.rule] at realizes₂
  refine ⟨realizes₁.closes.append realizes₂.closes pgrown (tame'.pools w₄),
    ⟨Nat.lt_succ_of_lt (Nat.lt_of_succ_le grown'.slots), Nat.lt_succ_self _⟩, ?_⟩
  intro site scene env code pools fits target hl σ s ready β k post success failure
  have hosts := code.add.addSlot.add.back grown'
  refine Site.follow_stored (realizes₁.performs site scene env hosts.add.addSlot.add
    (pools.back (tame'.pools w₄)) fits) grown ready hosts hl ?_ failure
  intro σ₁ s₁ behind₁ _ kept₁
  have le : d.slots ≤ d₁.slots + 1 := Nat.le_succ_of_le grown.slots
  refine Site.follow_stored (realizes₂.performs site scene env code.add.addSlot.add pools
    (fits.grow pgrown)) grown' (ready.next behind₁ grown.scope le) code hl ?_ ?_
  · intro σ₂ s₂ behind₂ status kept₂
    exact success σ₂ s₂ _ _ (behind₁.trans (behind₂.mono le)) status
      (behind₂.kept (Nat.lt_succ_self _) kept₁) kept₂
  · intro σ₂ s₂ entry behind₂ leaves
    exact failure σ₂ s₂ entry (behind₁.trans (behind₂.mono le)) leaves

namespace Expr.Embeds

variable {left right : Expr}

theorem apply (ihl : left.Embeds) (ihr : right.Embeds) (tag : Tag) (applyLeft : Bool) :
    (Expr.apply tag left right applyLeft).Compiles := by
  intro d p d' p' w k
  rw [Expr.emit] at w
  have tame := Emit.Tame.both (.within left left.emit_tame) (.within right right.emit_tame)
  obtain ⟨d₁, w₁, size, hosts⟩ :=
    Emit.hosts_block (fun exit => (tame exit).bind fun _ => .emit _) w
  obtain ⟨⟨a, b⟩, d₂, p₂, w₂, w₃⟩ := Emit.writes_bind.1 w₁
  obtain ⟨rfl, rfl⟩ := Emit.writes_emit.1 w₃
  have two := ihl.both ihr w₂
  rw [Expr.layout]
  refine ⟨fun site scene env code pools fits σ s ready => ?_, two.closes⟩
  obtain ⟨body, exit⟩ := hosts _ code
  rw [Expr.meaning]
  refine two.follow site scene env body.add pools fits _ exit σ s
    (ready.next ready.behind rfl (Nat.le_refl _)) _ _ ?_ ?_
  · intro σ' s' x y behind _ hx hy
    have behind' : site.Behind d.slots σ.slots σ' s' := behind
    have call : ∀ f arg : Nat, ∀ g z : Value, σ'.slots[f]? = some g → σ'.slots[arg]? = some z →
        site.function.Hosts (d₂.add (.apply f arg)) →
        d'.code.size = (d₂.add (.apply f arg)).code.size →
        site.Follows scene.rounds d₂.code.size σ'
          ((Reading.host (Host.callIn scene.library g [z]) >>= fun v =>
            pure (.success v σ'.pos) : Reading (Verdict Value)) s')
          (site.Done d.slots d'.code.size σ.slots) := by
      intro f arg g z hg hz hosted size
      rw [fits.library]
      refine .bind (Site.follow_host (fun v => σ'.yield v) hosted ?_ (fun _ => rfl)
        behind.agrees.identity fun v s'' same => ?_)
      · funext id
        exact (Exec.lift_bind (Site.frame_slot hg) _ _).trans
          (Exec.lift_bind (Site.frame_slot hz) _ _)
      · rw [size]
        exact .pure ⟨_, rfl, ⟨rfl, behind.inside⟩, behind.inside, behind'.keeps, rfl,
          same ▸ behind.agrees.memo⟩
    cases applyLeft with
    | true => exact call a b x y hx hy body size
    | false => exact call b a y x hy hx body size
  · intro σ' s' entry behind leaves
    rw [size]
    exact ⟨σ', rfl, leaves, behind⟩

theorem satisfying (ihl : left.Embeds) (ihr : right.Embeds) (tag : Tag) :
    (Expr.satisfying tag left right).Compiles := by
  intro d p d' p' w k
  rw [Expr.emit] at w
  obtain ⟨mark, d₀, p₀, w₀, wb⟩ := Emit.writes_bind.1 w
  obtain ⟨wf, rfl⟩ := Emit.writes_lift.1 w₀
  obtain ⟨grownf, noted⟩ := Build.adds_failure wf
  have tame := Emit.Tame.both (.within left left.emit_tame) (.within right right.emit_tame)
  obtain ⟨d₁, w₁, size, hosts⟩ :=
    Emit.hosts_block (fun exit => (tame exit).bind fun _ => .emit _) wb
  obtain ⟨⟨a, b⟩, d₂, p₂, w₂, w₃⟩ := Emit.writes_bind.1 w₁
  obtain ⟨rfl, rfl⟩ := Emit.writes_emit.1 w₃
  have two := ihl.both ihr w₂
  rw [grownf.rule] at two
  have same : d₀.stage p₀ = d₀.stage p := (Build.Moves.failure _ _).stage wf d₀
  rw [Expr.layout, ← same]
  refine ⟨fun site scene env code pools fits σ s ready => ?_, two.closes.widen grownf (.refl _)⟩
  obtain ⟨body, exit⟩ := hosts _ code
  have listed : site.setting.program.failures[mark]? =
      some ⟨scene.rule, Expr.text (.satisfying tag left right), .predicate right.predicateText⟩ := by
    rw [fits.rule]
    exact (pools.back ((tame _).pools w₂)).failures _ _ noted
  rw [Expr.meaning]
  refine two.follow site scene env body.add pools (fits.grow grownf) _ exit σ s
    (ready.next ready.behind rfl (Nat.le_refl _)) _ _ ?_ ?_
  · intro σ' s' x y behind _ hx hy
    have kept : Keeps d₀.slots σ.slots σ'.slots := behind.keeps
    rw [fits.library]
    refine .bind (Site.follow_host
      (fun v => if v.truthy then σ'.yield x else σ'.fail mark) body ?_ ?_
      behind.agrees.identity fun v s'' same => ?_)
    · funext id
      refine (Exec.lift_bind (Site.frame_slot hy) _ _).trans
        ((Exec.lift_bind (Site.frame_slot hx) _ _).trans ?_)
      refine congrArg (fun k => (Exec.host _ >>= k) id) (funext fun v => ?_)
      cases v.truthy <;> rfl
    · intro v
      cases v.truthy <;> rfl
    · rw [size]
      cases v.truthy with
      | true =>
          exact .pure ⟨_, rfl, ⟨rfl, behind.inside⟩, behind.inside, kept, rfl,
            same ▸ behind.agrees.memo⟩
      | false =>
          exact .pure ⟨_, rfl, ⟨mark, rfl, listed, behind.inside⟩, behind.inside, kept, rfl,
            same ▸ behind.agrees.memo⟩
  · intro σ' s' entry behind leaves
    rw [size]
    exact ⟨σ', rfl, leaves, behind⟩

theorem discard (ihl : left.Embeds) (ihr : right.Embeds) (tag : Tag) (discardLeft : Bool) :
    (Expr.discard tag left right discardLeft).Compiles := by
  intro d p d' p' w k
  rw [Expr.emit, Emit.keepOne] at w
  have tame := Emit.Tame.within left left.emit_tame
  have tame' := Emit.Tame.within right right.emit_tame
  cases discardLeft with
  | true =>
      obtain ⟨d₁, w₁, size, hosts⟩ := Emit.hosts_block
        (fun exit => tame.bind fun _ => (Emit.Tame.leaveOnFailure exit).bind fun _ => tame') w
      obtain ⟨_, d₂, p₂, w₂, wa⟩ := Emit.writes_bind.1 w₁
      have moved : d₂.stage p₂ = .inside left.behind left (d.stage p).entered :=
        left.within_moves.stage w₂
      obtain ⟨_, d₃, p₃, w₃, w₄⟩ := Emit.writes_bind.1 wa
      obtain ⟨rfl, rfl⟩ := Emit.writes_leaveOnFailure.1 w₃
      have realizes₁ := ihl _ _ _ _ w₂
      have realizes₂ := ihr _ _ _ _ w₄
      rw [Expr.layout, ← moved]
      have grown := tame.draft w₂
      have pgrown := tame.pools w₂
      rw [pgrown.rule] at realizes₂
      refine ⟨fun site scene env code pools fits σ s ready => ?_,
        realizes₁.closes.append realizes₂.closes pgrown (tame'.pools w₄)⟩
      obtain ⟨body, exit⟩ := hosts _ code
      have start := body.back (tame'.draft w₄)
      have room : d.slots ≤ d₂.slots := grown.slots
      rw [Expr.meaning]
      refine Site.follow_andThen (d := Emit.entered _) (realizes₁.performs site scene env start.add
        (pools.back (tame'.pools w₄)) fits) (ready.next ready.behind rfl (Nat.le_refl _))
        start exit ?_ ?_
      · intro σ₁ s₁ behind₁ _
        refine Site.follow_part (realizes₂.performs site scene env body pools (fits.grow pgrown))
          (ready.next behind₁ grown.scope room) ?_ ?_
        · intro σ₂ s₂ behind₂ status
          rw [← size]
          exact .pure (.success status (behind₁.trans (behind₂.mono room)))
        · intro σ₂ s₂ mark entry behind₂ status result known
          rw [← size]
          exact .pure (.failure status result known (behind₁.trans (behind₂.mono room)))
      · intro σ₁ s₁ entry behind₁ leaves
        rw [size]
        exact ⟨σ₁, rfl, leaves, behind₁⟩
  | false =>
      obtain ⟨d₁, w₁, size, hosts⟩ := Emit.hosts_block
        (fun exit => tame.bind fun _ => (Emit.Tame.leaveOnFailure exit).bind fun _ =>
          Emit.Tame.storeResult.bind fun _ => tame'.bind fun _ =>
            (Emit.Tame.leaveOnFailure exit).bind fun _ => .emit _) w
      obtain ⟨_, d₂, p₂, w₂, wa⟩ := Emit.writes_bind.1 w₁
      have moved : d₂.stage p₂ = .inside left.behind left (d.stage p).entered :=
        left.within_moves.stage w₂
      obtain ⟨_, d₃, p₃, w₃, wb⟩ := Emit.writes_bind.1 wa
      obtain ⟨rfl, rfl⟩ := Emit.writes_leaveOnFailure.1 w₃
      obtain ⟨_, d₄, p₄, w₄, wc⟩ := Emit.writes_bind.1 wb
      obtain ⟨rfl, rfl, rfl⟩ := Emit.writes_storeResult.1 w₄
      obtain ⟨_, d₅, p₅, w₅, wd⟩ := Emit.writes_bind.1 wc
      obtain ⟨_, d₆, p₆, w₆, we⟩ := Emit.writes_bind.1 wd
      obtain ⟨rfl, rfl⟩ := Emit.writes_leaveOnFailure.1 w₆
      obtain ⟨rfl, rfl⟩ := Emit.writes_emit.1 we
      have realizes₁ := ihl _ _ _ _ w₂
      have realizes₂ := ihr _ _ _ _ w₅
      rw [Expr.layout, ← moved]
      have grown := tame.draft w₂
      have pgrown := tame.pools w₂
      rw [pgrown.rule] at realizes₂
      refine ⟨fun site scene env code pools fits σ s ready => ?_,
        realizes₁.closes.append realizes₂.closes pgrown (tame'.pools w₅)⟩
      obtain ⟨body, exit⟩ := hosts _ code
      have start := body.add.add.back (tame'.draft w₅)
      have room : d.slots ≤ d₂.slots + 1 := Nat.le_succ_of_le grown.slots
      rw [Expr.meaning]
      refine Site.follow_stored (d := Emit.entered _) (realizes₁.performs site scene env
        start.add.addSlot.add (pools.back (tame'.pools w₅)) fits) grown
        (ready.next ready.behind rfl (Nat.le_refl _)) start exit ?_ ?_
      · intro σ₁ s₁ behind₁ _ kept₁
        refine Site.follow_andThen (realizes₂.performs site scene env body.add.add pools
          (fits.grow pgrown)) (ready.next behind₁ grown.scope room) body.add exit ?_ ?_
        · intro σ₂ s₂ behind₂ status
          have kept := behind₂.kept (Nat.lt_succ_self _) kept₁
          refine Site.follow_load body (Site.frame_slot kept) ?_
          rw [← size]
          exact .pure (.success status ((behind₁.trans (behind₂.mono room)).registers rfl rfl rfl
            behind₂.inside))
        · intro σ₂ s₂ entry behind₂ leaves
          rw [size]
          exact ⟨σ₂, rfl, leaves, behind₁.trans (behind₂.mono room)⟩
      · intro σ₁ s₁ entry behind₁ leaves
        rw [size]
        exact ⟨σ₁, rfl, leaves, behind₁⟩

theorem bound (ihl : left.Embeds) (ihr : right.Embeds) (tag : Tag) (name : String) :
    (Expr.bound tag name left right).Compiles := by
  intro d p d' p' w k
  rw [Expr.emit] at w
  have tame := Emit.Tame.within left left.emit_tame
  have tame' := Emit.Tame.within right right.emit_tame
  obtain ⟨d₁, w₁, size, hosts⟩ := Emit.hosts_block
    (fun exit => tame.bind fun _ => (Emit.Tame.leaveOnFailure exit).bind fun _ =>
      Emit.Tame.storeResult.bind fun v =>
        .inScope ((Emit.Loose.bindName name v).bind fun _ => tame'.loose)) w
  obtain ⟨_, d₂, p₂, w₂, wa⟩ := Emit.writes_bind.1 w₁
  have moved : d₂.stage p₂ = .inside left.behind left (d.stage p).entered :=
    left.within_moves.stage w₂
  obtain ⟨_, d₃, p₃, w₃, wb⟩ := Emit.writes_bind.1 wa
  obtain ⟨rfl, rfl⟩ := Emit.writes_leaveOnFailure.1 w₃
  obtain ⟨_, d₄, p₄, w₄, wc⟩ := Emit.writes_bind.1 wb
  obtain ⟨rfl, rfl, rfl⟩ := Emit.writes_storeResult.1 w₄
  obtain ⟨d₅, wd, rfl⟩ := Emit.writes_inScope.1 wc
  obtain ⟨_, d₆, p₆, w₆, w₇⟩ := Emit.writes_bind.1 wd
  obtain ⟨rfl, rfl⟩ := Emit.writes_bindName.1 w₆
  have realizes₁ := ihl _ _ _ _ w₂
  have realizes₂ := ihr _ _ _ _ w₇
  rw [Expr.layout, ← moved]
  have grown := tame.draft w₂
  have pgrown := tame.pools w₂
  rw [pgrown.rule] at realizes₂
  refine ⟨fun site scene env code pools fits σ s ready => ?_,
    realizes₁.closes.append realizes₂.closes pgrown (tame'.pools w₇)⟩
  obtain ⟨body, exit⟩ := hosts _ code
  have inner : site.function.Hosts d₅ := body.congr rfl rfl rfl
  have start : site.function.Hosts ((d₂.add (.branch .notStatus d.labels.size)).addSlot.add
      (.store d₂.slots .result)) := (inner.back (tame'.draft w₇)).congr rfl rfl rfl
  have room : d.slots ≤ d₂.slots + 1 := Nat.le_succ_of_le grown.slots
  rw [Expr.meaning]
  refine Site.follow_stored (d := Emit.entered _) (realizes₁.performs site scene env
    start.add.addSlot.add (pools.back (tame'.pools w₇)) fits) grown
    (ready.next ready.behind rfl (Nat.le_refl _)) start exit ?_ ?_
  · intro σ₁ s₁ behind₁ _ kept₁
    have ready₁ : site.Ready ((d₂.add (.branch .notStatus d.labels.size)).addSlot.add
      (.store d₂.slots .result)) env σ₁ s₁ := ready.next behind₁ grown.scope room
    refine (realizes₂.performs site scene _ inner pools (fits.grow pgrown) σ₁ s₁
      (ready₁.bindName name (Nat.lt_succ_self _) kept₁)).mono ?_
    rintro v s₂ _ ⟨σ₂, rfl, leaves, behind₂⟩
    exact ⟨σ₂, by rw [size], leaves, behind₁.trans (behind₂.mono room)⟩
  · intro σ₁ s₁ entry behind₁ leaves
    rw [size]
    exact ⟨σ₁, rfl, leaves, behind₁⟩

end Expr.Embeds

/-! ### Sequences -/

/-- What is known of the code of items: values in slots, or a failure at the label to leave for. -/
def Site.Items (site : Site) (d d' : Draft) (vs : List Nat) (target : Nat) (slots : Array Value)
    (out : Verdict (List Value)) (s : Store) (m : Machine) : Prop :=
  match out with
  | .success xs pos => ∃ σ, m = site.machine d'.code.size σ ∧ σ.pos = pos ∧
      site.Behind d.slots slots σ s ∧ List.Forall₂ (fun v x => σ.slots[v]? = some x) vs xs
  | .failure entry pos => site.Done d.slots target slots (.failure entry pos) s m

theorem Expr.follow_items {items : List Expr} (ih : ∀ e ∈ items, e.Embeds) {exit : Nat}
    {fields : List String} {d d' : Draft} {p p' : Pools} {vs : List Nat}
    (w : (emitItems exit fields items).Writes d p vs d' p') :
    let ls := layoutItems items (d.stage p)
    Closes p p' (closuresAll p.rule items ls) ∧
      ∀ (site : Site) (scene : Scene) (env : Env), site.function.Hosts d' →
        site.setting.program.Hosts p' →
        scene.Fits site.setting site.memoize p.ruleFunctions p.rule →
        ∀ target, site.function.labels[exit]? = some target → ∀ σ s, site.Ready d env σ s →
          site.Follows scene.rounds d.code.size σ
            (meaningItems scene items fields env ls σ.pos s)
            (site.Items d d' vs target σ.slots) := by
  induction items generalizing fields d p vs d' p' with
  | nil =>
      obtain ⟨rfl, rfl, rfl⟩ := Emit.writes_pure.1 w
      rw [layoutItems]
      refine ⟨.nil (.refl _), fun site scene env code pools fits target hl σ s ready => ?_⟩
      exact .pure ⟨σ, rfl, rfl, ready.behind, .nil⟩
  | cons e items ih' =>
      rw [emitItems] at w
      have tame := Emit.Tame.within e e.emit_tame
      obtain ⟨_, d₁, p₁, w₁, wa⟩ := Emit.writes_bind.1 w
      obtain ⟨_, d₂, p₂, w₂, wb⟩ := Emit.writes_bind.1 wa
      obtain ⟨rfl, rfl⟩ := Emit.writes_leaveOnFailure.1 w₂
      obtain ⟨_, d₃, p₃, w₃, wc⟩ := Emit.writes_bind.1 wb
      obtain ⟨rfl, rfl, rfl⟩ := Emit.writes_storeResult.1 w₃
      have realizes := ih e (List.mem_cons_self ..) _ _ _ _ w₁
      have grown := tame.draft w₁
      have pgrown := tame.pools w₁
      -- The rest is written with one more name in scope if there is a field left.
      obtain ⟨names, vs', rfl, wd, named⟩ : ∃ (names : List (String × Nat)) (vs' : List Nat),
          vs = d₁.slots :: vs' ∧
          (emitItems exit (fields.drop 1) items).Writes { (d₁.add (.branch .notStatus exit)).addSlot.add
            (.store d₁.slots .result) with scope := names ++ d₁.scope } p₃ vs' d' p' ∧
          names = (fields.take 1).map (·, d₁.slots) := by
        dsimp only at wc
        cases fields with
        | nil =>
            obtain ⟨vs', d₄, p₄, w₄, w₅⟩ := Emit.writes_bind.1 wc
            obtain ⟨rfl, rfl, rfl⟩ := Emit.writes_pure.1 w₅
            exact ⟨[], vs', rfl, w₄, rfl⟩
        | cons name fields =>
            obtain ⟨_, d₄, p₄, w₄, w₅⟩ := Emit.writes_bind.1 wc
            obtain ⟨rfl, rfl⟩ := Emit.writes_bindName.1 w₄
            obtain ⟨vs', d₅, p₅, w₆, w₇⟩ := Emit.writes_bind.1 w₅
            obtain ⟨rfl, rfl, rfl⟩ := Emit.writes_pure.1 w₇
            exact ⟨[(name, d₁.slots)], vs', rfl, w₆, rfl⟩
      have loose := emitItems_loose exit (fields.drop 1) items
      obtain ⟨closes, follow⟩ := ih' (fun e he => ih e (List.mem_cons_of_mem _ he)) wd
      rw [pgrown.rule] at closes
      rw [layoutItems, ← e.within_moves.stage w₁]
      refine ⟨realizes.closes.append closes pgrown (loose.pools wd),
        fun site scene env code pools fits target hl σ s ready => ?_⟩
      have start : site.function.Hosts ((d₁.add (.branch .notStatus exit)).addSlot.add
          (.store d₁.slots .result)) :=
        (code.backLoose (loose.draft wd)).congr rfl rfl rfl
      have room : d.slots ≤ d₁.slots + 1 := Nat.le_succ_of_le grown.slots
      rw [meaningItems]
      refine Site.follow_stored (realizes.performs site scene env start.add.addSlot.add
        (pools.back (loose.pools wd)) fits) grown ready start hl ?_ ?_
      · intro σ₁ s₁ behind₁ _ kept₁
        have ready₁ : site.Ready ((d₁.add (.branch .notStatus exit)).addSlot.add
          (.store d₁.slots .result)) env σ₁ s₁ := ready.next behind₁ grown.scope room
        have ready₂ : site.Ready { (d₁.add (.branch .notStatus exit)).addSlot.add
            (.store d₁.slots .result) with scope := names ++ d₁.scope }
            ((fields.take 1).map (·, σ₁.result) ++ env) σ₁ s₁ := by
          subst named
          cases fields with
          | nil => exact ready₁
          | cons name fields => exact ready₁.bindName name (Nat.lt_succ_self _) kept₁
        refine .bind ((follow site scene _ code pools (fits.grow pgrown) target hl σ₁ s₁
          ready₂).mono ?_)
        rintro (⟨xs, pos⟩ | ⟨entry, pos⟩) s₂ m out
        · obtain ⟨σ₂, rfl, rfl, behind₂, values⟩ := out
          exact .pure ⟨σ₂, rfl, rfl, behind₁.trans (behind₂.mono room),
            .cons (behind₂.kept (Nat.lt_succ_self _) kept₁) values⟩
        · obtain ⟨σ₂, rfl, leaves, behind₂⟩ := out
          exact .pure ⟨σ₂, rfl, leaves, behind₁.trans (behind₂.mono room)⟩
      · exact fun σ₁ s₁ entry behind₁ leaves => ⟨σ₁, rfl, leaves, behind₁⟩

theorem Expr.compiles_seq_none {items : List Expr} (ih : ∀ e ∈ items, e.Embeds) (tag : Tag) :
    (Expr.seq tag items none).Compiles := by
  intro d p d' p' w k
  rw [Expr.emit] at w
  obtain ⟨d₁, w₁, size, hosts⟩ := Emit.hosts_block (fun exit =>
    (Emit.Tame.inScope (emitItems_loose exit [] items)).bind fun _ =>
      (Emit.Tame.emit _).bind fun _ => .emit _) w
  obtain ⟨vs, d₂, p₂, w₂, w₃⟩ := Emit.writes_bind.1 w₁
  obtain ⟨d₃, w₄, size', inner⟩ := Emit.hosts_inScope w₂
  obtain ⟨rfl, rfl⟩ := Emit.writes_emit_emit.1 w₃
  obtain ⟨closes, follow⟩ := Expr.follow_items ih w₄
  rw [Expr.layout]
  refine ⟨fun site scene env code pools fits σ s ready => ?_, closes⟩
  obtain ⟨body, exit⟩ := hosts _ code
  rw [Expr.meaning]
  refine .bind ((follow site scene env (inner _ body.add.add) pools fits _ exit σ s
    (ready.next ready.behind rfl (Nat.le_refl _))).mono ?_)
  rintro (⟨xs, pos⟩ | ⟨entry, pos⟩) s₁ m out
  · obtain ⟨σ₁, rfl, rfl, behind, values⟩ := out
    rw [← size']
    refine Site.follow_makeList body.add values (Site.follow_setStatus body ?_)
    rw [← size, behind.agrees.identity]
    exact .pure ⟨_, rfl, ⟨rfl, behind.inside⟩, behind.inside, behind.keeps, rfl,
      behind.agrees.memo⟩
  · obtain ⟨σ₁, rfl, leaves, behind⟩ := out
    exact .pure ⟨σ₁, by rw [size], leaves, behind⟩

theorem Expr.compiles_seq_some {items : List Expr} (ih : ∀ e ∈ items, e.Embeds) (tag : Tag)
    (c : NodeClass) : (Expr.seq tag items (some c)).Compiles := by
  intro d p d' p' w k
  rw [Expr.emit] at w
  obtain ⟨cls, d₀, p₀, w₀, wa⟩ := Emit.writes_bind.1 w
  obtain ⟨wc, rfl⟩ := Emit.writes_lift.1 w₀
  obtain ⟨grownc, known, listed, first⟩ := Build.adds_cls wc
  obtain ⟨d₁, w₁, size, hosts⟩ := Emit.hosts_block (fun exit => Emit.Tame.checkpoint.bind fun _ =>
    (Emit.Tame.inScope (emitItems_loose exit c.fields items)).bind fun _ =>
      (Emit.Tame.emit _).bind fun _ => .emit _) wa
  obtain ⟨start, d₂, p₂, w₂, wb⟩ := Emit.writes_bind.1 w₁
  obtain ⟨rfl, rfl, rfl⟩ := Emit.writes_checkpoint.1 w₂
  obtain ⟨vs, d₃, p₃, w₃, wd⟩ := Emit.writes_bind.1 wb
  obtain ⟨d₄, w₄, size', inner⟩ := Emit.hosts_inScope w₃
  obtain ⟨rfl, rfl⟩ := Emit.writes_emit_emit.1 wd
  obtain ⟨closes, follow⟩ := Expr.follow_items ih w₄
  have loose := emitItems_loose d₀.labels.size c.fields items
  rw [grownc.rule] at closes
  have same : d₀.stage p₂ = d₀.stage p := (Build.Moves.cls c).stage wc d₀
  rw [Expr.layout, ← same]
  refine ⟨fun site scene env code pools fits σ s ready => ?_, closes.widen grownc (.refl _)⟩
  obtain ⟨body, exit⟩ := hosts _ code
  have begin' := (inner _ body.add.add).backLoose (loose.draft w₄)
  have pools₀ := pools.back (loose.pools w₄)
  have named : scene.naming.cls c = known := by
    rw [Naming.cls, fits.classes, pools₀.classes.find? first]
    rfl
  have ready₀ : site.Ready (Emit.entered d₀.addLabel) env σ s :=
    ready.next ready.behind rfl (Nat.le_refl _)
  obtain ⟨ready₁, saved⟩ := ready₀.store begin' (.ofPos σ.pos)
  rw [Expr.meaning]
  refine Site.follow_store (d := Draft.addSlot (Emit.entered (Draft.addLabel _))) begin' rfl
    (.bind ((follow site scene env (inner _ body.add.add) pools (fits.grow grownc) _ exit _ s
      ready₁).mono ?_))
  rintro (⟨xs, pos⟩ | ⟨entry, pos⟩) s₁ m out
  · obtain ⟨σ₁, rfl, rfl, behind, values⟩ := out
    have kept := behind.kept (Nat.lt_succ_self _) saved
    rw [← size']
    refine Site.follow_makeNode body.add
      (pools₀.classes _ _ listed) values kept (ready.small fits.small)
      (Site.follow_setStatus body ?_)
    rw [← size, behind.agrees.identity, named]
    exact .pure ⟨_, rfl, ⟨rfl, behind.inside⟩, behind.inside, behind.after.keeps, rfl,
      behind.agrees.memo⟩
  · obtain ⟨σ₁, rfl, leaves, behind⟩ := out
    exact .pure ⟨σ₁, by rw [size], leaves, behind.after⟩

end Packrat
