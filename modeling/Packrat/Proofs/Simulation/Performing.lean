import Packrat.Proofs.Execution.Site
import Packrat.Proofs.Meaning.Expr

/-
**Code that performs a reading.**

The code of an expression stands between two drafts of a function.  It performs a reading if, from
any moment in which the names in scope are in their slots, the machine follows the reading through
the code and comes out behind it with the verdict in its registers; older slots are left alone.

Main definitions:

* `Packrat.Setting.Leaves`, `Packrat.Setting.Recalls` — registers that show a verdict, and a memo
  table that shows the verdicts remembered;
* `Packrat.Site.Ready`, `Packrat.Site.Done` — moments before and behind the code of a part;
* `Packrat.Site.Performs` — **code that performs a reading**;
* `Packrat.Setting.Calls` — calls that machines follow.

Main results:

* `Packrat.Site.follow_part` — a part is followed by what comes behind it.
-/

set_option autoImplicit false

namespace Packrat

/-! ### Verdicts in registers -/

namespace Setting

/-- Registers that show a verdict, at a place inside of the input. -/
def Leaves (setting : Setting) (o : Outcome) : Verdict Value → Prop
  | .success x pos => o = ⟨true, x, pos⟩ ∧ pos ≤ setting.bytes.size
  | .failure entry pos => ∃ mark, o = ⟨false, .failure mark, pos⟩ ∧
      setting.program.failures[mark]? = some entry ∧ pos ≤ setting.bytes.size

/-- A memo table that shows the verdicts remembered. -/
def Recalls (setting : Setting) (memo : Std.HashMap MemoKey Outcome)
    (known : MemoKey → Option (Verdict Value)) : Prop :=
  ∀ key, match known key with
    | none => memo[key]? = none
    | some v => ∃ o, memo[key]? = some o ∧ setting.Leaves o v

/-- What the machine shares with a reading: identities are drawn in step, and the memo table shows
the verdicts remembered. -/
structure Agrees (setting : Setting) (σ : Moment) (s : Store) : Prop where
  identity : σ.identity = s.identity
  memo : setting.Recalls σ.memo s.memo

theorem Recalls.empty (setting : Setting) : setting.Recalls ∅ fun _ => none :=
  fun key => by simp

theorem Recalls.insert {setting : Setting} {memo : Std.HashMap MemoKey Outcome} {s : Store}
    {o : Outcome} {v : Verdict Value} (h : setting.Recalls memo s.memo) (key : MemoKey)
    (leaves : setting.Leaves o v) :
    setting.Recalls (memo.insert key o) (s.remember key v).memo := by
  intro k
  simp only [Store.remember, Std.HashMap.getElem?_insert]
  by_cases hk : key = k
  · subst hk
    simp [leaves]
  · have := h k
    simp only [beq_iff_eq, if_neg hk, if_neg (Ne.symm hk)]
    exact this

end Setting

/-! ### Slots -/

/-- Slots of which those below a bound are kept. -/
structure Keeps (bound : Nat) (xs ys : Array Value) : Prop where
  size : ys.size = xs.size
  same : ∀ v < bound, ys[v]? = xs[v]?

namespace Keeps

variable {bound bound' v : Nat} {xs ys zs : Array Value} {x : Value}

theorem refl (bound : Nat) (xs : Array Value) : Keeps bound xs xs := ⟨rfl, fun _ _ => rfl⟩

theorem trans (h : Keeps bound xs ys) (h' : Keeps bound ys zs) : Keeps bound xs zs :=
  ⟨h'.size.trans h.size, fun v hv => (h'.same v hv).trans (h.same v hv)⟩

theorem mono (h : Keeps bound xs ys) (le : bound' ≤ bound) : Keeps bound' xs ys :=
  ⟨h.size, fun v hv => h.same v (Nat.lt_of_lt_of_le hv le)⟩

theorem set (xs : Array Value) (h : bound ≤ v) (x : Value) :
    Keeps bound xs (xs.setIfInBounds v x) where
  size := by simp
  same w hw := by
    rw [Array.getElem?_setIfInBounds, if_neg (by omega)]

end Keeps

theorem getElem?_set_self {xs : Array Value} {v : Nat} (h : v < xs.size) (x : Value) :
    (xs.setIfInBounds v x)[v]? = some x := by simp [h]

theorem getElem?_set_ne {xs : Array Value} {v w : Nat} (h : v ≠ w) (x : Value) :
    (xs.setIfInBounds v x)[w]? = xs[w]? := by
  rw [Array.getElem?_setIfInBounds, if_neg h]

/-! ### Moments before and behind a part -/

/-- Slots that hold the values of the names in scope. -/
def Draft.Knows (d : Draft) (env : Env) (slots : Array Value) : Prop :=
  ∀ (name : String) (v : Nat), d.scope.lookup name = some v →
    v < d.slots ∧ ∃ x, env.lookup name = some x ∧ slots[v]? = some x

namespace Site

/-- A moment before a part. -/
structure Ready (site : Site) (d : Draft) (env : Env) (σ : Moment) (s : Store) : Prop where
  size : σ.slots.size = site.function.slots
  inside : σ.pos ≤ site.setting.bytes.size
  knows : d.Knows env σ.slots
  agrees : site.setting.Agrees σ s

/-- A moment behind a part, with the slots before it. -/
structure Behind (site : Site) (bound : Nat) (slots : Array Value) (σ : Moment) (s : Store) :
    Prop where
  inside : σ.pos ≤ site.setting.bytes.size
  keeps : Keeps bound slots σ.slots
  agrees : site.setting.Agrees σ s

/-- The machine behind a part, with its verdict in the registers. -/
def Done (site : Site) (bound pc : Nat) (slots : Array Value) (v : Verdict Value) (s : Store)
    (m : Machine) : Prop :=
  ∃ σ, m = site.machine pc σ ∧ site.setting.Leaves σ.outcome v ∧ site.Behind bound slots σ s

/-- Code between two drafts that performs a reading. -/
def Performs (site : Site) (n : Nat) (d d' : Draft) (env : Env)
    (r : Nat → Reading (Verdict Value)) : Prop :=
  ∀ σ s, site.Ready d env σ s →
    site.Follows n d.code.size σ (r σ.pos s) (site.Done d.slots d'.code.size σ.slots)

variable {site : Site} {n bound pc : Nat} {d d' : Draft} {env : Env} {σ σ' : Moment} {s s' : Store}
variable {slots : Array Value}

theorem Ready.behind (h : site.Ready d env σ s) : site.Behind d.slots σ.slots σ s :=
  ⟨h.inside, .refl _ _, h.agrees⟩

/-- Behind one part is before the next one. -/
theorem Ready.next (h : site.Ready d env σ s) (behind : site.Behind d.slots σ.slots σ' s')
    (scope : d'.scope = d.scope) (room : d.slots ≤ d'.slots) : site.Ready d' env σ' s' where
  size := behind.keeps.size.trans h.size
  inside := behind.inside
  knows name v hv := by
    rw [scope] at hv
    obtain ⟨hlt, x, hx, hs⟩ := h.knows name v hv
    exact ⟨Nat.lt_of_lt_of_le hlt room, x, hx, (behind.keeps.same v hlt).trans hs⟩
  agrees := behind.agrees

theorem Behind.trans (h : site.Behind bound slots σ s) (h' : site.Behind bound σ.slots σ' s') :
    site.Behind bound slots σ' s' :=
  ⟨h'.inside, h.keeps.trans h'.keeps, h'.agrees⟩

theorem Behind.mono {bound' : Nat} (h : site.Behind bound slots σ s) (le : bound' ≤ bound) :
    site.Behind bound' slots σ s :=
  ⟨h.inside, h.keeps.mono le, h.agrees⟩

theorem Done.success (status : σ.status = true) (h : site.Behind bound slots σ s) :
    site.Done bound pc slots (.success σ.result σ.pos) s (site.machine pc σ) :=
  ⟨σ, rfl, ⟨by rw [Moment.outcome, status], h.inside⟩, h⟩

theorem Done.failure {mark : Nat} {entry : FailureEntry} (status : σ.status = false)
    (result : σ.result = .failure mark)
    (known : site.setting.program.failures[mark]? = some entry)
    (h : site.Behind bound slots σ s) :
    site.Done bound pc slots (.failure entry σ.pos) s (site.machine pc σ) :=
  ⟨σ, rfl, ⟨mark, by rw [Moment.outcome, status, result], known, h.inside⟩, h⟩

/-- What has left a verdict in the registers is followed by what comes behind it. -/
theorem follow_done {β : Type} {q : Reading (Verdict Value)} {pc' : Nat} {s₀ : Store}
    {k : Verdict Value → Reading β} {post : β → Store → Machine → Prop}
    (done : site.Follows n pc σ (q s₀) (site.Done bound pc' slots))
    (success : ∀ σ' s', site.Behind bound slots σ' s' → σ'.status = true →
      site.Follows n pc' σ' (k (.success σ'.result σ'.pos) s') post)
    (failure : ∀ σ' s' mark entry, site.Behind bound slots σ' s' → σ'.status = false →
      σ'.result = .failure mark → site.setting.program.failures[mark]? = some entry →
      site.Follows n pc' σ' (k (.failure entry σ'.pos) s') post) :
    site.Follows n pc σ ((q >>= k) s₀) post := by
  refine .bind (done.mono ?_)
  rintro v s' _ ⟨σ', rfl, leaves, behind⟩
  cases v with
  | success x pos =>
      obtain ⟨ho, -⟩ := leaves
      obtain ⟨hs, rfl, rfl⟩ := Outcome.mk.inj ho
      exact success σ' s' behind hs
  | failure entry pos =>
      obtain ⟨mark, ho, known, -⟩ := leaves
      obtain ⟨hs, hr, rfl⟩ := Outcome.mk.inj ho
      exact failure σ' s' mark entry behind hs hr known

/-- A part is followed by what comes behind it. -/
theorem follow_part {β : Type} {r : Nat → Reading (Verdict Value)}
    {k : Verdict Value → Reading β} {post : β → Store → Machine → Prop}
    (performs : site.Performs n d d' env r) (ready : site.Ready d env σ s)
    (success : ∀ σ' s', site.Behind d.slots σ.slots σ' s' → σ'.status = true →
      site.Follows n d'.code.size σ' (k (.success σ'.result σ'.pos) s') post)
    (failure : ∀ σ' s' mark entry, site.Behind d.slots σ.slots σ' s' → σ'.status = false →
      σ'.result = .failure mark → site.setting.program.failures[mark]? = some entry →
      site.Follows n d'.code.size σ' (k (.failure entry σ'.pos) s') post) :
    site.Follows n d.code.size σ ((r σ.pos >>= k) s) post :=
  follow_done (performs σ s ready) success failure

/-! ### Small parts -/

/-- Registers do not matter to what lies behind a part. -/
theorem Behind.registers (h : site.Behind bound slots σ s) (kept : σ'.slots = σ.slots)
    (memo : σ'.memo = σ.memo) (identity : σ'.identity = σ.identity)
    (inside : σ'.pos ≤ site.setting.bytes.size) : site.Behind bound slots σ' s where
  inside := inside
  keeps := kept ▸ h.keeps
  agrees := ⟨identity.trans h.agrees.identity, memo ▸ h.agrees.memo⟩

theorem Behind.set {v : Nat} (h : site.Behind bound slots σ s) (le : bound ≤ v) (x : Value) :
    site.Behind bound slots (σ.set v x) s where
  inside := h.inside
  keeps := h.keeps.trans (.set _ le x)
  agrees := ⟨h.agrees.identity, h.agrees.memo⟩

/-- A value in a new slot. -/
theorem Ready.store {i : Instr} (h : site.Ready d env σ s)
    (hosts : site.function.Hosts (d.addSlot.add i)) (x : Value) :
    site.Ready (d.addSlot.add i) env (σ.set d.slots x) s ∧
      (σ.set d.slots x).slots[d.slots]? = some x := by
  have room : d.slots < σ.slots.size := by
    rw [h.size]
    exact hosts.add.slots
  exact ⟨h.next (h.behind.set (Nat.le_refl _) x) rfl (Nat.le_succ _), getElem?_set_self room x⟩

/-- A new list in a new slot. -/
theorem Ready.newList (h : site.Ready d env σ s) (room : d.slots < site.function.slots) :
    site.Behind d.slots σ.slots
        { σ.set d.slots (.list σ.identity []) with identity := σ.identity + 1 }
        { s with identity := s.identity + 1 } ∧
      (σ.set d.slots (.list σ.identity [])).slots[d.slots]? = some (.list s.identity []) := by
  refine ⟨⟨h.inside, .set _ (Nat.le_refl _) _,
    ⟨congrArg (· + 1) h.agrees.identity, h.agrees.memo⟩⟩, ?_⟩
  rw [← h.agrees.identity]
  exact getElem?_set_self (h.size ▸ room) _

/-- Places of the input are kept in slots without loss. -/
theorem Ready.small (h : site.Ready d env σ s) (small : site.setting.bytes.size < 2 ^ 63) :
    σ.pos < 2 ^ 63 := Nat.lt_of_le_of_lt h.inside small

/-- What lies behind a part that began with a new slot. -/
theorem Behind.after {x : Value} (h : site.Behind (d.slots + 1) (σ.set d.slots x).slots σ' s') :
    site.Behind d.slots σ.slots σ' s' :=
  ⟨h.inside, (Keeps.set _ (Nat.le_refl _) x).trans (h.keeps.mono (Nat.le_succ _)), h.agrees⟩

/-- The slot that a part began with. -/
theorem Behind.kept {v : Nat} {x : Value} (h : site.Behind bound slots σ s) (lt : v < bound)
    (hx : slots[v]? = some x) : σ.slots[v]? = some x := (h.keeps.same v lt).trans hx

variable {α : Type} {r : Option (Except Stop (α × Store))} {post : α → Store → Machine → Prop}

theorem follow_succeedWith {value : Operand} {x : Value}
    (h : site.function.Hosts ((d.add (.load value)).add (.setStatus true)))
    (hx : (site.frame (d.code.size + 1) σ).read value = .ok x)
    (next : site.Follows n ((d.add (.load value)).add (.setStatus true)).code.size (σ.yield x)
      r post) : site.Follows n d.code.size σ r post :=
  follow_load h.add hx (follow_setStatus h next)

theorem follow_leave {exit target : Nat}
    (h : site.function.Hosts (d.add (.branch .notStatus exit)))
    (hl : site.function.labels[exit]? = some target) (hs : σ.status = false)
    (next : site.Follows n target σ r post) : site.Follows n d.code.size σ r post := by
  refine follow_branch h ?_ hl next
  simp [Frame.holds, frame, hs]

theorem follow_stay {exit : Nat} (h : site.function.Hosts (d.add (.branch .notStatus exit)))
    (hs : σ.status = true)
    (next : site.Follows n (d.add (.branch .notStatus exit)).code.size σ r post) :
    site.Follows n d.code.size σ r post := by
  refine follow_pass h ?_ next
  simp [Frame.holds, frame, hs]

/-- A part that runs after a failure only is passed over behind a success. -/
theorem follow_ifThen_success {exit target : Nat}
    (h : site.function.Hosts (d.add (.branch .status exit)))
    (hl : site.function.labels[exit]? = some target) (hs : σ.status = true)
    (next : site.Follows n target σ r post) : site.Follows n d.code.size σ r post := by
  refine follow_branch h ?_ hl next
  simp [Frame.holds, frame, hs]

theorem follow_ifThen_failure {exit : Nat}
    (h : site.function.Hosts (d.add (.branch .status exit))) (hs : σ.status = false)
    (next : site.Follows n (d.add (.branch .status exit)).code.size σ r post) :
    site.Follows n d.code.size σ r post := by
  refine follow_pass h ?_ next
  simp [Frame.holds, frame, hs]

/-- After a failure the code goes back to a place and leaves. -/
theorem follow_retreat [Regex.Engine] {p p' : Pools} {u : Unit} {back exit target q : Nat}
    (w : (Emit.retreatOnFailure back exit).Writes d p u d' p') (h : site.function.Hosts d')
    (hl : site.function.labels[exit]? = some target)
    (hq : σ.slots[back]? = some (.ofPos q)) (small : q < 2 ^ 63)
    (stay : σ.status = true → site.Follows n d'.code.size σ r post)
    (leave : σ.status = false → site.Follows n target { σ with pos := q } r post) :
    site.Follows n d.code.size σ r post := by
  obtain ⟨d₁, w₁, size, hosts⟩ :=
    Emit.hosts_ifThen ((Emit.Tame.emit _).bind fun _ => .emit _) w
  obtain ⟨rfl, rfl⟩ := Emit.writes_emit_emit.1 w₁
  obtain ⟨body, branch, placed⟩ := hosts _ h
  cases hs : σ.status with
  | true =>
      refine follow_ifThen_success (d := d.addLabel) branch placed hs ?_
      rw [← size]
      exact stay hs
  | false =>
      exact follow_ifThen_failure (d := d.addLabel) branch hs
        (follow_restore (d := Emit.entered _) body.add hq small (follow_jump body hl (leave hs)))

theorem writes_retreat [Regex.Engine] {p p' : Pools} {u : Unit} {back exit : Nat}
    (w : (Emit.retreatOnFailure back exit).Writes d p u d' p') : d.Grows d' ∧ p' = p := by
  refine ⟨(Emit.Tame.retreatOnFailure _ _).draft w, ?_⟩
  obtain ⟨d₁, w₁, -⟩ := Emit.writes_ifThen.1 w
  exact (Emit.writes_emit_emit.1 w₁).2

end Site

/-! ### Calls -/

namespace Setting

/-- The machine behind a call, with its verdict in the registers of the frame that called. -/
def Returns (setting : Setting) (frame : Frame) (rest : List Frame) (v : Verdict Value)
    (s : Store) (m : Machine) : Prop :=
  ∃ o memo, m = ⟨frame.resume o :: rest, memo, s.identity⟩ ∧ setting.Leaves o v ∧
    setting.Recalls memo s.memo

/-- Calls that machines follow, from the step on that makes the call. -/
def Calls (setting : Setting) (memoize : Bool) (n : Nat)
    (call : Nat → List Value → Nat → Reading (Verdict Value)) : Prop :=
  ∀ f args frame rest memo s m, frame.pos ≤ setting.bytes.size → setting.Recalls memo s.memo →
    Machine.step setting memoize m =
      (Machine.callFrom setting memoize frame rest memo s.identity f args).map .running →
    Machine.Follows setting memoize n m (call f args frame.pos s) (setting.Returns frame rest)

end Setting

/-- A scene that knows the parse which the code of a rule works in, and calls that machines follow;
`rules` are the functions of rules. -/
structure Scene.Fits [Regex.Engine] (scene : Scene) (setting : Setting) (remember : Bool)
    (rules : List (String × Nat)) (rule : String) : Prop where
  library : scene.library = setting.library
  globals : scene.globals = setting.globals
  bytes : scene.bytes = setting.bytes
  isBinary : scene.isBinary = setting.isBinary
  memoize : scene.memoize = remember
  leastNone : scene.leastNone? ≠ some true
  rules : scene.naming.rules = rules
  classes : scene.naming.classes = setting.program.classes.toList
  rule : scene.rule = rule
  named : ∀ name k, scene.naming.rules.lookup name = some k →
    ∃ f, setting.program.functions[k]? = some f ∧ f.name = name
  small : setting.bytes.size < 2 ^ 63
  seeded : setting.program.failures[leftRecursion]? = some ⟨"", "", .leftRecursion⟩
  sound : ∀ e ∈ setting.program.regexes, e.Sound
  calls : setting.Calls remember scene.rounds scene.call

theorem Scene.Fits.grow [Regex.Engine] {scene : Scene} {setting : Setting} {remember : Bool}
    {p p' : Pools} (h : scene.Fits setting remember p.ruleFunctions p.rule) (grown : p.Grows p') :
    scene.Fits setting remember p'.ruleFunctions p'.rule := by
  rw [grown.rules, grown.rule]
  exact h

end Packrat
