import Packrat.Proofs.Outcomes.Code

/-
**What code leaves behind.**

The code of a part stands between two drafts of a function.  Behind it the slots that are older than
the part are as they were before it, and if the part cannot fail, it has succeeded.  A part that has
been made a function of its own is called instead, and a call may be answered by the mark that the
function is at work; so what is said of parts that cannot fail is said of aims that do not let the
functions of the part answer in this way.

Main definitions:

* `Packrat.Aim.Straight` — aims that let none of the functions between two pools fail at work;
* `Packrat.Emit.Assures` — **code that keeps older slots, and succeeds if it is sure to**.

Main results:

* `Packrat.Emit.Assures.within` — a part, in place or as a function of its own;
* `Packrat.Emit.Assures.optional`, `Packrat.Emit.Assures.peek`, `Packrat.Emit.Assures.keepOne` —
  parts within parts.
-/

set_option autoImplicit false

namespace Packrat

/-! ### Aims and functions at work -/

/-- An aim that lets none of the functions that were written between two pools answer a call by the
mark that it is at work. -/
def Aim.Straight (aim : Aim) (p p' : Pools) : Prop :=
  ∀ k, p.functions.size ≤ k → k < p'.functions.size → ¬ aim.may k

variable [Regex.Engine]

theorem Aim.Straight.within {aim : Aim} {p p₁ p₂ p' : Pools} (h : aim.Straight p p')
    (low : p.Grows p₁) (high : p₂.Grows p') : aim.Straight p₁ p₂ := fun k hk lt =>
  h k (Nat.le_trans low.functions hk) (Nat.lt_of_lt_of_le lt high.functions)

theorem Aim.Straight.before {aim : Aim} {p p₁ p' : Pools} (h : aim.Straight p p')
    (high : p₁.Grows p') : aim.Straight p p₁ := h.within (.refl p) high

theorem Aim.Straight.behind {aim : Aim} {p p₁ p' : Pools} (h : aim.Straight p p')
    (low : p.Grows p₁) : aim.Straight p₁ p' := h.within low (.refl p')

/-! ### Functions that contain drafts -/

namespace Site

variable {site : Site} {d : Draft} {stop : Nat}

omit [Regex.Engine] in
/-- A function that contains a draft does so before the end of the draft. -/
theorem part_hosts (h : site.function.Hosts d) (le : d.code.size ≤ stop) :
    (site.part stop).Hosts d where
  code i x hi := by
    obtain ⟨lt, -⟩ := Array.getElem?_eq_some_iff.1 hi
    have found := h.code i x hi
    obtain ⟨lt', -⟩ := Array.getElem?_eq_some_iff.1 found
    change (site.function.code.extract 0 stop)[i]? = some x
    rw [Array.getElem?_extract, if_pos (by omega), Nat.zero_add]
    exact found
  slots := h.slots
  labels := h.labels

end Site

omit [Regex.Engine] in
/-- What is kept behind a part that began with a new slot. -/
theorem Keeps.behindSlot {bound : Nat} {r : Frame} {x : Value} {ys : Array Value}
    (h : Keeps (bound + 1) (r.setSlot bound x).slots ys) : Keeps bound r.slots ys :=
  (Keeps.set _ (Nat.le_refl _) x).trans (h.mono (Nat.le_succ _))

/-! ### Code -/

namespace Emit

/-- Code that leaves the slots older than itself alone, and that has succeeded at its end if it is
sure to. -/
structure Assures (code : Emit Unit) (sure : Prop) : Prop where
  tame : code.Tame
  leaves : ∀ d p d' p', code.Writes d p () d' p' → ∀ (site : Site) (aim : Aim),
    (site.part aim.stop).Hosts d' → site.setting.program.Hosts p' → ∀ (n : Nat) (r : Frame),
      (∀ r' : Frame, Keeps d.slots r.slots r'.slots →
        (sure → aim.Straight p p' → r'.status = true) → site.Ensures aim n d'.code.size r') →
      site.Ensures aim n d.code.size r

namespace Assures

variable {code inner left right : Emit Unit} {sure sure' : Prop}

theorem weaken (h : code.Assures sure) (imp : sure' → sure) : code.Assures sure' where
  tame := h.tame
  leaves d p d' p' w site aim hosts pools n r next :=
    h.leaves d p d' p' w site aim hosts pools n r fun r' keeps succeeds =>
      next r' keeps fun hs => succeeds (imp hs)

/-- A function whose code is sure to succeed does so, unless one of those that it was written with
fails at work. -/
theorem replies (h : code.Assures sure) {setting : Setting} {may : Nat → Prop} {f budget : Nat}
    {function : Function} {name : String} {params : List String} {draft : Draft} {p p' : Pools}
    (w : code.Writes (Draft.begin name params budget) p () draft p')
    (done : draft.function = .ok function) (known : setting.program.functions[f]? = some function)
    (pools : setting.program.Hosts p') (hs : sure)
    (straight : ∀ k, p.functions.size ≤ k → k < p'.functions.size → ¬ may k)
    {args : List Value} {pos : Nat} {o : Outcome} (replies : setting.Replies may f args pos o) :
    o.status = true := by
  obtain ⟨key?, callee, leaf, enters, walk, leaves, rfl⟩ := replies
  obtain ⟨g, hg, -, rfl⟩ := enters
  obtain rfl := Option.some.inj (known.symm.trans hg)
  obtain ⟨hosts, -, -, -, ret⟩ := Draft.function_eq_ok done
  let site : Site := ⟨setting, true, f, function, known, key?, []⟩
  let aim : Aim := ⟨may, draft.code.size, fun r => r.status = true⟩
  have ensured (n : Nat) : (Frame.begin f function args pos key?).Ensures setting aim n :=
    h.leaves _ _ _ _ w site aim (Site.part_hosts hosts (Nat.le_refl _)) pools n
      (Frame.begin f function args pos key?) fun r' _ succeeds => Site.ensures_goal (succeeds hs straight)
  refine (Frame.Ensures.returned ensured (fun last same arrived => ?_) walk leaves :
    aim.goal leaf)
  have fetched : Machine.fetch setting (site.top draft.code.size last) = .ok .ret :=
    Site.fetch_top ret
  have here : site.top draft.code.size last = last := by
    obtain ⟨function', pc', _, _, _, _, _⟩ := last
    obtain rfl : pc' = _ := arrived
    obtain rfl : function' = _ := same
    rfl
  rwa [here] at fetched

/-- A part, in place or as a function of its own. -/
theorem within (h : code.Assures sure) (e : Expr) : (within e code).Assures sure where
  tame := .within e h.tame
  leaves d p d' p' w site aim hosts pools n r next := by
    rw [Emit.within, writes_get_bind] at w
    split at w
    · obtain ⟨vs, d₁, q, w₁, w₂⟩ := writes_bind.1 w
      obtain ⟨-, rfl, rfl⟩ := writes_lookupAll.1 w₁
      obtain ⟨k, d₁, p₂, w₃, w₄⟩ := writes_bind.1 w₂
      obtain ⟨w₅, rfl⟩ := writes_lift.1 w₃
      obtain ⟨rfl, rfl⟩ := writes_emit.1 w₄
      obtain ⟨rfl, draft, p₁, f, w₆, done, size, inside⟩ := hosts_defineNew h.tame w₅
      obtain ⟨pools₁, known⟩ := inside _ pools
      refine Site.ensures_call hosts fun r' same answers => next r' (same ▸ .refl _ _) ?_
      intro hs straight
      obtain ⟨args, -, o, answered, status, -⟩ := answers _ rfl
      rw [status]
      have grown := (h.tame.pools w₆).functions
      simp only [Array.size_push] at grown
      cases answered with
      | circular allowed => exact absurd allowed (straight _ (Nat.le_refl _) (by omega))
      | returned replies =>
          refine h.replies w₆ done known pools₁ hs (fun k low high => ?_) replies
          simp only [Array.size_push] at low
          exact straight k (by omega) (by omega)
    · exact h.leaves d p d' p' w site aim hosts pools n r next

/-! ### Parts within parts -/

theorem optional (h : inner.Assures sure) : (Emit.optional inner).Assures True where
  tame := .optional h.tame
  leaves d p d' p' w site aim code pools n r next := by
    rw [Emit.optional] at w
    obtain ⟨back, d₁, p₁, w₁, w₂⟩ := writes_bind.1 w
    obtain ⟨rfl, rfl, rfl⟩ := writes_checkpoint.1 w₁
    obtain ⟨u, d₂, p₂, w₃, w₄⟩ := writes_bind.1 w₂
    obtain ⟨d₃, w₅, size, hosts⟩ := hosts_block (fun _ => h.tame) w₃
    obtain ⟨d₄, w₆, size', hosts'⟩ :=
      hosts_ifThen ((Tame.emit _).bind fun _ => .succeedWith _) w₄
    rw [writes_emit_bind, writes_succeedWith] at w₆
    obtain ⟨rfl, rfl⟩ := w₆
    obtain ⟨body, branch, skipped⟩ := hosts' _ code
    obtain ⟨part, -⟩ := hosts _ branch.add.addLabel
    have begins := (part.back (h.tame.draft w₅)).entered.addLabel
    refine Site.ensures_store (d := d.addSlot) begins fun x _ =>
      h.leaves _ _ _ _ w₅ site aim part pools n _ fun r' keeps _ => ?_
    have keeps' := Keeps.behindSlot keeps
    rw [← size]
    refine Site.ensures_status (d := Draft.addLabel _) branch skipped (fun hs m lt => ?_)
      fun _ => ?_
    · rw [← size']
      exact (next r' keeps' fun _ _ => hs).mono (Nat.le_of_lt lt)
    · refine Site.ensures_restore (d := entered _) body.add.add fun pos =>
        Site.ensures_succeedWith body fun y _ => ?_
      rw [← size']
      exact next _ keeps' fun _ _ => rfl

theorem peek (h : inner.Assures sure) : (Emit.peek inner).Assures sure where
  tame := .peek h.tame
  leaves d p d' p' w site aim code pools n r next := by
    rw [Emit.peek] at w
    obtain ⟨back, d₁, p₁, w₁, w₂⟩ := writes_bind.1 w
    obtain ⟨rfl, rfl, rfl⟩ := writes_checkpoint.1 w₁
    obtain ⟨u, d₂, p₂, w₃, w₄⟩ := writes_bind.1 w₂
    obtain ⟨d₃, w₅, size, hosts⟩ := hosts_block (fun _ => h.tame) w₃
    obtain ⟨rfl, rfl⟩ := writes_emit.1 w₄
    obtain ⟨part, -⟩ := hosts _ code.add
    have begins := (part.back (h.tame.draft w₅)).entered.addLabel
    refine Site.ensures_store (d := d.addSlot) begins fun x _ =>
      h.leaves _ _ _ _ w₅ site aim part pools n _ fun r' keeps succeeds => ?_
    rw [← size]
    exact Site.ensures_restore code fun pos => next _ (Keeps.behindSlot keeps) succeeds

theorem never (h : inner.Assures sure) (text innerText : String) :
    (Emit.never text innerText inner).Assures False where
  tame := .never text innerText h.tame
  leaves d p d' p' w site aim code pools n r next := by
    rw [Emit.never] at w
    obtain ⟨u, d₁, p₁, w₁, w₂⟩ := writes_bind.1 w
    obtain ⟨entry, d₂, p₂, w₃, w₄⟩ := writes_bind.1 w₂
    obtain ⟨w₅, rfl⟩ := writes_lift.1 w₃
    obtain ⟨d₃, p₃, d₄, w₆, w₇, size, hosts⟩ := hosts_ifElse (.emit _) (.succeedWith _) w₄
    obtain ⟨rfl, rfl⟩ := writes_emit.1 w₆
    obtain ⟨rfl, rfl⟩ := writes_succeedWith.1 w₇
    obtain ⟨failing, jump, branch, succeeding, behindBoth⟩ := hosts _ code
    refine h.peek.leaves _ _ _ _ w₁ site aim branch.add.addLabel.addLabel
      (pools.back (Build.adds_failure w₅).1) n r fun r' keeps _ => ?_
    refine Site.ensures_notStatus (d := Draft.addLabel (Draft.addLabel _)) branch succeeding
      (fun _ => ?_) fun _ m lt => ?_
    · refine Site.ensures_fail (d := entered _) jump.add
        (Site.ensures_jump jump behindBoth fun m lt => ?_)
      rw [← size]
      exact (next (r'.fail entry) keeps False.elim).mono (Nat.le_of_lt lt)
    · refine (Site.ensures_succeedWith (d := Draft.place _ _) failing fun x _ => ?_).mono
        (Nat.le_of_lt lt)
      rw [← size]
      exact next _ keeps False.elim

end Assures

end Emit

/-! ### Parts one after the other -/

namespace Site

variable {site : Site} {aim : Aim} {d d₁ d' : Draft} {p p₁ p' : Pools} {n exit target : Nat}
variable {r : Frame} {sure sure' : Prop} {part left right : Emit Unit}

/-- A part that must succeed; a part that is sure to is not left. -/
theorem ensures_passed (h : part.Assures sure) (w : part.Writes d p () d₁ p₁)
    (code : (site.part aim.stop).Hosts (d₁.add (.branch .notStatus exit)))
    (pools : site.setting.program.Hosts p₁)
    (exits : site.function.labels[exit]? = some target)
    (leave : ∀ r' : Frame, Keeps d.slots r.slots r'.slots → (sure → ¬ aim.Straight p p₁) →
      site.Ensures aim n target r')
    (stay : ∀ r' : Frame, Keeps d.slots r.slots r'.slots → r'.status = true →
      site.Ensures aim n (d₁.add (.branch .notStatus exit)).code.size r') :
    site.Ensures aim n d.code.size r := by
  refine h.leaves _ _ _ _ w site aim code.add pools n r fun r' keeps succeeds => ?_
  refine ensures_notStatus code exits (fun hs => stay r' keeps hs) fun failed m lt => ?_
  refine (leave r' keeps fun hs straight => ?_).mono (Nat.le_of_lt lt)
  rw [succeeds hs straight] at failed
  cases failed

/-- A part that must succeed, with its result in a new slot. -/
theorem ensures_stored (h : part.Assures sure) (w : part.Writes d p () d₁ p₁)
    (code : (site.part aim.stop).Hosts
      ((d₁.add (.branch .notStatus exit)).addSlot.add (.store d₁.slots .result)))
    (pools : site.setting.program.Hosts p₁)
    (exits : site.function.labels[exit]? = some target)
    (leave : ∀ r' : Frame, Keeps d.slots r.slots r'.slots → (sure → ¬ aim.Straight p p₁) →
      site.Ensures aim n target r')
    (stay : ∀ r' : Frame, Keeps d.slots r.slots r'.slots → r'.status = true →
      site.Ensures aim n
        ((d₁.add (.branch .notStatus exit)).addSlot.add (.store d₁.slots .result)).code.size r') :
    site.Ensures aim n d.code.size r :=
  ensures_passed h w code.add.addSlot pools exits leave fun _ keeps hs =>
    ensures_store (d := Draft.addSlot _) code fun x _ =>
      stay _ (keeps.trans (.set _ (h.tame.draft w).slots x)) hs

/-- Two parts of which both must succeed. -/
theorem ensures_both {a b : Nat} (hl : left.Assures sure) (hr : right.Assures sure')
    (w : (Emit.both left right exit).Writes d p (a, b) d' p')
    (code : (site.part aim.stop).Hosts d') (pools : site.setting.program.Hosts p')
    (exits : site.function.labels[exit]? = some target)
    (leave : ∀ r' : Frame, Keeps d.slots r.slots r'.slots → site.Ensures aim n target r')
    (stay : ∀ r' : Frame, Keeps d.slots r.slots r'.slots → site.Ensures aim n d'.code.size r') :
    site.Ensures aim n d.code.size r := by
  rw [Emit.both] at w
  obtain ⟨_, d₁, p₁, w₁, wa⟩ := Emit.writes_bind.1 w
  obtain ⟨_, d₂, p₂, w₂, wb⟩ := Emit.writes_bind.1 wa
  obtain ⟨rfl, rfl⟩ := Emit.writes_leaveOnFailure.1 w₂
  obtain ⟨_, d₃, p₃, w₃, wc⟩ := Emit.writes_bind.1 wb
  obtain ⟨rfl, rfl, rfl⟩ := Emit.writes_storeResult.1 w₃
  obtain ⟨_, d₄, p₄, w₄, wd⟩ := Emit.writes_bind.1 wc
  obtain ⟨_, d₅, p₅, w₅, we⟩ := Emit.writes_bind.1 wd
  obtain ⟨rfl, rfl⟩ := Emit.writes_leaveOnFailure.1 w₅
  obtain ⟨_, d₆, p₆, w₆, wf⟩ := Emit.writes_bind.1 we
  obtain ⟨rfl, rfl, rfl⟩ := Emit.writes_storeResult.1 w₆
  obtain ⟨-, rfl, rfl⟩ := Emit.writes_pure.1 wf
  have le : d.slots ≤ d₁.slots + 1 := Nat.le_succ_of_le (hl.tame.draft w₁).slots
  refine ensures_stored hl w₁ (code.add.addSlot.add.back (hr.tame.draft w₄))
    (pools.back (hr.tame.pools w₄)) exits (fun r₁ keeps _ => leave r₁ keeps) fun r₁ keeps _ => ?_
  exact ensures_stored hr w₄ code pools exits
    (fun r₂ keeps' _ => leave r₂ (keeps.trans (keeps'.mono le)))
    fun r₂ keeps' _ => stay r₂ (keeps.trans (keeps'.mono le))

end Site

namespace Emit.Assures

variable {inner left right : Emit Unit} {sure sure' : Prop}

/-- Both of two parts, keeping the result of one. -/
theorem keepOne (hl : left.Assures sure) (hr : right.Assures sure') (discardLeft : Bool) :
    (Emit.keepOne left right discardLeft).Assures (sure ∧ sure') where
  tame := .keepOne hl.tame hr.tame discardLeft
  leaves d p d' p' w site aim code pools n r next := by
    rw [Emit.keepOne] at w
    cases discardLeft with
    | true =>
        obtain ⟨d₁, w₁, size, hosts⟩ := hosts_block (fun exit =>
          hl.tame.bind fun _ => (Tame.leaveOnFailure exit).bind fun _ => hr.tame) w
        obtain ⟨_, d₂, p₂, w₂, wa⟩ := writes_bind.1 w₁
        obtain ⟨_, d₃, p₃, w₃, w₄⟩ := writes_bind.1 wa
        obtain ⟨rfl, rfl⟩ := writes_leaveOnFailure.1 w₃
        obtain ⟨body, exit⟩ := hosts _ code
        have room : d.slots ≤ d₂.slots := (hl.tame.draft w₂).slots
        have pgrown := hl.tame.pools w₂
        have pgrown' := hr.tame.pools w₄
        rw [size] at next
        refine Site.ensures_passed (d := entered (Draft.addLabel _)) hl w₂
          (body.back (hr.tame.draft w₄)) (pools.back pgrown') exit (fun r₁ keeps failed => ?_)
          fun r₁ keeps _ => ?_
        · exact next r₁ keeps fun hs straight => absurd (straight.before pgrown') (failed hs.1)
        · exact hr.leaves _ _ _ _ w₄ site aim body pools n r₁ fun r₂ keeps' succeeds =>
            next r₂ (keeps.trans (keeps'.mono room)) fun hs straight =>
              succeeds hs.2 (straight.behind pgrown)
    | false =>
        obtain ⟨d₁, w₁, size, hosts⟩ := hosts_block (fun exit =>
          hl.tame.bind fun _ => (Tame.leaveOnFailure exit).bind fun _ =>
            Tame.storeResult.bind fun _ => hr.tame.bind fun _ =>
              (Tame.leaveOnFailure exit).bind fun _ => .emit _) w
        obtain ⟨_, d₂, p₂, w₂, wa⟩ := writes_bind.1 w₁
        obtain ⟨_, d₃, p₃, w₃, wb⟩ := writes_bind.1 wa
        obtain ⟨rfl, rfl⟩ := writes_leaveOnFailure.1 w₃
        obtain ⟨_, d₄, p₄, w₄, wc⟩ := writes_bind.1 wb
        obtain ⟨rfl, rfl, rfl⟩ := writes_storeResult.1 w₄
        obtain ⟨_, d₅, p₅, w₅, wd⟩ := writes_bind.1 wc
        obtain ⟨_, d₆, p₆, w₆, we⟩ := writes_bind.1 wd
        obtain ⟨rfl, rfl⟩ := writes_leaveOnFailure.1 w₆
        obtain ⟨rfl, rfl⟩ := writes_emit.1 we
        obtain ⟨body, exit⟩ := hosts _ code
        have room : d.slots ≤ d₂.slots + 1 := Nat.le_succ_of_le (hl.tame.draft w₂).slots
        have pgrown := hl.tame.pools w₂
        have pgrown' := hr.tame.pools w₅
        rw [size] at next
        refine Site.ensures_stored (d := entered (Draft.addLabel _)) hl w₂
          (body.add.add.back (hr.tame.draft w₅)) (pools.back pgrown') exit
          (fun r₁ keeps failed => ?_) fun r₁ keeps _ => ?_
        · exact next r₁ keeps fun hs straight => absurd (straight.before pgrown') (failed hs.1)
        · refine Site.ensures_passed hr w₅ body.add pools exit (fun r₂ keeps' failed => ?_)
            fun r₂ keeps' succeeds => ?_
          · exact next r₂ (keeps.trans (keeps'.mono room)) fun hs straight =>
              absurd (straight.behind pgrown) (failed hs.2)
          · exact Site.ensures_load body fun x _ =>
              next _ (keeps.trans (keeps'.mono room)) fun _ _ => succeeds

end Emit.Assures

end Packrat
