import Packrat.Proofs.Outcomes.Parts
import Packrat.Proofs.Simulation.Repetitions

/-
**What repetitions leave behind.**

Between two rounds the slots that are older than the loop are as they were, and a slot holds the
values so far.  A repetition tests its greatest number before each round and its least number at the
end, so behind a success there are neither more items than the one nor fewer than the other.  Both
numbers are read as signed words where they are compared to a length.

Main definitions:

* `Packrat.signedWord` — a number as it is compared to lengths;
* `Packrat.MostHolds`, `Packrat.LeastHolds` — lengths that a limit allows, and that it asks for;
* `Packrat.Gathered` — slots between two rounds, with the values so far.

Main results:

* `Packrat.Site.ensures_listOf` — **what a repetition leaves**;
* `Packrat.Emit.Assures.listOf`, `Packrat.Emit.Assures.sepOf` — repetitions and lists with
  separators.
-/

set_option autoImplicit false

namespace Packrat

/-! ### Limits -/

/-- A number as it is compared to lengths: the signed word of its bits. -/
def signedWord (n : Nat) : Int := (Int64.ofNat n).toInt

theorem signedWord_le (n : Nat) : signedWord n ≤ n := by
  rw [signedWord, Int64.toInt_ofNat', Int.bmod_def, Int64.size]
  split <;> omega

theorem signedWord_of_lt {n : Nat} (h : n < 2 ^ 63) : signedWord n = n :=
  Int64.toInt_ofNat_of_lt h

/-- Whether a length is allowed by the greatest one, as far as this is known before a parse. -/
def MostHolds (most? : Option Limit) (length : Nat) : Prop :=
  ∀ n, most? = some (.const n) → length ≤ n

/-- Whether a length is what the least one asks for, as far as this is known before a parse. -/
def LeastHolds (least? : Option Limit) (length : Nat) : Prop :=
  ∀ n, least? = some (.const n) → signedWord n ≤ length

/-- A greatest length that is known to allow for an item. -/
def AdmitsItem : Option Limit → Prop
  | none => True
  | some (.const n) => 1 ≤ signedWord n
  | some (.slot _) => False

/-! ### The values so far -/

/-- Slots of which the older ones are as they were, and one, if it is there at all, holds the values
so far. -/
structure Gathered (bound : Nat) (base : Array Value) (staging : Nat) (P : List Value → Prop)
    (slots : Array Value) : Prop where
  keeps : Keeps bound base slots
  list : ∀ x, slots[staging]? = some x → ∃ id items, x = .list id items ∧ P items

namespace Gathered

variable {bound bound' staging v : Nat} {base xs ys : Array Value} {P Q : List Value → Prop}

/-- A list that has been put into its slot. -/
theorem init (keeps : Keeps bound base xs) (low : bound ≤ staging) {id : Nat} {items : List Value}
    (hp : P items) : Gathered bound base staging P (xs.setIfInBounds staging (.list id items)) where
  keeps := keeps.trans (.set _ low _)
  list x hx := by
    rw [Array.getElem?_setIfInBounds, if_pos rfl] at hx
    split at hx
    · exact ⟨id, items, (Option.some.inj hx).symm, hp⟩
    · cases hx

theorem mono (h : Gathered bound base staging P xs) (imp : ∀ items, P items → Q items) :
    Gathered bound base staging Q xs where
  keeps := h.keeps
  list x hx := by
    obtain ⟨id, items, rfl, hp⟩ := h.list x hx
    exact ⟨id, items, rfl, imp items hp⟩

/-- A part of a round leaves older slots alone. -/
theorem part (h : Gathered bound base staging P xs) (keeps : Keeps bound' xs ys)
    (le : bound ≤ bound') (lt : staging < bound') : Gathered bound base staging P ys where
  keeps := h.keeps.trans (keeps.mono le)
  list x hx := h.list x ((keeps.same staging lt).symm.trans hx)

/-- A younger slot may get another value. -/
theorem set (h : Gathered bound base staging P xs) (low : bound ≤ v) (other : v ≠ staging)
    (x : Value) : Gathered bound base staging P (xs.setIfInBounds v x) where
  keeps := h.keeps.trans (.set _ low x)
  list y hy := h.list y ((getElem?_set_ne other x).symm.trans hy)

end Gathered

namespace Site

variable {site : Site} {aim : Aim} {d d' : Draft} {p p' : Pools} {r : Frame} {sure sure' : Prop}
variable {n bound staging back v l topAt exitAt : Nat} {base : Array Value}
variable {item separator : Emit Unit} {P Q : List Value → Prop}

/-! ### Tests and items -/

/-- A length is compared to a number. -/
theorem lenGe_const {pc k : Nat} {b : Bool}
    (h : (site.top pc r).holds (.lenGe v (.const k)) = .ok b) :
    ∃ id items, r.slots[v]? = some (.list id items) ∧
      b = decide (signedWord k ≤ (items : List Value).length) := by
  change ((site.top pc r).listAt v >>= fun list => pure _) = _ at h
  cases read : (site.top pc r).listAt v with
  | error e =>
      rw [read] at h
      cases h
  | ok list =>
      rw [read] at h
      exact ⟨list.1, list.2, listAt_eq_ok (r := site.top pc r) read, (Except.ok.inj h).symm⟩

/-- An item is added to the values so far. -/
theorem ensures_gather {value : Operand} (h : (site.part aim.stop).Hosts (d.add (.push staging value)))
    (g : Gathered bound base staging P r.slots) (low : bound ≤ staging)
    (imp : ∀ items x, P items → Q (items ++ [x]))
    (next : ∀ r' : Frame, Gathered bound base staging Q r'.slots →
      site.Ensures aim n (d.add (.push staging value)).code.size r') :
    site.Ensures aim n d.code.size r := by
  refine ensures_push h fun x id items _ held => ?_
  obtain ⟨_, _, ⟨⟩, hp⟩ := g.list _ held
  exact next _ (.init g.keeps low (imp items x hp))

/-- The end of a round: another one follows, or the loop is left. -/
theorem ensures_again {top exit : Nat}
    (h : (site.part aim.stop).Hosts ((d.add (.branch (.posEq back) exit)).add (.jump top)))
    (tops : site.function.labels[top]? = some topAt)
    (exits : site.function.labels[exit]? = some exitAt)
    (again : ∀ m < n, site.Ensures aim m topAt r) (last : site.Ensures aim n exitAt r) :
    site.Ensures aim n d.code.size r :=
  ensures_branch h.add exits (fun _ _ lt => last.mono (Nat.le_of_lt lt))
    fun _ => ensures_jump h tops again

/-! ### Repetitions -/

/-- A round of a repetition, behind the test of its greatest number. -/
theorem ensures_attempt [Regex.Engine] (h : item.Assures sure) {err errPos top exit : Nat}
    (w : (Emit.attempt item staging err errPos exit).Writes d p () d' p')
    (code : (site.part aim.stop).Hosts (d'.add (.jump top)))
    (pools : site.setting.program.Hosts p')
    (tops : site.function.labels[top]? = some topAt)
    (exits : site.function.labels[exit]? = some exitAt)
    (low : bound ≤ staging) (lowErr : bound ≤ err ∧ err ≠ staging)
    (lowPos : bound ≤ errPos ∧ errPos ≠ staging) (room : bound ≤ d.slots ∧ staging < d.slots)
    (g : Gathered bound base staging P r.slots) (imp : ∀ items x, P items → Q (items ++ [x]))
    (again : ∀ m < n, ∀ r' : Frame, Gathered bound base staging Q r'.slots →
      site.Ensures aim m topAt r')
    (last : ∀ r' : Frame, Gathered bound base staging Q r'.slots → site.Ensures aim n exitAt r')
    (failed : (sure → ¬ aim.Straight p p') → ∀ r' : Frame,
      Gathered bound base staging P r'.slots → site.Ensures aim n exitAt r') :
    site.Ensures aim n d.code.size r := by
  obtain ⟨back, d₁, p₁, w₁, wa⟩ := Emit.writes_bind.1 w
  obtain ⟨rfl, rfl, rfl⟩ := Emit.writes_checkpoint.1 w₁
  obtain ⟨_, d₂, p₂, w₂, wb⟩ := Emit.writes_bind.1 wa
  obtain ⟨_, d₃, p₃, w₃, w₄⟩ := Emit.writes_bind.1 wb
  obtain ⟨d₄, w₅, size, hosts⟩ := Emit.hosts_ifThen ((Emit.Tame.emit _).bind fun _ =>
    (Emit.Tame.emit _).bind fun _ => (Emit.Tame.emit _).bind fun _ => .emit _) w₃
  rw [Emit.writes_emit_bind, Emit.writes_emit_bind, Emit.writes_emit_emit] at w₅
  obtain ⟨rfl, rfl⟩ := w₅
  obtain ⟨rfl, rfl⟩ := Emit.writes_emit_emit.1 w₄
  obtain ⟨body, branch, passed⟩ := hosts _ code.add.add.add
  have part := branch.add.addLabel
  refine ensures_store (d := d.addSlot) (part.back (h.tame.draft w₂)) fun place _ => ?_
  refine h.leaves _ _ _ _ w₂ site aim part pools n _ fun r₁ keeps succeeds => ?_
  have g₁ : Gathered bound base staging P r₁.slots :=
    g.part (Keeps.behindSlot keeps) room.1 room.2
  refine ensures_status (d := Draft.addLabel _) branch passed (fun hs m lt => ?_) fun hs => ?_
  · rw [← size]
    refine (ensures_gather code.add.add g₁ low imp fun r₂ g₂ => ?_).mono (Nat.le_of_lt lt)
    exact ensures_again code tops exits (fun m lt => again m lt r₂ g₂) (last r₂ g₂)
  · refine ensures_store (d := Emit.entered _) body.add.add.add fun mark _ =>
      ensures_store body.add.add fun place' _ => ensures_restore body.add fun pos =>
        ensures_jump body exits fun m lt => ?_
    refine (failed (fun sure straight => ?_) _ ?_).mono (Nat.le_of_lt lt)
    · rw [succeeds sure straight] at hs
      cases hs
    · exact (g₁.set lowErr.1 lowErr.2 mark).set lowPos.1 lowPos.2 place'

/-- The rounds of a repetition. -/
theorem ensures_repetition [Regex.Engine] (h : item.Assures sure) {err errPos : Nat}
    {most? : Option Limit} (w : (Emit.repetition item staging err errPos most?).Writes d p () d' p')
    (code : (site.part aim.stop).Hosts d') (pools : site.setting.program.Hosts p')
    (low : bound ≤ staging) (lowErr : bound ≤ err ∧ err ≠ staging)
    (lowPos : bound ≤ errPos ∧ errPos ≠ staging) (room : bound ≤ d.slots ∧ staging < d.slots)
    (g : Gathered bound base staging (· = []) r.slots)
    (next : ∀ r' : Frame, Gathered bound base staging (fun items => MostHolds most? items.length ∧
        (sure → aim.Straight p p' → AdmitsItem most? → items ≠ [])) r'.slots →
      site.Ensures aim n d'.code.size r') : site.Ensures aim n d.code.size r := by
  have round (exit : Nat) := Emit.Tame.attempt h.tame staging err errPos exit
  have some_of_push (items : List Value) (x : Value) : items ++ [x] ≠ [] := by simp
  cases most? with
  | none =>
      have within (items : List Value) : MostHolds none items.length := fun _ hn => by cases hn
      refine ensures_loop (fun r => Gathered bound base staging (fun _ => True) r.slots)
        (fun _ exit => round exit) w code (fun d₁ d₂ topAt w₁ slots hosts tops exits m le again r g =>
          ?_) (g.mono fun _ _ => trivial)
      refine ensures_attempt h w₁ hosts pools tops exits low lowErr lowPos (slots ▸ room) g
        (Q := fun items => items ≠ []) (fun items x _ => some_of_push items x)
        (fun k lt r' g' => again k lt r' (g'.mono fun _ _ => trivial)) (fun r' g' => ?_)
        fun failed r' g' => ?_
      · exact (next r' (g'.mono fun items some => ⟨within items, fun _ _ _ => some⟩)).mono le
      · exact (next r' (g'.mono fun items _ => ⟨within items,
          fun hs straight => absurd straight (failed hs)⟩)).mono le
  | some most =>
      refine ensures_loop
        (fun r => Gathered bound base staging (fun items => MostHolds (some most) items.length) r.slots)
        (fun _ exit => (Emit.Tame.emit _).bind fun _ => round exit) w code
        (fun d₁ d₂ topAt w₁ slots hosts tops exits m le again r g => ?_)
        (g.mono fun items hi => by subst hi; exact fun _ _ => Nat.zero_le _)
      have w₂ := Emit.writes_emit_bind.1 w₁
      have begins := hosts.add.back ((round _).draft w₂)
      refine ensures_branch begins exits (fun full k lt => ?_) fun free => ?_
      · refine ((next r ⟨g.keeps, fun x hx => ?_⟩).mono le).mono (Nat.le_of_lt lt)
        obtain ⟨id, items, rfl, within⟩ := g.list x hx
        refine ⟨id, items, rfl, within, fun _ _ admits => ?_⟩
        cases most with
        | slot => exact admits.elim
        | const k =>
            obtain ⟨_, _, held, long⟩ := lenGe_const full
            cases held.symm.trans hx
            have : signedWord k ≤ items.length := of_decide_eq_true long.symm
            have : 1 ≤ signedWord k := admits
            rintro rfl
            simp only [List.length_nil] at *
            omega
      · -- What is pushed behind the test still fits.
        refine ensures_attempt h w₂ hosts pools tops exits low lowErr lowPos (slots ▸ room)
          (P := fun items' => MostHolds (some most) (items'.length + 1))
          (Q := fun items => MostHolds (some most) items.length ∧ items ≠ [])
          ⟨g.keeps, fun x hx => ?_⟩
          (fun items x fits => ⟨by simpa using fits, some_of_push items x⟩)
          (fun k lt r' g' => again k lt r' (g'.mono fun _ hi => hi.1)) (fun r' g' => ?_)
          fun failed r' g' => ?_
        · obtain ⟨id, items, rfl, within⟩ := g.list x hx
          refine ⟨id, items, rfl, fun k hk => ?_⟩
          cases hk
          obtain ⟨_, _, held, short⟩ := lenGe_const free
          cases held.symm.trans hx
          have : ¬ signedWord k ≤ items.length := of_decide_eq_false short.symm
          have := signedWord_le k
          omega
        · exact (next r' (g'.mono fun items hi => ⟨hi.1, fun _ _ _ => hi.2⟩)).mono le
        · exact (next r' (g'.mono fun items hi => ⟨fun k hk => Nat.le_of_succ_le (hi k hk),
            fun hs straight => absurd straight (failed hs)⟩)).mono le

/-- The end of a repetition: its items, or a failure. -/
theorem ensures_enough [Regex.Engine] {err errPos : Nat} {least? : Option Limit}
    (w : (Emit.enough staging err errPos least?).Writes d p () d' p')
    (code : (site.part aim.stop).Hosts d') (g : Gathered bound base staging P r.slots)
    (next : ∀ r' : Frame, Keeps bound base r'.slots →
      (r'.status = true → ∃ id items, r'.result = .list id items ∧ P items ∧
        LeastHolds least? items.length) →
      ((least? = none ∨ ∃ k, least? = some (.const k) ∧
        ∀ items, P items → signedWord k ≤ items.length) → r'.status = true) →
      site.Ensures aim n d'.code.size r') : site.Ensures aim n d.code.size r := by
  cases least? with
  | none =>
      obtain ⟨rfl, rfl⟩ := Emit.writes_succeedWith.1 w
      refine ensures_succeedWith code fun x hx => next _ g.keeps (fun _ => ?_) fun _ => rfl
      obtain ⟨id, items, rfl, hp⟩ := g.list x (slot_eq_ok.1 hx)
      exact ⟨id, items, rfl, hp, fun _ hk => by cases hk⟩
  | some least =>
      obtain ⟨d₁, p₁, d₂, w₁, w₂, size, hosts⟩ := Emit.hosts_ifElse
        ((Emit.Tame.emit _).bind fun _ => (Emit.Tame.emit _).bind fun _ => .emit _)
        (.succeedWith _) w
      rw [Emit.writes_emit_bind, Emit.writes_emit_emit] at w₁
      obtain ⟨rfl, rfl⟩ := w₁
      obtain ⟨rfl, rfl⟩ := Emit.writes_succeedWith.1 w₂
      obtain ⟨enough, jump, branch, otherwise', behindBoth⟩ := hosts _ code
      rw [← size] at behindBoth
      refine ensures_branch (d := Draft.addLabel (Draft.addLabel _)) branch otherwise'
        (fun long m lt => ?_) fun short => ?_
      · refine (ensures_succeedWith (d := Draft.place _ _) enough fun x hx => ?_).mono
          (Nat.le_of_lt lt)
        rw [← size]
        refine next _ g.keeps (fun _ => ?_) fun _ => rfl
        obtain ⟨id, items, rfl, hp⟩ := g.list x (slot_eq_ok.1 hx)
        refine ⟨id, items, rfl, hp, fun k hk => ?_⟩
        cases hk
        obtain ⟨_, _, held, enough⟩ := lenGe_const long
        cases held.symm.trans (slot_eq_ok.1 hx)
        exact of_decide_eq_true enough.symm
      · refine ensures_restore (d := Emit.entered _) jump.add.add.add fun pos =>
          ensures_load jump.add.add fun x _ => ensures_setStatus jump.add
            (ensures_jump jump behindBoth fun m lt => ?_)
        refine Ensures.mono (next _ ?_ (fun hs => ?_) fun asks => ?_) (Nat.le_of_lt lt)
        · exact g.keeps
        · cases hs
        · obtain ⟨⟨⟩⟩ | ⟨k, ⟨⟩, asks⟩ := asks
          obtain ⟨_, items, held, few⟩ := lenGe_const short
          obtain ⟨_, _, ⟨⟩, hp⟩ := g.list _ held
          exact absurd (asks items hp) (of_decide_eq_false few.symm)

end Site

/-! ### Repetitions with their numbers -/

namespace Emit

variable {d d' : Draft} {p p' : Pools}

/-- Numbers are the limits that they are; host code is evaluated into a slot. -/
theorem limit?_const {bound? : Option Bound} {limit? : Option Limit}
    (w : (Emit.limit? bound?).Writes d p limit? d' p') (k : Nat) :
    limit? = some (.const k) ↔ bound? = some (.const k) := by
  match bound? with
  | none =>
      obtain ⟨rfl, -, -⟩ := writes_pure.1 w
      simp
  | some (.const c) =>
      obtain ⟨rfl, -, -⟩ := writes_pure.1 w
      simp
  | some (.host sn) =>
      obtain ⟨_, d₁, p₁, w₁, w₂⟩ := writes_bind.1 w
      obtain ⟨v, d₂, p₂, w₃, w₄⟩ := writes_bind.1 w₂
      obtain ⟨rfl, rfl, rfl⟩ := writes_pure.1 w₄
      simp

theorem limit?_none {limit? : Option Limit} (w : (Emit.limit? none).Writes d p limit? d' p') :
    limit? = none := (writes_pure.1 w).1

end Emit

namespace Site

variable {site : Site} {aim : Aim} {d d' : Draft} {p p' : Pools} {r : Frame} {sure : Prop}
variable {n : Nat} {item : Emit Unit}

/-- Host code in place. -/
theorem ensures_snippet {sn : Snippet} (w : (Emit.snippet sn).Writes d p () d' p')
    (code : (site.part aim.stop).Hosts d')
    (next : ∀ x, site.Ensures aim n d'.code.size (r.yield x)) :
    site.Ensures aim n d.code.size r := by
  obtain ⟨vs, d₁, p₁, w₁, w₂⟩ := Emit.writes_bind.1 w
  obtain ⟨-, rfl, rfl⟩ := Emit.writes_lookupAll.1 w₁
  obtain ⟨host, d₂, p₂, w₃, w₄⟩ := Emit.writes_bind.1 w₂
  obtain ⟨-, rfl⟩ := Emit.writes_lift.1 w₃
  obtain ⟨rfl, rfl⟩ := Emit.writes_emit.1 w₄
  exact ensures_eval code next

/-- A number of a repetition, which may be host code. -/
theorem ensures_limit [Regex.Engine] {bound? : Option Bound} {limit? : Option Limit}
    (w : (Emit.limit? bound?).Writes d p limit? d' p') (code : (site.part aim.stop).Hosts d')
    (next : ∀ r' : Frame, Keeps d.slots r.slots r'.slots → site.Ensures aim n d'.code.size r') :
    site.Ensures aim n d.code.size r := by
  match bound? with
  | none | some (.const c) =>
      obtain ⟨rfl, rfl, rfl⟩ := Emit.writes_pure.1 w
      exact next r (.refl _ _)
  | some (.host sn) =>
      obtain ⟨_, d₁, p₁, w₁, w₂⟩ := Emit.writes_bind.1 w
      obtain ⟨v, d₂, p₂, w₃, w₄⟩ := Emit.writes_bind.1 w₂
      obtain ⟨rfl, rfl, rfl⟩ := Emit.writes_storeResult.1 w₃
      obtain ⟨rfl, rfl, rfl⟩ := Emit.writes_pure.1 w₄
      exact ensures_snippet w₁ code.add.addSlot fun x => ensures_store (d := d₁.addSlot) code
        fun y _ => next _ (.set _ ((Emit.Tame.snippet sn).draft w₁).slots y)

/-- What a repetition leaves: behind a success, as many items as its numbers allow. -/
theorem ensures_listOf [Regex.Engine] (h : item.Assures sure) {text : String}
    {least most : Option Bound} (w : (Emit.listOf text item least most).Writes d p () d' p')
    (code : (site.part aim.stop).Hosts d') (pools : site.setting.program.Hosts p')
    (next : ∀ r' : Frame, Keeps d.slots r.slots r'.slots →
      (r'.status = true → ∃ id items, r'.result = .list id items ∧
        (∀ k, least = some (.const k) → signedWord k ≤ items.length) ∧
        ∀ k, most = some (.const k) → items.length ≤ k) →
      ((least = none ∨ (∃ k, least = some (.const k) ∧ signedWord k ≤ 0) ∨
        sure ∧ (∃ k, least = some (.const k) ∧ signedWord k ≤ 1) ∧
          (most = none ∨ ∃ k, most = some (.const k) ∧ 1 ≤ signedWord k)) →
        aim.Straight p p' → r'.status = true) →
      site.Ensures aim n d'.code.size r') : site.Ensures aim n d.code.size r := by
  rw [Emit.listOf] at w
  obtain ⟨_, d₁, p₁, w₁, wa⟩ := Emit.writes_bind.1 w
  obtain ⟨rfl, rfl, rfl⟩ := Emit.writes_slot.1 w₁
  rw [Emit.writes_emit_bind] at wa
  obtain ⟨unexpected, d₂, p₂, w₂, wb⟩ := Emit.writes_bind.1 wa
  obtain ⟨wf, rfl⟩ := Emit.writes_lift.1 w₂
  obtain ⟨_, d₃, p₃, w₃, wc⟩ := Emit.writes_bind.1 wb
  obtain ⟨rfl, rfl, rfl⟩ := Emit.writes_slot.1 w₃
  rw [Emit.writes_emit_bind] at wc
  obtain ⟨_, d₄, p₄, w₄, wd⟩ := Emit.writes_bind.1 wc
  obtain ⟨rfl, rfl, rfl⟩ := Emit.writes_checkpoint.1 w₄
  obtain ⟨least?, d₅, p₅, w₅, we⟩ := Emit.writes_bind.1 wd
  obtain ⟨most?, d₆, p₆, w₆, wg⟩ := Emit.writes_bind.1 we
  obtain ⟨_, d₇, p₇, w₇, w₈⟩ := Emit.writes_bind.1 wg
  have tameLeast := Emit.Tame.limit? least
  have tameMost := Emit.Tame.limit? most
  have tameLoop := Emit.Tame.repetition h.tame d.slots (d.slots + 1) (d.slots + 2) most?
  have w₉ : (Emit.enough d.slots (d.slots + 1) (d.slots + 2) least?).Writes d₇ p₇ () d' p' := w₈
  have tameEnd := Emit.Tame.enough d.slots (d.slots + 1) (d.slots + 2) least?
  have before := ((Build.adds_failure wf).1.trans (tameLeast.pools w₅)).trans (tameMost.pools w₆)
  have code₇ := code.back (tameEnd.draft w₉)
  have code₆ := code₇.back (tameLoop.draft w₇)
  have third := (code₆.back (tameMost.draft w₆)).back (tameLeast.draft w₅)
  have second := third.add.addSlot
  have pools₇ := pools.back (tameEnd.pools w₉)
  have room : d.slots + 2 < d₅.slots := (tameLeast.draft w₅).slots
  have room' : d₅.slots ≤ d₆.slots := (tameMost.draft w₆).slots
  refine ensures_newList (d := d.addSlot) second.add.addSlot fun id =>
    ensures_store (d := Draft.addSlot _) second fun mark _ =>
      ensures_store (d := Draft.addSlot _) third fun place _ =>
        ensures_limit w₅ (code₆.back (tameMost.draft w₆)) fun r₁ keeps₁ =>
          ensures_limit w₆ code₆ fun r₂ keeps₂ => ?_
  have keeps := keeps₁.trans (keeps₂.mono (tameLeast.draft w₅).slots)
  have lowErr : d.slots ≤ d.slots + 1 ∧ d.slots + 1 ≠ d.slots := by omega
  have lowPos : d.slots ≤ d.slots + 2 ∧ d.slots + 2 ≠ d.slots := by omega
  have begun : Gathered d.slots r.slots d.slots (· = []) (r.setSlot d.slots (.list id [])).slots :=
    .init (.refl _ _) (Nat.le_refl _) rfl
  have g : Gathered d.slots r.slots d.slots (· = []) r₂.slots :=
    ((begun.set lowErr.1 lowErr.2 mark).set lowPos.1 lowPos.2 place).part keeps
      (Nat.le_add_right _ 3) (Nat.lt_add_of_pos_right (Nat.succ_pos 2))
  refine ensures_repetition h w₇ code₇ pools₇ (Nat.le_refl _) lowErr lowPos
    ⟨by omega, by omega⟩ g fun r₃ g₃ => ?_
  refine ensures_enough w₉ code g₃ fun r₄ keeps₄ success sure' => next r₄ keeps₄ ?_ ?_
  · intro hs
    obtain ⟨id, items, result, ⟨within, -⟩, atLeast⟩ := success hs
    refine ⟨id, items, result, fun k hk => ?_, fun k hk => ?_⟩
    · exact atLeast k ((Emit.limit?_const w₅ k).2 hk)
    · exact within k ((Emit.limit?_const w₆ k).2 hk)
  · intro cond straight
    have straight' := (straight.before (tameEnd.pools w₉)).behind before
    refine sure' ?_
    rcases cond with none | ⟨k, hk, small⟩ | ⟨hs, ⟨k, hk, one⟩, admits⟩
    · subst none
      exact .inl (Emit.limit?_none w₅)
    · exact .inr ⟨k, (Emit.limit?_const w₅ k).2 hk, fun items _ => by omega⟩
    · refine .inr ⟨k, (Emit.limit?_const w₅ k).2 hk, fun items hp => ?_⟩
      have some : items ≠ [] := hp.2 hs straight' ?_
      · have := List.length_pos_of_ne_nil some
        omega
      · rcases admits with none | ⟨k, hk, one⟩
        · subst none
          rw [Emit.limit?_none w₆]
          trivial
        · rw [(Emit.limit?_const w₆ k).2 hk]
          exact one

/-! ### Separators -/

variable {sure' : Prop} {separator : Emit Unit} {bound staging v : Nat} {base : Array Value}
variable {b : Bool}

theorem ensures_pushIf {value : Operand} (h : (site.part aim.stop).Hosts (d.addIf b (.push v value)))
    (keeps : Keeps bound base r.slots) (low : bound ≤ v)
    (next : ∀ r' : Frame, Keeps bound base r'.slots →
      site.Ensures aim n (d.addIf b (.push v value)).code.size r') :
    site.Ensures aim n d.code.size r := by
  cases b with
  | false => exact next r keeps
  | true => exact ensures_push h fun x id items _ _ => next _ (keeps.trans (.set _ low _))

theorem ensures_popIf (h : (site.part aim.stop).Hosts (d.addIf b (.pop v)))
    (keeps : Keeps bound base r.slots) (low : bound ≤ v)
    (next : ∀ r' : Frame, Keeps bound base r'.slots →
      site.Ensures aim n (d.addIf b (.pop v)).code.size r') :
    site.Ensures aim n d.code.size r := by
  cases b with
  | false => exact next r keeps
  | true => exact ensures_pop h fun id items _ => next _ (keeps.trans (.set _ low _))

theorem ensures_saveIf {value : Operand}
    (h : (site.part aim.stop).Hosts (d.addIf b (.store v value)))
    (keeps : Keeps bound base r.slots) (low : bound ≤ v)
    (next : ∀ r' : Frame, Keeps bound base r'.slots →
      site.Ensures aim n (d.addIf b (.store v value)).code.size r') :
    site.Ensures aim n d.code.size r := by
  cases b with
  | false => exact next r keeps
  | true => exact ensures_store h fun x _ => next _ (keeps.trans (.set _ low x))

/-- Separators and items as often as both succeed leave older slots alone. -/
theorem ensures_separated [Regex.Engine] (h : item.Assures sure) (h' : separator.Assures sure')
    {flags : SepFlags} (w : (Emit.separated item separator flags staging).Writes d p () d' p')
    (code : (site.part aim.stop).Hosts d') (pools : site.setting.program.Hosts p')
    (low : bound ≤ staging) (room : bound ≤ d.slots) (keeps : Keeps bound base r.slots)
    (next : ∀ r' : Frame, Keeps bound base r'.slots → site.Ensures aim n d'.code.size r') :
    site.Ensures aim n d.code.size r := by
  rw [Emit.separated_eq] at w
  refine ensures_loop (fun r => Keeps bound base r.slots)
    (fun _ exit => Emit.Tame.attemptPair h.tame h'.tame flags staging exit) w code
    (fun e d₁ topAt w₁ slots body tops exits m le again r keeps => ?_) keeps
  obtain ⟨back, d₂, p₂, w₂, wa⟩ := Emit.writes_bind.1 w₁
  obtain ⟨rfl, rfl, rfl⟩ := Emit.writes_checkpoint.1 w₂
  obtain ⟨_, d₃, p₃, w₃, wb⟩ := Emit.writes_bind.1 wa
  obtain ⟨_, d₄, p₄, w₄, wc⟩ := Emit.writes_bind.1 wb
  obtain ⟨retreat, rfl⟩ := Site.writes_retreat w₄
  obtain ⟨_, d₅, p₅, w₅, wd⟩ := Emit.writes_bind.1 wc
  obtain ⟨rfl, rfl⟩ := Emit.writes_emitIf.1 w₅
  obtain ⟨_, d₆, p₆, w₆, we⟩ := Emit.writes_bind.1 wd
  obtain ⟨rfl, rfl⟩ := Emit.writes_emitIf.1 w₆
  obtain ⟨_, d₇, p₇, w₇, wf⟩ := Emit.writes_bind.1 we
  obtain ⟨_, d₈, p₈, w₈, w₉⟩ := Emit.writes_bind.1 wf
  obtain ⟨rfl, rfl⟩ := Emit.writes_emit_emit.1 w₉
  obtain ⟨d₉, wg, size, hosts⟩ := Emit.hosts_ifThen ((Emit.Tame.emitIf _ _).bind fun _ =>
    (Emit.Tame.emit _).bind fun _ => .emit _) w₈
  obtain ⟨_, d₁₀, p₁₀, wh, wi⟩ := Emit.writes_bind.1 wg
  obtain ⟨rfl, rfl⟩ := Emit.writes_emitIf.1 wh
  obtain ⟨rfl, rfl⟩ := Emit.writes_emit_emit.1 wi
  obtain ⟨failed, branch, passed⟩ := hosts _ body.add.add.add
  have saving := branch.add.addLabel.back (h.tame.draft w₇)
  have keeping := Site.hosts_addIf saving
  have retreating := Site.hosts_addIf keeping
  have first := retreating.back retreat
  have lower : bound ≤ e.slots := by omega
  have lower' : bound ≤ d₄.slots :=
    Nat.le_trans (Nat.le_succ_of_le lower) ((h'.tame.draft w₃).trans retreat).slots
  have leave (r' : Frame) (keeps : Keeps bound base r'.slots) : site.Ensures aim m d'.code.size r' :=
    (next r' keeps).mono le
  refine ensures_store (d := e.addSlot) (first.back (h'.tame.draft w₃)) fun place _ => ?_
  refine h'.leaves _ _ _ _ w₃ site aim first (pools.back (h.tame.pools w₇)) m _
    fun r₁ keeps₁ _ => ?_
  have keeps₁ := keeps.trans ((Keeps.behindSlot keeps₁).mono lower)
  refine ensures_retreat w₄ retreating exits (fun _ => ?_) fun _ pos => leave _ keeps₁
  refine ensures_pushIf keeping keeps₁ low fun r₂ keeps₂ =>
    ensures_saveIf saving keeps₂ lower fun r₃ keeps₃ => ?_
  refine h.leaves _ _ _ _ w₇ site aim branch.add.addLabel pools m r₃ fun r₄ keeps₄ _ => ?_
  have keeps₄ := keeps₃.trans (keeps₄.mono (by simpa using lower'))
  refine ensures_status (d := Draft.addLabel _) branch passed (fun _ k lt => ?_) fun _ => ?_
  · rw [← size]
    refine (ensures_push body.add.add fun x id items _ _ => ?_).mono (Nat.le_of_lt lt)
    have keeps₅ : Keeps bound base (r₄.setSlot staging (.list id (items ++ [x]))).slots :=
      keeps₄.trans (.set _ low _)
    exact ensures_again body tops exits (fun k lt => again k lt _ keeps₅) (leave _ keeps₅)
  · refine ensures_popIf (d := Emit.entered _) failed.add.add keeps₄ low fun r₅ keeps₅ =>
      ensures_restore failed.add fun pos => ensures_jump failed exits fun k lt => ?_
    exact (leave { r₅ with pos } keeps₅).mono (Nat.le_of_lt lt)

end Site

namespace Emit.Assures

variable {item separator : Emit Unit} {sure sure' : Prop}

theorem listOf [Regex.Engine] (h : item.Assures sure) (text : String) (least most : Option Bound) :
    (Emit.listOf text item least most).Assures
      (least = none ∨ (∃ k, least = some (.const k) ∧ signedWord k ≤ 0) ∨
        sure ∧ (∃ k, least = some (.const k) ∧ signedWord k ≤ 1) ∧
          (most = none ∨ ∃ k, most = some (.const k) ∧ 1 ≤ signedWord k)) where
  tame := .listOf text h.tame least most
  leaves _ _ _ _ w _ _ code pools _ _ next :=
    Site.ensures_listOf h w code pools fun r' keeps _ succeeds => next r' keeps succeeds

theorem sepOf [Regex.Engine] (h : item.Assures sure) (h' : separator.Assures sure')
    (flags : SepFlags) : (Emit.sepOf item separator flags).Assures (flags.allowEmpty = true) where
  tame := .sepOf h.tame h'.tame flags
  leaves d p d' p' w site aim code pools n r next := by
    rw [Emit.sepOf] at w
    obtain ⟨_, d₁, p₁, w₁, wa⟩ := writes_bind.1 w
    obtain ⟨rfl, rfl, rfl⟩ := writes_slot.1 w₁
    rw [writes_emit_bind] at wa
    have tames (out : Nat) : Emit.Tame (do
        let start ← checkpoint
        item
        ifThen .notStatus (noItems flags.allowEmpty start out)
        emit (.push d.slots .result)
        separated item separator flags d.slots
        succeedWith (.slot d.slots)) :=
      Tame.checkpoint.bind fun _ => h.tame.bind fun _ => (Tame.ifThen _ (.noItems _ _ _)).bind
        fun _ => (Tame.emit _).bind fun _ => (Tame.separated h.tame h'.tame _ _).bind
          fun _ => .succeedWith _
    obtain ⟨d₂, w₂, size, hosts⟩ := hosts_block tames wa
    obtain ⟨_, d₃, p₃, w₃, wb⟩ := writes_bind.1 w₂
    obtain ⟨rfl, rfl, rfl⟩ := writes_checkpoint.1 w₃
    obtain ⟨_, d₄, p₄, w₄, wc⟩ := writes_bind.1 wb
    obtain ⟨_, d₅, p₅, w₅, wd⟩ := writes_bind.1 wc
    rw [writes_emit_bind] at wd
    obtain ⟨_, d₆, p₆, w₆, w₇⟩ := writes_bind.1 wd
    obtain ⟨rfl, rfl⟩ := writes_succeedWith.1 w₇
    obtain ⟨d₇, w₈, size', hosts'⟩ := hosts_ifThen (.noItems _ _ _) w₅
    have tameLoop := Tame.separated h.tame h'.tame flags d.slots
    obtain ⟨body, exit⟩ := hosts _ code
    rw [size] at next
    have pushing := body.add.add.back (tameLoop.draft w₆)
    obtain ⟨none, branch, passed⟩ := hosts' _ pushing.add
    have part := branch.add.addLabel
    have begins := part.back (h.tame.draft w₄)
    have pools₅ := pools.back (tameLoop.pools w₆)
    have pools₄ := pools₅.back ((Tame.noItems _ _ _).pools w₈)
    have grown : d.slots + 2 ≤ d₄.slots := (h.tame.draft w₄).slots
    have grown' := ((Tame.ifThen .notStatus (.noItems flags.allowEmpty _ _)).draft w₅).slots
    refine Site.ensures_newList (d := d.addSlot) begins.add.addSlot.entered.addLabel fun id =>
      Site.ensures_store (d := Draft.addSlot (entered (Draft.addLabel _))) begins fun place _ =>
        h.leaves _ _ _ _ w₄ site aim part pools₄ n _ fun r₁ keeps _ => ?_
    have keeps₁ : Keeps d.slots r.slots r₁.slots :=
      ((Keeps.set _ (Nat.le_refl _) _).trans (.set _ (Nat.le_succ _) _)).trans
        (keeps.mono (Nat.le_add_right _ 2))
    refine Site.ensures_status (d := Draft.addLabel _) branch passed (fun _ m lt => ?_) fun hs => ?_
    · rw [← size']
      refine (Site.ensures_push pushing fun x id items _ _ => ?_).mono (Nat.le_of_lt lt)
      refine Site.ensures_separated h h' w₆ body.add.add pools (Nat.le_refl _)
        (by simp [Draft.add]; omega) (keeps₁.trans (.set _ (Nat.le_refl _) _)) fun r₂ keeps₂ => ?_
      exact Site.ensures_succeedWith body fun y _ => next _ keeps₂ fun _ _ => rfl
    · cases empty : flags.allowEmpty with
      | false =>
          rw [empty] at w₈
          obtain ⟨rfl, rfl⟩ := writes_emit.1 (w₈ : (Emit.emit (.jump _)).Writes _ _ () _ _)
          refine Site.ensures_jump (d := entered _) none exit fun m lt => ?_
          exact (next r₁ keeps₁ fun sure => by cases empty.symm.trans sure).mono (Nat.le_of_lt lt)
      | true =>
          rw [empty] at w₈
          have w₈ : (do
              Emit.emit (.restore (d.slots + 1))
              let empty ← Build.emptyList
              Emit.succeedWith (.const empty)
              Emit.emit (.jump (d.addSlot.add (.newList d.slots)).labels.size) : Emit Unit).Writes
                _ _ () _ _ := w₈
          rw [writes_emit_bind] at w₈
          obtain ⟨v, d₈, p₈, w₉, wf⟩ := writes_bind.1 w₈
          obtain ⟨-, rfl⟩ := writes_lift.1 w₉
          obtain ⟨_, d₉, p₉, wg, wh⟩ := writes_bind.1 wf
          obtain ⟨rfl, rfl⟩ := writes_succeedWith.1 wg
          obtain ⟨rfl, rfl⟩ := writes_emit.1 wh
          refine Site.ensures_restore (d := entered _) none.add.add.add fun pos =>
            Site.ensures_succeedWith none.add fun y _ => Site.ensures_jump none exit fun m lt => ?_
          exact Site.Ensures.mono (next _ keeps₁ fun _ _ => rfl) (Nat.le_of_lt lt)

end Emit.Assures

end Packrat
