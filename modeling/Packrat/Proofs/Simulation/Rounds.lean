import Packrat.Proofs.Simulation.Matching

/-
**Rounds of loops.**

The loops of a program are alike.  A round keeps the place where it begins, and goes back there if
a part of it fails; at its end it begins anew, unless it has read nothing.  In between, a slot holds
what has been read so far.

Main definitions:

* `Packrat.Site.Holds` — a slot that holds what has been read so far.

Main results:

* `Packrat.Site.follow_tried` — a part that is tried at the beginning of a round;
* `Packrat.Site.follow_again` — the end of a round.
-/

set_option autoImplicit false

namespace Packrat.Site

variable {site : Site} {n v low high : Nat} {start : Array Value} {d : Draft} {σ σ' : Moment}
variable {s s' : Store} {x : Value} {α β : Type}

/-! ### What has been read so far -/

/-- A slot that holds what has been read so far, while those below a bound are left alone. -/
structure Holds (site : Site) (low v : Nat) (start : Array Value) (σ : Moment) (s : Store)
    (x : Value) : Prop where
  behind : site.Behind low start σ s
  held : σ.slots[v]? = some x

namespace Holds

/-- What a part of a round does to the slot. -/
theorem part (h : site.Holds low v start σ s x) (behind : site.Behind high σ.slots σ' s')
    (le : low ≤ high) (lt : v < high) : site.Holds low v start σ' s' x :=
  ⟨h.behind.trans (behind.mono le), behind.kept lt h.held⟩

theorem update (h : site.Holds low v start σ s x) (le : low ≤ v) (room : v < σ.slots.size)
    (y : Value) : site.Holds low v start (σ.set v y) s y :=
  ⟨h.behind.set le _, getElem?_set_self room _⟩

theorem registers (h : site.Holds low v start σ s x) (kept : σ'.slots = σ.slots)
    (memo : σ'.memo = σ.memo) (identity : σ'.identity = σ.identity)
    (inside : σ'.pos ≤ site.setting.bytes.size) : site.Holds low v start σ' s x :=
  ⟨h.behind.registers kept memo identity inside, kept ▸ h.held⟩

/-- A value made anew takes the place of the old one. -/
theorem made (h : site.Holds low v start σ s x) (le : low ≤ v) (make : Nat → Value) :
    site.Holds low v start
      ({ σ with result := make σ.identity, identity := σ.identity + 1 }.set v (make σ.identity))
      { s with identity := s.identity + 1 } (make s.identity) := by
  have same := h.behind.agrees.identity
  have room := (Array.getElem?_eq_some_iff.1 h.held).1
  refine ⟨⟨h.behind.inside, h.behind.keeps.trans (.set _ le _), ⟨?_, h.behind.agrees.memo⟩⟩, ?_⟩
  · exact congrArg (· + 1) same
  · rw [← same]
    exact getElem?_set_self room _

theorem moved (h : site.Holds low v start σ s x) {place : Nat}
    (inside : place ≤ site.setting.bytes.size) :
    site.Holds low v start { σ with pos := place } s x := h.registers rfl rfl rfl inside

end Holds

/-! ### The end of a round -/

/-- A round that has read something is followed by another one. -/
theorem follow_again {back top exit place topAt exitAt : Nat} {a : α} {x : β}
    {inv : α → Store → Machine → Prop} {post : β → Store → Machine → Prop}
    (h : site.function.Hosts ((d.add (.branch (.posEq back) exit)).add (.jump top)))
    (htop : site.function.labels[top]? = some topAt)
    (hexit : site.function.labels[exit]? = some exitAt)
    (saved : σ.slots[back]? = some (.ofPos place)) (small : place < 2 ^ 63)
    (again : inv a s (site.machine topAt σ)) (last : post x s (site.machine exitAt σ)) :
    site.Follows n d.code.size σ
      ((if σ.pos = place then pure (.inr x) else pure (.inl a) : Reading (α ⊕ β)) s)
      (Machine.Turns site.setting site.memoize inv post) := by
  by_cases same : σ.pos = place
  · rw [if_pos same]
    exact follow_branch h.add ((frame_posEq saved small).trans (congrArg _ (decide_eq_true same)))
      hexit (.pure last)
  · rw [if_neg same]
    exact follow_pass h.add ((frame_posEq saved small).trans (congrArg _ (decide_eq_false same)))
      (.pure ⟨_, step_jump h htop, again⟩)

/-! ### The beginning of a round -/

/-- A part is tried: the place before it is kept, and where it fails the code goes back and
leaves. -/
theorem follow_tried [Regex.Engine] {env : Env} {r : Nat → Reading (Verdict Value)}
    {exit target : Nat} {d₁ d' : Draft} {p p' : Pools} {k : Verdict Value → Reading β}
    {post : β → Store → Machine → Prop}
    (performs : site.Performs n (d.addSlot.add (.store d.slots .position)) d₁ env r)
    (grown : (d.addSlot.add (.store d.slots .position)).Grows d₁)
    (w : (Emit.retreatOnFailure d.slots exit).Writes d₁ p () d' p')
    (code : site.function.Hosts d') (hl : site.function.labels[exit]? = some target)
    (small : site.setting.bytes.size < 2 ^ 63) (ready : site.Ready d env σ s)
    (success : ∀ σ' s', site.Behind d.slots σ.slots σ' s' →
      σ'.slots[d.slots]? = some (.ofPos σ.pos) → σ'.status = true →
      site.Follows n d'.code.size σ' (k (.success σ'.result σ'.pos) s') post)
    (failure : ∀ σ' s' entry place, site.Behind d.slots σ.slots σ' s' → σ'.pos = σ.pos →
      site.Follows n target σ' (k (.failure entry place) s') post) :
    site.Follows n d.code.size σ ((r σ.pos >>= k) s) post := by
  have start := (code.back (writes_retreat w).1).back grown
  obtain ⟨ready₁, saved⟩ := ready.store start (.ofPos σ.pos)
  have here := ready.small small
  refine follow_store (d := d.addSlot) start rfl (follow_part performs ready₁ ?_ ?_)
  · intro σ' s' behind status
    have kept := behind.kept (Nat.lt_succ_self _) saved
    exact follow_retreat w code hl kept here (fun _ => success σ' s' behind.after kept status)
      (fun h => by simp [status] at h)
  · intro σ' s' mark entry behind status _ _
    have kept := behind.kept (Nat.lt_succ_self _) saved
    exact follow_retreat w code hl kept here (fun h => by simp [status] at h)
      fun _ => failure _ s' entry _ (behind.after.registers rfl rfl rfl ready.inside) rfl

end Packrat.Site
