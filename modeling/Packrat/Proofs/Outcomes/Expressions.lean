import Packrat.Proofs.Outcomes.Rounds
import Packrat.Proofs.Simulation.Arguments

/-
**What expressions leave behind.**

An expression that is marked as one that always succeeds does so if its mark is sound: a literal
with nothing in it has to mind the case, since without it is a pattern, which does not match inside
of a character; and a repetition that owes its mark to its item may ask for one item at most, since
an item that reads nothing ends the repetition.

Main definitions:

* `Packrat.Expr.flagSound` — whether an expression deserves to be marked;
* `Packrat.Expr.Sure` — **expressions that are marked, and deserve it**.

Main results:

* `Packrat.Site.ensures_items`, `Packrat.Site.ensures_alternatives`,
  `Packrat.Site.ensures_skipped` — parts one after the other, in order, and over again;
* `Packrat.Expr.emit_assures` — **the code of any expression**.
-/

set_option autoImplicit false

namespace Packrat

variable [Regex.Engine]

/-! ### Marks -/

namespace Expr

/-- Whether a least number asks for one item at most. -/
def asksForOne : Option Bound → Bool
  | some (.const n) => signedWord n ≤ 1
  | none | some (.host _) => false

/-- Whether a greatest number is known to allow for an item. -/
def allowsOne : Option Bound → Bool
  | none => true
  | some (.const n) => 1 ≤ signedWord n
  | some (.host _) => false

mutual

/-- Whether an expression that is marked as one that always succeeds deserves it. -/
def flagSound : Expr → Bool
  | .str _ _ flags => !flags.ignoreCase
  | .seq _ items _ => allSound items
  | .choice _ alternatives => markSound alternatives
  | .list _ item least most =>
    asksNothing least || (item.flagSound && asksForOne least && allowsOne most)
  | .discard _ left right _ => left.flagSound && right.flagSound
  | .expect _ inner => inner.flagSound
  | .bound _ _ value body => value.flagSound && body.flagSound
  | .regex _ _ _ | .ref _ _ _ | .call _ _ _ _ | .sep _ _ _ _ | .opt _ _ | .skip _ _ | .host _ _
  | .apply _ _ _ _ | .satisfying _ _ _ | .expectNot _ _ | .fail _ _ | .operators _ _ _ => true

def allSound : List Expr → Bool
  | [] => true
  | e :: es => e.flagSound && allSound es

/-- Whether the first alternative that is marked deserves it; the others are not tried. -/
def markSound : List Expr → Bool
  | [] => true
  | e :: es => if e.alwaysSucceeds then e.flagSound else markSound es

end

/-- Expressions that are marked as ones that always succeed, and deserve it. -/
structure Sure (e : Expr) : Prop where
  flagged : e.alwaysSucceeds = true
  sound : e.flagSound = true

omit [Regex.Engine] in
theorem sure_of_all {items : List Expr} (flagged : allSucceed items = true)
    (sound : allSound items = true) : ∀ e ∈ items, e.Sure := by
  induction items with
  | nil => exact fun _ h => absurd h List.not_mem_nil
  | cons e items ih =>
      simp only [allSucceed, allSound, Bool.and_eq_true] at flagged sound
      rintro e' (_ | ⟨_, mem⟩)
      · exact ⟨flagged.1, sound.1⟩
      · exact ih flagged.2 sound.2 e' mem

end Expr

namespace Site

variable {site : Site} {aim : Aim} {d d' : Draft} {p p' : Pools} {r : Frame} {sure : Prop}
variable {i : Instr} {n v : Nat}

/-! ### Matches -/

/-- What is ignored behind a match does not undo it. -/
theorem ensures_skipIgnored (w : Emit.skipIgnored.Writes d p () d' p')
    (code : (site.part aim.stop).Hosts d')
    (next : ∀ r' : Frame, Keeps d.slots r.slots r'.slots → (r.status = true → r'.status = true) →
      site.Ensures aim n d'.code.size r') : site.Ensures aim n d.code.size r := by
  obtain ⟨f, d₁, p₁, w₁, w₂⟩ := Emit.writes_bind.1 w
  obtain ⟨-, rfl⟩ := Emit.writes_lift.1 w₁
  obtain ⟨d₂, w₄, size, hosts⟩ := Emit.hosts_ifThen
    (Emit.Tame.storeResult.bind fun _ => (Emit.Tame.emit _).bind fun _ => .succeedWith _) w₂
  obtain ⟨kept, d₃, p₃, w₅, w₆⟩ := Emit.writes_bind.1 w₄
  obtain ⟨rfl, rfl, rfl⟩ := Emit.writes_storeResult.1 w₅
  rw [Emit.writes_emit_bind, Emit.writes_succeedWith] at w₆
  obtain ⟨rfl, rfl⟩ := w₆
  obtain ⟨body, branch, skipped⟩ := hosts _ code
  rw [size] at next
  refine ensures_notStatus (d := Draft.addLabel _) branch skipped (fun _ => ?_) fun hs m lt => ?_
  · refine ensures_store (d := Draft.addSlot (Emit.entered _)) body.add.add.add fun x _ =>
      ensures_call body.add.add fun r' same _ => ensures_succeedWith body fun y _ => ?_
    refine next _ ?_ fun _ => rfl
    rw [Frame.yield, same]
    exact .set _ (Nat.le_refl _) x
  · exact (next r (.refl _ _) id).mono (Nat.le_of_lt lt)

/-- A match, with what is ignored behind it. -/
theorem ensures_matching (sure : Prop) {skip : Bool} (plain : i.isPlain = true)
    (w : (if skip then Emit.skipIgnored else pure () : Emit Unit).Writes (d.add i) p () d' p')
    (code : (site.part aim.stop).Hosts d')
    (found : ∀ k k' frame, i.execute site.setting (site.top (d.code.size + 1) r) k =
      .ok (.next frame, k') → sure → frame.status = true)
    (next : ∀ r' : Frame, Keeps d.slots r.slots r'.slots → (sure → r'.status = true) →
      site.Ensures aim n d'.code.size r') : site.Ensures aim n d.code.size r := by
  have hosts : (site.part aim.stop).Hosts (d.add i) := code.back ((Emit.Tame.skipping skip).draft w)
  refine ensures_plain hosts plain fun r₁ same ⟨k, k', work⟩ => ?_
  have success : sure → (site.top (d.code.size + 1) r₁).status = true := found k k' _ work
  cases skip with
  | false =>
      obtain ⟨-, rfl, rfl⟩ := Emit.writes_pure.1 w
      exact next r₁ (same ▸ .refl _ _) success
  | true =>
      exact ensures_skipIgnored w code fun r₂ keeps stays =>
        next r₂ (same ▸ keeps) fun hs => stays (success hs)

end Site

/-! ### Expressions without parts -/

namespace Expr

theorem assures_regex (tag : Tag) (pattern : String) (flags : MatchFlags) :
    (Expr.regex tag pattern flags).emit.Assures False where
  tame := Expr.emit_tame _
  leaves d p d' p' w site aim code pools n r next := by
    rw [Expr.emit] at w
    obtain ⟨regex, d₁, p₁, w₁, w₂⟩ := Emit.writes_bind.1 w
    obtain ⟨-, rfl⟩ := Emit.writes_lift.1 w₁
    obtain ⟨mark, d₂, p₂, w₃, w₄⟩ := Emit.writes_bind.1 w₂
    obtain ⟨-, rfl⟩ := Emit.writes_lift.1 w₃
    rw [Emit.writes_emit_bind] at w₄
    exact Site.ensures_matching False rfl w₄ code (fun _ _ _ _ => False.elim)
      fun r' keeps _ => next r' keeps False.elim

/-- An empty literal is found anywhere. -/
theorem assures_str (tag : Tag) (value : List UInt8) (flags : MatchFlags) :
    (Expr.str tag value flags).emit.Assures (value = [] ∧ flags.ignoreCase = false) where
  tame := Expr.emit_tame _
  leaves d p d' p' w site aim code pools n r next := by
    rw [Expr.emit] at w
    obtain ⟨mark, d₁, p₁, w₁, w₂⟩ := Emit.writes_bind.1 w
    obtain ⟨-, rfl⟩ := Emit.writes_lift.1 w₁
    have tame := Emit.Tame.skipping flags.skip
    dsimp only at w₂
    split at w₂
    · next ignores =>
        obtain ⟨regex, d₂, p₂, w₃, w₄⟩ := Emit.writes_bind.1 w₂
        obtain ⟨-, rfl⟩ := Emit.writes_lift.1 w₃
        rw [Emit.writes_emit_bind] at w₄
        refine Site.ensures_matching False rfl w₄ code (fun _ _ _ _ => False.elim)
          fun r' keeps _ => next r' keeps ?_
        exact fun ⟨_, minds⟩ => by cases ignores.symm.trans minds
    · obtain ⟨literal, d₂, p₂, w₃, w₄⟩ := Emit.writes_bind.1 w₂
      obtain ⟨wl, rfl⟩ := Emit.writes_lift.1 w₃
      obtain ⟨grownl, listed⟩ := Build.adds_literal wl
      rw [Emit.writes_emit_bind] at w₄
      have known := (pools.back (tame.pools w₄)).literals _ _ listed
      refine Site.ensures_matching (value = []) rfl w₄ code (fun k k' frame work empty => ?_)
        fun r' keeps success => next r' keeps fun hs _ => success hs.1
      subst empty
      have work := (Exec.lift_bind (poolEntry_ok known) _ _).symm.trans work
      cases work
      rfl

theorem assures_fail (tag : Tag) (message? : Option String) :
    (Expr.fail tag message?).emit.Assures False where
  tame := Expr.emit_tame _
  leaves d p d' p' w site aim code pools n r next := by
    obtain ⟨mark, d₁, p₁, w₁, w₂⟩ := Emit.writes_bind.1 w
    obtain ⟨-, rfl⟩ := Emit.writes_lift.1 w₁
    obtain ⟨rfl, rfl⟩ := Emit.writes_emit.1 w₂
    exact Site.ensures_fail code (next _ (.refl _ _) False.elim)

theorem assures_host (tag : Tag) (s : Snippet) : (Expr.host tag s).emit.Assures True where
  tame := Expr.emit_tame _
  leaves _ _ _ _ w _ _ code _ _ r next :=
    Site.ensures_snippet w code fun x => next (r.yield x) (.refl _ _) fun _ _ => rfl

theorem assures_ref (tag : Tag) (name : String) (binding : Binding) :
    (Expr.ref tag name binding).emit.Assures False where
  tame := Expr.emit_tame _
  leaves d p d' p' w site aim code pools n r next := by
    obtain ⟨callee, d₁, p₁, w₁, w₂⟩ := Emit.writes_bind.1 w
    obtain ⟨rfl, rfl⟩ := Emit.writes_emit.1 w₂
    have size : d₁.code.size = d.code.size ∧ d₁.slots = d.slots := by
      match binding with
      | .local =>
          obtain ⟨v, d₂, p₂, w₃, w₄⟩ := Emit.writes_bind.1 w₁
          obtain ⟨-, rfl, rfl⟩ := Emit.writes_lookup.1 w₃
          obtain ⟨-, rfl, -⟩ := Emit.writes_pure.1 w₄
          exact ⟨rfl, rfl⟩
      | .rule function =>
          obtain ⟨v, d₂, p₂, w₃, w₄⟩ := Emit.writes_bind.1 w₁
          obtain ⟨-, rfl⟩ := Emit.writes_lift.1 w₃
          obtain ⟨-, rfl, -⟩ := Emit.writes_pure.1 w₄
          exact ⟨rfl, rfl⟩
      | .unresolved => exact absurd w₁ Emit.not_writes_fault
    rw [← size.1]
    exact Site.ensures_call code fun r' same _ =>
      next r' (same ▸ .refl _ _) False.elim

end Expr

/-! ### Arguments -/

namespace Site

variable {site : Site} {aim : Aim} {d d' : Draft} {p p' : Pools} {r : Frame} {sure : Prop}
variable {n k v : Nat}

omit [Regex.Engine] in
theorem ensures_madeParser {vs : List Nat} (w : (Emit.parser k vs).Writes d p v d' p')
    (code : (site.part aim.stop).Hosts d')
    (next : ∀ r' : Frame, Keeps d.slots r.slots r'.slots → site.Ensures aim n d'.code.size r') :
    site.Ensures aim n d.code.size r := by
  rw [Emit.parser, Emit.writes_emit_bind] at w
  obtain ⟨rfl, rfl, rfl⟩ := Emit.writes_storeResult.1 w
  refine ensures_plain code.add.addSlot rfl fun r₁ same _ =>
    ensures_store (d := Draft.addSlot _) code fun x _ => next _ ?_
  exact same ▸ Keeps.set _ (Nat.le_refl _) x

/-- Arguments are not parsed, whatever they are, before they are called. -/
theorem ensures_argument {e : Expr} {inner : Emit Unit}
    (w : (Emit.argument e inner).Writes d p v d' p') (code : (site.part aim.stop).Hosts d')
    (next : ∀ r' : Frame, Keeps d.slots r.slots r'.slots → site.Ensures aim n d'.code.size r') :
    site.Ensures aim n d.code.size r := by
  cases direct : e.direct with
  | false =>
      rw [Emit.argument_own direct] at w
      obtain ⟨vs, d₁, p₁, w₁, wa⟩ := Emit.writes_bind.1 w
      obtain ⟨-, rfl, rfl⟩ := Emit.writes_lookupAll.1 w₁
      obtain ⟨k, d₂, p₂, w₂, wb⟩ := Emit.writes_bind.1 wa
      obtain ⟨-, rfl⟩ := Emit.writes_lift.1 w₂
      exact ensures_madeParser wb code next
  | true =>
      match e, direct with
      | .ref _ _ .local, _ =>
          obtain ⟨-, rfl, rfl⟩ := Emit.writes_lookup.1 w
          exact next r (.refl _ _)
      | .ref _ _ (.rule function), _ =>
          change (do
            let f ← Build.ruleFunction function
            Emit.parser f [] : Emit Nat).Writes d p v d' p' at w
          obtain ⟨k, d₁, p₁, w₁, wa⟩ := Emit.writes_bind.1 w
          obtain ⟨-, rfl⟩ := Emit.writes_lift.1 w₁
          exact ensures_madeParser wa code next
      | .host _ sn, _ =>
          change (do
            Emit.snippet sn
            Emit.storeResult : Emit Nat).Writes d p v d' p' at w
          obtain ⟨_, d₁, p₁, w₁, wa⟩ := Emit.writes_bind.1 w
          obtain ⟨rfl, rfl, rfl⟩ := Emit.writes_storeResult.1 wa
          refine ensures_snippet w₁ code.add.addSlot fun x =>
            ensures_store (d := Draft.addSlot _) code fun y _ => next _ ?_
          exact .set _ ((Emit.Tame.snippet sn).draft w₁).slots y

end Site

open Packrat.Expr in
theorem Site.ensures_args {site : Site} {aim : Aim} {d d' : Draft} {p p' : Pools} {n : Nat}
    {args : List (Option String × Expr)} {vs : List Nat} {r : Frame}
    (w : (emitArgs args).Writes d p vs d' p') (code : (site.part aim.stop).Hosts d')
    (next : ∀ r' : Frame, Keeps d.slots r.slots r'.slots → site.Ensures aim n d'.code.size r') :
    site.Ensures aim n d.code.size r := by
  induction args generalizing d p vs r with
  | nil =>
      obtain ⟨-, rfl, rfl⟩ := Emit.writes_pure.1 w
      exact next r (.refl _ _)
  | cons arg args ih =>
      obtain ⟨keyword, e⟩ := arg
      rw [emitArgs] at w
      obtain ⟨v, d₁, p₁, w₁, wa⟩ := Emit.writes_bind.1 w
      obtain ⟨vs, d₂, p₂, w₂, w₃⟩ := Emit.writes_bind.1 wa
      obtain ⟨-, rfl, rfl⟩ := Emit.writes_pure.1 w₃
      have grown := (Emit.Tame.argument e.emit_tame e).draft w₁
      refine ensures_argument w₁ (code.back ((emitArgs_tame args).draft w₂)) fun r₁ keeps => ?_
      exact ih w₂ fun r₂ keeps' => next r₂ (keeps.trans (keeps'.mono grown.slots))

theorem Expr.assures_call (tag : Tag) (name : String) (args : List (Option String × Expr))
    (binding : Binding) : (Expr.call tag name args binding).emit.Assures False where
  tame := Expr.emit_tame _
  leaves d p d' p' w site aim code pools n r next := by
    rw [Expr.emit] at w
    obtain ⟨k, d₁, p₁, w₁, wa⟩ := Emit.writes_bind.1 w
    obtain ⟨-, rfl⟩ := Emit.writes_lift.1 w₁
    obtain ⟨vs, d₂, p₂, w₃, w₄⟩ := Emit.writes_bind.1 wa
    obtain ⟨rfl, rfl⟩ := Emit.writes_emit.1 w₄
    refine Site.ensures_args w₃ code.add fun r₁ keeps => Site.ensures_call code fun r₂ same _ => ?_
    exact next r₂ (same ▸ keeps) False.elim

/-! ### Items -/

open Packrat.Expr in
/-- Items one after the other; none of them is left if all are sure to succeed. -/
theorem Site.ensures_items {site : Site} {aim : Aim} {n exit target : Nat} {sure : Expr → Prop}
    {items : List Expr} (all : ∀ e ∈ items, e.emit.Assures (sure e)) {fields : List String}
    {d d' : Draft} {p p' : Pools} {vs : List Nat} {r : Frame}
    (w : (emitItems exit fields items).Writes d p vs d' p')
    (code : (site.part aim.stop).Hosts d') (pools : site.setting.program.Hosts p')
    (exits : site.function.labels[exit]? = some target)
    (leave : ∀ r' : Frame, Keeps d.slots r.slots r'.slots →
      ((∀ e ∈ items, sure e) → ¬ aim.Straight p p') → site.Ensures aim n target r')
    (stay : ∀ r' : Frame, Keeps d.slots r.slots r'.slots → site.Ensures aim n d'.code.size r') :
    site.Ensures aim n d.code.size r := by
  induction items generalizing fields d p vs r with
  | nil =>
      obtain ⟨-, rfl, rfl⟩ := Emit.writes_pure.1 w
      exact stay r (.refl _ _)
  | cons e items ih =>
      rw [emitItems] at w
      have part := (all e (List.mem_cons_self ..)).within e
      obtain ⟨_, d₁, p₁, w₁, wa⟩ := Emit.writes_bind.1 w
      obtain ⟨_, d₂, p₂, w₂, wb⟩ := Emit.writes_bind.1 wa
      obtain ⟨rfl, rfl⟩ := Emit.writes_leaveOnFailure.1 w₂
      obtain ⟨_, d₃, p₃, w₃, wc⟩ := Emit.writes_bind.1 wb
      obtain ⟨rfl, rfl, rfl⟩ := Emit.writes_storeResult.1 w₃
      -- Whether a name comes into scope does not matter to the code.
      obtain ⟨scope, vs', wd⟩ : ∃ (scope : List (String × Nat)) (vs' : List Nat),
          (emitItems exit (fields.drop 1) items).Writes
            { (d₁.add (.branch .notStatus exit)).addSlot.add (.store d₁.slots .result) with scope }
            p₃ vs' d' p' := by
        dsimp only at wc
        cases fields with
        | nil =>
            obtain ⟨vs', d₄, p₄, w₄, w₅⟩ := Emit.writes_bind.1 wc
            obtain ⟨-, rfl, rfl⟩ := Emit.writes_pure.1 w₅
            exact ⟨_, vs', w₄⟩
        | cons name fields =>
            obtain ⟨_, d₄, p₄, w₄, w₅⟩ := Emit.writes_bind.1 wc
            obtain ⟨rfl, rfl⟩ := Emit.writes_bindName.1 w₄
            obtain ⟨vs', d₅, p₅, w₆, w₇⟩ := Emit.writes_bind.1 w₅
            obtain ⟨-, rfl, rfl⟩ := Emit.writes_pure.1 w₇
            exact ⟨_, vs', w₆⟩
      have loose := emitItems_loose exit (fields.drop 1) items
      have begins : (site.part aim.stop).Hosts ((d₁.add (.branch .notStatus exit)).addSlot.add
          (.store d₁.slots .result)) :=
        (code.backLoose (loose.draft wd)).congr rfl rfl rfl
      have room : d.slots ≤ d₁.slots + 1 := Nat.le_succ_of_le (part.tame.draft w₁).slots
      have pgrown := part.tame.pools w₁
      have pgrown' := loose.pools wd
      refine ensures_stored part w₁ begins (pools.back pgrown') exits (fun r₁ keeps failed => ?_)
        fun r₁ keeps _ => ?_
      · exact leave r₁ keeps fun hs straight =>
          failed (hs e (List.mem_cons_self ..)) (straight.before pgrown')
      · have rest := ih (fun e mem => all e (List.mem_cons_of_mem _ mem)) wd (r := r₁)
        refine rest (fun r₂ keeps' failed => ?_) fun r₂ keeps' =>
          stay r₂ (keeps.trans (keeps'.mono room))
        exact leave r₂ (keeps.trans (keeps'.mono room)) fun hs straight =>
          failed (fun e mem => hs e (List.mem_cons_of_mem _ mem)) (straight.behind pgrown)

namespace Expr

variable {items : List Expr} {left right : Expr} {sure sure' : Prop} {sures : Expr → Prop}

theorem assures_seq_none (all : ∀ e ∈ items, e.emit.Assures (sures e)) (tag : Tag) :
    (Expr.seq tag items none).emit.Assures (∀ e ∈ items, sures e) where
  tame := Expr.emit_tame _
  leaves d p d' p' w site aim code pools n r next := by
    rw [Expr.emit] at w
    obtain ⟨d₁, w₁, size, hosts⟩ := Emit.hosts_block (fun exit =>
      (Emit.Tame.inScope (emitItems_loose exit [] items)).bind fun _ =>
        (Emit.Tame.emit _).bind fun _ => .emit _) w
    obtain ⟨vs, d₂, p₂, w₂, w₃⟩ := Emit.writes_bind.1 w₁
    obtain ⟨d₃, w₄, size', inner⟩ := Emit.hosts_inScope w₂
    obtain ⟨rfl, rfl⟩ := Emit.writes_emit_emit.1 w₃
    obtain ⟨body, exit⟩ := hosts _ code
    rw [size] at next
    refine Site.ensures_items (d := Emit.entered (Draft.addLabel _)) all w₄ (inner _ body.add.add)
      pools exit (fun r₁ keeps failed => ?_) fun r₁ keeps => ?_
    · exact next r₁ keeps fun hs straight => absurd straight (failed hs)
    · rw [← size']
      refine Site.ensures_plain body.add rfl fun r₂ same _ => Site.ensures_setStatus body ?_
      exact next _ (same ▸ keeps) fun _ _ => rfl

theorem assures_seq_some (all : ∀ e ∈ items, e.emit.Assures (sures e)) (tag : Tag)
    (c : NodeClass) : (Expr.seq tag items (some c)).emit.Assures (∀ e ∈ items, sures e) where
  tame := Expr.emit_tame _
  leaves d p d' p' w site aim code pools n r next := by
    rw [Expr.emit] at w
    obtain ⟨cls, d₀, p₀, w₀, wa⟩ := Emit.writes_bind.1 w
    obtain ⟨wc, rfl⟩ := Emit.writes_lift.1 w₀
    obtain ⟨d₁, w₁, size, hosts⟩ := Emit.hosts_block (fun exit => Emit.Tame.checkpoint.bind fun _ =>
      (Emit.Tame.inScope (emitItems_loose exit c.fields items)).bind fun _ =>
        (Emit.Tame.emit _).bind fun _ => .emit _) wa
    obtain ⟨from_, d₂, p₂, w₂, wb⟩ := Emit.writes_bind.1 w₁
    obtain ⟨rfl, rfl, rfl⟩ := Emit.writes_checkpoint.1 w₂
    obtain ⟨vs, d₃, p₃, w₃, wd⟩ := Emit.writes_bind.1 wb
    obtain ⟨d₄, w₄, size', inner⟩ := Emit.hosts_inScope w₃
    obtain ⟨rfl, rfl⟩ := Emit.writes_emit_emit.1 wd
    obtain ⟨body, exit⟩ := hosts _ code
    have begins := (inner _ body.add.add).backLoose ((emitItems_loose _ c.fields items).draft w₄)
    have grown := (Build.adds_cls wc).1
    rw [size] at next
    refine Site.ensures_store (d := Draft.addSlot (Emit.entered (Draft.addLabel _))) begins
      fun x _ => Site.ensures_items all w₄ (inner _ body.add.add) pools exit
        (fun r₁ keeps failed => ?_) fun r₁ keeps => ?_
    · exact next r₁ (Keeps.behindSlot keeps) fun hs straight =>
        absurd (straight.behind grown) (failed hs)
    · rw [← size']
      refine Site.ensures_plain body.add rfl fun r₂ same _ => Site.ensures_setStatus body ?_
      exact next _ (same ▸ Keeps.behindSlot keeps) fun _ _ => rfl

theorem assures_apply (hl : left.emit.Assures sure) (hr : right.emit.Assures sure') (tag : Tag)
    (applyLeft : Bool) : (Expr.apply tag left right applyLeft).emit.Assures False where
  tame := Expr.emit_tame _
  leaves d p d' p' w site aim code pools n r next := by
    rw [Expr.emit] at w
    have tame := Emit.Tame.both (hl.within left).tame (hr.within right).tame
    obtain ⟨d₁, w₁, size, hosts⟩ :=
      Emit.hosts_block (fun exit => (tame exit).bind fun _ => .emit _) w
    obtain ⟨⟨a, b⟩, d₂, p₂, w₂, w₃⟩ := Emit.writes_bind.1 w₁
    obtain ⟨rfl, rfl⟩ := Emit.writes_emit.1 w₃
    obtain ⟨body, exit⟩ := hosts _ code
    rw [size] at next
    refine Site.ensures_both (d := Emit.entered (Draft.addLabel _)) (hl.within left)
      (hr.within right) w₂ body.add pools exit (fun r₁ keeps => next r₁ keeps False.elim)
      fun r₁ keeps => Site.ensures_plain body ?_ fun r₂ same _ => ?_
    · cases applyLeft <;> rfl
    · exact next r₂ (same ▸ keeps) False.elim

theorem assures_satisfying (hl : left.emit.Assures sure) (hr : right.emit.Assures sure')
    (tag : Tag) : (Expr.satisfying tag left right).emit.Assures False where
  tame := Expr.emit_tame _
  leaves d p d' p' w site aim code pools n r next := by
    rw [Expr.emit] at w
    obtain ⟨mark, d₀, p₀, w₀, wb⟩ := Emit.writes_bind.1 w
    obtain ⟨-, rfl⟩ := Emit.writes_lift.1 w₀
    have tame := Emit.Tame.both (hl.within left).tame (hr.within right).tame
    obtain ⟨d₁, w₁, size, hosts⟩ :=
      Emit.hosts_block (fun exit => (tame exit).bind fun _ => .emit _) wb
    obtain ⟨⟨a, b⟩, d₂, p₂, w₂, w₃⟩ := Emit.writes_bind.1 w₁
    obtain ⟨rfl, rfl⟩ := Emit.writes_emit.1 w₃
    obtain ⟨body, exit⟩ := hosts _ code
    rw [size] at next
    refine Site.ensures_both (d := Emit.entered (Draft.addLabel _)) (hl.within left)
      (hr.within right) w₂ body.add pools exit (fun r₁ keeps => next r₁ keeps False.elim)
      fun r₁ keeps => Site.ensures_plain body rfl fun r₂ same _ => ?_
    exact next r₂ (same ▸ keeps) False.elim

/-- A name for what a part has read. -/
theorem assures_bound (hl : left.emit.Assures sure) (hr : right.emit.Assures sure') (tag : Tag)
    (name : String) : (Expr.bound tag name left right).emit.Assures (sure ∧ sure') where
  tame := Expr.emit_tame _
  leaves d p d' p' w site aim code pools n r next := by
    rw [Expr.emit] at w
    have hl := hl.within left
    have hr := hr.within right
    obtain ⟨d₁, w₁, size, hosts⟩ := Emit.hosts_block
      (fun exit => hl.tame.bind fun _ => (Emit.Tame.leaveOnFailure exit).bind fun _ =>
        Emit.Tame.storeResult.bind fun v =>
          .inScope ((Emit.Loose.bindName name v).bind fun _ => hr.tame.loose)) w
    obtain ⟨_, d₂, p₂, w₂, wa⟩ := Emit.writes_bind.1 w₁
    obtain ⟨_, d₃, p₃, w₃, wb⟩ := Emit.writes_bind.1 wa
    obtain ⟨rfl, rfl⟩ := Emit.writes_leaveOnFailure.1 w₃
    obtain ⟨_, d₄, p₄, w₄, wc⟩ := Emit.writes_bind.1 wb
    obtain ⟨rfl, rfl, rfl⟩ := Emit.writes_storeResult.1 w₄
    obtain ⟨d₅, wd, rfl⟩ := Emit.writes_inScope.1 wc
    obtain ⟨_, d₆, p₆, w₆, w₇⟩ := Emit.writes_bind.1 wd
    obtain ⟨rfl, rfl⟩ := Emit.writes_bindName.1 w₆
    obtain ⟨body, exit⟩ := hosts _ code
    have inner : (site.part aim.stop).Hosts d₅ := body.congr rfl rfl rfl
    have begins : (site.part aim.stop).Hosts ((d₂.add (.branch .notStatus d.labels.size)).addSlot.add
        (.store d₂.slots .result)) := (inner.back (hr.tame.draft w₇)).congr rfl rfl rfl
    have room : d.slots ≤ d₂.slots + 1 := Nat.le_succ_of_le (hl.tame.draft w₂).slots
    have pgrown := hl.tame.pools w₂
    have pgrown' := hr.tame.pools w₇
    rw [size] at next
    refine Site.ensures_stored (d := Emit.entered (Draft.addLabel _)) hl w₂ begins
      (pools.back pgrown') exit (fun r₁ keeps failed => ?_) fun r₁ keeps _ => ?_
    · exact next r₁ keeps fun hs straight => absurd (straight.before pgrown') (failed hs.1)
    · exact hr.leaves _ _ _ _ w₇ site aim inner pools n r₁ fun r₂ keeps' succeeds =>
        next r₂ (keeps.trans (keeps'.mono room)) fun hs straight =>
          succeeds hs.2 (straight.behind pgrown)

end Expr

/-! ### Alternatives -/

namespace Site

variable {site : Site} {aim : Aim} {d d' : Draft} {p p' : Pools} {r : Frame}
variable {n bound back farPos farErr exit : Nat} {base : Array Value}

theorem ensures_keepFarthest {isFail : Bool}
    (w : (Emit.keepFarthest isFail farPos farErr).Writes d p () d' p')
    (code : (site.part aim.stop).Hosts d') (keeps : Keeps bound base r.slots)
    (low : bound ≤ farPos ∧ bound ≤ farErr)
    (next : ∀ r' : Frame, Keeps bound base r'.slots → site.Ensures aim n d'.code.size r') :
    site.Ensures aim n d.code.size r := by
  obtain ⟨d₁, w₁, size, hosts⟩ :=
    Emit.hosts_ifThen ((Emit.Tame.emit _).bind fun _ => .emit _) w
  obtain ⟨rfl, rfl⟩ := Emit.writes_emit_emit.1 w₁
  obtain ⟨body, branch, placed⟩ := hosts _ code
  rw [size] at next
  refine ensures_branch (d := Draft.addLabel _) branch placed
    (fun _ m lt => (next r keeps).mono (Nat.le_of_lt lt)) fun _ => ?_
  refine ensures_store (d := Emit.entered _) body.add fun x _ => ensures_store body fun y _ => ?_
  exact next _ ((keeps.trans (.set _ low.1 x)).trans (.set _ low.2 y))

open Packrat.Expr in
/-- Alternatives in order: the first one that is marked is the last that is tried, and it decides. -/
theorem ensures_alternatives {es : List Expr} (all : ∀ e ∈ es, e.emit.Assures e.Sure)
    (first : Bool) (w : (emitAlternatives back farPos farErr exit first es).Writes d p () d' p')
    (code : (site.part aim.stop).Hosts d') (pools : site.setting.program.Hosts p')
    (exits : site.function.labels[exit]? = some d'.code.size)
    (low : bound ≤ farPos ∧ bound ≤ farErr) (room : bound ≤ d.slots)
    (keeps : Keeps bound base r.slots)
    (next : ∀ r' : Frame, Keeps bound base r'.slots →
      (anySucceeds es = true → markSound es = true → aim.Straight p p' → r'.status = true) →
      site.Ensures aim n d'.code.size r') : site.Ensures aim n d.code.size r := by
  induction es generalizing first d p r with
  | nil =>
      rw [emitAlternatives, Emit.writes_emit_bind, Emit.writes_emit_emit] at w
      obtain ⟨rfl, rfl⟩ := w
      refine ensures_restore code.add.add fun pos => ensures_load code.add fun x _ =>
        ensures_setStatus code (next _ keeps ?_)
      exact fun none => by cases none
  | cons e es ih =>
      have part := (all e (List.mem_cons_self ..)).within e
      have rest := emitAlternatives_tame back farPos farErr exit false es
      have body (d₀ : Draft) (r : Frame) (room : bound ≤ d₀.slots) (keeps : Keeps bound base r.slots)
          (w : (Emit.tried back farPos farErr exit e es).Writes d₀ p () d' p') :
          site.Ensures aim n d₀.code.size r := by
        by_cases always : e.alwaysSucceeds = true
        · obtain ⟨d₁, w₁, rfl⟩ := (Emit.writes_tried_always always).1 w
          refine part.leaves _ _ _ _ w₁ site aim code.add pools n r fun r₁ keeps' succeeds =>
            ensures_jump code exits fun m lt => ?_
          refine (next r₁ (keeps.trans (keeps'.mono room)) fun _ sound straight => ?_).mono
            (Nat.le_of_lt lt)
          rw [markSound, if_pos always] at sound
          exact succeeds ⟨always, sound⟩ straight
        · obtain ⟨d₁, p₁, d₂, p₂, w₁, w₂, w₃⟩ := (Emit.writes_tried always).1 w
          have kept := Emit.Tame.keepFarthest e.isFail farPos farErr
          have code₂ := code.back (rest.draft w₃)
          have code₁ := code₂.back (kept.draft w₂)
          have pools₁ := (pools.back (rest.pools w₃)).back (kept.pools w₂)
          have room₂ : bound ≤ d₂.slots :=
            Nat.le_trans room (Nat.le_trans (part.tame.draft w₁).slots (kept.draft w₂).slots)
          refine part.leaves _ _ _ _ w₁ site aim code₁.add pools₁ n r fun r₁ keeps' _ => ?_
          have keeps₁ := keeps.trans (keeps'.mono room)
          refine ensures_status code₁ exits (fun hs m lt => ?_) fun _ => ?_
          · exact (next r₁ keeps₁ fun _ _ _ => hs).mono (Nat.le_of_lt lt)
          · refine ensures_keepFarthest w₂ code₂ keeps₁ low fun r₂ keeps₂ => ?_
            refine ih (fun e mem => all e (List.mem_cons_of_mem _ mem)) false w₃ room₂ keeps₂
              fun r₃ keeps₃ succeeds => next r₃ keeps₃ fun any sound straight => ?_
            rw [anySucceeds, Bool.eq_false_iff.2 always, Bool.false_or] at any
            rw [markSound, if_neg always] at sound
            exact succeeds any sound (straight.behind ((part.tame.pools w₁).trans (kept.pools w₂)))
      cases first with
      | true =>
          rw [Emit.alternatives_first] at w
          exact body d r room keeps w
      | false =>
          rw [Emit.alternatives_next, Emit.writes_emit_bind] at w
          exact ensures_restore (code.back ((Emit.Tame.tried e.emit_tame rest).draft w)) fun pos =>
            body _ { r with pos } room keeps w

end Site

namespace Expr

theorem assures_choice {es : List Expr} (all : ∀ e ∈ es, e.emit.Assures e.Sure) (tag : Tag) :
    (Expr.choice tag es).emit.Assures (anySucceeds es = true ∧ markSound es = true) where
  tame := Expr.emit_tame _
  leaves d p d' p' w site aim code pools n r next := by
    by_cases single : ∃ only, es = [only]
    · obtain ⟨only, rfl⟩ := single
      rw [Expr.emit] at w
      refine ((all only (by simp)).within only).leaves _ _ _ _ w site aim code pools n r
        fun r' keeps succeeds => next r' keeps fun ⟨any, sound⟩ straight => ?_
      have flagged : only.alwaysSucceeds = true := by simpa [anySucceeds] using any
      rw [markSound, if_pos flagged] at sound
      exact succeeds ⟨flagged, sound⟩ straight
    · rw [Expr.emit] at w
      rotate_left
      · exact fun only h => single ⟨only, h⟩
      obtain ⟨back, d₁, p₁, w₁, wa⟩ := Emit.writes_bind.1 w
      obtain ⟨rfl, rfl, rfl⟩ := Emit.writes_checkpoint.1 w₁
      obtain ⟨farPos, d₂, p₂, w₂, wb⟩ := Emit.writes_bind.1 wa
      obtain ⟨rfl, rfl, rfl⟩ := Emit.writes_slot.1 w₂
      rw [Emit.writes_emit_bind] at wb
      obtain ⟨farErr, d₃, p₃, w₃, wc⟩ := Emit.writes_bind.1 wb
      obtain ⟨rfl, rfl, rfl⟩ := Emit.writes_slot.1 w₃
      rw [Emit.writes_emit_bind] at wc
      have tame (exit : Nat) :=
        emitAlternatives_tame d.slots (d.slots + 1) (d.slots + 2) exit true es
      obtain ⟨d₄, w₄, size, hosts⟩ := Emit.hosts_block tame wc
      obtain ⟨body, exit⟩ := hosts _ code
      have third := (body.back ((tame _).draft w₄)).entered.addLabel
      have second := third.add.addSlot
      have low : d.slots ≤ d.slots + 1 ∧ d.slots ≤ d.slots + 2 := by omega
      rw [size] at next
      refine Site.ensures_store (d := d.addSlot) second.add.addSlot fun x _ =>
        Site.ensures_store (d := Draft.addSlot _) second fun y _ =>
          Site.ensures_store (d := Draft.addSlot _) third fun z _ => ?_
      refine Site.ensures_alternatives (d := Emit.entered (Draft.addLabel _)) all true w₄ body pools
        exit low (Nat.le_add_right _ 3)
        (((Keeps.set r.slots (Nat.le_refl _) x).trans (.set _ low.1 y)).trans (.set _ low.2 z))
        fun r₁ keeps succeeds => ?_
      exact next r₁ keeps fun ⟨any, sound⟩ straight => succeeds any sound straight

end Expr

/-! ### Skipped content -/

open Packrat.Expr in
/-- A round of skipping: some part begins another one, or the last part is behind. -/
theorem Site.ensures_skipped {site : Site} {aim : Aim} {n top target bound : Nat}
    {base : Array Value} {sures : Expr → Prop} {items : List Expr}
    (all : ∀ e ∈ items, e.emit.Assures (sures e)) {d d' : Draft} {p p' : Pools} {r : Frame}
    (w : (emitSkipped top items).Writes d p () d' p') (code : (site.part aim.stop).Hosts d')
    (pools : site.setting.program.Hosts p') (placed : site.function.labels[top]? = some target)
    (room : bound ≤ d.slots) (keeps : Keeps bound base r.slots)
    (again : ∀ m < n, ∀ r' : Frame, Keeps bound base r'.slots → site.Ensures aim m target r')
    (next : ∀ r' : Frame, Keeps bound base r'.slots → site.Ensures aim n d'.code.size r') :
    site.Ensures aim n d.code.size r := by
  induction items generalizing d p r with
  | nil =>
      obtain ⟨-, rfl, rfl⟩ := Emit.writes_pure.1 w
      exact next r keeps
  | cons e items ih =>
      rw [emitSkipped] at w
      have part := (all e (List.mem_cons_self ..)).within e
      obtain ⟨_, d₁, p₁, w₁, w₂⟩ := Emit.writes_bind.1 w
      have grown := ((Emit.Tame.skipPart top part.tame).draft w₁).slots
      rw [Emit.skipPart] at w₁
      obtain ⟨_, d₂, p₂, w₃, wa⟩ := Emit.writes_bind.1 w₁
      obtain ⟨rfl, rfl, rfl⟩ := Emit.writes_checkpoint.1 w₃
      obtain ⟨_, d₃, p₃, w₄, w₅⟩ := Emit.writes_bind.1 wa
      obtain ⟨d₄, p₄, d₅, w₆, w₇, size, hosts⟩ := Emit.hosts_ifElse (.emit _) (.emit _) w₅
      obtain ⟨rfl, rfl⟩ := Emit.writes_emit.1 w₆
      obtain ⟨rfl, rfl⟩ := Emit.writes_emit.1 w₇
      have rest := emitSkipped_tame top items
      obtain ⟨failing, jump, branch, missed, behindBoth⟩ := hosts _ (code.back (rest.draft w₂))
      have found := branch.add.addLabel.addLabel
      have onward (r' : Frame) (keeps : Keeps bound base r'.slots) :
          site.Ensures aim n d₁.code.size r' :=
        ih (fun e mem => all e (List.mem_cons_of_mem _ mem)) w₂ (Nat.le_trans room grown) keeps
      refine ensures_store (d := d.addSlot) (found.back (part.tame.draft w₄)) fun x _ =>
        part.leaves _ _ _ _ w₄ site aim found (pools.back (rest.pools w₂)) n _ fun r₁ keeps' _ => ?_
      have keeps₁ := keeps.trans ((Keeps.behindSlot keeps').mono room)
      refine ensures_notStatus (d := Draft.addLabel (Draft.addLabel _)) branch missed (fun _ => ?_)
        fun _ m lt => ?_
      · refine ensures_branch (d := Emit.entered _) jump.add placed
          (fun _ m lt => again m lt r₁ keeps₁) fun _ => ensures_jump jump behindBoth fun m lt => ?_
        rw [← size]
        exact (onward r₁ keeps₁).mono (Nat.le_of_lt lt)
      · refine (ensures_restore (d := Draft.place _ _) failing fun pos => ?_).mono (Nat.le_of_lt lt)
        rw [← size]
        exact onward { r₁ with pos } keeps₁

namespace Expr

variable {items : List Expr} {sures : Expr → Prop}

theorem assures_skip (all : ∀ e ∈ items, e.emit.Assures (sures e)) (tag : Tag) :
    (Expr.skip tag items).emit.Assures True where
  tame := Expr.emit_tame _
  leaves d p d' p' w site aim code pools n r next := by
    rw [Expr.emit] at w
    obtain ⟨_, d₁, p₁, w₁, w₂⟩ := Emit.writes_bind.1 w
    obtain ⟨rfl, rfl⟩ := Emit.writes_succeedWith.1 w₂
    have tame (top exit : Nat) : Emit.Tame (do
        emitSkipped top items
        Emit.emit (.jump exit)) := (emitSkipped_tame top items).bind fun _ => .emit _
    refine Site.ensures_loop (fun r' => Keeps d.slots r.slots r'.slots) tame w₁ code.add.add
      (fun e d₂ topAt w₃ slots body tops exits m le again r₁ keeps => ?_) (.refl _ _)
    obtain ⟨_, d₃, p₃, w₄, w₅⟩ := Emit.writes_bind.1 w₃
    obtain ⟨rfl, rfl⟩ := Emit.writes_emit.1 w₅
    refine Site.ensures_skipped all w₄ body.add.add pools tops (Nat.le_of_eq slots.symm) keeps
      (fun k lt r₂ keeps₂ => again k lt r₂ keeps₂) fun r₂ keeps₂ => ?_
    refine Site.ensures_jump body.add exits fun k lt => ?_
    refine (Site.ensures_succeedWith code fun x _ => ?_).mono (Nat.le_of_lt lt)
    exact (next (r₂.yield x) keeps₂ fun _ _ => rfl).mono le

/-! ### Operators -/

/-- A table of operators is a call of its topmost level. -/
theorem assures_operators (tag : Tag) (atom : Expr) (levels : List (Fixity × Expr)) :
    (Expr.operators tag atom levels).emit.Assures False where
  tame := Expr.emit_tame _
  leaves d p d' p' w site aim code pools n r next := by
    rw [Expr.emit] at w
    obtain ⟨vs, d₁, p₁, w₁, wa⟩ := Emit.writes_bind.1 w
    obtain ⟨-, rfl, rfl⟩ := Emit.writes_lookupAll.1 w₁
    obtain ⟨f, d₂, p₂, w₂, wb⟩ := Emit.writes_bind.1 wa
    obtain ⟨-, rfl⟩ := Emit.writes_lift.1 w₂
    obtain ⟨g, d₃, p₃, w₃, w₄⟩ := Emit.writes_bind.1 wb
    obtain ⟨-, rfl⟩ := Emit.writes_lift.1 w₃
    obtain ⟨rfl, rfl⟩ := Emit.writes_emit.1 w₄
    exact Site.ensures_call code fun r' same _ => next r' (same ▸ .refl _ _) False.elim

/-! ### Repetitions -/

omit [Regex.Engine] in
/-- A mark that a repetition owes to its numbers or to its item. -/
theorem Sure.list {tag : Tag} {item : Expr} {least most : Option Bound}
    (h : (Expr.list tag item least most).Sure) :
    least = none ∨ (∃ k, least = some (.const k) ∧ signedWord k ≤ 0) ∨
      item.Sure ∧ (∃ k, least = some (.const k) ∧ signedWord k ≤ 1) ∧
        (most = none ∨ ∃ k, most = some (.const k) ∧ 1 ≤ signedWord k) := by
  obtain ⟨flagged, sound⟩ := h
  simp only [alwaysSucceeds, flagSound, Bool.or_eq_true, Bool.and_eq_true] at flagged sound
  match least with
  | none => exact .inl rfl
  | some (.host s) =>
      simp [asksNothing, asksForOne] at sound
  | some (.const 0) => exact .inr (.inl ⟨0, rfl, by decide⟩)
  | some (.const (k + 1)) =>
      have asks : asksNothing (some (.const (k + 1))) = false := by simp [asksNothing]
      simp only [asks, Bool.false_eq_true, false_or, asksForOne, decide_eq_true_eq] at flagged sound
      refine .inr (.inr ⟨⟨flagged, sound.1.1⟩, ⟨_, rfl, sound.1.2⟩, ?_⟩)
      match most, sound.2 with
      | none, _ => exact .inl rfl
      | some (.const m), one => exact .inr ⟨m, rfl, by simpa [allowsOne] using one⟩

end Expr

/-! ### The code of any expression -/

open Emit Packrat.Expr in
mutual

theorem Expr.emit_assures : (e : Expr) → e.emit.Assures e.Sure
  | .str tag value flags => (assures_str tag value flags).weaken fun ⟨flagged, sound⟩ => by
      simp only [alwaysSucceeds, flagSound, List.isEmpty_iff, Bool.not_eq_true'] at flagged sound
      exact ⟨flagged, sound⟩
  | .regex tag pattern flags => (assures_regex tag pattern flags).weaken fun h => by
      cases h.flagged
  | .ref tag name binding => (assures_ref tag name binding).weaken fun h => by cases h.flagged
  | .call tag name args binding => (assures_call tag name args binding).weaken fun h => by
      cases h.flagged
  | .seq tag items none => (assures_seq_none (assuresAll items) tag).weaken fun h =>
      sure_of_all h.flagged h.sound
  | .seq tag items (some c) => (assures_seq_some (assuresAll items) tag c).weaken fun h =>
      sure_of_all h.flagged h.sound
  | .choice tag alternatives => (assures_choice (assuresAll alternatives) tag).weaken fun h =>
      ⟨h.flagged, h.sound⟩
  | .list tag item least most => by
      rw [Expr.emit]
      exact (((Expr.emit_assures item).within item).listOf _ least most).weaken fun h => h.list
  | .sep tag item separator flags => by
      rw [Expr.emit]
      exact (((Expr.emit_assures item).within item).sepOf
        ((Expr.emit_assures separator).within separator) flags).weaken fun h => h.flagged
  | .opt tag inner => by
      rw [Expr.emit]
      exact ((Expr.emit_assures inner).within inner).optional.weaken fun _ => trivial
  | .apply tag left right applyLeft =>
      (assures_apply (Expr.emit_assures left) (Expr.emit_assures right) tag applyLeft).weaken
        fun h => by cases h.flagged
  | .discard tag left right discardLeft => by
      rw [Expr.emit]
      refine (((Expr.emit_assures left).within left).keepOne
        ((Expr.emit_assures right).within right) discardLeft).weaken fun ⟨flagged, sound⟩ => ?_
      simp only [alwaysSucceeds, flagSound, Bool.and_eq_true] at flagged sound
      exact ⟨⟨flagged.1, sound.1⟩, ⟨flagged.2, sound.2⟩⟩
  | .expect tag inner => by
      rw [Expr.emit]
      exact ((Expr.emit_assures inner).within inner).peek.weaken fun h => ⟨h.flagged, h.sound⟩
  | .expectNot tag inner => by
      rw [Expr.emit]
      exact (((Expr.emit_assures inner).within inner).never _ _).weaken fun h => by
        cases h.flagged
  | .fail tag message? => (assures_fail tag message?).weaken fun h => by cases h.flagged
  | .bound tag name value body =>
      (assures_bound (Expr.emit_assures value) (Expr.emit_assures body) tag name).weaken
        fun ⟨flagged, sound⟩ => by
          simp only [alwaysSucceeds, flagSound, Bool.and_eq_true] at flagged sound
          exact ⟨⟨flagged.1, sound.1⟩, ⟨flagged.2, sound.2⟩⟩
  | .satisfying tag inner predicate =>
      (assures_satisfying (Expr.emit_assures inner) (Expr.emit_assures predicate) tag).weaken
        fun h => by cases h.flagged
  | .skip tag items => (assures_skip (assuresAll items) tag).weaken fun _ => trivial
  | .host tag snippet => (assures_host tag snippet).weaken fun _ => trivial
  | .operators tag atom levels => (assures_operators tag atom levels).weaken fun h => by
      cases h.flagged

theorem Expr.assuresAll : (es : List Expr) → ∀ e ∈ es, e.emit.Assures e.Sure
  | [], _, h => absurd h List.not_mem_nil
  | e :: es, e', h =>
      (List.mem_cons.1 h).elim (fun same => same ▸ Expr.emit_assures e) (Expr.assuresAll es e')

end

end Packrat
