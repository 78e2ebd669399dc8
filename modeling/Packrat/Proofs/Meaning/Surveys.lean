import Packrat.Proofs.Evaluation.Objects
import Packrat.Proofs.Meaning.Chains
import Packrat.Proofs.Simulation.Calls

/-
**What readings come to.**

A survey of a parse says what is asked of the nodes and the parsers in its values: that a node with a
place was made by a class where its fields were read, within the input, and that a parser stands for a
function that may be called.  Where spans are to nest, it asks as well that the nodes below a node with
a place lie within it, and all values in the stretch that was read for them.

A reading that meets a survey is never stuck, and keeps to the survey whatever it comes to: verdicts
lie in the input and do not go back, values hold what is asked of them, and so does what is remembered.

Main definitions:

* `Packrat.Survey` — what is asked of the values of a parse;
* `Packrat.Survey.Lies`, `Packrat.Survey.Finds`, `Packrat.Survey.Fits` — values, verdicts and stores
  that are as asked;
* `Packrat.Store.Earned` — stores that remember nothing but what was read;
* `Packrat.Reading.Meets` — **readings that are never stuck and keep to a survey**.

Main results:

* `Packrat.Reading.Meets.bind`, `Packrat.Reading.Meets.repeatFrom`, … — readings in parts;
* `Packrat.Reading.Meets.remembered` — what is remembered is as asked where it is read again.
-/

set_option autoImplicit false

namespace Packrat

/-- Stores that remember nothing but what was read: the verdict of a function at a place is what its
reading came to there from such a store, or it is under way. `performs` says what functions read. -/
inductive Store.Earned (performs : Nat → Nat → Reading (Verdict Value) → Prop) : Store → Prop
  | empty {s : Store} (empty : ∀ key, s.memo key = none) : Store.Earned performs s
  | draw {s : Store} (earned : Store.Earned performs s) (identity : Nat) :
      Store.Earned performs { s with identity }
  | begin {s : Store} (earned : Store.Earned performs s) (f pos : Nat) :
      Store.Earned performs (s.remember (f, pos) (Reading.selfReference pos))
  | keep {s s' : Store} {f pos : Nat} {r : Reading (Verdict Value)} {v : Verdict Value}
      (earned : Store.Earned performs s) (performed : performs f pos r)
      (found : r s = some (.ok (v, s'))) (earned' : Store.Earned performs s') :
      Store.Earned performs (s'.remember (f, pos) v)

/-- Nodes with a place that lie between two others. -/
def Value.Between (low high : Nat) : Value → Prop
  | .node _ _ _ (some extent) => low ≤ extent.start.index ∧ extent.stop.index ≤ high
  | _ => True

/-- What is asked of the values of a parse. -/
structure Survey where
  /-- The objects that there are before the parse. -/
  before : Heap
  /-- The length of the input. -/
  size : Nat
  /-- The functions that may be called. -/
  callable : Nat → Prop
  /-- Which nodes may have been made by a class between two places. -/
  made : NodeClass → List Value → Nat → Nat → Prop
  /-- What functions read. -/
  performs : Nat → Nat → Reading (Verdict Value) → Prop
  /-- Whether spans nest. Then no function is called with arguments. -/
  nested : Prop

namespace Survey

/-- What is asked of nodes with places and of parsers where something is read between two places. -/
def Asks (S : Survey) (low high : Nat) : Value → Prop
  | .node _ cls values extent? => ∀ extent ∈ extent?, ∃ start stop,
      extent = ⟨.unresolved start, .unresolved stop⟩ ∧ start ≤ stop ∧ stop ≤ S.size ∧
        S.made cls values start stop ∧
        (S.nested → low ≤ start ∧ stop ≤ high ∧ Value.AllHold (Value.Between start stop) values)
  | .parser _ f _ _ => S.callable f ∧ ¬S.nested
  | _ => True

/-- A value that is as asked of what is read between two places. -/
abbrev Lies (S : Survey) (h : Heap) (low high : Nat) (v : Value) : Prop :=
  v.Holds (h.Knows (S.Asks low high))

abbrev AllLie (S : Survey) (h : Heap) (low high : Nat) (vs : List Value) : Prop :=
  Value.AllHold (h.Knows (S.Asks low high)) vs

/-- A verdict as asked of a reading from a place, where names stand for what was read from `base`
on. -/
def Finds (S : Survey) (h : Heap) (base pos : Nat) : Verdict Value → Prop
  | .success v stop => pos ≤ stop ∧ stop ≤ S.size ∧ S.Lies h base stop v
  | .failure _ place => pos ≤ place ∧ place ≤ S.size

/-- A store that is as asked. -/
structure Fits (S : Survey) (h : Heap) (s : Store) : Prop where
  next : s.identity = h.next
  later : S.before.Grows h
  memo : ∀ key v, s.memo key = some v → S.Finds h key.2 key.2 v
  earned : s.Earned S.performs

variable {S : Survey} {h h' : Heap} {low low' high high' base pos stop : Nat} {v : Value}

theorem Asks.mono (asked : S.Asks low high v) (below : low' ≤ low) (above : high ≤ high') :
    S.Asks low' high' v := by
  cases v with
  | node =>
      intro extent mem
      obtain ⟨start, stop, rfl, le, inside, made, nested⟩ := asked extent mem
      refine ⟨start, stop, rfl, le, inside, made, fun nest => ?_⟩
      obtain ⟨low, high, between⟩ := nested nest
      exact ⟨Nat.le_trans below low, Nat.le_trans high above, between⟩
  | parser => exact asked
  | _ => trivial

theorem Lies.mono (lies : S.Lies h low high v) (later : h.Grows h') (below : low' ≤ low)
    (above : high ≤ high') : S.Lies h' low' high' v :=
  Value.Holds.mono lies fun _ known => known.mono later fun _ asked => asked.mono below above

theorem AllLie.mono {vs : List Value} (lie : S.AllLie h low high vs) (later : h.Grows h')
    (below : low' ≤ low) (above : high ≤ high') : S.AllLie h' low' high' vs :=
  Value.AllHold.mono lie fun _ known => known.mono later fun _ asked => asked.mono below above

theorem Finds.mono {v : Verdict Value} (finds : S.Finds h base pos v) (later : h.Grows h')
    {base' pos' : Nat} (le : base' ≤ base) (le' : pos' ≤ pos) : S.Finds h' base' pos' v := by
  cases v with
  | success v stop => exact ⟨Nat.le_trans le' finds.1, finds.2.1, finds.2.2.mono later le (Nat.le_refl _)⟩
  | failure entry place => exact ⟨Nat.le_trans le' finds.1, finds.2⟩

theorem Finds.bounds {v : Verdict Value} (finds : S.Finds h base pos v) :
    pos ≤ v.pos ∧ v.pos ≤ S.size := by
  cases v with
  | success v stop => exact ⟨finds.1, finds.2.1⟩
  | failure entry place => exact finds

/-- Where spans nest, the nodes of a value lie where it was read. -/
theorem Lies.between (nested : S.nested) (lies : S.Lies h low high v) :
    v.Holds (Value.Between low high) := by
  refine Value.Holds.mono lies fun v known => ?_
  match v, known with
  | .node _ _ _ (some extent), known =>
      obtain ⟨start, stop, rfl, -, -, -, within⟩ := known.2.2 (by simp) extent rfl
      exact ⟨(within nested).1, (within nested).2.1⟩
  | .node _ _ _ none, _ | .none, _ | .bool _, _ | .int _, _ | .float _, _ | .str _, _ | .bytes _, _
  | .list _ _, _ | .func _ _, _ | .parser _ _ _ _, _ | .failure _, _ => trivial

theorem AllLie.between {vs : List Value} (nested : S.nested) (lie : S.AllLie h low high vs) :
    Value.AllHold (Value.Between low high) vs :=
  Value.AllHold.iff_forall.2 fun _ mem => Lies.between nested (lie.of_mem mem)

namespace Fits

variable {s : Store}

theorem remember {f : Nat} {v : Verdict Value} (fits : S.Fits h s) (finds : S.Finds h pos pos v)
    (earned : (s.remember (f, pos) v).Earned S.performs) : S.Fits h (s.remember (f, pos) v) where
  next := fits.next
  later := fits.later
  earned := earned
  memo key w found := by
    change (if key = (f, pos) then some v else s.memo key) = some w at found
    split at found
    · next same =>
        subst same
        cases found
        exact finds
    · exact fits.memo key w found

theorem draw (fits : S.Fits h s) (later : h.Grows h') : S.Fits h' { s with identity := h'.next } where
  next := rfl
  later := fits.later.trans later
  memo key v found := (fits.memo key v found).mono later (Nat.le_refl _) (Nat.le_refl _)
  earned := fits.earned.draw _

end Fits

end Survey

/-! ### Readings -/

namespace Reading

variable {S : Survey} {h : Heap} {α β σ : Type}

/-- A reading that is never stuck and keeps to a survey. -/
structure Meets (S : Survey) (h : Heap) (R : Heap → α → Prop) (r : Reading α) : Prop where
  unstuck : ∀ s, S.Fits h s → r s ≠ some (.error .stuck)
  keeps : ∀ s a s', S.Fits h s → r s = some (.ok (a, s')) →
    ∃ h', h.Grows h' ∧ S.Fits h' s' ∧ R h' a

namespace Meets

variable {R : Heap → α → Prop} {Q : Heap → β → Prop} {r : Reading α}

theorem pure {a : α} (holds : R h a) : Meets S h R (Pure.pure a) where
  unstuck s _ ends := by cases ends
  keeps s b s' fits ends := by
    obtain ⟨rfl, rfl⟩ := pure_eq_ok.1 ends
    exact ⟨h, .refl h, fits, holds⟩

theorem exhausted : Meets S h R (Reading.exhausted : Reading α) where
  unstuck s _ ends := by cases ends
  keeps s a s' _ ends := by cases ends

theorem stop (e : Host.Error) : Meets S h R (throw (.host e) : Reading α) where
  unstuck s _ ends := by cases ends
  keeps s a s' _ ends := by cases ends

theorem bind {k : α → Reading β} (first : Meets S h R r)
    (next : ∀ h', h.Grows h' → ∀ a, R h' a → Meets S h' Q (k a)) : Meets S h Q (r >>= k) where
  unstuck s fits ends := by
    rw [bind_apply] at ends
    split at ends
    · cases ends
    · next found =>
        cases ends
        exact first.unstuck s fits found
    · next a s₁ found =>
        obtain ⟨h₁, later, fits₁, holds⟩ := first.keeps s a s₁ fits found
        exact (next h₁ later a holds).unstuck s₁ fits₁ ends
  keeps s b s' fits ends := by
    obtain ⟨a, s₁, found, rest⟩ := bind_eq_ok.1 ends
    obtain ⟨h₁, later, fits₁, holds⟩ := first.keeps s a s₁ fits found
    obtain ⟨h₂, later', fits₂, holds'⟩ := (next h₁ later a holds).keeps s₁ b s' fits₁ rest
    exact ⟨h₂, later.trans later', fits₂, holds'⟩

theorem mono {R' : Heap → α → Prop} (meets : Meets S h R r)
    (imp : ∀ h', h.Grows h' → ∀ a, R h' a → R' h' a) : Meets S h R' r where
  unstuck := meets.unstuck
  keeps s a s' fits ends := by
    obtain ⟨h', later, fits', holds⟩ := meets.keeps s a s' fits ends
    exact ⟨h', later, fits', imp h' later a holds⟩

/-- What a reading comes to was read from a store that remembers nothing but what was read. -/
theorem witnessed (meets : Meets S h R r) : Meets S h
    (fun h' a => R h' a ∧ ∃ s s', s.Earned S.performs ∧ r s = some (.ok (a, s'))) r where
  unstuck := meets.unstuck
  keeps s a s' fits ends := by
    obtain ⟨h', later, fits', holds⟩ := meets.keeps s a s' fits ends
    exact ⟨h', later, fits', holds, s, s', fits.earned, ends⟩

theorem found {x? : Option α} (holds : ∃ x, x? = some x ∧ R h x) : Meets S h R (Reading.found x?) := by
  obtain ⟨x, rfl, holds⟩ := holds
  exact pure holds

theorem ite {c : Prop} [Decidable c] {r' : Reading α} (yes : c → Meets S h R r)
    (no : ¬c → Meets S h R r') : Meets S h R (if c then r else r') := by
  split
  · next holds => exact yes holds
  · next fails => exact no fails

/-- Host code makes its objects on the heap of the parse. -/
theorem host {e : Host.Eval α} (hands : S.before.Grows h → Host.HandsOn h R e) :
    Meets S h R (Reading.host e) where
  unstuck s _ ends := by
    rw [Reading.host] at ends
    split at ends <;> cases ends
  keeps s a s' fits ends := by
    rw [Reading.host] at ends
    split at ends
    · next found =>
        cases ends
        obtain ⟨h', later, rfl, holds⟩ := hands fits.later _ _ (fits.next ▸ found)
        exact ⟨h', later, fits.draw later, holds⟩
    · cases ends

/-- The rounds of a repetition keep what its first one begins with. -/
theorem repeatFrom {part : σ → Reading (σ ⊕ α)} (inv : Heap → σ → Prop)
    (round : ∀ h', h.Grows h' → ∀ a, inv h' a → Meets S h' (fun h' => Sum.elim (inv h') (R h')) (part a))
    (rounds : Nat) {a : σ} (start : inv h a) : Meets S h R (Reading.repeatFrom part rounds a) := by
  induction rounds generalizing a h with
  | zero => exact exhausted
  | succ rounds ih =>
      refine bind (round h (.refl h) a start) ?_
      rintro h' later (b | x) holds
      · exact ih (fun h'' later' => round h'' (later.trans later')) holds
      · exact pure holds

/-- One part and another from the place where the first has ended. -/
theorem andThen {base pos base' start : Nat} {r : Reading (Verdict Value)}
    {k : Value → Nat → Reading (Verdict Value)} (le : start ≤ pos)
    (first : Meets S h (S.Finds · base pos) r)
    (next : ∀ h', h.Grows h' → ∀ v stop, pos ≤ stop → stop ≤ S.size → S.Lies h' base stop v →
      Meets S h' (S.Finds · base' start) (k v stop)) :
    Meets S h (S.Finds · base' start) (Reading.andThen r k) := by
  refine bind first ?_
  rintro h' later (⟨v, stop⟩ | ⟨entry, place⟩) finds
  · exact next h' later v stop finds.1 finds.2.1 finds.2.2
  · exact pure ⟨Nat.le_trans le finds.1, finds.2⟩

/-- While a function is under way it counts as failed at its place. What it has come to is as asked
wherever it is read again. -/
theorem remembered {memoize : Bool} {f pos : Nat} {r : Reading (Verdict Value)} (inside : pos ≤ S.size)
    (meets : Meets S h (S.Finds · pos pos) r) (performs : S.performs f pos r) :
    Meets S h (S.Finds · pos pos) (Reading.remembered memoize f pos r) := by
  cases memoize with
  | false => exact meets
  | true =>
      have under {s : Store} (fits : S.Fits h s) : S.Fits h (s.remember (f, pos) (selfReference pos)) :=
        fits.remember ⟨Nat.le_refl pos, inside⟩ (fits.earned.begin f pos)
      refine ⟨fun s fits ends => ?_, fun s v s' fits ends => ?_⟩
      · rw [remembered_true] at ends
        split at ends
        · cases ends
        · rw [bind_apply] at ends
          split at ends
          · cases ends
          · next found =>
              cases ends
              exact meets.unstuck _ (under fits) found
          · cases ends
      · rw [remembered_true] at ends
        split at ends
        · next found =>
            cases ends
            exact ⟨h, .refl h, fits, fits.memo _ _ found⟩
        · obtain ⟨v', s₁, found, rest⟩ := bind_eq_ok.1 ends
          cases rest
          obtain ⟨h', later, fits', finds⟩ := meets.keeps _ _ _ (under fits) found
          exact ⟨h', later, fits'.remember finds (.keep (under fits).earned performs found fits'.earned),
            finds⟩

end Meets

end Reading

end Packrat
