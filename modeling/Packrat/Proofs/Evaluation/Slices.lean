import Mathlib.Data.List.Basic
import Packrat.Host.Eval
import Packrat.Proofs.Evaluation.Steps

/-
**Indices and slices stay within the sequence.**

A bound of a slice is counted from the end if it is below zero, and then moved to the nearer end of the
sequence if it lies outside.  So a slice has bounds for all words, and holds the elements that stand
between them; what stands before a bound and what stands behind it make up the sequence.  An index is
counted the same way but never moved, so it must lie in the sequence.  The sum that is computed to count
from the end fits in a word, as no sequence has more elements than can be addressed.

Main definitions:

* `Packrat.Value.elements?` — the elements of lists, texts and bytes;
* `Packrat.Host.IsBound` — bounds of slices;
* `Packrat.Host.clamp` — where a bound lies;
* `Packrat.Host.within` — the elements that stand between two bounds;
* `Packrat.Host.ConsistsOf` — a sequence that is made of some things.

Main results:

* `Packrat.Host.fromStart_of_short` — no sum leaves the words;
* `Packrat.Host.sliceList_eq_within`, `Packrat.Host.itemAt_of_inside` — slices and items of a list;
* `Packrat.Host.exists_consistsOf` — lists, texts and bytes are made of things;
* `Packrat.Host.slices_within` — **slices and indices of lists, texts and bytes**.
-/

set_option autoImplicit false

namespace Packrat

/-- The elements of a list, a text or bytes. -/
def Value.elements? : Value → Option (List Value)
  | .list _ items => some items
  | .str s => some (s.toList.map fun c => .str (String.singleton c))
  | .bytes bs => some (bs.map fun b => .int (Int64.ofNat b.toNat))
  | _ => Option.none

namespace Host

/-! ### Where bounds lie -/

/-- What a slice may be bounded by: a number, or nothing where the bound is left out or `None`. -/
inductive IsBound : Option Value → Option Int64 → Prop
  | missing : IsBound none none
  | none : IsBound (some .none) none
  | number {v : Value} {i : Int64} (h : v.asInt? = some i) : IsBound (some v) (some i)

/-- Where a bound lies in a sequence of the given length: counted from the end if it is below zero, and
moved to the ends. -/
def clamp (length : Nat) (i : Int) : Int := max 0 (min length (if i < 0 then length + i else i))

/-- Where a bound of a slice lies; nothing stands for the given end. -/
def boundAt (length : Nat) (default : Int) (bound : Option Int64) : Int :=
  bound.elim default fun i => clamp length i.toInt

/-- The elements whose place is at or behind the one bound and before the other. -/
def within {α : Type} (low high : Int) (xs : List α) : List α :=
  (xs.zipIdx.filter fun p => low ≤ p.2 ∧ p.2 < high).map Prod.fst

section

variable {α β : Type}

theorem filter_zipIdx (low high first : Nat) (xs : List α) :
    ((xs.zipIdx first).filter fun p => (low : Int) ≤ p.2 ∧ (p.2 : Int) < high).map Prod.fst =
      (xs.take (high - first)).drop (low - first) := by
  induction xs generalizing first with
  | nil => simp
  | cons x xs ih =>
      rw [List.zipIdx_cons, List.filter_cons]
      by_cases before : first < low
      · -- Not reached yet: the place goes on with the rest.
        have out : ¬((low : Int) ≤ first ∧ (first : Int) < high) := by omega
        have skip : low - first = (low - (first + 1)) + 1 := by omega
        simp only [out, decide_false, Bool.false_eq_true, if_false, ih, skip]
        rcases Nat.lt_or_ge first high with inside | behind
        · have more : high - first = (high - (first + 1)) + 1 := by omega
          rw [more, List.take_succ_cons, List.drop_succ_cons]
        · have none : high - first = 0 := by omega
          have none' : high - (first + 1) = 0 := by omega
          simp [none, none']
      · have start : low - first = 0 := by omega
        have start' : low - (first + 1) = 0 := by omega
        rcases Nat.lt_or_ge first high with inside | behind
        · have here : (low : Int) ≤ first ∧ (first : Int) < high := by omega
          have more : high - first = (high - (first + 1)) + 1 := by omega
          simp only [here, and_self, decide_true, if_true, List.map_cons, ih, start, start', more,
            List.drop_zero, List.take_succ_cons]
        · have out : ¬((low : Int) ≤ first ∧ (first : Int) < high) := by omega
          have none : high - first = 0 := by omega
          have none' : high - (first + 1) = 0 := by omega
          simp only [out, decide_false, Bool.false_eq_true, if_false, ih, none, none', List.take_zero,
            List.drop_nil]

/-- The elements between two places are those that are left when the rest is taken away. -/
theorem within_eq (low high : Nat) (xs : List α) :
    within low high xs = (xs.take high).drop low := filter_zipIdx low high 0 xs

theorem within_map (f : α → β) (low high : Int) (xs : List α) :
    within low high (xs.map f) = (within low high xs).map f := by
  rw [within, within, List.zipIdx_map, List.filter_map, List.map_map, List.map_map]
  rfl

end

/-! ### Offsets as words -/

theorem word_neg_iff (i : Int64) : i < 0 ↔ i.toInt < 0 := by
  rw [Int64.lt_iff_toInt_lt, Int64.toInt_zero]

section

variable {length : Nat} (short : length < 0x8000000000000000)

include short

/-- Counting from the end never leaves the words. -/
theorem fromStart_of_short (i : Int64) : ∃ w, fromStart i length = .ok w ∧
    w.toInt = if i.toInt < 0 then length + i.toInt else i.toInt := by
  have total : (Int64.ofNat length).toInt = length := Int64.toInt_ofNat_of_lt (by omega)
  have least := i.le_toInt
  rw [fromStart, total]
  -- The length is added only to what is below zero, so the sum lies between the two.
  by_cases negative : i < 0
  · have below := (word_neg_iff i).1 negative
    rw [if_pos negative, if_pos below]
    cases fit : fit? (length + i.toInt) with
    | none =>
        have := fit?_eq_none_iff.1 fit
        omega
    | some w => exact ⟨w, rfl, toInt_of_fit? fit⟩
  · rw [if_neg negative, if_neg (mt (word_neg_iff i).2 negative)]
    exact ⟨i, rfl, rfl⟩

/-- A bound is moved to the ends of the sequence. -/
theorem resolveBound_of_short (i : Int64) :
    resolveBound i length = .ok (clamp length i.toInt).toNat := by
  obtain ⟨w, counted, value⟩ := fromStart_of_short short i
  rw [resolveBound, counted]
  show Except.ok (min w.toInt.toNat length) = _
  rw [value, clamp]
  split <;> congr 1 <;> omega

/-- An index must lie in the sequence. -/
theorem resolveIndex_of_short {v : Value} {i : Int64} (number : v.asInt? = some i) :
    resolveIndex v length =
      if -(length : Int) ≤ i.toInt ∧ i.toInt < length then .ok (clamp length i.toInt).toNat
      else .error (.indexRange i) := by
  obtain ⟨w, counted, value⟩ := fromStart_of_short short i
  have outside : (w < 0 ∨ length ≤ w.toNatClampNeg) ↔
      ¬(-(length : Int) ≤ i.toInt ∧ i.toInt < length) := by
    rw [word_neg_iff, Int64.toNatClampNeg, value]
    split <;> omega
  rw [resolveIndex, number]
  dsimp only
  rw [counted]
  show (if w < 0 ∨ length ≤ w.toNatClampNeg then _ else Except.ok w.toInt.toNat) = _
  by_cases inside : -(length : Int) ≤ i.toInt ∧ i.toInt < length
  · rw [if_neg (mt outside.1 (not_not_intro inside)), if_pos inside, value, clamp]
    split <;> congr 1 <;> omega
  · rw [if_pos (outside.2 inside), if_neg inside]

/-- A bound lies in the sequence or at its end. -/
theorem boundOr_of_short {bound : Option Value} {i : Option Int64} (h : IsBound bound i)
    {default : Nat} (le : default ≤ length) :
    ∃ n : Nat, boundOr default bound length = .ok n ∧ boundAt length default i = n ∧ n ≤ length := by
  cases h with
  | missing => exact ⟨default, rfl, rfl, le⟩
  | none => exact ⟨default, rfl, rfl, le⟩
  | @number v i number =>
      have inside : 0 ≤ clamp length i.toInt ∧ clamp length i.toInt ≤ length := by
        rw [clamp]
        omega
      have counted : boundOr default (some v) length = resolveBound i length := by
        cases v with
        | int n =>
            obtain rfl := Option.some.inj number
            rfl
        | bool b =>
            obtain rfl := Option.some.inj number
            rfl
        | _ => cases number
      refine ⟨(clamp length i.toInt).toNat, ?_, ?_, by omega⟩
      · rw [counted, resolveBound_of_short short]
      · rw [boundAt, Option.elim_some]
        omega

end

/-! ### The bound behind an index -/

/-- The bound behind an index; behind the last element the slice stays open. -/
def boundBehind (i : Int64) : Option Value := if i = -1 then none else some (.int (i + 1))

theorem boundAt_behind {length : Nat} (short : length < 0x8000000000000000) {i : Int64}
    (inside : -(length : Int) ≤ i.toInt ∧ i.toInt < length) :
    ∃ j, IsBound (boundBehind i) j ∧ boundAt length length j = clamp length i.toInt + 1 := by
  rw [boundBehind]
  by_cases last : i = -1
  · have value : i.toInt = -1 := by rw [last]; rfl
    rw [if_pos last]
    refine ⟨none, .missing, ?_⟩
    rw [boundAt, Option.elim_none, clamp, value]
    omega
  · have other : i.toInt ≠ -1 := fun same => last (Int64.toInt_inj.1 same)
    have next : (i + 1).toInt = i.toInt + 1 := by
      rw [Int64.toInt_add, Int64.toInt_one, Int.bmod_eq_of_le] <;> omega
    rw [if_neg last]
    refine ⟨some (i + 1), .number rfl, ?_⟩
    rw [boundAt, Option.elim_some, next, clamp, clamp]
    omega

/-! ### Slices and items of lists -/

section

variable {α : Type} {xs : List α} (short : xs.length < 0x8000000000000000)

include short

/-- A slice holds the elements between its bounds. -/
theorem sliceList_eq_within {lower upper : Option Value} {i j : Option Int64}
    (hi : IsBound lower i) (hj : IsBound upper j) : sliceList lower upper xs =
      .ok (within (boundAt xs.length 0 i) (boundAt xs.length xs.length j) xs) := by
  obtain ⟨start, first, low, inside⟩ := boundOr_of_short short hi (Nat.zero_le _)
  obtain ⟨stop, second, high, inside'⟩ := boundOr_of_short short hj (Nat.le_refl _)
  have range : start ≤ max stop start ∧ max stop start ≤ xs.length := by omega
  rw [sliceList, first]
  dsimp only [bind, Except.bind]
  rw [second]
  dsimp only
  rw [slice, if_pos range, show boundAt xs.length 0 i = start from low, high, within_eq]
  congr 1
  rcases Nat.le_total start stop with ordered | crossed
  · rw [Nat.max_eq_left ordered]
  · -- Where the bounds cross there is nothing between them.
    rw [Nat.max_eq_right crossed, List.drop_of_length_le, List.drop_of_length_le]
    · rw [List.length_take]
      omega
    · rw [List.length_take]
      omega

/-- An index in the sequence finds the one element between it and the bound behind it. -/
theorem itemAt_of_inside {v : Value} {i : Int64} (number : v.asInt? = some i)
    (inside : -(xs.length : Int) ≤ i.toInt ∧ i.toInt < xs.length) :
    ∃ x, itemAt xs v = .ok x ∧ sliceList (some v) (boundBehind i) xs = .ok [x] := by
  obtain ⟨j, behind, high⟩ := boundAt_behind short inside
  obtain ⟨k, hk⟩ : ∃ k : Nat, clamp xs.length i.toInt = k :=
    Int.eq_ofNat_of_zero_le (Int.le_max_left _ _)
  have here : k < xs.length := by
    rw [clamp] at hk
    omega
  refine ⟨xs[k], ?_, ?_⟩
  · rw [itemAt, resolveIndex_of_short short number, if_pos inside, hk]
    refine Except.bind_eq_ok.2 ⟨k, rfl, ?_⟩
    rw [List.getElem?_eq_getElem here]
    rfl
  · have low : boundAt xs.length 0 (some i) = k := hk
    have one : (xs.take (k + 1)).drop k = [xs[k]] := by
      rw [List.drop_take, List.drop_eq_getElem_cons here, Nat.add_sub_cancel_left]
      rfl
    rw [sliceList_eq_within short (.number number) behind, low, high, hk, ← one]
    exact congrArg Except.ok (within_eq k (k + 1) xs)

theorem itemAt_of_outside {v : Value} {i : Int64} (number : v.asInt? = some i)
    (outside : ¬(-(xs.length : Int) ≤ i.toInt ∧ i.toInt < xs.length)) :
    itemAt xs v = .error (.indexRange i) := by
  rw [itemAt, resolveIndex_of_short short number, if_neg outside]
  rfl

end

/-! ### Lists, texts and bytes -/

/-- Host code that comes to a sequence of the kind of another, with the given elements. -/
def Gives (s : Value) (xs : List Value) (e : Eval Value) : Prop :=
  ∀ n, ∃ t m, e.run n = .ok (t, m) ∧ t.typeName = s.typeName ∧ t.elements? = some xs

/-- A sequence that is made of some things, which it shows as values; slices and items of it are those
of the things. -/
structure ConsistsOf (s : Value) {α : Type} (things : List α) (shown : α → Value) : Prop where
  slice : ∀ {lower upper : Option Value} {ys : List α}, sliceList lower upper things = .ok ys →
    Gives s (ys.map shown) (sliceValue s lower upper)
  item : ∀ (index : Value) (n : Nat),
    (subscript s index).run n = (itemAt things index).map fun x => (shown x, n)

theorem consistsOf_list (id : Nat) (items : List Value) :
    ConsistsOf (.list id items) items fun v => v where
  slice h n := by
    refine ⟨.list n _, n + 1, ?_, rfl, congrArg some (List.map_id' _).symm⟩
    rw [sliceValue, h]
    rfl
  item index n := by
    rw [subscript]
    cases itemAt items index <;> rfl

theorem consistsOf_text (s : String) :
    ConsistsOf (.str s) s.toList fun c => .str (String.singleton c) where
  slice {_ _ cs} h n := by
    refine ⟨.str (String.ofList cs), n, ?_, rfl, ?_⟩
    · rw [sliceValue, h]
      rfl
    · rw [Value.elements?, String.toList_ofList]
  item index n := by
    rw [subscript]
    cases itemAt s.toList index <;> rfl

theorem consistsOf_bytes (bs : List UInt8) :
    ConsistsOf (.bytes bs) bs fun b => .int (Int64.ofNat b.toNat) where
  slice {_ _ cs} h n := by
    refine ⟨.bytes cs, n, ?_, rfl, rfl⟩
    rw [sliceValue, h]
    rfl
  item index n := by
    rw [subscript]
    cases itemAt bs index <;> rfl

/-- The elements of a sequence are the things that it is made of, as it shows them. -/
theorem exists_consistsOf {s : Value} {xs : List Value} (sequence : s.elements? = some xs) :
    ∃ (α : Type) (things : List α) (shown : α → Value),
      ConsistsOf s things shown ∧ things.map shown = xs := by
  cases s with
  | list id items =>
      obtain rfl := Option.some.inj sequence
      exact ⟨Value, items, _, consistsOf_list id items, List.map_id' items⟩
  | str s => exact ⟨Char, s.toList, _, consistsOf_text s, Option.some.inj sequence⟩
  | bytes bs => exact ⟨UInt8, bs, _, consistsOf_bytes bs, Option.some.inj sequence⟩
  | _ => cases sequence

section

variable {s : Value} {xs : List Value} (sequence : s.elements? = some xs)
  (short : xs.length < 0x8000000000000000)

include sequence short

/-- A slice of a sequence holds the elements between its bounds. -/
theorem gives_sliceValue {lower upper : Option Value} {i j : Option Int64}
    (hi : IsBound lower i) (hj : IsBound upper j) :
    Gives s (within (boundAt xs.length 0 i) (boundAt xs.length xs.length j) xs)
      (sliceValue s lower upper) := by
  obtain ⟨α, things, shown, made, rfl⟩ := exists_consistsOf sequence
  rw [List.length_map] at short ⊢
  rw [within_map]
  exact made.slice (sliceList_eq_within short hi hj)

/-- An index in the sequence finds the element that is the slice from it to the bound behind it. -/
theorem subscript_of_inside {v : Value} {i : Int64} (number : v.asInt? = some i)
    (inside : -(xs.length : Int) ≤ i.toInt ∧ i.toInt < xs.length) (n : Nat) :
    ∃ x, (subscript s v).run n = .ok (x, n) ∧
      Gives s [x] (sliceValue s (some v) (boundBehind i)) := by
  obtain ⟨α, things, shown, made, rfl⟩ := exists_consistsOf sequence
  rw [List.length_map] at short inside
  obtain ⟨x, item, one⟩ := itemAt_of_inside short number inside
  refine ⟨shown x, ?_, made.slice one⟩
  rw [made.item, item]
  rfl

theorem subscript_of_outside {v : Value} {i : Int64} (number : v.asInt? = some i)
    (outside : ¬(-(xs.length : Int) ≤ i.toInt ∧ i.toInt < xs.length)) (n : Nat) :
    (subscript s v).run n = .error (.indexRange i) := by
  obtain ⟨α, things, shown, made, rfl⟩ := exists_consistsOf sequence
  rw [List.length_map] at short outside
  rw [made.item, itemAt_of_outside short number outside]
  rfl

end

/-! ### What is put together again -/

/-- What stands before a place and what stands behind it make up the whole. -/
theorem within_append_within {α : Type} (k : Nat) (xs : List α) :
    within 0 k xs ++ within k xs.length xs = xs := by
  rw [within_eq k, List.take_length]
  have front := within_eq 0 k xs
  rw [List.drop_zero] at front
  exact (congrArg (· ++ _) front).trans (List.take_append_drop k xs)

/-- Sequences of one kind are joined. -/
theorem gives_add {s a b : Value} {xs ys : List Value} (kind : a.typeName = s.typeName)
    (kind' : b.typeName = s.typeName) (left : a.elements? = some xs)
    (right : b.elements? = some ys) : Gives s (xs ++ ys) (binaryOp .add a b) := by
  have same : b.typeName = a.typeName := kind'.trans kind.symm
  intro n
  cases a with
  | list i items =>
      cases b with
      | list j items' =>
          obtain rfl := Option.some.inj left
          obtain rfl := Option.some.inj right
          exact ⟨.list n (items ++ items'), n + 1, rfl, kind, rfl⟩
      | _ => simp [Value.typeName] at same
  | str t =>
      cases b with
      | str t' =>
          obtain rfl := Option.some.inj left
          obtain rfl := Option.some.inj right
          refine ⟨.str (t ++ t'), n, rfl, kind, ?_⟩
          rw [Value.elements?, String.toList_append, List.map_append]
      | _ => simp [Value.typeName] at same
  | bytes bs =>
      cases b with
      | bytes cs =>
          obtain rfl := Option.some.inj left
          obtain rfl := Option.some.inj right
          refine ⟨.bytes (bs ++ cs), n, rfl, kind, ?_⟩
          rw [Value.elements?, List.map_append]
      | _ => simp [Value.typeName] at same
  | _ => cases left

/-- A sequence cut in two and joined again. -/
theorem gives_rejoined {s : Value} {xs : List Value} (sequence : s.elements? = some xs)
    (short : xs.length < 0x8000000000000000) {v : Value} {k : Int64} (number : v.asInt? = some k) :
    Gives s xs (do
      let front ← sliceValue s none (some v)
      let back ← sliceValue s (some v) none
      binaryOp .add front back) := by
  obtain ⟨m, hm⟩ : ∃ m : Nat, clamp xs.length k.toInt = m :=
    Int.eq_ofNat_of_zero_le (Int.le_max_left _ _)
  intro n
  obtain ⟨a, n₁, front, kind, left⟩ :=
    gives_sliceValue sequence short .missing (.number number) n
  obtain ⟨b, n₂, back, kind', right⟩ :=
    gives_sliceValue sequence short (.number number) .missing n₁
  obtain ⟨t, n₃, joined, kind'', all⟩ := gives_add kind kind' left right n₂
  refine ⟨t, n₃, ?_, kind'', ?_⟩
  · rw [StateT.run_bind, front]
    show StateT.run (sliceValue s (some v) none >>= binaryOp .add a) n₁ = _
    rw [StateT.run_bind, back]
    exact joined
  · rw [all]
    have whole := within_append_within m xs
    rw [← hm] at whole
    exact congrArg some whole

/-- **Slices and indices stay within the sequence.** In a list, a text or bytes a slice holds the
elements that stand between its bounds, for all words and for bounds that are left out; what stands
before a bound and what stands behind it make up the sequence; and an index finds an element exactly if
it lies in the sequence, the one between it and the bound behind it. -/
theorem slices_within {s : Value} {xs : List Value} (sequence : s.elements? = some xs)
    (short : xs.length < 0x8000000000000000) :
    (∀ lower upper i j, IsBound lower i → IsBound upper j →
      Gives s (within (boundAt xs.length 0 i) (boundAt xs.length xs.length j) xs)
        (sliceValue s lower upper)) ∧
    (∀ (v : Value) (k : Int64), v.asInt? = some k →
      Gives s xs (do
        let front ← sliceValue s none (some v)
        let back ← sliceValue s (some v) none
        binaryOp .add front back)) ∧
    ∀ (v : Value) (i : Int64), v.asInt? = some i → ∀ n,
      (-(xs.length : Int) ≤ i.toInt ∧ i.toInt < xs.length →
        ∃ x, (subscript s v).run n = .ok (x, n) ∧
          Gives s [x] (sliceValue s (some v) (boundBehind i))) ∧
      (¬(-(xs.length : Int) ≤ i.toInt ∧ i.toInt < xs.length) →
        (subscript s v).run n = .error (.indexRange i)) :=
  ⟨fun _ _ _ _ hi hj => gives_sliceValue sequence short hi hj,
    fun _ _ number => gives_rejoined sequence short number,
    fun _ _ number n => ⟨fun inside => subscript_of_inside sequence short number inside n,
      fun outside => subscript_of_outside sequence short number outside n⟩⟩

/-- A text of three characters: its last two, its parts joined again, the last one, and an index that
lies outside. -/
theorem slices_within_accent :
    (Value.str "aéz").elements? = some [.str "a", .str "é", .str "z"] ∧
      3 < 0x8000000000000000 ∧ IsBound (some (.int (-2))) (some (-2)) ∧
      Gives (.str "aéz") [.str "é", .str "z"] (sliceValue (.str "aéz") (some (.int (-2))) none) ∧
      Gives (.str "aéz") [.str "a", .str "é", .str "z"] (do
        let front ← sliceValue (.str "aéz") none (some (.bool true))
        let back ← sliceValue (.str "aéz") (some (.bool true)) none
        binaryOp .add front back) ∧
      (∃ x, (subscript (.str "aéz") (.int (-1))).run 0 = .ok (x, 0) ∧
        Gives (.str "aéz") [x] (sliceValue (.str "aéz") (some (.int (-1))) none)) ∧
      (subscript (.str "aéz") (.int 3)).run 0 = .error (.indexRange 3) := by
  have sequence : (Value.str "aéz").elements? = some [.str "a", .str "é", .str "z"] := rfl
  obtain ⟨slice, joined, index⟩ := slices_within sequence (by decide)
  exact ⟨sequence, by decide, .number rfl, slice _ _ _ _ (.number (i := -2) rfl) .missing,
    joined (.bool true) 1 rfl, (index (.int (-1)) (-1) rfl 0).1 (by decide),
    (index (.int 3) 3 rfl 0).2 (by decide)⟩

end Host

end Packrat
