import Mathlib.Data.List.TakeWhile
import Packrat.Proofs.Places.Characters

/-
**Lines and columns of offsets.**

The line of an offset is looked up in the table of the places where lines start, and the column is
counted from there.  The table is in order, so the lines that start at or before an offset are the
first ones of it, and the last of these starts behind the last newline before the offset.

Main definitions:

* `Packrat.LineTable.Divides` — the table divided at an offset;
* `Packrat.LineBegin` — where the line of an offset begins;
* `Packrat.Resolves` — a position that is what it should be;
* `Packrat.Position.Before` — the order of lines and columns.

Main results:

* `Packrat.LineTable.divides` — the line of an offset is the last one that starts at or before it;
* `Packrat.LineBegin.unique` — the beginning of a line is determined;
* `Packrat.LineTable.position_resolves` — **lines count the newlines and columns the characters
  before an offset, and a later character has a later position**.
-/

set_option autoImplicit false

namespace Packrat

/-! ### The table -/

namespace LineTable

theorem mem_startsFrom {offset k : Nat} {bytes : List UInt8} :
    k ∈ startsFrom offset bytes ↔ ∃ i, bytes[i]? = some 10 ∧ k = offset + i + 1 := by
  induction bytes generalizing offset with
  | nil => simp [startsFrom]
  | cons b bs ih =>
    have rest : k ∈ startsFrom (offset + 1) bs ↔
        ∃ i, (b :: bs)[i + 1]? = some 10 ∧ k = offset + (i + 1) + 1 := by
      rw [ih]
      refine exists_congr fun i => and_congr Iff.rfl ?_
      omega
    by_cases newline : b = 10
    · rw [startsFrom, if_pos (by simpa using newline), List.mem_cons, rest]
      constructor
      · rintro (rfl | ⟨i, found, rfl⟩)
        · exact ⟨0, by simp [newline], rfl⟩
        · exact ⟨i + 1, found, rfl⟩
      · rintro ⟨_ | i, found, rfl⟩
        · exact .inl rfl
        · exact .inr ⟨i, found, rfl⟩
    · rw [startsFrom, if_neg (by simpa using newline), rest]
      constructor
      · rintro ⟨i, found, rfl⟩
        exact ⟨i + 1, found, rfl⟩
      · rintro ⟨_ | i, found, rfl⟩
        · exact absurd (by simpa using found) newline
        · exact ⟨i, found, rfl⟩

theorem startsFrom_sorted (offset : Nat) (bytes : List UInt8) :
    (startsFrom offset bytes).Pairwise (· < ·) := by
  induction bytes generalizing offset with
  | nil => exact .nil
  | cons b bs ih =>
    rw [startsFrom]
    split
    · refine .cons (fun k hk => ?_) (ih _)
      obtain ⟨i, -, rfl⟩ := mem_startsFrom.1 hk
      omega
    · exact ih _

/-- As many lines start behind newlines at or before an offset as there are newlines before it. -/
theorem countP_startsFrom (offset : Nat) (bytes : List UInt8) (n : Nat) :
    (startsFrom offset bytes).countP (· ≤ offset + n) = (bytes.take n).count 10 := by
  induction bytes generalizing offset n with
  | nil => simp [startsFrom]
  | cons b bs ih =>
    cases n with
    | zero =>
      refine List.countP_eq_zero.2 fun k hk => ?_
      obtain ⟨i, -, rfl⟩ := mem_startsFrom.1 hk
      simp only [decide_eq_true_eq]
      omega
    | succ n =>
      have rest := ih (offset + 1) n
      rw [Nat.add_assoc, Nat.add_comm 1 n] at rest
      rw [startsFrom, List.take_succ_cons, List.count_cons, ← rest]
      split
      · rw [List.countP_cons_of_pos (by simp)]
      · rfl

variable (input : Input)

theorem starts_ofInput : (ofInput input).starts = 0 :: startsFrom 0 input.bytes.data.toList := rfl

theorem starts_sorted : (ofInput input).starts.Pairwise (· < ·) := by
  refine .cons (fun k hk => ?_) (startsFrom_sorted _ _)
  obtain ⟨i, -, rfl⟩ := mem_startsFrom.1 hk
  omega

theorem mem_starts {k : Nat} : k ∈ (ofInput input).starts ↔
    k = 0 ∨ ∃ i, input.bytes.data.toList[i]? = some 10 ∧ k = i + 1 := by
  rw [starts_ofInput, List.mem_cons, mem_startsFrom]
  simp only [Nat.zero_add]

/-- A table divided at an offset: the lines in front of that of the offset, its start, and the lines
behind it. -/
structure Divides (table : LineTable) (index : Nat) (front : List Nat) (start : Nat)
    (back : List Nat) : Prop where
  starts : table.starts = front ++ start :: back
  start_le : start ≤ index
  earlier : ∀ k ∈ front, k < start
  later : ∀ k ∈ back, index < k
  line : table.lineOf index = front.length + 1

theorem lt_of_mem_dropWhile {ks : List Nat} (sorted : ks.Pairwise (· < ·)) {n k : Nat}
    (h : k ∈ ks.dropWhile (· ≤ n)) : n < k := by
  induction ks with
  | nil => simp at h
  | cons x xs ih =>
    rw [List.dropWhile_cons] at h
    split at h
    · exact ih (List.Pairwise.of_cons sorted) h
    · next above =>
      have above : n < x := by simpa using above
      rcases List.mem_cons.1 h with rfl | h
      · exact above
      · exact Nat.lt_trans above (List.rel_of_pairwise_cons sorted h)

/-- The line of an offset is the last one that starts at or before it. -/
theorem divides (index : Nat) :
    ∃ front start back, Divides (ofInput input) index front start back := by
  have sorted := starts_sorted input
  have whole := List.takeWhile_append_dropWhile (p := (· ≤ index)) (l := (ofInput input).starts)
  have upTo : ∀ k ∈ (ofInput input).starts.takeWhile (· ≤ index), k ≤ index := fun k hk => by
    simpa using List.mem_takeWhile_imp hk
  have line : (ofInput input).lineOf index =
    ((ofInput input).starts.takeWhile (· ≤ index)).length := rfl
  have nonempty : (ofInput input).starts.takeWhile (· ≤ index) ≠ [] := by
    simp [starts_ofInput]
  have later := fun k => lt_of_mem_dropWhile sorted (n := index) (k := k)
  generalize (ofInput input).starts.takeWhile (· ≤ index) = taken at whole upTo line nonempty
  generalize (ofInput input).starts.dropWhile (· ≤ index) = back at whole later
  obtain ⟨front, start, rfl⟩ := (List.eq_nil_or_concat taken).resolve_left nonempty
  rw [List.concat_eq_append] at whole upTo line
  refine ⟨front, start, back, by rw [← whole, List.append_assoc]; rfl, upTo start (by simp), ?_, later,
    by simpa using line⟩
  have front_sorted := (List.pairwise_append.1 (whole ▸ sorted)).1
  exact fun k hk => (List.pairwise_append.1 front_sorted).2.2 k hk start (by simp)

namespace Divides

variable {input} {index start : Nat} {front back : List Nat}
  (h : Divides (ofInput input) index front start back)

include h

theorem lineStart : (ofInput input).lineStart ((ofInput input).lineOf index) = start := by
  rw [LineTable.lineStart, h.line, h.starts]
  simp

/-- Lines are counted by the newlines before them. -/
theorem lineOf : (ofInput input).lineOf index = 1 + (input.bytes.data.toList.take index).count 10 := by
  have counted : (ofInput input).starts.countP (· ≤ index) = front.length + 1 := by
    have first : front.countP (· ≤ index) = front.length := List.countP_eq_length.2 fun k hk => by
      have := h.earlier k hk
      have := h.start_le
      simp only [decide_eq_true_eq]
      omega
    have last : back.countP (· ≤ index) = 0 := List.countP_eq_zero.2 fun k hk => by
      simpa using h.later k hk
    rw [h.starts, List.countP_append, List.countP_cons_of_pos (by simpa using h.start_le), first,
      last]
  rw [h.line, ← counted, starts_ofInput, List.countP_cons_of_pos (by simp), Nat.add_comm,
    ← countP_startsFrom 0, Nat.zero_add]

end Divides

end LineTable

/-! ### Where a line begins -/

/-- The line of an offset begins at the beginning of the bytes or behind a newline, and no newline
is between there and the offset. -/
structure LineBegin (bytes : List UInt8) (index start : Nat) : Prop where
  le : start ≤ index
  newline : start = 0 ∨ bytes[start - 1]? = some 10
  inside : ∀ k, start ≤ k → k < index → bytes[k]? ≠ some 10

theorem LineBegin.unique {bytes : List UInt8} {index start start' : Nat}
    (h : LineBegin bytes index start) (h' : LineBegin bytes index start') : start = start' := by
  -- A later beginning would be behind a newline that is not before the other one.
  have least {s t : Nat} (hs : LineBegin bytes index s) (ht : LineBegin bytes index t) : t ≤ s := by
    by_contra later
    have le := ht.le
    rcases ht.newline with rfl | newline
    · omega
    · exact hs.inside (t - 1) (by omega) (by omega) newline
  exact Nat.le_antisymm (least h' h) (least h h')

/-- Offsets without a newline between them are in one line. -/
theorem LineBegin.extend {bytes : List UInt8} {i j start : Nat} (h : LineBegin bytes i start)
    (le : i ≤ j) (none : 10 ∉ (bytes.take j).drop i) : LineBegin bytes j start where
  le := h.le.trans le
  newline := h.newline
  inside k from_ lt newline := by
    by_cases before : k < i
    · exact h.inside k from_ before newline
    · refine none (List.mem_iff_getElem?.2 ⟨k - i, ?_⟩)
      rw [List.getElem?_drop, Nat.add_sub_of_le (by omega), List.getElem?_take_of_lt lt, newline]

theorem LineTable.Divides.lineBegin {input : Input} {index start : Nat} {front back : List Nat}
    (h : Divides (ofInput input) index front start back) :
    LineBegin input.bytes.data.toList index start where
  le := h.start_le
  newline := by
    have mem : start ∈ (ofInput input).starts := by simp [h.starts]
    rcases (mem_starts input).1 mem with rfl | ⟨k, newline, rfl⟩
    · exact .inl rfl
    · exact .inr newline
  inside k le lt newline := by
    have mem : k + 1 ∈ (ofInput input).starts := (mem_starts input).2 (.inr ⟨k, newline, rfl⟩)
    rw [h.starts, List.mem_append, List.mem_cons] at mem
    rcases mem with mem | same | mem
    · have := h.earlier _ mem
      omega
    · omega
    · have := h.later _ mem
      omega

/-! ### Columns -/

theorem countP_lt_add (ks : List Nat) {start stop : Nat} (h : start ≤ stop) :
    ks.countP (· < start) + ks.countP (fun k => start ≤ k ∧ k < stop) = ks.countP (· < stop) := by
  induction ks with
  | nil => rfl
  | cons k ks ih =>
    simp only [List.countP_cons, decide_eq_true_eq]
    split <;> split <;> split <;> omega

namespace Input

theorem countP_range_lt (size n : Nat) : (List.range size).countP (· < n) = min n size := by
  induction size with
  | zero => simp
  | succ size ih =>
    rw [List.range_succ, List.countP_append, ih, List.countP_singleton]
    simp only [decide_eq_true_eq]
    split <;> omega

theorem countP_charStarts_text (s : String) (n : Nat) :
    (Input.text s).charStarts.countP (· < n) =
      LineTable.countChars ((Input.text s).bytes.data.toList.take n) := by
  rw [LineTable.countChars, Input.bytes, Text.toUTF8_eq_encode, Text.countP_take_encode 0]
  simp [charStarts]

/-- Columns count the characters that begin behind the beginning of the line. -/
theorem column_eq (input : Input) {start stop : Nat} (h : start ≤ stop) (inside : stop ≤ input.size) :
    (if input.isBinary then stop - start
      else LineTable.countChars (Input.between input.bytes start stop)) =
      input.charStarts.countP fun k => start ≤ k ∧ k < stop := by
  have split := countP_lt_add input.charStarts h
  cases input with
  | text s =>
    have apart := List.take_append_drop start ((Input.text s).bytes.data.toList.take stop)
    rw [List.take_take, Nat.min_eq_left h] at apart
    have chars := congrArg LineTable.countChars apart
    rw [LineTable.countChars, List.countP_append] at chars
    rw [countP_charStarts_text, countP_charStarts_text] at split
    rw [if_neg (by simp [isBinary]), between_eq]
    simp only [LineTable.countChars] at *
    omega
  | binary bytes =>
    have size : (Input.binary bytes).size = bytes.size := rfl
    rw [charStarts, countP_range_lt, countP_range_lt] at split
    rw [isBinary, if_pos rfl, charStarts]
    omega

end Input

/-! ### Positions -/

/-- A position tells where an offset of an input lies; offsets beyond the input stand for its end. -/
structure Resolves (input : Input) (index : Nat) (p : Position) : Prop where
  index : p.index = min index input.size
  /-- The line counts the newlines before the offset. -/
  line : p.line = 1 + (input.bytes.data.toList.take p.index).count 10
  /-- The column counts the characters that begin between the beginning of the line and the
  offset. -/
  column : ∃ start, LineBegin input.bytes.data.toList p.index start ∧
    p.column = 1 + input.charStarts.countP fun k => start ≤ k ∧ k < p.index

/-- The order of lines, and of columns in a line. -/
def Position.Before (p q : Position) : Prop :=
  p.line < q.line ∨ p.line = q.line ∧ p.column < q.column

theorem LineTable.resolves (input : Input) (index : Nat) :
    Resolves input index ((ofInput input).position input index) := by
  obtain ⟨front, start, back, divides⟩ := divides input (min index input.size)
  refine ⟨rfl, ?_, start, divides.lineBegin, ?_⟩
  · exact divides.lineOf
  · have column := Input.column_eq input divides.start_le (Nat.min_le_right _ _)
    simp only [position, divides.lineStart]
    rw [column, Nat.add_comm]

/-- The beginning of a character comes before whatever is behind it. -/
theorem Resolves.before {input : Input} {i j : Nat} {p q : Position} (hp : Resolves input i p)
    (hq : Resolves input j q) (boundary : input.IsBoundary p.index) (lt : p.index < q.index) :
    p.Before q := by
  have inside : q.index ≤ input.size := hq.index ▸ Nat.min_le_right _ _
  have apart := List.take_append_drop p.index (input.bytes.data.toList.take q.index)
  rw [List.take_take, Nat.min_eq_left (Nat.le_of_lt lt)] at apart
  have lines := congrArg (List.count 10) apart
  rw [List.count_append] at lines
  have lineP := hp.line
  have lineQ := hq.line
  by_cases newline : 10 ∈ (input.bytes.data.toList.take q.index).drop p.index
  · have := List.count_pos_iff.2 newline
    exact .inl (by omega)
  · have none := List.count_eq_zero.2 newline
    obtain ⟨start, begin, columnP⟩ := hp.column
    obtain ⟨start', begin', columnQ⟩ := hq.column
    obtain rfl := (begin.extend (Nat.le_of_lt lt) newline).unique begin'
    -- The character at the first offset counts for the second one only.
    have start_mem : p.index ∈ input.charStarts := boundary.resolve_right (by omega)
    have first := countP_lt_add input.charStarts begin.le
    have second := countP_lt_add input.charStarts begin'.le
    have both := countP_lt_add input.charStarts (Nat.le_of_lt lt)
    have one : 0 < input.charStarts.countP fun k => p.index ≤ k ∧ k < q.index :=
      List.countP_pos_iff.2 ⟨_, start_mem, by simpa using lt⟩
    exact .inr ⟨by omega, by omega⟩

theorem Input.IsBoundary.le_size {input : Input} {i : Nat} (h : input.IsBoundary i) :
    i ≤ input.size := by
  rcases h with h | rfl
  · cases input with
    | text s =>
      obtain ⟨before, c, after, split, rfl⟩ := Text.mem_offsets.1 h
      rw [size_text, ← Text.byteLength_toList, split, Scan.byteLength_append]
      omega
    | binary bytes => exact Nat.le_of_lt (List.mem_range.1 h)
  · exact Nat.le_refl _

/-- **A position tells the line and the column of an offset**: the line by the newlines before it
and the column by the characters since the last of them. Of two offsets that are not inside of a
character the first one has the smaller position. -/
theorem LineTable.position_resolves (input : Input) :
    (∀ index, Resolves input index ((ofInput input).position input index)) ∧
    ∀ i j, input.IsBoundary i → input.IsBoundary j → i < j →
      ((ofInput input).position input i).Before ((ofInput input).position input j) := by
  refine ⟨resolves input, fun i j boundary boundary' lt => ?_⟩
  have place {k : Nat} (h : input.IsBoundary k) : ((ofInput input).position input k).index = k :=
    Nat.min_eq_left h.le_size
  refine (resolves input i).before (resolves input j) ?_ ?_
  · rwa [place boundary]
  · rwa [place boundary, place boundary']

/-- A newline ends a line: behind it a character comes later than one of two bytes in front. -/
theorem LineTable.position_resolves_accent :
    let input := Input.text (String.ofList ['é', '\n', 'x'])
    input.IsBoundary 0 ∧ input.IsBoundary 3 ∧ 0 < 3 ∧
      ((ofInput input).position input 0).Before ((ofInput input).position input 3) := by
  intro input
  have starts : input.charStarts = [0, 2, 3] := by
    simp [input, Input.charStarts, Text.offsets]
    decide
  have first : input.IsBoundary 0 := .inl (by simp [starts])
  have second : input.IsBoundary 3 := .inl (by simp [starts])
  exact ⟨first, second, by decide, (position_resolves input).2 0 3 first second (by decide)⟩

end Packrat
