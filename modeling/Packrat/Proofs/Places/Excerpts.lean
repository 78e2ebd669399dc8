import Packrat.Input.Excerpt
import Packrat.Proofs.Places.Lines

/-
**Excerpts of texts.**

An excerpt shows the line around a position, which the line table gives in bytes, and cuts it by
characters.  A line begins and ends at newlines and those are characters of their own, so its bounds
are no offsets inside of characters.  The position may be one, or be in what has been stripped from
the line; it is moved to a character of the line before the line is split there.

Main definitions:

* `Packrat.LineEnd` — where the line of an offset ends;
* `Packrat.Text.Splits` — a text split at an offset;
* `Packrat.Excerpt.LineAround` — the line of a text around an offset;
* `Packrat.Excerpt.ShowsLeft`, `Packrat.Excerpt.ShowsRight` — what is shown of the sides of a line;
* `Packrat.Excerpt.Parts`, `Packrat.Excerpt.Shows` — what an excerpt is made of and what it shows.

Main results:

* `Packrat.Text.splits_floorBoundary` — an offset is moved to the beginning of its character;
* `Packrat.Excerpt.exists_line` — the bytes of a line are characters of the text;
* `Packrat.Excerpt.trimSides_shows` — the two sides share the width;
* `Packrat.Excerpt.excerpt_shows` — **an excerpt shows the line around the position, as much of it
  as fits, with the caret below the position, and no slice goes wrong**.
-/

set_option autoImplicit false

namespace Packrat

open Scan

/-! ### Splitting a text at an offset -/

namespace Text

theorem splitAt?_zero (cs : List Char) : splitAt? 0 cs = some ([], cs) := by
  rw [splitAt?]

theorem splitAt?_byteLength (before after : List Char) :
    splitAt? (byteLength before) (before ++ after) = some (before, after) := by
  induction before with
  | nil => exact splitAt?_zero after
  | cons c before ih =>
    obtain ⟨n, size⟩ : ∃ n, byteLength (c :: before) = n + 1 :=
      Nat.exists_eq_succ_of_ne_zero (by have := c.utf8Size_pos; rw [byteLength]; omega)
    rw [size, List.cons_append, splitAt?]
    rw [byteLength] at size
    rw [if_pos (by omega), ← size, Nat.add_sub_cancel_left, ih]
    rfl

theorem of_splitAt?_eq_some {n : Nat} {cs before after : List Char}
    (h : splitAt? n cs = some (before, after)) : cs = before ++ after ∧ byteLength before = n := by
  fun_induction splitAt? n cs generalizing before with
  | case1 cs =>
    obtain ⟨rfl, rfl⟩ : [] = before ∧ cs = after := by simpa using h
    exact ⟨rfl, rfl⟩
  | case2 => simp at h
  | case3 n c cs fits ih =>
    obtain ⟨⟨front, rest⟩, found, same⟩ := Option.map_eq_some_iff.1 h
    obtain ⟨rfl, rfl⟩ : c :: front = before ∧ rest = after := by simpa using same
    obtain ⟨rfl, length⟩ := ih found
    exact ⟨rfl, by rw [byteLength]; omega⟩
  | case4 => simp at h

theorem slice?_eq (front part back : List Char) :
    slice? (byteLength front) (byteLength (front ++ part)) (front ++ part ++ back) = some part := by
  rw [slice?, if_pos (by rw [byteLength_append]; omega), byteLength_append, Nat.add_sub_cancel_left,
    List.append_assoc, splitAt?_byteLength]
  simp [splitAt?_byteLength]

/-- A text is split at an offset; inside of a character that is at its beginning, and beyond the end
at the end. -/
structure Splits (cs : List Char) (n : Nat) (before after : List Char) : Prop where
  whole : cs = before ++ after
  before_le : byteLength before ≤ n
  inside : ∀ c rest, after = c :: rest → n < byteLength before + c.utf8Size

/-- An offset is moved to the beginning of the character that it lies in. -/
theorem splits_floorBoundary {cs : List Char} {n : Nat} (h : n ≤ byteLength cs) :
    ∃ before after, Splits cs n before after ∧ floorBoundary cs n = byteLength before := by
  induction n with
  | zero => exact ⟨[], cs, ⟨rfl, Nat.le_refl _, fun c _ _ => by simpa [byteLength] using c.utf8Size_pos⟩, rfl⟩
  | succ n ih =>
    rw [floorBoundary]
    split
    · next boundary =>
      obtain ⟨⟨before, after⟩, found⟩ := Option.isSome_iff_exists.1 boundary
      obtain ⟨rfl, length⟩ := of_splitAt?_eq_some found
      refine ⟨before, after, ⟨rfl, by omega, fun c _ _ => ?_⟩, length.symm⟩
      have := c.utf8Size_pos
      omega
    · next inside =>
      obtain ⟨before, after, splits, floor⟩ := ih (by omega)
      refine ⟨before, after, ⟨splits.whole, Nat.le_succ_of_le splits.before_le, ?_⟩, floor⟩
      rintro c rest rfl
      have lt := splits.inside c rest rfl
      -- If the character ended at the offset, the offset would be a boundary.
      by_contra ge
      have ends : n + 1 = byteLength (before ++ [c]) := by
        rw [byteLength_append, byteLength, byteLength]
        omega
      have whole : cs = (before ++ [c]) ++ rest := by simpa using splits.whole
      exact inside (by rw [ends, whole, splitAt?_byteLength]; rfl)

/-- What is beyond the end of a text counts as its end. -/
theorem Splits.of_min {cs before after : List Char} {n : Nat}
    (h : Splits cs (min n (byteLength cs)) before after) : Splits cs n before after where
  whole := h.whole
  before_le := Nat.le_trans h.before_le (Nat.min_le_left _ _)
  inside c rest behind := by
    have lt := h.inside c rest behind
    have size := congrArg byteLength h.whole
    rw [behind, byteLength_append, byteLength] at size
    omega

end Text

/-! ### Where a line ends -/

/-- The line of an offset ends at a newline or at the end of the bytes, and no newline is between
the offset and there. -/
structure LineEnd (bytes : List UInt8) (index stop : Nat) : Prop where
  le : index ≤ stop
  newline : stop = bytes.length ∨ bytes[stop]? = some 10
  inside : ∀ k, index ≤ k → k < stop → bytes[k]? ≠ some 10

theorem LineTable.Divides.lineBounds? {input : Input} {index start : Nat} {front back : List Nat}
    (h : Divides (ofInput input) index front start back) (le : index ≤ input.size) :
    ∃ stop, (ofInput input).lineBounds? input ((ofInput input).lineOf index) = some (start, stop) ∧
      LineEnd input.bytes.data.toList index stop := by
  have here : (ofInput input).starts[front.length]? = some start := by simp [h.starts]
  have next : (ofInput input).starts[front.length + 1]? = back.head? := by
    rw [h.starts, List.getElem?_append_right (by omega), Nat.add_sub_cancel_left,
      List.getElem?_cons_succ, List.head?_eq_getElem?]
  -- A newline at or behind the offset puts the start of a line behind that of the offset.
  have behind {k : Nat} (ge : index ≤ k) (newline : input.bytes.data.toList[k]? = some 10) :
      k + 1 ∈ back := by
    have mem : k + 1 ∈ (ofInput input).starts := (mem_starts input).2 (.inr ⟨k, newline, rfl⟩)
    rw [h.starts, List.mem_append, List.mem_cons] at mem
    have := h.start_le
    rcases mem with mem | same | mem
    · have := h.earlier _ mem
      omega
    · omega
    · exact mem
  rw [h.line, LineTable.lineBounds?, here, Option.bind_eq_bind, Option.bind_some, next]
  cases back with
  | nil => exact ⟨_, rfl, le, .inl rfl, fun k ge _ newline => by simpa using behind ge newline⟩
  | cons x xs =>
    have sorted : (x :: xs).Pairwise (· < ·) := by
      have := starts_sorted input
      rw [h.starts] at this
      exact List.Pairwise.of_cons (List.pairwise_append.1 this).2.1
    have later := h.later x List.mem_cons_self
    obtain ⟨k, newline, rfl⟩ : ∃ k, input.bytes.data.toList[k]? = some 10 ∧ x = k + 1 :=
      ((mem_starts input).1 (by simp [h.starts])).resolve_left (by omega)
    refine ⟨_, rfl, by omega, .inr newline, fun j ge lt found => ?_⟩
    rcases List.mem_cons.1 (behind ge found) with same | mem
    · omega
    · have := List.rel_of_pairwise_cons sorted mem
      omega

namespace Excerpt

/-! ### The line around an offset -/

/-- The line of a text in which an offset lies: what is in front of it, the line as it is shown, the
carriage returns behind that, and what is behind the line, with its newline. -/
structure LineAround (cs : List Char) (index : Nat) (front line returns back : List Char) :
    Prop where
  whole : cs = front ++ (line ++ returns) ++ back
  begins : front = [] ∨ ∃ earlier, front = earlier ++ ['\n']
  ends : back = [] ∨ ∃ later, back = '\n' :: later
  newline : '\n' ∉ line
  returned : ∀ c ∈ returns, c = '\r'
  stripped : line.getLast? ≠ some '\r'
  le : byteLength front ≤ index
  ge : index ≤ byteLength (front ++ (line ++ returns))

/-- The bytes of a line are the characters from a newline to the next one. -/
theorem exists_line {cs : List Char} {index start stop : Nat}
    (first : LineBegin (Text.encode cs) index start) (last : LineEnd (Text.encode cs) index stop) :
    ∃ front body back, cs = front ++ body ++ back ∧ byteLength front = start ∧
      byteLength (front ++ body) = stop ∧ (front = [] ∨ ∃ earlier, front = earlier ++ ['\n']) ∧
      (back = [] ∨ ∃ later, back = '\n' :: later) ∧ '\n' ∉ body := by
  have ordered : start ≤ stop := Nat.le_trans first.le last.le
  obtain ⟨front, rest, whole, length, begins⟩ : ∃ front rest, cs = front ++ rest ∧
      byteLength front = start ∧ (front = [] ∨ ∃ earlier, front = earlier ++ ['\n']) := by
    rcases Nat.eq_zero_or_pos start with rfl | positive
    · exact ⟨[], cs, rfl, rfl, .inl rfl⟩
    · have newline := first.newline.resolve_left (Nat.ne_of_gt positive)
      obtain ⟨before, after, rfl, length⟩ := Text.newline_iff.1 newline
      have one : byteLength ['\n'] = 1 := rfl
      refine ⟨before ++ ['\n'], after, by simp, ?_, .inr ⟨before, rfl⟩⟩
      rw [byteLength_append]
      omega
  obtain ⟨upTo, back, whole', length', ends⟩ : ∃ upTo back, cs = upTo ++ back ∧
      byteLength upTo = stop ∧ (back = [] ∨ ∃ later, back = '\n' :: later) := by
    rcases last.newline with rfl | newline
    · exact ⟨cs, [], by simp, by simp, .inl rfl⟩
    · obtain ⟨before, after, rfl, length'⟩ := Text.newline_iff.1 newline
      exact ⟨before, '\n' :: after, rfl, length', .inr ⟨after, rfl⟩⟩
  obtain ⟨body, rfl⟩ : ∃ body, upTo = front ++ body := by
    rcases List.append_eq_append_iff.1 (whole.symm.trans whole') with ⟨body, same, -⟩ | ⟨more, same, -⟩
    · exact ⟨body, same⟩
    · -- What would be in front of the line but behind its end takes no bytes.
      rw [same, byteLength_append] at length
      cases more with
      | nil => exact ⟨[], by simpa using same.symm⟩
      | cons c more =>
        have := c.utf8Size_pos
        rw [byteLength] at length
        omega
  refine ⟨front, body, back, whole', length, length', begins, ends, fun newline => ?_⟩
  obtain ⟨before, after, rfl⟩ := List.append_of_mem newline
  have found : (Text.encode cs)[byteLength (front ++ before)]? = some 10 :=
    Text.newline_iff.2 ⟨front ++ before, after ++ back, by simp [whole'], rfl⟩
  have one : byteLength ('\n' :: after) = 1 + byteLength after := rfl
  rw [byteLength_append, byteLength_append, one] at length'
  rw [byteLength_append] at found
  by_cases lt : byteLength front + byteLength before < index
  · exact first.inside _ (by omega) lt found
  · exact last.inside _ (by omega) (by omega) found

/-- The carriage returns at the end of a line are stripped, and nothing else. -/
theorem stripReturns_spec (body : List Char) : ∃ returns, body = stripReturns body ++ returns ∧
    (∀ c ∈ returns, c = '\r') ∧ (stripReturns body).getLast? ≠ some '\r' := by
  have split := congrArg List.reverse
    (List.takeWhile_append_dropWhile (p := (· == '\r')) (l := body.reverse))
  rw [List.reverse_append, List.reverse_reverse] at split
  refine ⟨_, split.symm, fun c hc => ?_, ?_⟩
  · simpa using List.mem_takeWhile_imp (List.mem_reverse.1 hc)
  · rw [stripReturns, List.getLast?_reverse]
    intro last
    have := List.head?_dropWhile_not (· == '\r') body.reverse
    simp [last] at this

/-! ### Trimming -/

/-- What is shown of the side of a line before a position: all of it, or its last characters behind
an ellipsis. -/
def ShowsLeft (half : Nat) (side shown : List Char) : Prop :=
  side.length ≤ half ∧ shown = side ∨
    ∃ left kept, side = left ++ kept ∧ left ≠ [] ∧ kept.length = half ∧ shown = ellipsis ++ kept

/-- What is shown of the side behind a position: all of it, or its first characters before an
ellipsis. -/
def ShowsRight (half : Nat) (side shown : List Char) : Prop :=
  side.length ≤ half ∧ shown = side ∨
    ∃ kept left, side = kept ++ left ∧ left ≠ [] ∧ kept.length = half ∧ shown = kept ++ ellipsis

theorem ShowsLeft.length_le {half : Nat} {side shown : List Char} (h : ShowsLeft half side shown) :
    shown.length ≤ half + 3 := by
  rcases h with ⟨le, rfl⟩ | ⟨left, kept, -, -, length, rfl⟩
  · omega
  · simp [ellipsis, length]

theorem ShowsRight.length_le {half : Nat} {side shown : List Char}
    (h : ShowsRight half side shown) : shown.length ≤ half + 3 := by
  rcases h with ⟨le, rfl⟩ | ⟨kept, left, -, -, length, rfl⟩
  · omega
  · simp [ellipsis, length]

/-- Sides that are too wide together each get half of the width that two ellipses leave. -/
theorem trimSides_shows {before after : List Char} {width : Nat}
    (long : width < before.length + after.length) :
    ShowsLeft ((width - 6) / 2) before (trimSides before after width).1 ∧
      ShowsRight ((width - 6) / 2) after (trimSides before after width).2 := by
  have six : width - 2 * ellipsis.length = width - 6 := rfl
  rw [trimSides, if_neg (by omega), six]
  constructor
  · dsimp only
    split
    · next cut =>
      refine .inr ⟨_, _, (List.take_append_drop _ _).symm, ?_, ?_, rfl⟩
      · simp only [ne_eq, List.take_eq_nil_iff, not_or]
        refine ⟨by omega, ?_⟩
        rintro rfl
        simp at cut
      · rw [List.length_drop]
        omega
    · next fits => exact .inl ⟨by omega, rfl⟩
  · dsimp only
    split
    · next cut =>
      refine .inr ⟨_, _, (List.take_append_drop _ _).symm, ?_, ?_, rfl⟩
      · simpa using cut
      · rw [List.length_take]
        omega
    · next fits => exact .inl ⟨by omega, rfl⟩

theorem ShowsLeft.mem {half : Nat} {side shown : List Char} (h : ShowsLeft half side shown) {c : Char}
    (hc : c ∈ shown) : c ∈ side ∨ c = '.' := by
  rcases h with ⟨-, rfl⟩ | ⟨left, kept, rfl, -, -, rfl⟩
  · exact .inl hc
  · rcases List.mem_append.1 hc with dot | hc
    · exact .inr (by simpa [ellipsis] using dot)
    · exact .inl (List.mem_append_right _ hc)

theorem ShowsRight.mem {half : Nat} {side shown : List Char} (h : ShowsRight half side shown)
    {c : Char} (hc : c ∈ shown) : c ∈ side ∨ c = '.' := by
  rcases h with ⟨-, rfl⟩ | ⟨kept, left, rfl, -, -, rfl⟩
  · exact .inl hc
  · rcases List.mem_append.1 hc with hc | dot
    · exact .inl (List.mem_append_left _ hc)
    · exact .inr (by simpa [ellipsis] using dot)

/-! ### Excerpts -/

/-- The characters that the excerpt at an offset is made of. -/
structure Parts where
  /-- What is in front of the line. -/
  front : List Char
  /-- The line as it is shown. -/
  line : List Char
  /-- The carriage returns at its end. -/
  returns : List Char
  /-- What is behind the line, with its newline. -/
  back : List Char
  /-- The line in front of the offset. -/
  before : List Char
  /-- The line from the offset on. -/
  after : List Char
  /-- What is shown of the line in front of the offset. -/
  left : List Char
  /-- What is shown of the line from the offset on. -/
  right : List Char

section Shown

variable [Text.Display]

/-- What the excerpt of a text shows: of the line around an offset, split there into two sides, a part
of each, and a caret below the end of the first one. -/
structure Shows (cs : List Char) (index width : Nat) (p : Parts) (shown : String) : Prop where
  around : LineAround cs index p.front p.line p.returns p.back
  sides : Text.Splits p.line (index - byteLength p.front) p.before p.after
  whole : p.line.length ≤ width → p.left = p.before ∧ p.right = p.after
  cut : width < p.line.length →
    ShowsLeft ((width - 6) / 2) p.before p.left ∧ ShowsRight ((width - 6) / 2) p.after p.right
  narrow : (p.left ++ p.right).length ≤ width
  first : '\n' ∉ p.left ++ p.right
  shown : shown.toList = (p.left ++ p.right) ++ '\n' ::
    (List.replicate (Text.columns (String.ofList p.left)) ' ' ++ ['^'])

/-- The two sides of a line as they are shown. -/
theorem shows_trimSides {cs : List Char} {index width : Nat}
    {front line returns back before after : List Char} (wide : 6 ≤ width)
    (around : LineAround cs index front line returns back)
    (sides : Text.Splits line (index - byteLength front) before after) :
    Shows cs index width ⟨front, line, returns, back, before, after,
        (trimSides before after width).1, (trimSides before after width).2⟩
      (withCaret (String.ofList ((trimSides before after width).1 ++
          (trimSides before after width).2))
        (Text.columns (String.ofList (trimSides before after width).1))) := by
  have length : line.length = before.length + after.length := by
    rw [sides.whole, List.length_append]
  have fits (short : line.length ≤ width) : trimSides before after width = (before, after) :=
    trimSides_of_le (by omega)
  have cut (long : width < line.length) := trimSides_shows (length ▸ long)
  have inLine {c : Char} (hc : c ∈ before ∨ c ∈ after) : c ∈ line := by
    rw [sides.whole]
    exact List.mem_append.2 hc
  refine ⟨around, sides, fun short => by simp [fits short], cut, ?_, fun newline => ?_, ?_⟩
  · by_cases short : line.length ≤ width
    · simpa [fits short, length] using short
    · have left := (cut (by omega)).1.length_le
      have right := (cut (by omega)).2.length_le
      simp only [List.length_append]
      omega
  · by_cases short : line.length ≤ width
    · rw [fits short] at newline
      exact around.newline (inLine (List.mem_append.1 newline))
    · obtain ⟨left, right⟩ := cut (by omega)
      rcases List.mem_append.1 newline with newline | newline
      · exact around.newline (inLine (.inl ((left.mem newline).resolve_right (by decide))))
      · exact around.newline (inLine (.inr ((right.mem newline).resolve_right (by decide))))
  · simp [withCaret]

/-- **An excerpt shows the line around a position**: all of it if it fits, and otherwise on either
side of the position what half of the width leaves room for. The caret is below the character at
the position. The bounds of the line and the place where it is split are no offsets inside of a
character. -/
theorem excerpt_shows (s : String) (index : Nat) {width : Nat} (wide : 6 ≤ width) :
    ∃ (p : Parts) (shown : String), Shows s.toList (min index s.utf8ByteSize) width p shown ∧
      (LineTable.ofInput (.text s)).lineBounds? (.text s)
        ((LineTable.ofInput (.text s)).position (.text s) index).line =
          some (byteLength p.front, byteLength (p.front ++ (p.line ++ p.returns))) ∧
      Text.slice? (byteLength p.front) (byteLength (p.front ++ (p.line ++ p.returns))) s.toList =
        some (p.line ++ p.returns) ∧
      excerpt? (.text s) (LineTable.ofInput (.text s))
        ((LineTable.ofInput (.text s)).position (.text s) index) width = some shown ∧
      excerpt (.text s) (LineTable.ofInput (.text s))
        ((LineTable.ofInput (.text s)).position (.text s) index) width = shown := by
  let table := LineTable.ofInput (.text s)
  let position := table.position (.text s) index
  have offset : position.index = min index s.utf8ByteSize := by
    rw [← Input.size_text]
    rfl
  have inside : position.index ≤ (Input.text s).size := Nat.min_le_right _ _
  obtain ⟨front', start, back', divides⟩ := LineTable.divides (.text s) position.index
  obtain ⟨stop, bounds, last⟩ := divides.lineBounds? inside
  have first := divides.lineBegin
  have bytes : (Input.text s).bytes.data.toList = Text.encode s.toList := Text.toUTF8_eq_encode s
  rw [bytes] at first last
  obtain ⟨front, body, back, whole, rfl, rfl, begins, ends, newline⟩ := exists_line first last
  obtain ⟨returns, strip, returned, stripped⟩ := stripReturns_spec body
  have around : LineAround s.toList position.index front (stripReturns body) returns back := by
    refine ⟨by rw [← strip, whole], begins, ends, fun mem => newline ?_, returned, stripped,
      first.le, by rw [← strip]; exact last.le⟩
    rw [strip]
    exact List.mem_append_left _ mem
  obtain ⟨before, after, splits, floor⟩ := Text.splits_floorBoundary
    (Nat.min_le_right (position.index - byteLength front) (byteLength (stripReturns body)))
  have shows := shows_trimSides wide around splits.of_min
  rw [offset] at shows
  have slice : Text.slice? (byteLength front) (byteLength (front ++ body)) s.toList = some body := by
    rw [whole, Text.slice?_eq]
  have split : Text.splitAt? (byteLength before) (stripReturns body) = some (before, after) := by
    rw [splits.whole, Text.splitAt?_byteLength]
  have found : excerpt? (.text s) table position width = some (withCaret
      (String.ofList ((trimSides before after width).1 ++ (trimSides before after width).2))
      (Text.columns (String.ofList (trimSides before after width).1))) := by
    have bounds : table.lineBounds? (.text s) position.line =
      some (byteLength front, byteLength (front ++ body)) := bounds
    rw [excerpt?, ofText?]
    refine Option.bind_eq_some_iff.2 ⟨_, bounds, ?_⟩
    dsimp only
    refine Option.bind_eq_some_iff.2 ⟨(), if_pos first.le, ?_⟩
    rw [slice, Option.getD_some, floor]
    exact Option.bind_eq_some_iff.2 ⟨_, split, rfl⟩
  refine ⟨_, _, shows, ?_, ?_, found, by rw [excerpt, found]; rfl⟩
  · rw [← strip]
    exact bounds
  · rw [← strip]
    exact slice

end Shown

/-- A line that is too wide, and a position inside of one of its characters. -/
def wideLine : String :=
  String.ofList (['a', '\n'] ++ List.replicate 9 'x' ++ ['é'] ++ List.replicate 9 'x' ++
    ['\r', '\n', 'b'])

/-- The excerpt cuts the line on both sides. -/
theorem excerpt_shows_wideLine : 6 ≤ 16 ∧
    (∃ p : Parts, Shows wideLine.toList 12 16 p
      (excerpt (.text wideLine) (LineTable.ofInput (.text wideLine))
        ((LineTable.ofInput (.text wideLine)).position (.text wideLine) 12) 16)) ∧
    excerpt (.text wideLine) (LineTable.ofInput (.text wideLine))
      ((LineTable.ofInput (.text wideLine)).position (.text wideLine) 12) 16 =
        "...xxxxxéxxxx...\n        ^" := by
  obtain ⟨p, _, shows, -, -, -, rfl⟩ := @excerpt_shows _ wideLine 12 16 (by decide)
  exact ⟨by decide, ⟨p, shows⟩, by decide +kernel⟩

end Excerpt

end Packrat
