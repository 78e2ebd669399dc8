import Packrat.Proofs.Notation.Readers
import Packrat.Text.Blank

/-
**Blanks behind a text.**

A reader that stops at blanks does the same whether or not more blanks stand at the end of the
text.  Two readers are run side by side, one on a text and one on the same text with blanks behind
it, and they stay in step: both refuse, or both read the same and leave the same rest up to those
blanks.  The bounds that readers take from the length of their text may differ between the two.

Main definitions:

* `Packrat.Scan.Padded` — a cursor whose text is that of another with blanks behind it;
* `Packrat.Scan.Takes` — how far a reader moves: anywhere, or over a first character that is no
  blank;
* `Packrat.Scan.InStep` — readers that stay in step on texts below certain lengths.

Main results:

* `Packrat.Scan.InStep.bind`, `Packrat.Scan.InStep.many` — readers built of others stay in step.
-/

set_option autoImplicit false

namespace Packrat.Scan

variable {α β γ : Type}

/-- A text of blanks. -/
def AllBlank (cs : List Char) : Prop := ∀ c ∈ cs, Text.isBlank c = true

theorem AllBlank.suffix {cs ds : List Char} (h : AllBlank cs) (le : ds <:+ cs) : AllBlank ds :=
  fun c hc => h c (le.mem hc)

theorem AllBlank.head {cs : List Char} (h : AllBlank cs) {c : Char} (head : cs.head? = some c) :
    Text.isBlank c = true := by
  obtain ⟨t, rfl⟩ := List.head?_eq_some_iff.1 head
  exact h c (by simp)

theorem isWordChar_of_isBlank {c : Char} (h : Text.isBlank c = true) : isWordChar c = false :=
  Bool.eq_false_iff.2 fun word => by simp [isBlank_of_isWordChar word] at h

/-- A cursor whose text is that of another with blanks behind it. The two agree on whether a
numeral was noted. -/
structure Padded (a b : Cursor) : Prop where
  rest : ∃ t, AllBlank t ∧ a.rest = b.rest ++ t
  misfit : a.misfit? = none ↔ b.misfit? = none

/-- How far a reader moves. -/
inductive Gait where
  /-- Anywhere in the text. -/
  | free
  /-- Not at all, or over a character that is no blank. -/
  | lazy
  /-- Over a character that is no blank. -/
  | eager

/-- A text begins with a character that is no blank, and less of it is left. -/
structure TakesSolid (cs rest : List Char) : Prop where
  shorter : rest.length < cs.length
  solid : ∃ c t, cs = c :: t ∧ Text.isBlank c = false

/-- What a reader of a gait leaves of a text. -/
def Takes : Gait → List Char → List Char → Prop
  | .free, cs, rest => rest.length ≤ cs.length
  | .lazy, cs, rest => rest = cs ∨ TakesSolid cs rest
  | .eager, cs, rest => TakesSolid cs rest

theorem Takes.length_le {g : Gait} {cs rest : List Char} (h : Takes g cs rest) :
    rest.length ≤ cs.length := by
  cases g with
  | free => exact h
  | lazy =>
    rcases h with rfl | h
    · exact Nat.le_refl _
    · exact Nat.le_of_lt h.shorter
  | eager => exact Nat.le_of_lt h.shorter

/-- What two readers have done at two cursors: both have refused, or both have read the same and
their cursors still differ by blanks at the end only. -/
inductive Agree (g : Gait) (a b : Cursor) :
    Option (α × Cursor) → Option (α × Cursor) → Prop where
  | refused : Agree g a b none none
  | read (x : α) {a' b' : Cursor} (padded : Padded a' b') (left : Takes g a.rest a'.rest)
      (right : Takes g b.rest b'.rest) : Agree g a b (some (x, a')) (some (x, b'))

/-- Two readers that stay in step, one on texts of less than `m` characters and the other on the
same texts without some blanks at the end, of less than `n`. -/
def InStep (m n : Nat) (g : Gait) (r s : Reader α) : Prop :=
  ∀ a b : Cursor, a.rest.length < m → b.rest.length < n → Padded a b →
    Agree g a b (r.run a) (s.run b)

namespace InStep

variable {m n : Nat} {g : Gait} {r s : Reader α}

theorem mono {m' n' : Nat} (h : InStep m n g r s) (hm : m' ≤ m) (hn : n' ≤ n) :
    InStep m' n' g r s :=
  fun a b short short' => h a b (Nat.lt_of_lt_of_le short hm) (Nat.lt_of_lt_of_le short' hn)

theorem free (h : InStep m n g r s) : InStep m n .free r s := fun a b short short' padded => by
  have agree := h a b short short' padded
  generalize r.run a = x at agree
  generalize s.run b = y at agree
  cases agree with
  | refused => exact .refused
  | read x padded left right => exact .read x padded left.length_le right.length_le

theorem pure (x : α) : InStep m n .lazy (Pure.pure x : Reader α) (Pure.pure x) :=
  fun _ _ _ _ padded => .read x padded (.inl rfl) (.inl rfl)

theorem failure : InStep m n g (failure : Reader α) failure := fun _ _ _ _ _ => .refused

/-- Behind a reader that moves anywhere, another that does. -/
theorem bind_free {f f' : α → Reader β} (h : InStep m n .free r s)
    (next : ∀ x, InStep m n .free (f x) (f' x)) : InStep m n .free (r >>= f) (s >>= f') :=
  fun a b short short' padded => by
    rw [run_bind, run_bind]
    have agree := h a b short short' padded
    generalize r.run a = x at agree
    generalize s.run b = y at agree
    cases agree with
    | refused => exact .refused
    | @read x a' b' padded left right =>
      have agree := next x a' b' (Nat.lt_of_le_of_lt left short) (Nat.lt_of_le_of_lt right short')
        padded
      simp only [Option.bind_some]
      generalize (f x).run a' = u at agree
      generalize (f' x).run b' = v at agree
      cases agree with
      | refused => exact .refused
      | read y padded left' right' =>
        exact .read y padded (Nat.le_trans left' left) (Nat.le_trans right' right)

/-- Behind a reader that takes a character, readers on shorter texts. -/
theorem bind {f f' : α → Reader β} (h : InStep m n .eager r s)
    (next : ∀ x, InStep (m - 1) (n - 1) .free (f x) (f' x)) :
    InStep m n .eager (r >>= f) (s >>= f') :=
  fun a b short short' padded => by
    rw [run_bind, run_bind]
    have agree := h a b short short' padded
    generalize r.run a = x at agree
    generalize s.run b = y at agree
    cases agree with
    | refused => exact .refused
    | @read x a' b' padded left right =>
      have agree := next x a' b' (by have := left.shorter; omega) (by have := right.shorter; omega)
        padded
      simp only [Option.bind_some]
      generalize (f x).run a' = u at agree
      generalize (f' x).run b' = v at agree
      cases agree with
      | refused => exact .refused
      | read y padded left' right' =>
        exact .read y padded ⟨Nat.lt_of_le_of_lt left' left.shorter, left.solid⟩
          ⟨Nat.lt_of_le_of_lt right' right.shorter, right.solid⟩

/-- Behind a reader that may stay where it is, a reader that takes a character. -/
theorem bind_lazy {f f' : α → Reader β} (h : InStep m n .lazy r s)
    (next : ∀ x, InStep m n .eager (f x) (f' x)) : InStep m n .eager (r >>= f) (s >>= f') :=
  fun a b short short' padded => by
    rw [run_bind, run_bind]
    have agree := h a b short short' padded
    generalize r.run a = x at agree
    generalize s.run b = y at agree
    cases agree with
    | refused => exact .refused
    | @read x a' b' padded left right =>
      have agree := next x a' b' (Nat.lt_of_le_of_lt left.length_le short)
        (Nat.lt_of_le_of_lt right.length_le short') padded
      simp only [Option.bind_some]
      generalize (f x).run a' = u at agree
      generalize (f' x).run b' = v at agree
      have further : ∀ {cs mid rest : List Char}, Takes .lazy cs mid → Takes .eager mid rest →
          Takes .eager cs rest := by
        rintro cs mid rest (rfl | first) second
        · exact second
        · exact ⟨Nat.lt_trans second.shorter first.shorter, first.solid⟩
      cases agree with
      | refused => exact .refused
      | read y padded left' right' => exact .read y padded (further left left') (further right right')

theorem seqRight {t t' : Reader β} (h : InStep m n .eager r s)
    (next : InStep (m - 1) (n - 1) .free t t') : InStep m n .eager (r *> t) (s *> t') := by
  have bound := h.bind fun _ => next
  intro a b short short' padded
  rw [run_seqRight, run_seqRight]
  exact bound a b short short' padded

theorem seqRight_lazy {t t' : Reader β} (h : InStep m n .lazy r s) (next : InStep m n .eager t t') :
    InStep m n .eager (r *> t) (s *> t') := by
  have bound := h.bind_lazy fun _ => next
  intro a b short short' padded
  rw [run_seqRight, run_seqRight]
  exact bound a b short short' padded

theorem orElse {r' s' : Reader α} (h : InStep m n g r s) (h' : InStep m n g r' s') :
    InStep m n g (r <|> r') (s <|> s') := fun a b short short' padded => by
  rw [run_orElse, run_orElse]
  have agree := h a b short short' padded
  generalize r.run a = x at agree
  generalize s.run b = y at agree
  cases agree with
  | refused => exact h' a b short short' padded
  | read x padded left right => exact .read x padded left right

theorem run_map (r : Reader α) (f : α → β) (c : Cursor) :
    (f <$> r : Reader β).run c = (r.run c).map fun out => (f out.1, out.2) := by
  change (r.run c).bind _ = _
  cases r.run c <;> rfl

theorem attempt (h : InStep m n .eager r s) : InStep m n .lazy (attempt r) (attempt s) :=
  .orElse (fun a b short short' padded => by
    rw [run_map, run_map]
    have agree := h a b short short' padded
    generalize r.run a = x at agree
    generalize s.run b = y at agree
    cases agree with
    | refused => exact .refused
    | read x padded left right => exact .read _ padded (.inr left) (.inr right)) (pure none)

/-- Readings one after the other stay in step, whatever bounds their number. -/
theorem manyUpTo (h : InStep m n .eager r s) {a b : Cursor} (short : a.rest.length < m)
    (short' : b.rest.length < n) (padded : Padded a b) {i j : Nat} (hi : a.rest.length ≤ i)
    (hj : b.rest.length ≤ j) :
    Agree .lazy a b ((manyUpTo r i).run a) ((manyUpTo s j).run b) := by
  induction i generalizing a b j with
  | zero =>
    -- No text is left, so neither reader reads anything.
    obtain ⟨t, -, split⟩ := padded.rest
    have empty : a.rest = [] := List.length_eq_zero_iff.1 (Nat.le_zero.1 hi)
    rw [empty] at split
    have empty' : b.rest = [] := (List.append_eq_nil_iff.1 split.symm).1
    cases j with
    | zero => exact .read [] padded (.inl rfl) (.inl rfl)
    | succ j =>
      have refused : s.run b = none := by
        have agree := h a b short short' padded
        generalize r.run a = x at agree
        generalize s.run b = y at agree
        cases agree with
        | refused => rfl
        | read x padded left right =>
          have := right.shorter
          simp [empty'] at this
      have none : (Scan.attempt s).run b = some (none, b) :=
        run_attempt_some.2 (.inr ⟨refused, rfl, rfl⟩)
      have out : (Scan.manyUpTo s (j + 1)).run b = some ([], b) := by
        rw [Scan.manyUpTo, run_bind, none]
        rfl
      rw [out]
      exact .read [] padded (.inl rfl) (.inl rfl)
  | succ i ih =>
    have agree := h a b short short' padded
    generalize first : r.run a = x at agree
    generalize first' : s.run b = y at agree
    cases agree with
    | refused =>
      have none : (Scan.attempt r).run a = some (none, a) :=
        run_attempt_some.2 (.inr ⟨first, rfl, rfl⟩)
      have none' : (Scan.attempt s).run b = some (Option.none, b) :=
        run_attempt_some.2 (.inr ⟨first', rfl, rfl⟩)
      have out : (Scan.manyUpTo r (i + 1)).run a = some ([], a) := by
        rw [Scan.manyUpTo, run_bind, none]
        rfl
      have out' : (Scan.manyUpTo s j).run b = some ([], b) := by
        cases j with
        | zero => rfl
        | succ j =>
          rw [Scan.manyUpTo, run_bind, none']
          rfl
      rw [out, out']
      exact .read [] padded (.inl rfl) (.inl rfl)
    | @read x a' b' padded left right =>
      have smaller := left.shorter
      have smaller' := right.shorter
      obtain ⟨j, rfl⟩ : ∃ k, j = k + 1 := ⟨j - 1, by omega⟩
      have later := ih (a := a') (b := b') (j := j) (by omega) (by omega) padded (by omega) (by omega)
      have unfolded : (Scan.manyUpTo r (i + 1)).run a =
          ((Scan.manyUpTo r i).run a').map fun out => (x :: out.1, out.2) := by
        rw [Scan.manyUpTo, run_bind, run_attempt_some.2 (.inl ⟨x, rfl, first⟩)]
        change ((Scan.manyUpTo r i).run a').bind _ = _
        cases (Scan.manyUpTo r i).run a' <;> rfl
      have unfolded' : (Scan.manyUpTo s (j + 1)).run b =
          ((Scan.manyUpTo s j).run b').map fun out => (x :: out.1, out.2) := by
        rw [Scan.manyUpTo, run_bind, run_attempt_some.2 (.inl ⟨x, rfl, first'⟩)]
        change ((Scan.manyUpTo s j).run b').bind _ = _
        cases (Scan.manyUpTo s j).run b' <;> rfl
      rw [unfolded, unfolded']
      generalize (Scan.manyUpTo r i).run a' = u at later
      generalize (Scan.manyUpTo s j).run b' = v at later
      cases later with
      | refused => exact .refused
      | read xs padded left' right' =>
        exact .read (x :: xs) padded
          (.inr ⟨Nat.lt_of_le_of_lt (Takes.length_le left') left.shorter, left.solid⟩)
          (.inr ⟨Nat.lt_of_le_of_lt (Takes.length_le right') right.shorter, right.solid⟩)

theorem many (h : InStep m n .eager r s) : InStep m n .lazy (many r) (many s) :=
  fun _ _ short short' padded => h.manyUpTo short short' padded (Nat.le_refl _) (Nat.le_refl _)

end InStep

/-! ### Tokens -/

/-- A measure of texts that sees no blanks at their end. -/
structure Measures (length : List Char → Option Nat) : Prop where
  padded : ∀ cs t, AllBlank t → length (cs ++ t) = length cs
  inside : ∀ cs k, length cs = some k → k ≤ cs.length

theorem Padded.advance {a b : Cursor} (h : Padded a b) {k : Nat} (le : k ≤ b.rest.length) :
    Padded (a.advance k) (b.advance k) := by
  obtain ⟨t, blank, split⟩ := h.rest
  refine ⟨⟨t, blank, ?_⟩, h.misfit⟩
  simp [Cursor.advance, split, List.drop_append_of_le_length le]

/-- The word at the beginning of a text ends where blanks begin. -/
theorem takeWhile_padded {p : Char → Bool} (h : ∀ c, Text.isBlank c = true → p c = false)
    (cs : List Char) {t : List Char} (blank : AllBlank t) :
    (cs ++ t).takeWhile p = cs.takeWhile p := by
  induction cs with
  | nil =>
    cases t with
    | nil => rfl
    | cons c t => simp [h c (blank c (by simp))]
  | cons c cs ih => simp only [List.cons_append, List.takeWhile_cons, ih]

/-- A piece without blanks begins a text or does not, whatever blanks stand at its end. -/
theorem isPrefixOf_padded {piece : List Char} (solid : ∀ c ∈ piece, Text.isBlank c = false)
    (cs : List Char) {t : List Char} (blank : AllBlank t) :
    piece.isPrefixOf (cs ++ t) = piece.isPrefixOf cs := by
  induction piece generalizing cs with
  | nil => simp [List.isPrefixOf]
  | cons c piece ih =>
    cases cs with
    | nil =>
      cases t with
      | nil => rfl
      | cons d t =>
        have other : c ≠ d := by
          rintro rfl
          simpa [solid c (by simp)] using blank c (by simp)
        simp [List.isPrefixOf, other]
    | cons d cs => simp [List.isPrefixOf, ih fun c hc => solid c (by simp [hc])]

theorem atWord_padded (word : String) (cs : List Char) {t : List Char} (blank : AllBlank t) :
    atWord word (cs ++ t) = atWord word cs := by
  rw [atWord, atWord, wordLength, wordLength,
    takeWhile_padded (fun c => isWordChar_of_isBlank) cs blank,
    List.take_append_of_le_length (List.takeWhile_prefix _).length_le]

/-- Behind the blanks at the beginning of a text, the blanks at its end are left, or some of them. -/
theorem drop_blankLength_padded (inComment : Bool) (cs : List Char) {t : List Char}
    (blank : AllBlank t) : ∃ t', AllBlank t' ∧
      (cs ++ t).drop (blankLength inComment (cs ++ t)) = cs.drop (blankLength inComment cs) ++ t' := by
  induction cs generalizing inComment with
  | nil =>
    exact ⟨t.drop (blankLength inComment t), blank.suffix (List.drop_suffix _ _),
      by cases inComment <;> rfl⟩
  | cons c cs ih =>
    cases inComment with
    | true =>
      simp only [List.cons_append, blankLength, Nat.add_comm 1, List.drop_succ_cons]
      exact ih _
    | false =>
      simp only [List.cons_append, blankLength]
      split
      · simp only [Nat.add_comm 1, List.drop_succ_cons]
        exact ih _
      · split
        · simp only [Nat.add_comm 1, List.drop_succ_cons]
          exact ih _
        · exact ⟨t, blank, rfl⟩

namespace InStep

variable {m n : Nat} {g : Gait} {r s : Reader α}

theorem lexeme_free {length : List Char → Option Nat} (h : Measures length) :
    InStep m n .free (lexeme length) (lexeme length) := fun a b _ _ padded => by
  obtain ⟨t, blank, split⟩ := padded.rest
  rw [run_lexeme, run_lexeme, split, h.padded _ _ blank]
  cases found : length b.rest with
  | none => exact .refused
  | some k =>
    have le := h.inside _ _ found
    rw [Option.map_some, Option.map_some, List.take_append_of_le_length le]
    exact .read _ (padded.advance le) (List.drop_suffix _ _).length_le
      (List.drop_suffix _ _).length_le

/-- A token that begins with a character that is no blank. -/
theorem lexeme {length : List Char → Option Nat} (h : Measures length)
    (solid : ∀ cs k, length cs = some k →
      0 < k ∧ ∀ c, cs.head? = some c → Text.isBlank c = false) :
    InStep m n .eager (lexeme length) (lexeme length) := fun a b short short' padded => by
  have agree := lexeme_free (m := m) (n := n) h a b short short' padded
  have taken : ∀ c : Cursor, ∀ out, (Scan.lexeme length).run c = some out →
      Takes .eager c.rest out.2.rest := fun c out found => by
    rw [run_lexeme, Option.map_eq_some_iff] at found
    obtain ⟨k, measured, rfl⟩ := found
    obtain ⟨pos, first⟩ := solid _ _ measured
    have le := h.inside _ _ measured
    refine ⟨by simp only [Cursor.advance, List.length_drop]; omega, ?_⟩
    obtain ⟨c, u, split⟩ := List.exists_cons_of_length_pos (Nat.lt_of_lt_of_le pos le)
    exact ⟨c, u, split, first c (by rw [split]; rfl)⟩
  generalize run : (Scan.lexeme length).run a = x at agree
  generalize run' : (Scan.lexeme length).run b = y at agree
  cases agree with
  | refused => exact .refused
  | read x padded => exact .read x padded (taken a _ run) (taken b _ run')

theorem lookahead {test : List Char → Bool} (h : ∀ cs t, AllBlank t → test (cs ++ t) = test cs) :
    InStep m n .lazy (lookahead test) (lookahead test) := fun a b _ _ padded => by
  obtain ⟨t, blank, split⟩ := padded.rest
  rw [run_lookahead, run_lookahead, split, h _ _ blank]
  split
  · exact .read () padded (.inl rfl) (.inl rfl)
  · exact .refused

theorem run_literal (cs : List Char) (c : Cursor) : (literal cs).run c =
    ((Scan.lexeme fun ds => if cs.isPrefixOf ds then some cs.length else none) >>=
      fun _ => Pure.pure ()).run c := by
  rw [run_bind, run_lexeme]
  change (if cs.isPrefixOf c.rest then discard (take cs.length) else Alternative.failure :
    Reader Unit).run c = _
  split <;> rfl

/-- Certain characters, none of them a blank. -/
theorem literal {cs : List Char} (filled : cs ≠ []) (solid : cs.all (!Text.isBlank ·) = true) :
    InStep m n .eager (literal cs) (literal cs) := fun a b short short' padded => by
  have solid' : ∀ c ∈ cs, Text.isBlank c = false := by simpa using solid
  have measured : ∀ ds k, (if cs.isPrefixOf ds then some cs.length else none) = some k →
      k = cs.length ∧ cs <+: ds := fun ds k found => by
    split at found
    · next starts => exact ⟨(Option.some.inj found).symm, List.isPrefixOf_iff_prefix.1 starts⟩
    · cases found
  have token : InStep m n .eager
      (Scan.lexeme fun ds => if cs.isPrefixOf ds then some cs.length else none)
      (Scan.lexeme fun ds => if cs.isPrefixOf ds then some cs.length else none) := by
    refine lexeme ⟨fun ds t blank => ?_, fun ds k found => ?_⟩ fun ds k found => ?_
    · simp only [isPrefixOf_padded solid' ds blank]
    · obtain ⟨rfl, starts⟩ := measured ds k found
      exact starts.length_le
    · obtain ⟨rfl, u, rfl⟩ := measured ds k found
      obtain ⟨d, cs, rfl⟩ := List.exists_cons_of_ne_nil filled
      refine ⟨Nat.succ_pos _, fun c head => ?_⟩
      obtain rfl : d = c := by simpa using head
      exact solid' d (by simp)
  rw [run_literal, run_literal]
  exact (token.bind fun _ => (pure ()).free) a b short short' padded

theorem blanks : InStep m n .free blanks blanks := fun a b _ _ padded => by
  obtain ⟨t, blank, split⟩ := padded.rest
  obtain ⟨t', blank', left⟩ := drop_blankLength_padded false b.rest blank
  rw [run_blanks, run_blanks]
  exact .read () ⟨⟨t', blank', by simpa [Cursor.advance, split] using left⟩, padded.misfit⟩
    (List.drop_suffix _ _).length_le (List.drop_suffix _ _).length_le

theorem token (h : InStep m n .eager r s) : InStep m n .eager (token r) (token s) :=
  h.bind fun x => blanks.bind_free fun _ => (pure x).free

theorem symbol {text : String} (filled : text.toList ≠ [])
    (solid : text.toList.all (!Text.isBlank ·) = true) :
    InStep m n .eager (symbol text) (symbol text) := (literal filled solid).token

theorem keyword {word : String} (filled : word.toList ≠ [])
    (solid : word.toList.all (!Text.isBlank ·) = true) :
    InStep m n .eager (keyword word) (keyword word) :=
  ((lookahead fun cs _ blank => atWord_padded word cs blank).bind_lazy
    fun _ => literal filled solid).token

theorem sepBy {t t' : Reader β} (h : InStep m n .eager r s) (h' : InStep m n .eager t t') :
    InStep m n .eager (sepBy r t) (sepBy s t') :=
  h.bind fun _ => ((h'.seqRight (h.mono (Nat.sub_le _ _) (Nat.sub_le _ _)).free).mono
    (Nat.sub_le _ _) (Nat.sub_le _ _)).many.free.bind_free fun _ => (pure _).free

theorem chain {t t' : Reader β} (h : InStep m n .eager r s) (h' : InStep m n .eager t t') :
    InStep m n .eager (chain r t) (chain s t') :=
  h.bind fun _ => ((h'.bind fun _ => (h.mono (Nat.sub_le _ _) (Nat.sub_le _ _)).free.bind_free
    fun _ => (pure _).free).mono (Nat.sub_le _ _) (Nat.sub_le _ _)).many.free.bind_free
    fun _ => (pure _).free

theorem listOf {t t' : Reader β} (h : InStep m n .eager r s) (h' : InStep m n .eager t t') :
    InStep m n .free (listOf r t) (listOf s t') :=
  .orElse ((h.sepBy h').free.bind_free fun _ => h'.attempt.free.bind_free fun _ => (pure _).free)
    (pure []).free

end InStep

end Packrat.Scan
