import Packrat.Input.Lines
import Packrat.Proofs.Notation.Readers

/-
**Where the characters of a text begin.**

A text is read as bytes, and each of its characters takes one to four of them.  The first byte of a
character is told from the others by its highest bits, and a newline is a byte of its own, so what
is said of bytes can be read off the characters.

Main definitions:

* `Packrat.Text.encode` — the bytes of characters;
* `Packrat.Text.offsets` — the offsets at which characters begin;
* `Packrat.Input.charStarts`, `Packrat.Input.IsBoundary` — where the characters of an input begin,
  and the offsets that are not inside of one.

Main results:

* `Packrat.Text.countP_take_encode` — counting the bytes that continue no character counts the
  characters that begin;
* `Packrat.Text.newline_iff` — a newline byte is a newline.
-/

set_option autoImplicit false

namespace Packrat

open Scan

namespace Text

/-- The bytes of characters. -/
def encode (cs : List Char) : List UInt8 := cs.flatMap String.utf8EncodeChar

@[simp] theorem encode_nil : encode [] = [] := rfl

@[simp] theorem encode_cons (c : Char) (cs : List Char) :
    encode (c :: cs) = String.utf8EncodeChar c ++ encode cs := rfl

/-- The bytes of a text are those of its characters. -/
theorem toUTF8_eq_encode (s : String) : s.toUTF8.data.toList = encode s.toList := by
  rw [String.toUTF8_eq_toByteArray, ← String.utf8Encode_toList, List.utf8Encode]
  simp [encode]

@[simp] theorem length_encode (cs : List Char) : (encode cs).length = byteLength cs := by
  induction cs with
  | nil => rfl
  | cons c cs ih => simp [byteLength, ih]

theorem byteLength_toList (s : String) : byteLength s.toList = s.utf8ByteSize := by
  rw [← length_encode, ← toUTF8_eq_encode]
  simp

/-! ### Leading and continuation bytes -/

namespace Utf8

theorem isContinuation_iff (b : UInt8) :
    isContinuation b = true ↔ 128 ≤ b.toNat ∧ b.toNat < 192 := by
  have all : ∀ n : Fin 256, isContinuation ⟨⟨n⟩⟩ = true ↔ 128 ≤ n.val ∧ n.val < 192 := by
    decide +kernel
  exact all b.toFin

/-- The first byte of a character continues none, and the others do. -/
theorem encodeChar_shape (c : Char) : ∃ b bs, String.utf8EncodeChar c = b :: bs ∧
    isContinuation b = false ∧ ∀ b' ∈ bs, isContinuation b' = true := by
  have small (n : Nat) (h : n < 256) : (UInt8.ofNat n).toNat = n := by
    simpa using Nat.mod_eq_of_lt h
  simp only [Bool.eq_false_iff, ne_eq, isContinuation_iff, String.utf8EncodeChar]
  split
  · next one => exact ⟨_, _, rfl, by rw [small _ (by omega)]; omega, by simp⟩
  · split
    · refine ⟨_, _, rfl, by rw [small _ (by omega)]; omega, ?_⟩
      simp only [List.mem_singleton, forall_eq]
      rw [small _ (by omega)]
      omega
    · split
      · refine ⟨_, _, rfl, by rw [small _ (by omega)]; omega, ?_⟩
        simp only [List.forall_mem_cons, List.not_mem_nil, false_implies, implies_true, and_true]
        rw [small _ (by omega), small _ (by omega)]
        omega
      · refine ⟨_, _, rfl, by rw [small _ (by omega)]; omega, ?_⟩
        simp only [List.forall_mem_cons, List.not_mem_nil, false_implies, implies_true, and_true]
        rw [small _ (by omega), small _ (by omega), small _ (by omega)]
        omega

end Utf8

/-- A newline is the one character with a newline byte. -/
theorem getElem?_encodeChar_eq_newline {c : Char} {k : Nat} :
    (String.utf8EncodeChar c)[k]? = some 10 ↔ c = '\n' ∧ k = 0 := by
  constructor
  · intro found
    cases k with
    | zero =>
      -- The first byte of a longer character is greater than any of a single one.
      have code : c.val.toNat = 10 := by
        simp only [String.utf8EncodeChar] at found
        have byte {n : Nat} (same : some (UInt8.ofNat n) = some 10) : n % 256 = 10 := by
          simpa using congrArg UInt8.toNat (Option.some.inj same)
        split at found
        · have := byte found
          omega
        · split at found
          · have := byte found
            omega
          · split at found
            all_goals
              have := byte found
              omega
      exact ⟨Char.ext (UInt32.toNat_inj.1 code), rfl⟩
    | succ k =>
      obtain ⟨b, bs, shape, -, others⟩ := Utf8.encodeChar_shape c
      rw [shape, List.getElem?_cons_succ] at found
      exact absurd (others 10 (List.mem_of_getElem? found)) (by decide)
  · rintro ⟨rfl, rfl⟩
    rfl

/-- A newline byte is a newline. -/
theorem newline_iff {cs : List Char} {k : Nat} :
    (encode cs)[k]? = some 10 ↔ ∃ before after, cs = before ++ '\n' :: after ∧ byteLength before = k := by
  induction cs generalizing k with
  | nil => simp
  | cons c cs ih =>
    rw [encode_cons]
    by_cases inside : k < c.utf8Size
    · rw [List.getElem?_append_left (by simpa using inside), getElem?_encodeChar_eq_newline]
      constructor
      · rintro ⟨rfl, rfl⟩
        exact ⟨[], cs, rfl, rfl⟩
      · rintro ⟨before, after, split, length⟩
        cases before with
        | nil => exact ⟨by simpa using (List.cons.inj split).1, length.symm⟩
        | cons d before =>
          obtain ⟨rfl, -⟩ := List.cons.inj split
          rw [byteLength] at length
          omega
    · rw [List.getElem?_append_right (by simpa using inside), String.length_utf8EncodeChar, ih]
      constructor
      · rintro ⟨before, after, rfl, length⟩
        exact ⟨c :: before, after, rfl, by rw [byteLength]; omega⟩
      · rintro ⟨before, after, split, length⟩
        cases before with
        | nil =>
          have := c.utf8Size_pos
          rw [byteLength] at length
          omega
        | cons d before =>
          obtain ⟨rfl, rfl⟩ := List.cons.inj split
          exact ⟨before, after, rfl, by rw [byteLength] at length; omega⟩

/-! ### Offsets of characters -/

/-- The offsets at which the characters of a text begin. -/
def offsets (start : Nat) : List Char → List Nat
  | [] => []
  | c :: cs => start :: offsets (start + c.utf8Size) cs

theorem mem_offsets {start k : Nat} {cs : List Char} : k ∈ offsets start cs ↔
    ∃ before c after, cs = before ++ c :: after ∧ k = start + byteLength before := by
  induction cs generalizing start with
  | nil => simp [offsets]
  | cons c cs ih =>
    rw [offsets, List.mem_cons, ih]
    constructor
    · rintro (rfl | ⟨before, d, after, rfl, rfl⟩)
      · exact ⟨[], c, cs, rfl, rfl⟩
      · exact ⟨c :: before, d, after, rfl, by rw [byteLength]; omega⟩
    · rintro ⟨before, d, after, split, rfl⟩
      cases before with
      | nil => exact .inl rfl
      | cons e before =>
        obtain ⟨rfl, rfl⟩ := List.cons.inj split
        exact .inr ⟨before, d, after, rfl, by rw [byteLength]; omega⟩

theorem le_of_mem_offsets {start k : Nat} {cs : List Char} (h : k ∈ offsets start cs) :
    start ≤ k := by
  obtain ⟨before, -, -, -, rfl⟩ := mem_offsets.1 h
  omega

/-- The bytes that continue no character are the first ones of the characters. -/
theorem countP_take_encode (start : Nat) (cs : List Char) (n : Nat) :
    ((encode cs).take n).countP (fun b => !Utf8.isContinuation b) =
      (offsets start cs).countP (· < start + n) := by
  induction cs generalizing start n with
  | nil => simp [offsets]
  | cons c cs ih =>
    obtain ⟨b, bs, shape, first, others⟩ := Utf8.encodeChar_shape c
    have size : bs.length + 1 = c.utf8Size := by
      rw [← String.length_utf8EncodeChar, shape, List.length_cons]
    have none (n : Nat) : (bs.take n).countP (fun b => !Utf8.isContinuation b) = 0 :=
      List.countP_eq_zero.2 fun b' hb' => by simp [others b' (List.mem_of_mem_take hb')]
    cases n with
    | zero =>
      refine (List.countP_eq_zero.2 fun k hk => ?_).symm
      have := le_of_mem_offsets hk
      simpa using this
    | succ n =>
      have later : (offsets (start + c.utf8Size) cs).countP (· < start + (n + 1)) =
          (offsets (start + c.utf8Size) cs).countP
            (· < start + c.utf8Size + (n - bs.length)) := by
        refine List.countP_congr fun k hk => ?_
        have := le_of_mem_offsets hk
        simp only [decide_eq_true_eq]
        omega
      rw [encode_cons, shape, List.cons_append, List.take_succ_cons, List.countP_cons, first,
        List.take_append, List.countP_append, none, ih (start + c.utf8Size), offsets,
        List.countP_cons, later]
      simp

end Text

/-! ### Characters of an input -/

namespace Input

/-- The offsets at which the characters of a text begin; every byte of raw input is one. -/
def charStarts : Input → List Nat
  | .text s => Text.offsets 0 s.toList
  | .binary bytes => List.range bytes.size

/-- The offset lies between two characters, before the first or behind the last one. -/
def IsBoundary (input : Input) (offset : Nat) : Prop :=
  offset ∈ input.charStarts ∨ offset = input.size

theorem between_eq (bytes : ByteArray) (start stop : Nat) :
    between bytes start stop = (bytes.data.toList.take stop).drop start := by
  simp [between, List.drop_take]

end Input

end Packrat
