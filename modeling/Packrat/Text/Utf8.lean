/-
**UTF-8 with replacement of malformed parts.**

Bytes that are not well formed are still shown: each longest beginning of a character that is
not continued, and each byte that begins none, becomes one replacement character.

Main definitions:

* `Packrat.Text.Utf8.lead` — what a leading byte announces: the number of continuation bytes and
  the range of the first of them;
* `Packrat.Text.Utf8.decode` — the characters of a list of bytes;
* `Packrat.Text.Utf8.charAt?`, `Packrat.Text.Utf8.charBefore?` — the well-formed character that
  begins at an offset of a byte array, and the one before it;
* `Packrat.Text.Utf8.isBoundary` — whether an offset of a byte array does not lie inside a
  character.

Main results:

* `Packrat.Text.Utf8.charAt?_bounds` — a character ends behind its beginning and inside of the
  array.
-/

set_option autoImplicit false

namespace Packrat.Text.Utf8

/-- The character shown for a malformed part. -/
def replacement : Char := '\uFFFD'

/-- A character being read: the bits so far, the number of continuation bytes to come, and the
least and the greatest value that the next one may have. -/
structure Partial where
  bits : Nat
  missing : Nat
  low : Nat
  high : Nat

/-- What a leading byte beyond ASCII announces. -/
def lead (b : Nat) : Option Partial :=
  if 0xC2 ≤ b && b ≤ 0xDF then some ⟨b - 0xC0, 1, 0x80, 0xBF⟩
  else if b == 0xE0 then some ⟨0, 2, 0xA0, 0xBF⟩
  else if b == 0xED then some ⟨0xD, 2, 0x80, 0x9F⟩
  else if 0xE1 ≤ b && b ≤ 0xEF then some ⟨b - 0xE0, 2, 0x80, 0xBF⟩
  else if b == 0xF0 then some ⟨0, 3, 0x90, 0xBF⟩
  else if 0xF1 ≤ b && b ≤ 0xF3 then some ⟨b - 0xF0, 3, 0x80, 0xBF⟩
  else if b == 0xF4 then some ⟨4, 3, 0x80, 0x8F⟩
  else none

/-- The characters of bytes read outside of any character. The flag says what the byte at hand
begins or continues. -/
def decodeFrom : Option Partial → List UInt8 → List Char
  | none, [] => []
  | some _, [] => [replacement]
  | none, b :: bs =>
    if b < 0x80 then Char.ofNat b.toNat :: decodeFrom none bs
    else
      match lead b.toNat with
      | some p => decodeFrom (some p) bs
      | none => replacement :: decodeFrom none bs
  | some p, b :: bs =>
    let n := b.toNat
    if p.low ≤ n && n ≤ p.high then
      let bits := p.bits * 64 + (n - 0x80)
      if p.missing ≤ 1 then Char.ofNat bits :: decodeFrom none bs
      else decodeFrom (some ⟨bits, p.missing - 1, 0x80, 0xBF⟩) bs
    else
      -- the byte does not continue the character: it is read afresh
      replacement ::
        (if b < 0x80 then Char.ofNat n :: decodeFrom none bs
        else
          match lead n with
          | some q => decodeFrom (some q) bs
          | none => replacement :: decodeFrom none bs)

/-- The characters of a list of bytes, malformed parts replaced. -/
def decode (bytes : List UInt8) : List Char := decodeFrom none bytes

/-- The text of a list of bytes, malformed parts replaced. -/
def decodeText (bytes : List UInt8) : String := String.ofList (decode bytes)

/-- The code of a character whose leading byte has been read, and the offset behind it: so many
continuation bytes are missing, and the first of them lies in a range. -/
def finishAt? (bytes : ByteArray) :
    Nat → (bits low high offset : Nat) → Option (Nat × Nat)
  | 0, bits, _, _, offset => some (bits, offset)
  | missing + 1, bits, low, high, offset =>
    if h : offset < bytes.size then
      let n := bytes[offset].toNat
      if low ≤ n && n ≤ high then
        finishAt? bytes missing (bits * 64 + (n - 0x80)) 0x80 0xBF (offset + 1)
      else none
    else none

/-- The code of the well-formed character that begins at an offset, and the offset behind it. -/
def charAt? (bytes : ByteArray) (offset : Nat) : Option (Nat × Nat) :=
  if h : offset < bytes.size then
    let n := bytes[offset].toNat
    if n < 0x80 then some (n, offset + 1)
    else
      match lead n with
      | some p => finishAt? bytes p.missing p.bits p.low p.high (offset + 1)
      | none => none
  else none

theorem finishAt?_bounds {bytes : ByteArray} {missing bits low high offset code stop : Nat}
    (h : finishAt? bytes missing bits low high offset = some (code, stop))
    (inside : offset ≤ bytes.size) : offset ≤ stop ∧ stop ≤ bytes.size := by
  induction missing generalizing bits low high offset with
  | zero =>
    simp only [finishAt?, Option.some.injEq, Prod.mk.injEq] at h
    omega
  | succ missing ih =>
    simp only [finishAt?] at h
    split at h
    · next lt =>
      split at h
      · have := ih h (by omega); omega
      · simp at h
    · simp at h

theorem charAt?_bounds {bytes : ByteArray} {offset code stop : Nat}
    (h : charAt? bytes offset = some (code, stop)) : offset < stop ∧ stop ≤ bytes.size := by
  simp only [charAt?] at h
  split at h
  · next lt =>
    split at h
    · simp only [Option.some.injEq, Prod.mk.injEq] at h
      omega
    · split at h
      · have := finishAt?_bounds h (by omega); omega
      · simp at h
  · simp at h

/-- Whether a byte continues a character. -/
def isContinuation (b : UInt8) : Bool := b &&& 0xC0 == 0x80

/-- Whether the offset does not lie inside a character of the array. -/
def isBoundary (bytes : ByteArray) (offset : Nat) : Bool :=
  match bytes[offset]? with
  | some b => !isContinuation b
  | none => offset == bytes.size

/-- Where the character that ends at an offset begins, at most `fuel` bytes before `start`. -/
def startBefore (bytes : ByteArray) : Nat → Nat → Nat
  | 0, start => start
  | fuel + 1, start =>
    match bytes[start]? with
    | some b => if isContinuation b then startBefore bytes fuel (start - 1) else start
    | none => start

/-- The code of the well-formed character before an offset. -/
def charBefore? (bytes : ByteArray) (offset : Nat) : Option Nat :=
  if offset == 0 then none
  else
    match charAt? bytes (startBefore bytes 3 (offset - 1)) with
    | some (code, stop) => if stop ≤ offset then some code else none
    | none => none

end Packrat.Text.Utf8
