import Mathlib.Tactic.IntervalCases
import Packrat.Grammar.Lower
import Packrat.Proofs.Notation.Tokens

/-
**Literals read back.**

What is written between the marks of a literal stands for what was to be written: an escape stands
for the character that it was made from, bytes that encode a text are decoded to that text, and a
pattern gets back the backslashes before its slashes.  Each character is looked at on its own, and
what holds of it is carried over the whole literal.

Main definitions:

* `Packrat.Text.Escaped` — how a character may be written between quotes;
* `Packrat.PatternBody` — what may stand between slashes.

Main results:

* `Packrat.Text.unescape_flatMap` — escaped characters are read back;
* `Packrat.Text.Utf8.decode_encode` — an encoded text is decoded;
* `Packrat.textLiteral_literalText`, `Packrat.textLiteral_quoteText` — literals as they are shown;
* `Packrat.PatternBody.replaceAll_replaceAll` — patterns as they are shown.
-/

set_option autoImplicit false

namespace Packrat

open Scan

/-! ### Lists with separators -/

theorem List.intercalate_cons_eq {α : Type} (sep x : List α) (xs : List (List α)) :
    sep.intercalate (x :: xs) = x ++ xs.flatMap (sep ++ ·) := by
  induction xs generalizing x with
  | nil => simp [List.intercalate]
  | cons y xs ih =>
    have later := ih y
    simp only [List.intercalate] at later ⊢
    rw [List.intersperse_cons_cons, List.flatten_cons, List.flatten_cons, later, List.flatMap_cons,
      List.append_assoc]

/-! ### Replacing -/

namespace Text

section Replacing

variable {α : Type}

/-- What stands before the first of the parts stands before all of them. -/
theorem flatten_intersperse_cons (new : List α) (x : α) (part : List α) (parts : List (List α)) :
    (((x :: part) :: parts).intersperse new).flatten =
      x :: ((part :: parts).intersperse new).flatten := by
  cases parts <;> simp [List.intersperse]

variable [BEq α] {piece new : List α}

theorem splitLoop_ne_nil (piece : List α) (fuel : Nat) (xs : List α) :
    splitLoop piece fuel xs ≠ [] := by
  cases fuel with
  | zero => simp [splitLoop]
  | succ fuel => simp only [splitLoop]; split <;> simp

/-- The parts of a list, joined by `new`. -/
def rejoin (piece new : List α) (fuel : Nat) (xs : List α) : List α :=
  ((splitLoop piece fuel xs).intersperse new).flatten

theorem rejoin_cons_of_not {x : α} {xs : List α} (fuel : Nat)
    (other : piece.isPrefixOf (x :: xs) = false) :
    rejoin piece new fuel (x :: xs) = x :: rejoin piece new fuel xs := by
  cases fuel with
  | zero => simp [rejoin, splitLoop]
  | succ fuel =>
    simp only [rejoin, splitLoop, cut?, other, Bool.false_eq_true, if_false]
    cases cut? piece xs with
    | none => simp
    | some found => exact flatten_intersperse_cons new x _ _

theorem rejoin_cons_of_prefix {x : α} {xs : List α} (fuel : Nat)
    (found : piece.isPrefixOf (x :: xs) = true) :
    rejoin piece new (fuel + 1) (x :: xs) =
      new ++ rejoin piece new fuel ((x :: xs).drop piece.length) := by
  simp only [rejoin, splitLoop, cut?, found, if_true]
  obtain ⟨part, parts, split⟩ := List.exists_cons_of_ne_nil
    (splitLoop_ne_nil piece fuel ((x :: xs).drop piece.length))
  rw [split, List.intersperse_cons_cons, List.flatten_cons, List.nil_append, List.flatten_cons]

/-- More rounds than there are characters change nothing. -/
theorem rejoin_congr (filled : piece ≠ []) {xs : List α} {m n : Nat} (hm : xs.length ≤ m)
    (hn : xs.length ≤ n) : rejoin piece new m xs = rejoin piece new n xs := by
  induction size : xs.length using Nat.strongRecOn generalizing xs m n with
  | _ size ih =>
    cases xs with
    | nil => cases m <;> cases n <;> simp [rejoin, splitLoop, cut?, filled]
    | cons x xs =>
      simp only [List.length_cons] at hm hn size
      cases found : piece.isPrefixOf (x :: xs) with
      | false =>
        rw [rejoin_cons_of_not m found, rejoin_cons_of_not n found,
          ih xs.length (by omega) (by omega : _ ≤ m) (by omega : _ ≤ n) rfl]
      | true =>
        obtain ⟨m, rfl⟩ := Nat.exists_eq_add_of_lt (by omega : 0 < m)
        obtain ⟨n, rfl⟩ := Nat.exists_eq_add_of_lt (by omega : 0 < n)
        have shorter : ((x :: xs).drop piece.length).length ≤ xs.length := by
          have := List.length_pos_iff.2 filled
          simp only [List.length_drop, List.length_cons]
          omega
        rw [Nat.zero_add, Nat.zero_add, rejoin_cons_of_prefix m found,
          rejoin_cons_of_prefix n found,
          ih _ (by omega) (by omega : _ ≤ m) (by omega : _ ≤ n) rfl]

theorem replaceAll_eq_rejoin (filled : piece ≠ []) (xs : List α) :
    replaceAll piece new xs = rejoin piece new xs.length xs := by
  rw [replaceAll, if_neg (by simpa using filled)]
  rfl

theorem replaceAll_nil (filled : piece ≠ []) : replaceAll piece new [] = [] := by
  rw [replaceAll_eq_rejoin filled]
  rfl

/-- A character with which no piece begins is kept. -/
theorem replaceAll_cons_of_not {x : α} {xs : List α} (filled : piece ≠ [])
    (other : piece.isPrefixOf (x :: xs) = false) :
    replaceAll piece new (x :: xs) = x :: replaceAll piece new xs := by
  rw [replaceAll_eq_rejoin filled, replaceAll_eq_rejoin filled, rejoin_cons_of_not _ other,
    rejoin_congr filled (by simp : xs.length ≤ (x :: xs).length) (Nat.le_refl _)]

/-- A piece at the beginning is replaced. -/
theorem replaceAll_append [LawfulBEq α] (filled : piece ≠ []) (xs : List α) :
    replaceAll piece new (piece ++ xs) = new ++ replaceAll piece new xs := by
  obtain ⟨x, piece, rfl⟩ := List.exists_cons_of_ne_nil filled
  have found : (x :: piece).isPrefixOf (x :: (piece ++ xs)) = true :=
    List.isPrefixOf_iff_prefix.2 ⟨xs, rfl⟩
  rw [replaceAll_eq_rejoin filled, replaceAll_eq_rejoin filled, List.cons_append, List.length_cons,
    rejoin_cons_of_prefix _ found, ← List.cons_append, List.drop_left,
    rejoin_congr filled (by simp : xs.length ≤ (piece ++ xs).length) (Nat.le_refl _)]

/-- A piece of one character is replaced character by character. -/
theorem replaceAll_singleton [LawfulBEq α] (x : α) (new xs : List α) :
    replaceAll [x] new xs = xs.flatMap fun y => if x == y then new else [y] := by
  induction xs with
  | nil => exact replaceAll_nil (by simp)
  | cons y ys ih =>
    by_cases same : x = y
    · subst same
      have found : replaceAll [x] new ([x] ++ ys) = new ++ replaceAll [x] new ys :=
        replaceAll_append (by simp) ys
      simpa [ih] using found
    · rw [replaceAll_cons_of_not (by simp) (by simp [List.isPrefixOf, same]), ih]
      simp [same]

end Replacing

/-! ### Escapes -/

/-- How a character may be written between quotes of a kind. -/
inductive Escaped (quote c : Char) : List Char → Prop where
  | plain (quote' : c ≠ quote) (slash : c ≠ '\\') : Escaped quote c [c]
  | letter {d : Char} (stands : simpleEscape? d = some c) : Escaped quote c ['\\', d]
  | hex (small : c.toNat < 256) : Escaped quote c (hexEscape c.toNat)

theorem digitValue?_hexDigit {n : Nat} (h : n < 16) : digitValue? (hexDigit n) = some n := by
  interval_cases n <;> decide

theorem readDigits?_hexDigits {code : Nat} (h : code < 256) :
    readDigits? 16 (hexDigits 2 code) = some code := by
  have high : code / 16 % 16 < 16 := by omega
  have low : code % 16 < 16 := by omega
  simp only [hexDigits, List.nil_append, List.cons_append, readDigits?, List.isEmpty_cons,
    Bool.false_eq_true, if_false, readDigitsFrom?, digitValue?_hexDigit high,
    digitValue?_hexDigit low, high, low, if_true, Option.some.injEq]
  omega

theorem unescape_letter {c d : Char} (stands : simpleEscape? d = some c) (rest : List Char) :
    unescape ('\\' :: d :: rest) = c :: unescape rest := by
  have x : d ≠ 'x' := by rintro rfl; simp [simpleEscape?] at stands
  have u : d ≠ 'u' := by rintro rfl; simp [simpleEscape?] at stands
  rw [unescape, stands]
  · simp [x]
  · simp [u]

theorem Escaped.unescape {quote c : Char} {piece : List Char} (h : Escaped quote c piece)
    (rest : List Char) : unescape (piece ++ rest) = c :: unescape rest := by
  cases h with
  | plain _ slash => exact unescape_cons_of_ne rest slash
  | letter stands => exact unescape_letter stands rest
  | hex small =>
    have read := readDigits?_hexDigits small
    simp only [hexDigits, List.nil_append, List.cons_append] at read
    simp only [hexEscape, hexDigits, List.nil_append, List.cons_append]
    rw [Text.unescape, read]
    simp

theorem Escaped.quotedLength {quote c : Char} {piece : List Char} (h : Escaped quote c piece)
    (other : ∀ n < 16, hexDigit n ≠ quote ∧ hexDigit n ≠ '\\')
    (rest : List Char) :
    quotedLength quote (piece ++ rest) = (quotedLength quote rest).map (· + piece.length) := by
  cases h with
  | plain quote' slash =>
    rw [List.singleton_append, quotedLength_cons rest slash, if_neg (by simpa using quote')]
    rfl
  | letter => rfl
  | hex =>
    obtain ⟨high, high'⟩ := other (c.toNat / 16 % 16) (by omega)
    obtain ⟨low, low'⟩ := other (c.toNat % 16) (by omega)
    simp only [hexEscape, hexDigits, List.nil_append, List.cons_append, Scan.quotedLength]
    rw [quotedLength_cons _ high', if_neg (by simpa using high), quotedLength_cons _ low',
      if_neg (by simpa using low)]
    cases Scan.quotedLength quote rest <;> simp

/-- Escaped characters are read back. -/
theorem unescape_flatMap {quote : Char} {cs : List Char} {f : Char → List Char}
    (h : ∀ c ∈ cs, Escaped quote c (f c)) : unescape (cs.flatMap f) = cs := by
  induction cs with
  | nil => rfl
  | cons c cs ih =>
    rw [List.flatMap_cons, (h c (by simp)).unescape, ih fun d hd => h d (by simp [hd])]

/-- Escaped characters do not close the literal that they stand in. -/
theorem enclosed_flatMap {quote : Char} (mark : quote = '"' ∨ quote = '\'') {cs : List Char}
    {f : Char → List Char} (h : ∀ c ∈ cs, Escaped quote c (f c)) :
    Enclosed (quotedLength quote) quote (cs.flatMap f) := by
  have plain : quote ≠ '\\' := by rcases mark with rfl | rfl <;> decide
  have other : ∀ n < 16, hexDigit n ≠ quote ∧ hexDigit n ≠ '\\' := by
    intro n small
    rcases mark with rfl | rfl <;> interval_cases n <;> decide
  intro rest
  induction cs with
  | nil => simp [quotedLength_cons rest plain]
  | cons c cs ih =>
    rw [List.flatMap_cons, List.append_assoc, (h c (by simp)).quotedLength other,
      ih fun d hd => h d (by simp [hd])]
    simp [Nat.add_comm]

/-- Characters with an escape of a letter are written with it. -/
theorem sharedEscape?_eq_some {quote c : Char} (mark : quote = '"' ∨ quote = '\'')
    {piece : List Char} (h : sharedEscape? quote c = some piece) : Escaped quote c piece := by
  unfold sharedEscape? at h
  split at h
  · exact Option.some.inj h ▸ .letter rfl
  · exact Option.some.inj h ▸ .letter rfl
  · exact Option.some.inj h ▸ .letter rfl
  · exact Option.some.inj h ▸ .letter rfl
  · split at h
    · next same =>
      obtain rfl : c = quote := by simpa using same
      refine Option.some.inj h ▸ .letter ?_
      rcases mark with rfl | rfl <;> rfl
    · cases h

theorem ne_of_sharedEscape?_eq_none {quote c : Char} (h : sharedEscape? quote c = none) :
    c ≠ quote ∧ c ≠ '\\' := by
  unfold sharedEscape? at h
  split at h
  · cases h
  · cases h
  · cases h
  · cases h
  · next other _ _ _ => exact ⟨by simpa using h, other⟩

theorem escaped_escapeChar {quote : Char} (mark : quote = '"' ∨ quote = '\'') (c : Char) :
    Escaped quote c (escapeChar quote c) := by
  unfold escapeChar
  cases shared : sharedEscape? quote c with
  | some piece => exact sharedEscape?_eq_some mark shared
  | none =>
    obtain ⟨quote', slash⟩ := ne_of_sharedEscape?_eq_none shared
    rw [Option.getD_none]
    split
    · next control =>
      refine .hex ?_
      simp only [Bool.or_eq_true, decide_eq_true_eq, beq_iff_eq] at control
      omega
    · exact .plain quote' slash

/-- A character that is no double quote is written without any, so it may stand between double
quotes as well. -/
theorem Escaped.doubled {quote c : Char} {piece : List Char} (h : Escaped quote c piece)
    (other : c ≠ '"') :
    (piece.flatMap fun d => if '"' == d then ['\\', '"'] else [d]) = piece ∧
      Escaped '"' c piece := by
  have same : ∀ {ds : List Char}, '"' ∉ ds →
      (ds.flatMap fun d => if '"' == d then ['\\', '"'] else [d]) = ds := by
    intro ds none
    induction ds with
    | nil => rfl
    | cons d ds ih =>
      simp only [List.mem_cons, not_or] at none
      rw [List.flatMap_cons, ih none.2, if_neg (by simpa using none.1)]
      rfl
  cases h with
  | plain _ slash => exact ⟨same (by simpa using other.symm), .plain other slash⟩
  | letter stands =>
    refine ⟨same ?_, .letter stands⟩
    simp only [List.mem_cons, List.not_mem_nil, or_false, not_or]
    refine ⟨by decide, ?_⟩
    rintro rfl
    exact other (Option.some.inj stands).symm
  | hex small =>
    have digit : ∀ n < 16, hexDigit n ≠ '"' := by
      intro n less
      interval_cases n <;> decide
    refine ⟨same ?_, .hex small⟩
    simp only [hexEscape, hexDigits, List.nil_append, List.cons_append, List.mem_cons,
      List.not_mem_nil, or_false, not_or]
    exact ⟨by decide, by decide, (digit _ (by omega)).symm, (digit _ (by omega)).symm⟩

/-! ### Bytes as characters -/

theorem toNat_ofNat_byte (b : UInt8) : (Char.ofNat b.toNat).toNat = b.toNat := by
  have valid : b.toNat.isValidChar := .inl (by have := b.toNat_lt; omega)
  rw [Char.ofNat, dif_pos valid]
  rfl

/-! ### Encoded texts -/

namespace Utf8

theorem toNat_ofNat {n : Nat} (h : n < 256) : (UInt8.ofNat n).toNat = n := by
  simp [Nat.mod_eq_of_lt h]

/-- A byte that begins a character of more than one byte. -/
theorem decodeFrom_lead {n : Nat} {p : Partial} (low : 0x80 ≤ n) (high : n < 256)
    (begins : lead n = some p) (bs : List UInt8) :
    decodeFrom none (UInt8.ofNat n :: bs) = decodeFrom (some p) bs := by
  have far : ¬ UInt8.ofNat n < 0x80 := by
    rw [UInt8.lt_iff_toNat_lt, toNat_ofNat high]
    exact Nat.not_lt.2 low
  rw [decodeFrom, if_neg far, toNat_ofNat high, begins]

/-- A byte that continues a character. -/
theorem decodeFrom_continuation {n : Nat} {p : Partial} (high : n < 256)
    (range : p.low ≤ n ∧ n ≤ p.high) (bs : List UInt8) :
    decodeFrom (some p) (UInt8.ofNat n :: bs) =
      if p.missing ≤ 1 then Char.ofNat (p.bits * 64 + (n - 0x80)) :: decodeFrom none bs
      else decodeFrom (some ⟨p.bits * 64 + (n - 0x80), p.missing - 1, 0x80, 0xBF⟩) bs := by
  simp [decodeFrom, Nat.mod_eq_of_lt high, range]

theorem lead_two {n : Nat} (low : 0xC2 ≤ n) (high : n ≤ 0xDF) :
    lead n = some ⟨n - 0xC0, 1, 0x80, 0xBF⟩ := by
  simp [lead, low, high]

theorem lead_three {n : Nat} (low : 0xE0 ≤ n) (high : n ≤ 0xEF) :
    lead n = some ⟨n - 0xE0, 2, if n = 0xE0 then 0xA0 else 0x80,
      if n = 0xED then 0x9F else 0xBF⟩ := by
  interval_cases n <;> rfl

theorem lead_four {n : Nat} (low : 0xF0 ≤ n) (high : n ≤ 0xF4) :
    lead n = some ⟨n - 0xF0, 3, if n = 0xF0 then 0x90 else 0x80,
      if n = 0xF4 then 0x8F else 0xBF⟩ := by
  interval_cases n <;> rfl

/-- The bytes of a character are read as that character. -/
theorem decodeFrom_encodeChar (c : Char) (bs : List UInt8) :
    decodeFrom none (String.utf8EncodeChar c ++ bs) = c :: decodeFrom none bs := by
  have valid : c.toNat < 0xD800 ∨ 0xDFFF < c.toNat ∧ c.toNat < 0x110000 := c.valid
  have back : Char.ofNat c.toNat = c := Char.ofNat_toNat c
  have code : c.val.toNat = c.toNat := rfl
  simp only [String.utf8EncodeChar, code]
  generalize c.toNat = v at valid back
  have last {bits : Nat} (same : bits = v) : Char.ofNat bits :: decodeFrom none bs =
      c :: decodeFrom none bs := by rw [same, back]
  split
  · next one =>
    have near : UInt8.ofNat v < 0x80 := by
      have bound : (0x80 : UInt8).toNat = 128 := rfl
      rw [UInt8.lt_iff_toNat_lt, toNat_ofNat (by omega), bound]
      omega
    rw [List.singleton_append, decodeFrom, if_pos near, toNat_ofNat (by omega), back]
  · next one =>
    split
    · next two =>
      rw [List.cons_append, decodeFrom_lead (by omega) (by omega) (lead_two (by omega) (by omega)),
        List.singleton_append, decodeFrom_continuation (by omega) ⟨by dsimp only; omega, by dsimp only; omega⟩,
        if_pos (Nat.le_refl 1)]
      exact last (by dsimp only; omega)
    · next two =>
      split
      · next three =>
        rw [List.cons_append, decodeFrom_lead (by omega) (by omega)
          (lead_three (by omega) (by omega)), List.cons_append,
          decodeFrom_continuation (by omega) ⟨by dsimp only; split <;> omega, by dsimp only; split <;> omega⟩, if_neg (by decide : ¬ 2 ≤ 1), List.singleton_append,
          decodeFrom_continuation (by omega) ⟨by dsimp only; omega, by dsimp only; omega⟩,
          if_pos (by decide : 2 - 1 ≤ 1)]
        exact last (by dsimp only; omega)
      · next three =>
        rw [List.cons_append, decodeFrom_lead (by omega) (by omega)
          (lead_four (by omega) (by omega)), List.cons_append,
          decodeFrom_continuation (by omega) ⟨by dsimp only; split <;> omega, by dsimp only; split <;> omega⟩, if_neg (by decide : ¬ 3 ≤ 1), List.cons_append,
          decodeFrom_continuation (by omega) ⟨by dsimp only; omega, by dsimp only; omega⟩,
          if_neg (by decide : ¬ 3 - 1 ≤ 1), List.singleton_append,
          decodeFrom_continuation (by omega) ⟨by dsimp only; omega, by dsimp only; omega⟩,
          if_pos (by decide : 3 - 1 - 1 ≤ 1)]
        exact last (by dsimp only; omega)

/-- An encoded text is decoded. -/
theorem decode_encode (s : String) : decode s.toUTF8.data.toList = s.toList := by
  have bytes : s.toUTF8.data.toList = s.toList.flatMap String.utf8EncodeChar := by
    rw [String.toUTF8_eq_toByteArray, ← String.utf8Encode_toList, List.utf8Encode]
    simp
  rw [bytes, decode]
  induction s.toList with
  | nil => rfl
  | cons c cs ih => rw [List.flatMap_cons, decodeFrom_encodeChar, ih]

end Utf8
end Text

/-! ### Literals as they are shown -/

/-- A text in quotes of the kind that suits it. -/
theorem textLiteral_quoteText (message : String) {tail : List Char}
    (ends : CaseFlagAt tail false tail) :
    TextLiteral ((Text.quoteText message).toList ++ tail) message false false tail := by
  have mark := Text.quoteMark_eq_or message.toList
  have escaped := fun c (_ : c ∈ message.toList) => Text.escaped_escapeChar mark c
  have literal : TextLiteral _ _ _ false _ :=
    .intro mark (Text.enclosed_flatMap mark escaped) ends
  rw [Text.unescape_flatMap escaped, String.ofList_toList] at literal
  simpa [Text.quoteText, Text.quoteChars, flagLetter] using literal

theorem escaped_literalText (cs : List Char) :
    ∀ c ∈ cs, Text.Escaped '"' c ((Text.escapeChar (Text.quoteMark cs) c).flatMap fun d =>
      if '"' == d then ['\\', '"'] else [d]) := by
  intro c hc
  have mark := Text.quoteMark_eq_or cs
  by_cases double : c = '"'
  · -- The text holds a double quote, so apostrophes have been chosen.
    have chosen : Text.quoteMark cs = '\'' := by
      subst double
      rw [Text.quoteMark, if_neg (by simp [hc])]
    subst double
    rw [chosen]
    exact .letter rfl
  · obtain ⟨same, escaped⟩ := (Text.escaped_escapeChar mark c).doubled double
    rw [same]
    exact escaped

theorem toList_withFlags (flags : MatchFlags) (shown : String) (tail : List Char) :
    (Expr.withFlags flags shown).toList ++ tail =
      flagLetter 'b' flags.binary ++ shown.toList ++ (flagLetter 'i' flags.ignoreCase ++ tail) := by
  rw [Expr.withFlags, String.toList_append, String.toList_append]
  cases flags.binary <;> cases flags.ignoreCase <;> simp [flagLetter]

/-- A literal of bytes with its flags stands for the characters of the bytes. -/
theorem textLiteral_literalText (value : List UInt8) (flags : MatchFlags) {tail : List Char}
    (ends : CaseFlagAt (flagLetter 'i' flags.ignoreCase ++ tail) flags.ignoreCase tail) :
    TextLiteral ((Expr.withFlags flags (Expr.literalText value flags.binary)).toList ++ tail)
      (String.ofList (Expr.literalChars value flags.binary)) flags.ignoreCase flags.binary tail := by
  have escaped := escaped_literalText (Expr.literalChars value flags.binary)
  have literal : TextLiteral _ _ _ flags.binary _ := .intro (.inl rfl)
    (Text.enclosed_flatMap (.inl rfl) escaped) ends
  rw [Text.unescape_flatMap escaped] at literal
  have shown : (Expr.literalText value flags.binary).toList = '"' ::
      (Expr.literalChars value flags.binary).flatMap (fun c =>
        (Text.escapeChar (Text.quoteMark (Expr.literalChars value flags.binary)) c).flatMap fun d =>
          if '"' == d then ['\\', '"'] else [d]) ++ ['"'] := by
    simp [Expr.literalText, Text.quoteChars, Text.replaceAll_singleton, List.flatMap_assoc]
  rw [toList_withFlags, shown]
  simpa using literal

/-- Bytes that a literal may stand for: any if it is binary, those of a text otherwise. -/
def Encodes (value : List UInt8) (binary : Bool) : Prop :=
  binary = true ∨ ∃ s : String, value = s.toUTF8.data.toList

/-- The characters that bytes are shown as stand for those bytes. -/
theorem literalBytes_literalChars {value : List UInt8} {binary : Bool} (encodes : Encodes value binary)
    (span : Span) :
    literalBytes (String.ofList (Expr.literalChars value binary)) binary span = .ok value := by
  cases binary with
  | false =>
    obtain ⟨s, rfl⟩ := encodes.resolve_left (by simp)
    have decoded := Text.Utf8.decode_encode s
    rw [literalBytes, if_neg (by simp), Expr.literalChars, if_neg (by simp), decoded,
      String.ofList_toList]
  | true =>
    have none : (Text.latin value).find? (fun c => 255 < c.toNat) = none := by
      simp only [Text.latin, List.find?_eq_none, List.mem_map, decide_eq_true_eq]
      rintro _ ⟨b, -, rfl⟩
      have := b.toNat_lt
      rw [Text.toNat_ofNat_byte]
      omega
    have back : (Text.latin value).map (fun c => UInt8.ofNat c.toNat) = value := by
      simp [Text.latin, Function.comp_def, Text.toNat_ofNat_byte]
    simp [literalBytes, Expr.literalChars, none, back]

/-! ### Patterns as they are shown -/

/-- What may stand between slashes: characters other than the slash, and pairs of a backslash with
any character. -/
inductive PatternBody : List Char → Prop where
  | nil : PatternBody []
  | plain {c : Char} {cs : List Char} (slash : c ≠ '/') (backslash : c ≠ '\\') (later : PatternBody cs) :
      PatternBody (c :: cs)
  | pair {c : Char} {cs : List Char} (later : PatternBody cs) : PatternBody ('\\' :: c :: cs)

theorem PatternBody.of_length {cs : List Char} {n : Nat} (h : patternLength cs = some n) :
    PatternBody (cs.take n) := by
  fun_induction patternLength cs generalizing n with
  | case1 => cases h
  | case2 d cs ih =>
    obtain ⟨m, found, rfl⟩ := Option.map_eq_some_iff.1 h
    exact .pair (ih found)
  | case3 c cs _ closes =>
    obtain rfl : 0 = n := by simpa using h
    exact .nil
  | case4 => cases h
  | case5 c cs _ open' plain ih =>
    obtain ⟨m, found, rfl⟩ := Option.map_eq_some_iff.1 h
    simp only [Bool.or_eq_true, beq_iff_eq, not_or] at plain
    exact .plain (by simpa using open') plain.1 (ih found)

theorem PatternBody.of_enclosed {body : List Char} (h : Enclosed patternLength '/' body) :
    PatternBody body := by
  simpa using PatternBody.of_length (h [])

theorem PatternBody.head {cs : List Char} (h : PatternBody cs) : cs.head? ≠ some '/' := by
  cases h with
  | nil => simp
  | plain slash => simpa using slash
  | pair => simp

/-- The backslashes before slashes, taken away and put back. -/
theorem PatternBody.replaceAll_replaceAll {body : List Char} (h : PatternBody body) :
    Text.replaceAll ['/'] ['\\', '/'] (Text.replaceAll ['\\', '/'] ['/'] body) = body := by
  have filled : ['\\', '/'] ≠ [] := by simp
  rw [Text.replaceAll_singleton]
  induction h with
  | nil => rw [Text.replaceAll_nil filled]; rfl
  | @plain c cs slash backslash later ih =>
    rw [Text.replaceAll_cons_of_not filled (by simp [List.isPrefixOf, backslash.symm]),
      List.flatMap_cons, ih, if_neg (by simpa using slash.symm)]
    rfl
  | @pair c cs later ih =>
    by_cases closes : c = '/'
    · subst closes
      rw [show '\\' :: '/' :: cs = ['\\', '/'] ++ cs from rfl, Text.replaceAll_append filled,
        List.flatMap_append, ih]
      rfl
    · have next : ['\\', '/'].isPrefixOf (c :: cs) = false := by
        cases cs with
        | nil => simp [List.isPrefixOf]
        | cons d cs =>
          have := later.head
          simp only [List.head?_cons, ne_eq, Option.some.injEq] at this
          simp [List.isPrefixOf, Ne.symm this]
      rw [Text.replaceAll_cons_of_not filled (by simp [List.isPrefixOf, Ne.symm closes]),
        Text.replaceAll_cons_of_not filled next, List.flatMap_cons, List.flatMap_cons, ih,
        if_neg (by decide), if_neg (by simpa using Ne.symm closes)]
      rfl

/-- A pattern between slashes, with its flags. -/
theorem patternLiteral_patternText {pattern : String} (isPattern : IsPattern pattern)
    (flags : MatchFlags) {tail : List Char}
    (ends : CaseFlagAt (flagLetter 'i' flags.ignoreCase ++ tail) flags.ignoreCase tail) :
    PatternLiteral ((Expr.withFlags flags (Expr.patternText pattern)).toList ++ tail) pattern
      flags.ignoreCase flags.binary tail := by
  obtain ⟨body, enclosed, filled, rfl⟩ := isPattern
  have back := (PatternBody.of_enclosed enclosed).replaceAll_replaceAll
  have shown : (Expr.patternText (String.ofList
      (Text.replaceAll ['\\', '/'] ['/'] body))).toList = '/' :: body ++ ['/'] := by
    simp [Expr.patternText, back]
  have literal : PatternLiteral _ _ _ flags.binary _ := .intro enclosed filled ends
  rw [toList_withFlags, shown]
  simpa using literal

/-! ### Numerals -/

theorem ofDigits_toDigits (n : Nat) : Decimal.ofDigits (Nat.toDigits 10 n) = n := by
  have digits := Nat.ofDigitChars_toDigits (n := n) (by decide : 1 < 10) (by decide)
  simpa [Decimal.ofDigits, Nat.ofDigitChars_eq_foldl, Nat.mul_comm] using digits

theorem solid_of_isDigit {c : Char} (digit : c.isDigit = true) : Solid c := by
  refine ⟨Bool.eq_false_iff.2 fun space => ?_, ?_⟩
  · simp only [isSpace, Bool.or_eq_true, beq_iff_eq] at space
    rcases space with ((rfl | rfl) | rfl) | rfl <;> exact absurd digit (by decide)
  · rintro rfl
    exact absurd digit (by decide)

theorem Numeral.skip_eq {limit n : Nat} {cs rest : List Char} (h : Numeral limit cs n rest) :
    skip cs = cs := by
  obtain ⟨filled, isDigit, -, -⟩ := h
  obtain ⟨c, w, rfl⟩ := List.exists_cons_of_ne_nil filled
  exact skip_cons (solid_of_isDigit (isDigit c (by simp)))

/-- A number as it is shown. -/
theorem numeral_toString {limit n : Nat} (below : n < limit) {rest : List Char}
    (ends : ∀ c, rest.head? = some c → c.isDigit = false) :
    Numeral limit ((toString n).toList ++ rest) n rest := by
  have shown : (toString n).toList = Nat.toDigits 10 n := by
    rw [Nat.toString_eq_ofList_toDigits, String.toList_ofList]
  have numeral : Numeral limit (Nat.toDigits 10 n ++ rest) _ rest := .intro
    Nat.toDigits_ne_nil (fun c => Nat.isDigit_of_mem_toDigits (by decide) (by decide)) ends
    (by rwa [ofDigits_toDigits])
  rwa [ofDigits_toDigits, ← shown] at numeral

end Packrat
