import Packrat.Input.Excerpt
import Packrat.Proofs.Printing.Literals

/-
**Excerpts of bytes.**

An excerpt of raw bytes shows the byte at an offset and its neighbours as a literal.  The quotes
around it are chosen for all of these bytes, and a byte that is such a quote is escaped.  The caret is
placed by the quoted form of the leading byte alone, and its quotes may be other ones: an apostrophe
alone stands between double quotes and needs no escape, but together with a double quote it does.

Main definitions:

* `Packrat.Excerpt.Requoted` — a leading byte that is escaped only together with the others;
* `Packrat.Excerpt.Window` — a byte and its neighbours, with the literal of them;
* `Packrat.Excerpt.ShowsByte` — what an excerpt of bytes shows.

Main results:

* `Packrat.Text.quoteMark_latin` — the quotes around bytes;
* `Packrat.Text.escapeByte_eq_of_ne` — only quotes are written differently between other quotes;
* `Packrat.Excerpt.bytes_excerpt_shows` — **the first line is the literal of the bytes around the
  offset, and the caret points at the byte at the offset unless the leading byte is quoted anew**.
-/

set_option autoImplicit false

namespace Packrat

namespace Text

/-! ### Bytes between quotes -/

theorem ofNat_byte_inj {a b : UInt8} (h : Char.ofNat a.toNat = Char.ofNat b.toNat) : a = b := by
  have := congrArg Char.toNat h
  rwa [toNat_ofNat_byte, toNat_ofNat_byte, UInt8.toNat_inj] at this

theorem mem_latin {b : UInt8} {bs : List UInt8} : Char.ofNat b.toNat ∈ latin bs ↔ b ∈ bs := by
  rw [latin, List.mem_map]
  constructor
  · rintro ⟨a, mem, same⟩
    exact ofNat_byte_inj same ▸ mem
  · exact fun mem => ⟨b, mem, rfl⟩

/-- The quotes around bytes: double ones if an apostrophe is among them and no double quote. -/
theorem quoteMark_latin (bs : List UInt8) :
    quoteMark (latin bs) = if 39 ∈ bs ∧ 34 ∉ bs then '"' else '\'' := by
  have apostrophe : '\'' ∈ latin bs ↔ 39 ∈ bs := mem_latin (b := 39)
  have double : '"' ∈ latin bs ↔ 34 ∈ bs := mem_latin (b := 34)
  rw [quoteMark]
  congr 1
  simp [apostrophe, double]

/-- Only quotes are written differently between other quotes. -/
theorem escapeByte_eq_of_ne {b : UInt8} (apostrophe : b ≠ 39) (double : b ≠ 34) :
    escapeByte '"' b = escapeByte '\'' b := by
  have other (quote : Char) (ne : Char.ofNat b.toNat ≠ quote) :
      (Char.ofNat b.toNat == quote) = false := by simpa using ne
  unfold escapeByte sharedEscape?
  have h1 := other '"' (fun same => double (ofNat_byte_inj (b := 34) same))
  have h2 := other '\'' (fun same => apostrophe (ofNat_byte_inj (b := 39) same))
  dsimp only
  split <;> simp_all

theorem hexDigit_ne_newline (n : Nat) (h : n < 16) : hexDigit n ≠ '\n' := by
  interval_cases n <;> decide

/-- A byte is written without line breaks. -/
theorem newline_not_mem_escapeByte (quote : Char) (b : UInt8) : '\n' ∉ escapeByte quote b := by
  unfold escapeByte sharedEscape?
  dsimp only
  split
  case h_1 | h_2 | h_3 | h_4 => rw [Option.getD_some]; decide
  case h_5 newline _ _ =>
    split
    · simpa using fun same => newline same.symm
    · rw [Option.getD_none]
      split
      · simpa using fun same => newline same.symm
      · have high := hexDigit_ne_newline (b.toNat / 16 % 16) (by omega)
        have low := hexDigit_ne_newline (b.toNat % 16) (by omega)
        simp [hexEscape, hexDigits, high.symm, low.symm]

/-- The literal of bytes has no line breaks. -/
theorem newline_not_mem_quoteBytes (bs : List UInt8) : '\n' ∉ quoteBytes bs := by
  have mark : quoteMark (latin bs) ≠ '\n' := by
    rcases quoteMark_eq_or (latin bs) with h | h <;> rw [h] <;> decide
  have body : '\n' ∉ bs.flatMap (escapeByte (quoteMark (latin bs))) := by
    rw [List.mem_flatMap]
    rintro ⟨b, -, mem⟩
    exact newline_not_mem_escapeByte _ b mem
  simp [quoteBytes, mark.symm, body]

/-- A byte that is no quote is written alike between quotes of either kind. -/
theorem escapeByte_congr {b : UInt8} (apostrophe : b ≠ 39) (double : b ≠ 34) {quote quote' : Char}
    (mark : quote = '"' ∨ quote = '\'') (mark' : quote' = '"' ∨ quote' = '\'') :
    escapeByte quote b = escapeByte quote' b := by
  have same := escapeByte_eq_of_ne apostrophe double
  rcases mark with rfl | rfl <;> rcases mark' with rfl | rfl <;> simp [same]

end Text

namespace Excerpt

/-- The leading byte is an apostrophe, which alone needs no escape, and a double quote behind it takes
the double quotes away that would stand around it. -/
def Requoted (before : List UInt8) (byte : UInt8) (after : List UInt8) : Prop :=
  before = [39] ∧ 34 ∈ byte :: after

instance (before : List UInt8) (byte : UInt8) (after : List UInt8) :
    Decidable (Requoted before byte after) := inferInstanceAs (Decidable (_ ∧ _))

/-- A byte with the ones before and behind it. -/
structure Window where
  before : List UInt8
  byte : UInt8
  after : List UInt8

namespace Window

/-- All of the bytes. -/
def bytes (w : Window) : List UInt8 := w.before ++ w.byte :: w.after

/-- The quotes around the literal of the bytes. -/
def quote (w : Window) : Char := Text.quoteMark (Text.latin w.bytes)

/-- The literal of the bytes up to the byte. -/
def front (w : Window) : List Char := 'b' :: w.quote :: w.before.flatMap (Text.escapeByte w.quote)

/-- The literal of the bytes from behind the byte on. -/
def back (w : Window) : List Char := w.after.flatMap (Text.escapeByte w.quote) ++ [w.quote]

end Window

/-- What the excerpt of bytes at an offset shows: the byte there, the ones before and behind it if there
are any, and a caret. -/
structure ShowsByte (bytes : List UInt8) (index : Nat) (w : Window) (columns : Nat)
    (shown : String) : Prop where
  here : bytes[index]? = some w.byte
  window : (bytes.take (min (index + 2) bytes.length)).drop (index - 1) = w.bytes
  leading : w.before.length = min index 1
  literal : Text.quoteBytes w.bytes = w.front ++ Text.escapeByte w.quote w.byte ++ w.back
  first : '\n' ∉ Text.quoteBytes w.bytes
  shown : shown.toList = Text.quoteBytes w.bytes ++ '\n' :: (List.replicate columns ' ' ++ ['^'])
  pointed : ¬ Requoted w.before w.byte w.after → columns = w.front.length
  requoted : Requoted w.before w.byte w.after → columns + 1 = w.front.length

/-- The leading byte takes as much room alone as together with the others, unless it is quoted anew. -/
theorem length_quoteBytes_lead {before after : List UInt8} {byte : UInt8} (one : before.length ≤ 1) :
    (Text.quoteBytes before).length - 1 + (if Requoted before byte after then 1 else 0) =
      2 + (before.flatMap (Text.escapeByte
        (Text.quoteMark (Text.latin (before ++ byte :: after))))).length := by
  obtain rfl | ⟨b, rfl⟩ : before = [] ∨ ∃ b, before = [b] := by
    match before, one with
    | [], _ => exact .inl rfl
    | [b], _ => exact .inr ⟨b, rfl⟩
  · simp [Text.quoteBytes, Requoted]
  have alone : (Text.quoteBytes [b]).length =
      3 + (Text.escapeByte (Text.quoteMark (Text.latin [b])) b).length := by
    simp [Text.quoteBytes]
    omega
  rw [alone, List.flatMap_singleton]
  by_cases apostrophe : b = 39
  · subst apostrophe
    have mark : Text.quoteMark (Text.latin [39]) = '"' := by decide
    rw [mark, Text.quoteMark_latin]
    by_cases double : 34 ∈ byte :: after
    · rw [if_pos ⟨rfl, double⟩, if_neg (by simp_all)]
      rfl
    · rw [if_neg (fun requoted => double requoted.2), if_pos (by simp_all)]
      rfl
  · rw [if_neg (fun requoted => apostrophe (List.cons.inj requoted.1).1)]
    by_cases double : b = 34
    · subst double
      have mark : Text.quoteMark (Text.latin [34]) = '\'' := by decide
      rw [mark, Text.quoteMark_latin, if_neg (by simp)]
      omega
    · rw [Text.escapeByte_congr apostrophe double (Text.quoteMark_eq_or _)
        (Text.quoteMark_eq_or (Text.latin ([b] ++ byte :: after)))]
      omega

/-- The byte at an offset between the one before and the one behind it. -/
theorem exists_window {bs : List UInt8} {index : Nat} (inside : index < bs.length) :
    ∃ before byte after, bs[index]? = some byte ∧ before.length = min index 1 ∧
      (bs.take index).drop (index - 1) = before ∧
      (bs.take (min (index + 2) bs.length)).drop (index - 1) = before ++ byte :: after := by
  rw [← List.take_eq_take_min]
  cases index with
  | zero =>
    obtain ⟨byte, rest, rfl⟩ := List.exists_cons_of_length_pos inside
    exact ⟨[], byte, rest.take 1, rfl, rfl, rfl, rfl⟩
  | succ k =>
    obtain ⟨lead, behind, split⟩ : ∃ lead behind, bs.drop k = lead :: behind :=
      List.exists_cons_of_length_pos (by rw [List.length_drop]; omega)
    have next : bs.drop (k + 1) = behind := by rw [← List.drop_drop, split]; rfl
    obtain ⟨byte, rest, rfl⟩ : ∃ byte rest, behind = byte :: rest :=
      List.exists_cons_of_length_pos (by rw [← next, List.length_drop]; omega)
    refine ⟨[lead], byte, rest.take 1, ?_, by simp, ?_, ?_⟩
    · rw [← List.head?_drop, next]
      rfl
    · rw [List.drop_take, Nat.add_sub_cancel, split, show k + 1 - k = 1 by omega]
      rfl
    · rw [List.drop_take, Nat.add_sub_cancel, split, show k + 1 + 2 - k = 3 by omega]
      rfl

/-- **The excerpt of bytes** shows the literal of the bytes around the offset in its first line, and the
caret stands below the first character of the byte at the offset, unless the leading byte is quoted
anew: then it stands one to the left. -/
theorem bytes_excerpt_shows [Text.Display] {bytes : ByteArray} {position : Position}
    (table : LineTable) (width : Nat) (inside : position.index < bytes.size) :
    ∃ (w : Window) (columns : Nat), ShowsByte bytes.data.toList position.index w columns
      (excerpt (.binary bytes) table position width) := by
  obtain ⟨index, line, column⟩ := position
  change index < bytes.size at inside
  have between (start stop : Nat) : Input.between bytes start stop =
      (bytes.data.toList.take stop).drop start := by
    simp [Input.between, List.extract_eq_take_drop, List.drop_take]
  have length : bytes.data.toList.length = bytes.size := Array.length_toList
  have inside' : index < bytes.data.toList.length := by omega
  obtain ⟨before, byte, after, here, leading, lead, window⟩ := exists_window inside'
  have room := @length_quoteBytes_lead before after byte (by omega)
  have shown : excerpt (.binary bytes) table ⟨index, line, column⟩ width =
      withCaret (String.ofList (Text.quoteBytes (before ++ byte :: after)))
        ((Text.quoteBytes before).length - 1) := by
    have start : min (index - 1) bytes.size = index - 1 := by omega
    have stop : min index (min (index + 2) bytes.size) = index := by omega
    rw [excerpt, excerpt?, Option.getD_some, ofBytes]
    simp only [between, start, stop, lead]
    rw [← length, window]
  rw [shown]
  refine ⟨⟨before, byte, after⟩, (Text.quoteBytes before).length - 1, here, window, leading, ?_,
    Text.newline_not_mem_quoteBytes _, by simp [withCaret, Window.bytes], fun other => ?_,
    fun requoted => ?_⟩
  · simp [Text.quoteBytes, Window.bytes, Window.front, Window.back, Window.quote]
  · rw [if_neg other] at room
    simp only [Window.front, Window.quote, Window.bytes, List.length_cons]
    omega
  · rw [if_pos requoted] at room
    simp only [Window.front, Window.quote, Window.bytes, List.length_cons]
    omega

/-- Bytes that are quotes and a backslash. -/
def quotedBytes : ByteArray := ⟨#[34, 92, 39, 10]⟩

/-- The caret points at the byte behind the escape of the backslash. -/
theorem bytes_excerpt_shows_quoted : 2 < quotedBytes.size ∧
    (∃ w columns, ShowsByte quotedBytes.data.toList 2 w columns
      (excerpt (.binary quotedBytes) (LineTable.ofInput (.binary quotedBytes)) ⟨2, 1, 3⟩ 96)) ∧
    excerpt (.binary quotedBytes) (LineTable.ofInput (.binary quotedBytes)) ⟨2, 1, 3⟩ 96 =
      "b\"\\\\'\\n\"\n    ^" :=
  ⟨by decide, @bytes_excerpt_shows _ quotedBytes ⟨2, 1, 3⟩ _ _ (by decide), by decide +kernel⟩

end Excerpt

end Packrat
