import Mathlib.Data.List.DropRight
import Packrat.Proofs.Printing.Operands
import Packrat.Proofs.Printing.Padding

/-
**Host code without the blanks around it.**

A snippet is kept without its outer blanks, and it still stands for the same term: the readers of
host code begin no token with a blank and do the same whether or not blanks stand at the end.

Main definitions:

* `Packrat.Snippet.Shown` — a snippet whose source stands for its term.

Main results:

* `Packrat.Host.InStep.term` — the readers of host code stay in step on texts with and without
  blanks at the end;
* `Packrat.Host.Term.parse_trim` — the term of a snippet is that of its trimmed source.
-/

set_option autoImplicit false

namespace Packrat

open Scan

namespace Host

/-! ### Literals and names -/

theorem isDigit_of_isBlank {c : Char} (h : Text.isBlank c = true) : c.isDigit = false :=
  Bool.eq_false_iff.2 fun digit => by
    have word : isWordChar c = true := by simp [isWordChar, Char.isAlphanum, digit]
    simp [isBlank_of_isWordChar word] at h

theorem isBlank_of_isDigit {c : Char} (h : c.isDigit = true) : Text.isBlank c = false :=
  isBlank_of_isWordChar (by simp [isWordChar, Char.isAlphanum, h])

theorem digitLength_padded (cs : List Char) {t : List Char} (blank : AllBlank t) :
    digitLength (cs ++ t) = digitLength cs := by
  rw [digitLength, digitLength, takeWhile_padded (fun c => isDigit_of_isBlank) cs blank]

theorem digitLength_le (cs : List Char) : digitLength cs ≤ cs.length :=
  (List.takeWhile_prefix _).length_le

theorem head_of_digitLength {cs : List Char} (h : digitLength cs ≠ 0) {c : Char}
    (head : cs.head? = some c) : Text.isBlank c = false := by
  obtain ⟨t, rfl⟩ := List.head?_eq_some_iff.1 head
  by_cases digit : c.isDigit = true
  · exact isBlank_of_isDigit digit
  · simp [digitLength, digit] at h

theorem head?_padded {cs t : List Char} (blank : AllBlank t) {c : Char}
    (solid : Text.isBlank c = false) : (cs ++ t).head? = some c ↔ cs.head? = some c := by
  cases cs with
  | nil =>
    simp only [List.nil_append, List.head?_nil, reduceCtorEq, iff_false]
    intro head
    simp [blank.head head] at solid
  | cons d cs => simp

theorem exponentLength_padded (cs : List Char) {t : List Char} (blank : AllBlank t) :
    exponentLength (cs ++ t) = exponentLength cs := by
  cases cs with
  | nil =>
    cases t with
    | nil => rfl
    | cons c t =>
      have other : ∀ d, Text.isBlank d = false → (c == d) = false := fun d solid => by
        simp only [beq_eq_false_iff_ne]
        rintro rfl
        simp [blank c (by simp)] at solid
      simp [exponentLength, other 'e' (by decide), other 'E' (by decide)]
  | cons c cs =>
    have sign : ((cs ++ t).head? == some '+' || (cs ++ t).head? == some '-') =
        (cs.head? == some '+' || cs.head? == some '-') := by
      rw [Bool.eq_iff_iff]
      simp only [Bool.or_eq_true, beq_iff_eq, head?_padded blank (by decide : Text.isBlank '+' = false),
        head?_padded blank (by decide : Text.isBlank '-' = false)]
    simp only [List.cons_append, exponentLength, sign]
    generalize signed : (cs.head? == some '+' || cs.head? == some '-') = flag
    have inside : (if flag then 1 else 0) ≤ cs.length := by
      cases flag with
      | false => simp
      | true => cases cs <;> simp at signed ⊢
    rw [List.drop_append_of_le_length inside, digitLength_padded _ blank]

theorem exponentLength_le {cs : List Char} {k : Nat} (h : exponentLength cs = some k) :
    0 < k ∧ k ≤ cs.length := by
  cases cs with
  | nil => simp [exponentLength] at h
  | cons c cs =>
    simp only [exponentLength] at h
    split at h
    · generalize sign : (if (cs.head? == some '+' || cs.head? == some '-') = true then 1 else 0) = i
        at h
      split at h
      · cases h
      · next some' =>
        have := digitLength_le (cs.drop i)
        simp only [beq_iff_eq, List.length_drop, Option.some.injEq, List.length_cons] at *
        omega
    · cases h

/-- A float literal with a point. -/
theorem floatLength_point {cs places : List Char} (point : cs.drop (digitLength cs) = '.' :: places) :
    floatLength cs = if digitLength cs = 0 ∧ digitLength places = 0 then none
      else some (digitLength cs + 1 + digitLength places +
        (exponentLength (places.drop (digitLength places))).getD 0) := by
  have behind : cs.drop (digitLength cs + 1 + digitLength places) =
      places.drop (digitLength places) := by
    rw [← List.drop_drop, ← List.drop_drop, point]
    rfl
  simp [floatLength, point, behind]

theorem measures_floatLength : Measures floatLength where
  padded cs t blank := by
    have behind : (cs ++ t).drop (digitLength (cs ++ t)) = cs.drop (digitLength cs) ++ t := by
      rw [digitLength_padded cs blank, List.drop_append_of_le_length (digitLength_le cs)]
    by_cases point : (cs.drop (digitLength cs)).head? = some '.'
    · obtain ⟨places, point⟩ := List.head?_eq_some_iff.1 point
      have point' : (cs ++ t).drop (digitLength (cs ++ t)) = '.' :: (places ++ t) := by
        rw [behind, point]
        rfl
      rw [floatLength_point point, floatLength_point point', digitLength_padded cs blank,
        digitLength_padded places blank, List.drop_append_of_le_length (digitLength_le places),
        exponentLength_padded _ blank]
    · have point' : ((cs ++ t).drop (digitLength (cs ++ t))).head? ≠ some '.' := by
        rwa [behind, ne_eq, head?_padded blank (by decide)]
      rw [floatLength_plain point, floatLength_plain point', behind, digitLength_padded cs blank,
        exponentLength_padded _ blank]
  inside cs k measured := by
    have whole := digitLength_le cs
    by_cases point : (cs.drop (digitLength cs)).head? = some '.'
    · obtain ⟨places, point⟩ := List.head?_eq_some_iff.1 point
      rw [floatLength_point point] at measured
      have size := congrArg List.length point
      have := digitLength_le places
      simp only [List.length_drop, List.length_cons] at size
      split at measured
      · cases measured
      · cases exponent : exponentLength (places.drop (digitLength places)) with
        | none =>
          simp only [exponent, Option.getD_none, Option.some.injEq] at measured
          omega
        | some e =>
          have := (exponentLength_le exponent).2
          simp only [exponent, Option.getD_some, Option.some.injEq] at measured
          simp only [List.length_drop] at this
          omega
    · rw [floatLength_plain point] at measured
      split at measured
      · cases measured
      · obtain ⟨e, exponent, rfl⟩ := Option.map_eq_some_iff.1 measured
        have := (exponentLength_le exponent).2
        simp only [List.length_drop] at this
        omega

theorem solid_floatLength {cs : List Char} {k : Nat} (h : floatLength cs = some k) :
    0 < k ∧ ∀ c, cs.head? = some c → Text.isBlank c = false := by
  by_cases point : (cs.drop (digitLength cs)).head? = some '.'
  · obtain ⟨places, point⟩ := List.head?_eq_some_iff.1 point
    rw [floatLength_point point] at h
    split at h
    · cases h
    · obtain rfl := Option.some.inj h
      refine ⟨by omega, fun c head => ?_⟩
      by_cases whole : digitLength cs = 0
      · rw [whole, List.drop_zero] at point
        obtain rfl : '.' = c := by simpa [point] using head
        decide
      · exact head_of_digitLength whole head
  · rw [floatLength_plain point] at h
    split at h
    · cases h
    · next whole =>
      obtain ⟨e, -, rfl⟩ := Option.map_eq_some_iff.1 h
      exact ⟨by omega, fun c head => head_of_digitLength whole head⟩

theorem measures_quotedLength {quote : Char} (plain : quote ≠ '\\') (solid : Text.isBlank quote = false) :
    Measures (quotedLength quote) where
  padded cs t blank := by
    have none : ∀ {t : List Char}, AllBlank t → quotedLength quote t = none := by
      intro t blank
      induction t with
      | nil => rfl
      | cons c t ih =>
        have notSlash : c ≠ '\\' := by
          rintro rfl
          exact absurd (blank '\\' (by simp)) (by decide)
        have other : c ≠ quote := by
          rintro rfl
          simp [blank c (by simp)] at solid
        rw [quotedLength_cons t notSlash, if_neg (by simpa using other),
          ih (blank.suffix (List.suffix_cons c t))]
        rfl
    fun_induction quotedLength quote cs with
    | case1 => exact none blank
    | case2 d cs ih => simp only [List.cons_append, quotedLength, ih]
    | case3 c cs other isQuote =>
      obtain rfl : c = quote := by simpa using isQuote
      rw [List.cons_append, quotedLength_cons _ plain, if_pos isQuote]
    | case4 c cs other isQuote slash =>
      -- The backslash is the last character, so a blank is taken along with it at most.
      obtain rfl : c = '\\' := by simpa using slash
      obtain rfl : cs = [] := by
        cases cs with
        | nil => rfl
        | cons d cs => exact (other d cs rfl rfl).elim
      cases t with
      | nil => simp [quotedLength, plain.symm]
      | cons d t =>
        simp [quotedLength, none (blank.suffix (List.suffix_cons d t))]
    | case5 c cs other isQuote slash ih =>
      rw [List.cons_append, quotedLength_cons _ (by simpa using slash), if_neg isQuote, ih]
  inside cs k measured := by
    fun_induction quotedLength quote cs generalizing k with
    | case1 => cases measured
    | case2 d cs ih =>
      obtain ⟨m, found, rfl⟩ := Option.map_eq_some_iff.1 measured
      have := ih m found
      simp only [List.length_cons]
      omega
    | case3 => simp at measured; omega
    | case4 => cases measured
    | case5 c cs _ _ _ ih =>
      obtain ⟨m, found, rfl⟩ := Option.map_eq_some_iff.1 measured
      have := ih m found
      simp only [List.length_cons]
      omega

theorem measures_identifier (reserved : List String) : Measures fun cs =>
    match cs.head? with
    | some c =>
      if wordLength cs == 0 || c.isDigit || reserved.contains (String.ofList (cs.take (wordLength cs)))
      then none else some (wordLength cs)
    | none => none where
  padded cs t blank := by
    have word : ∀ cs, wordLength (cs ++ t) = wordLength cs := fun cs => by
      rw [wordLength, wordLength, takeWhile_padded (fun c => isWordChar_of_isBlank) cs blank]
    cases cs with
    | nil =>
      have empty : wordLength t = 0 := word []
      simp only [List.nil_append, List.head?_nil]
      split
      · simp [empty]
      · rfl
    | cons c cs =>
      have inside : wordLength (c :: cs) ≤ (c :: cs).length := (List.takeWhile_prefix _).length_le
      simp only [word, List.take_append_of_le_length inside]
      rfl
  inside cs k measured := by
    split at measured
    · split at measured
      · cases measured
      · exact Option.some.inj measured ▸ (List.takeWhile_prefix _).length_le
    · cases measured

theorem drop_takeWhile_length (p : Char → Bool) (cs : List Char) :
    cs.drop (cs.takeWhile p).length = cs.dropWhile p := by
  have whole := List.takeWhile_append_dropWhile (p := p) (l := cs)
  calc cs.drop (cs.takeWhile p).length
      = (cs.takeWhile p ++ cs.dropWhile p).drop (cs.takeWhile p).length := by rw [whole]
    _ = cs.dropWhile p := List.drop_left

theorem length_le_of_atWord {word : String} {cs : List Char} (h : atWord word cs = true) :
    word.length ≤ cs.length := by
  have prefix' : word.toList <+: cs := atWord_iff.1 h ▸ List.takeWhile_prefix _
  rw [← String.length_toList]
  exact prefix'.length_le

theorem twoWords_eq (first second : String) (cs : List Char) : twoWords first second cs =
    let behind := cs.drop first.length
    if atWord first cs = true ∧ behind.takeWhile isSpace ≠ [] ∧
        atWord second (behind.dropWhile isSpace) = true then
      some (first.length + (behind.takeWhile isSpace).length + second.length)
    else none := by
  simp only [twoWords, drop_takeWhile_length, Bool.and_eq_true, bne_iff_ne, ne_eq,
    List.length_eq_zero_iff, and_assoc]

/-- Two words with blanks between them; blanks at the end of the text are not between them. -/
theorem measures_twoWords {first second : String} (plain : second.toList ≠ []) :
    Measures (twoWords first second) where
  padded cs t blank := by
    simp only [twoWords_eq, atWord_padded first cs blank]
    by_cases word : atWord first cs = true
    · rw [List.drop_append_of_le_length (length_le_of_atWord word)]
      generalize cs.drop first.length = behind
      by_cases spaces : behind.dropWhile isSpace = []
      · -- No second word is left, with the blanks at the end or without them.
        have none : ∀ {ds : List Char}, AllBlank ds → ¬ atWord second ds = true := by
          intro ds blank' found
          have empty := atWord_padded second [] blank' ▸ found
          exact plain (atWord_iff.1 empty).symm
        have empty : (behind ++ t).dropWhile isSpace = t.dropWhile isSpace := by
          rw [List.dropWhile_append, spaces]
          rfl
        have first' := none (blank.suffix (List.dropWhile_suffix isSpace))
        have second' : ¬ atWord second [] = true := none (by simp [AllBlank])
        rw [empty, spaces, if_neg (fun h => first' h.2.2), if_neg (fun h => second' h.2.2)]
      · have same : (behind ++ t).takeWhile isSpace = behind.takeWhile isSpace := by
          rw [List.takeWhile_append, if_neg]
          intro all
          refine spaces ?_
          rw [← drop_takeWhile_length, all, List.drop_length]
        have left : (behind ++ t).dropWhile isSpace = behind.dropWhile isSpace ++ t := by
          rw [List.dropWhile_append, if_neg (by simpa using spaces)]
        rw [same, left, atWord_padded second _ blank]
    · simp [word]
  inside cs k measured := by
    rw [twoWords_eq] at measured
    dsimp only at measured
    split at measured
    · next found =>
      obtain ⟨word, -, word'⟩ := found
      have total := congrArg List.length
        (List.takeWhile_append_dropWhile (p := isSpace) (l := cs.drop first.length))
      have := length_le_of_atWord word
      have := length_le_of_atWord word'
      rw [List.length_append, List.length_drop] at total
      have := Option.some.inj measured
      omega
    · cases measured

end Host

/-! ### Readers in step -/

namespace Scan.InStep

open Host

variable {α : Type} {m n : Nat}

theorem name (reserved : List String) :
    InStep m n .eager (bareIdentifier reserved) (bareIdentifier reserved) :=
  (lexeme (measures_identifier reserved) fun cs k measured => by
    split at measured
    · next c head =>
      obtain ⟨t, rfl⟩ := List.head?_eq_some_iff.1 head
      split at measured
      · cases measured
      · next filled =>
        obtain rfl := Option.some.inj measured
        simp only [Bool.or_eq_true, not_or, beq_iff_eq] at filled
        refine ⟨Nat.pos_of_ne_zero filled.1.1, fun d head' => ?_⟩
        obtain rfl : c = d := by simpa using head'
        by_cases word : isWordChar c = true
        · exact isBlank_of_isWordChar word
        · simp [wordLength, word] at filled
    · cases measured).bind fun _ => (pure _).free

theorem digits : InStep m n .eager bareDigits bareDigits := by
  refine lexeme ⟨fun cs t blank => ?_, fun cs k measured => ?_⟩ fun cs k measured => ?_
  · simp only [digitLength_padded cs blank]
  · split at measured
    · cases measured
    · exact Option.some.inj measured ▸ digitLength_le cs
  · split at measured
    · cases measured
    · next filled =>
      have filled : digitLength cs ≠ 0 := by simpa using filled
      exact ⟨Option.some.inj measured ▸ Nat.pos_of_ne_zero filled,
        fun c => head_of_digitLength filled⟩

theorem quoted : InStep m n .eager bareQuoted bareQuoted := by
  have body : ∀ quote : Char, quote ≠ '\\' → Text.isBlank quote = false →
      InStep m n .eager (quotedBody quote) (quotedBody quote) := fun quote plain solid =>
    (literal (by simp) (by simp [solid])).bind fun _ =>
      (lexeme_free (measures_quotedLength plain solid)).bind_free fun _ =>
      (literal (by simp) (by simp [solid])).free.bind_free fun _ => (pure _).free
  exact (orElse (body '"' (by decide) (by decide)) (body '\'' (by decide) (by decide))).bind
    fun _ => (pure _).free

/-- The place of a numeral may differ, since only whether one was noted matters. -/
theorem noteMisfit (x y : Misfit) : InStep m n .free (noteMisfit x) (noteMisfit y) :=
  fun a b _ _ padded => by
    refine .read () ⟨padded.rest, ?_⟩ (Nat.le_refl _) (Nat.le_refl _)
    change a.misfit?.or (some x) = none ↔ b.misfit?.or (some y) = none
    cases a.misfit? <;> cases b.misfit? <;> simp

theorem offset {g : Gait} {f f' : Nat → Reader α}
    (next : ∀ i j, InStep m n g (f i) (f' j)) :
    InStep m n g (Scan.offset >>= f) (Scan.offset >>= f') :=
  fun a b short short' padded => next a.offset b.offset a b short short' padded

theorem integer : InStep m n .eager readInteger readInteger :=
  offset fun i j => digits.bind fun ds => offset fun i' j' => by
    dsimp only
    split
    · exact (pure ()).free.bind_free fun _ => blanks.bind_free fun _ => (pure _).free
    · exact (noteMisfit _ _).bind_free fun _ => blanks.bind_free fun _ => (pure _).free

theorem float : InStep m n .eager readFloatLiteral readFloatLiteral :=
  (lexeme measures_floatLength fun _ _ => solid_floatLength).token.bind fun text => by
    split
    · exact (pure _).free
    · exact failure

theorem word {text : String} (x : α) (filled : text.toList ≠ [])
    (solid : text.toList.all (!Text.isBlank ·) = true) :
    InStep m n .eager (Scan.keyword text *> Pure.pure x) (Scan.keyword text *> Pure.pure x) :=
  (keyword filled solid).seqRight (pure x).free

theorem sign {text : String} (x : α) (filled : text.toList ≠ [])
    (solid : text.toList.all (!Text.isBlank ·) = true) :
    InStep m n .eager (Scan.symbol text *> Pure.pure x) (Scan.symbol text *> Pure.pure x) :=
  (symbol filled solid).seqRight (pure x).free

theorem literalTerm : InStep m n .eager readLiteral readLiteral :=
  float.orElse <| integer.orElse <| (quoted.token.bind fun _ => (pure _).free).orElse <|
    (word _ (by decide) (by decide)).orElse <| (word _ (by decide) (by decide)).orElse <|
    word _ (by decide) (by decide)

theorem words {first second : String} (x : α) (filled : first.toList ≠ [])
    (solid : first.toList.all (!Text.isBlank ·) = true) (plain : second.toList ≠ []) :
    InStep m n .eager (Scan.token (Scan.lexeme (twoWords first second)) *> Pure.pure x)
      (Scan.token (Scan.lexeme (twoWords first second)) *> Pure.pure x) :=
  (lexeme (measures_twoWords plain) fun cs k measured => by
    rw [twoWords_eq] at measured
    dsimp only at measured
    split at measured
    · next found =>
      obtain ⟨word, gap, -⟩ := found
      obtain ⟨d, w, split⟩ := List.exists_cons_of_ne_nil filled
      have starts : d :: w <+: cs := split ▸ atWord_iff.1 word ▸ List.takeWhile_prefix _
      obtain ⟨u, rfl⟩ := starts
      refine ⟨?_, fun c head => ?_⟩
      · have := List.length_pos_iff.2 gap
        have := Option.some.inj measured
        omega
      · obtain rfl : d = c := by simpa using head
        simp only [split, List.all_cons, Bool.and_eq_true, Bool.not_eq_true'] at solid
        exact solid.1
    · cases measured).token.seqRight (pure x).free

theorem comparison : InStep m n .eager readComparison readComparison :=
  (sign _ (by decide) (by decide)).orElse <| (sign _ (by decide) (by decide)).orElse <|
    (sign _ (by decide) (by decide)).orElse <| (sign _ (by decide) (by decide)).orElse <|
    (sign _ (by decide) (by decide)).orElse <| (sign _ (by decide) (by decide)).orElse <|
    (words _ (by decide) (by decide) (by decide)).orElse <|
    (word _ (by decide) (by decide)).orElse <|
    (words _ (by decide) (by decide) (by decide)).orElse <| word _ (by decide) (by decide)

theorem multiplicative : InStep m n .eager readMultiplicative readMultiplicative := by
  have solid : ∀ c ∈ ['*', '*'], Text.isBlank c = false := by simp; decide
  have alone : InStep m n .lazy (Scan.lookahead fun cs => !"**".toList.isPrefixOf cs)
      (Scan.lookahead fun cs => !"**".toList.isPrefixOf cs) :=
    lookahead fun cs _ blank => congrArg not (isPrefixOf_padded solid cs blank)
  have times : InStep m n .eager (Scan.symbol "*") (Scan.symbol "*") :=
    symbol (by decide) (by decide)
  have star := alone.seqRight_lazy times
  exact (sign _ (by decide) (by decide)).orElse <| (star.seqRight (pure _).free).orElse <|
    (sign _ (by decide) (by decide)).orElse (sign _ (by decide) (by decide))

theorem additive : InStep m n .eager readAdditive readAdditive :=
  (sign _ (by decide) (by decide)).orElse (sign _ (by decide) (by decide))

theorem signs : InStep m n .eager readSign readSign :=
  (sign _ (by decide) (by decide)).orElse (sign _ (by decide) (by decide))

/-! ### Expressions -/

section Expressions

variable {f g : Reader Term}

theorem comma : InStep m n .eager (Scan.symbol ",") (Scan.symbol ",") :=
  symbol (by decide) (by decide)

/-- An expression inside of another stands behind a character of it. -/
theorem trailer (h : InStep m n .eager f g) :
    InStep (m + 1) (n + 1) .eager (readTrailer f) (readTrailer g) := by
  have call : InStep (m + 1) (n + 1) .eager
      (do Scan.symbol "("; let args ← Scan.listOf f (Scan.symbol ","); Scan.symbol ")"
          Pure.pure (Term.call · args))
      (do Scan.symbol "("; let args ← Scan.listOf g (Scan.symbol ","); Scan.symbol ")"
          Pure.pure (Term.call · args)) :=
    (symbol (by decide) (by decide)).bind fun _ => (h.listOf comma).bind_free fun _ =>
      (symbol (by decide) (by decide)).free.bind_free fun _ => (pure _).free
  have member : InStep (m + 1) (n + 1) .eager
      (do Scan.symbol "."; let field ← readName; Pure.pure (Term.member · field))
      (do Scan.symbol "."; let field ← readName; Pure.pure (Term.member · field)) :=
    (symbol (by decide) (by decide)).bind fun _ => (name _).token.free.bind_free fun _ =>
      (pure _).free
  refine call.orElse <| member.orElse <| (symbol (by decide) (by decide)).bind fun _ =>
    h.attempt.free.bind_free fun lower =>
    (symbol (by decide) (by decide)).attempt.free.bind_free fun colon => ?_
  cases colon with
  | some _ =>
    exact h.attempt.free.bind_free fun _ => (symbol (by decide) (by decide)).free.bind_free fun _ =>
      (pure _).free
  | none =>
    cases lower with
    | some _ => exact (symbol (by decide) (by decide)).free.bind_free fun _ => (pure _).free
    | none => exact failure

theorem parenthesized (h : InStep m n .eager f g) :
    InStep (m + 1) (n + 1) .eager (readParenthesized f) (readParenthesized g) :=
  (symbol (by decide) (by decide)).bind fun _ =>
    (orElse ((h.sepBy comma).free.bind_free fun _ => comma.attempt.free.bind_free fun _ =>
      (pure _).free) (pure _).free).bind_free fun items =>
    (symbol (by decide) (by decide)).free.bind_free fun _ => by
      split
      · exact (pure _).free
      · exact (pure _).free

theorem atom (h : InStep m n .eager f g) :
    InStep (m + 1) (n + 1) .eager (readAtom f) (readAtom g) :=
  orElse literalTerm <| orElse ((symbol (by decide) (by decide)).bind fun _ =>
    (h.listOf comma).bind_free fun _ => (symbol (by decide) (by decide)).free.bind_free fun _ =>
    (pure _).free) <| orElse h.parenthesized <| (name _).token.bind fun _ => (pure _).free

theorem suffixed (h : InStep m n .eager f g) :
    InStep (m + 1) (n + 1) .eager (Host.readSuffixed f) (Host.readSuffixed g) :=
  h.atom.bind fun _ => (h.trailer.mono (Nat.le_succ m) (Nat.le_succ n)).many.free.bind_free
    fun _ => (pure _).free

theorem signed (h : InStep m n .eager f g) :
    InStep (m + 1) (n + 1) .eager (readSigned f) (readSigned g) :=
  (chain (signs.many.bind_lazy fun _ => h.suffixed.bind fun _ => (pure _).free)
    (symbol (by decide) (by decide))).bind fun _ => (pure _).free

theorem product (h : InStep m n .eager f g) :
    InStep (m + 1) (n + 1) .eager (readProduct f) (readProduct g) :=
  (h.signed.chain multiplicative).bind fun _ => (pure _).free

theorem sum (h : InStep m n .eager f g) :
    InStep (m + 1) (n + 1) .eager (readSum f) (readSum g) :=
  (h.product.chain additive).bind fun _ => (pure _).free

theorem negated (h : InStep m n .eager f g) :
    InStep (m + 1) (n + 1) .eager (readNegated f) (readNegated g) :=
  (keyword (by decide) (by decide)).many.bind_lazy fun _ =>
    (h.sum.chain comparison).bind fun _ => (pure _).free

theorem conjunction (h : InStep m n .eager f g) :
    InStep (m + 1) (n + 1) .eager (readConjunction f) (readConjunction g) :=
  (h.negated.chain (keyword (by decide) (by decide))).bind fun _ => (pure _).free

theorem disjunction (h : InStep m n .eager f g) :
    InStep (m + 1) (n + 1) .eager (readDisjunction f) (readDisjunction g) :=
  (h.conjunction.chain (keyword (by decide) (by decide))).bind fun _ => (pure _).free

theorem lambda (h : InStep m n .eager f g) :
    InStep (m + 1) (n + 1) .eager (readLambda f) (readLambda g) :=
  (keyword (by decide) (by decide)).bind fun _ =>
    (orElse ((name _).token.sepBy comma).free (pure []).free).bind_free fun _ =>
    (symbol (by decide) (by decide)).free.bind_free fun _ => h.free.bind_free fun _ => (pure _).free

theorem conditional (h : InStep m n .eager f g) :
    InStep (m + 1) (n + 1) .eager (readConditional f) (readConditional g) :=
  h.disjunction.bind fun _ => orElse ((keyword (by decide) (by decide)).free.bind_free fun _ =>
    (h.disjunction.mono (Nat.le_succ m) (Nat.le_succ n)).free.bind_free fun _ =>
    (keyword (by decide) (by decide)).free.bind_free fun _ => h.free.bind_free fun _ =>
    (pure _).free) (pure _).free

/-- Expressions on texts with and without blanks at the end, each read to its own depth. -/
theorem term (m n : Nat) : InStep m n .eager (readTerm m) (readTerm n) := by
  induction m generalizing n with
  | zero => exact fun _ _ short => absurd short (Nat.not_lt_zero _)
  | succ m ih =>
    cases n with
    | zero => exact fun _ _ _ short => absurd short (Nat.not_lt_zero _)
    | succ n => exact (ih n).lambda.orElse (ih n).conditional

end Expressions

end Scan.InStep

/-! ### Trimmed sources -/

namespace Text

theorem head_dropWhile {p : Char → Bool} {cs : List Char} {c : Char}
    (h : (cs.dropWhile p).head? = some c) : p c = false := by
  have := List.head?_dropWhile_not p cs
  rw [h] at this
  simpa using this

theorem trimBoth_prefix (p : Char → Bool) (cs : List Char) : trimBoth p cs <+: cs.dropWhile p := by
  have := List.reverse_prefix.2 (List.dropWhile_suffix p (l := (cs.dropWhile p).reverse))
  simpa [trimBoth] using this

theorem trimBoth_trimBoth (p : Char → Bool) (cs : List Char) :
    trimBoth p (trimBoth p cs) = trimBoth p cs := by
  have front : (trimBoth p cs).dropWhile p = trimBoth p cs := by
    obtain ⟨z, split⟩ := trimBoth_prefix p cs
    cases first : trimBoth p cs with
    | nil => rfl
    | cons c u =>
      have solid : p c = false := head_dropWhile
        (show (cs.dropWhile p).head? = some c by rw [← split, first]; rfl)
      simp [solid]
  conv_lhs => rw [trimBoth, front, trimBoth, List.reverse_reverse, List.dropWhile_idempotent]
  rfl

theorem trim_trim (s : String) : trim (trim s) = trim s := by
  rw [trim, trim, String.toList_ofList, trimBoth_trimBoth]

/-- A text is a trimmed one between blanks. -/
theorem exists_trimBoth (cs : List Char) : ∃ front back, AllBlank front ∧ AllBlank back ∧
    cs = front ++ (trimBoth isBlank cs ++ back) := by
  refine ⟨cs.takeWhile isBlank, ((cs.dropWhile isBlank).reverse.takeWhile isBlank).reverse,
    fun c hc => List.all_eq_true.1 List.all_takeWhile c hc, fun c hc => ?_, ?_⟩
  · exact List.all_eq_true.1 List.all_takeWhile c (List.mem_reverse.1 hc)
  · rw [trimBoth, ← List.reverse_append, List.takeWhile_append_dropWhile, List.reverse_reverse,
      List.takeWhile_append_dropWhile]

end Text

/-- A text that begins with a token but for the blanks of descriptions has no other blanks there. -/
theorem skip_append_allBlank {front cs : List Char} (blank : AllBlank front)
    (solid : ∀ c, (skip (front ++ cs)).head? = some c → Text.isBlank c = false) :
    skip (front ++ cs) = skip cs := by
  induction front with
  | nil => rfl
  | cons c front ih =>
    have here := blank c (by simp)
    by_cases space : isSpace c = true
    · rw [List.cons_append, skip_space space] at solid ⊢
      exact ih (blank.suffix (List.suffix_cons c front)) solid
    · have token : Solid c := ⟨by simpa using space, by rintro rfl; exact absurd here (by decide)⟩
      rw [List.cons_append, skip_cons token] at solid
      simp [solid c rfl] at here

namespace Host

theorem Term.inStep_start (source source' : String) (padded : Padded (start source) (start source')) :
    Agree .eager (start source) (start source')
      ((readTerm ((skip source.toList).length + 1)).run (start source))
      ((readTerm ((skip source'.toList).length + 1)).run (start source')) :=
  InStep.term _ _ _ _ (by simp) (by simp) padded

/-- The term of a snippet is that of its source without the blanks around it. -/
theorem Term.parse_trim {source : String} {t : Term} (h : Term.parse source = .ok t) :
    Term.parse (Text.trim source) = .ok t := by
  obtain ⟨a', run, finished, fits⟩ := Term.parse_eq_ok.1 h
  obtain ⟨front, back, blank, blank', split⟩ := Text.exists_trimBoth source.toList
  have core : (Text.trim source).toList = Text.trimBoth Text.isBlank source.toList := by
    rw [Text.trim, String.toList_ofList]
  rw [← core] at split
  -- The first token begins with no blank, so the blanks in front are those that the readers skip.
  have solid : ∀ c, (skip source.toList).head? = some c → Text.isBlank c = false := fun c head => by
    have agree := inStep_start source source ⟨⟨[], nofun, (List.append_nil _).symm⟩, Iff.rfl⟩
    rw [run] at agree
    cases agree with
    | read _ _ taken =>
      obtain ⟨d, u, first, solid⟩ := taken.solid
      obtain rfl : d = c := by simpa [← start_rest, first] using head
      exact solid
  have behind : skip source.toList = skip ((Text.trim source).toList ++ back) := by
    rw [split] at solid ⊢
    exact skip_append_allBlank blank solid
  obtain ⟨tail, blank'', left⟩ := drop_blankLength_padded false (Text.trim source).toList blank'
  have padded : Padded (start source) (start (Text.trim source)) := by
    refine ⟨⟨tail, blank'', ?_⟩, by simp⟩
    rw [start_rest, start_rest, behind, skip, left, skip]
  have agree := inStep_start source (Text.trim source) padded
  rw [run] at agree
  generalize run' : (readTerm ((skip (Text.trim source).toList).length + 1)).run
    (start (Text.trim source)) = out at agree
  cases agree with
  | @read _ _ b' padded' =>
    obtain ⟨u, -, rest⟩ := padded'.rest
    rw [finished] at rest
    exact Term.parse_eq_ok.2 ⟨b', run', (List.append_eq_nil_iff.1 rest.symm).1,
      padded'.misfit.1 fits⟩

end Host

/-! ### Snippets -/

/-- A snippet whose source is trimmed and stands for its term. -/
structure Snippet.Shown (s : Snippet) : Prop where
  parses : Host.Term.parse s.source = .ok s.term
  trimmed : Text.trim s.source = s.source
  mark : backtick ∉ s.source.toList
  locals : s.locals = []

theorem lowerSnippet_shown {source : String} {span : Span} {s : Snippet}
    (plain : backtick ∉ source.toList) (h : lowerSnippet source span = .ok s) : s.Shown := by
  simp only [lowerSnippet] at h
  split at h
  · next term parses =>
    obtain rfl := Except.ok.inj h
    refine ⟨Host.Term.parse_trim parses, Text.trim_trim source, fun mem => plain ?_, rfl⟩
    rw [Text.trim, String.toList_ofList] at mem
    exact (List.dropWhile_suffix _).mem ((Text.trimBoth_prefix _ _).mem mem)
  · cases h

theorem lowerInteger_shown {n : Nat} (fits : n < 0x8000000000000000) : (lowerInteger n).Shown where
  parses := Host.Term.parse_numeral fits
  trimmed := by
    rw [Text.trim, lowerInteger, Text.trimBoth_of_none, String.ofList_toList]
    exact fun c mem => Host.isBlank_of_isDigit (Host.toList_numeral n c mem)
  mark mem := by
    have digit := Host.toList_numeral n _ mem
    exact absurd digit (by decide)
  locals := rfl

/-- A snippet that is shown is lowered to itself. -/
theorem Snippet.Shown.lower {s : Snippet} (h : s.Shown) (span : Span) :
    lowerSnippet s.source span = .ok s := by
  simp only [lowerSnippet, h.parses, h.trimmed, ← h.locals]

theorem Snippet.Shown.literal {s : Snippet} (h : s.Shown) (tail : List Char) :
    HostLiteral ((Expr.snippetText s).toList ++ tail) s.source tail := by
  have literal : HostLiteral _ _ tail := .intro h.mark
  simpa [Expr.snippetText, backtick] using literal

end Packrat
