import Packrat.Description.Reader
import Packrat.Proofs.Notation.Readers

/-
**Tokens of descriptions.**

What the tokens of a description look like, told by their characters and by what may follow them,
and that the readers of tokens read exactly that.

Main definitions:

* `Packrat.IsName`, `Packrat.NoWord` — names, and texts that no word continues;
* `Packrat.TextLiteral`, `Packrat.PatternLiteral`, `Packrat.HostLiteral`, `Packrat.Numeral` —
  literals;
* `Packrat.SuffixAt`, `Packrat.OperatorAt` — operators behind a phrase and between phrases.

Main results:

* `Packrat.yields_identifier`, `Packrat.run_identifier_some` — names, from both sides; the other
  tokens have lemmas of the same names.
-/

set_option autoImplicit false

namespace Packrat

open Scan

/-! ### Words -/

/-- No word continues at the beginning of a text. -/
def NoWord (cs : List Char) : Prop := ∀ c, cs.head? = some c → isWordChar c = false

@[simp] theorem noWord_nil : NoWord [] := by simp [NoWord]

@[simp] theorem noWord_cons {c : Char} {cs : List Char} :
    NoWord (c :: cs) ↔ isWordChar c = false := by simp [NoWord]

theorem NoWord.dropWhile (cs : List Char) : NoWord (cs.dropWhile isWordChar) := fun c h => by
  have := List.head?_dropWhile_not isWordChar cs
  rw [h] at this
  simpa using this

theorem takeWhile_append {p : Char → Bool} {word rest : List Char} (h : ∀ c ∈ word, p c = true)
    (ends : ∀ c, rest.head? = some c → p c = false) : (word ++ rest).takeWhile p = word := by
  rw [List.takeWhile_append_of_pos h]
  cases rest with
  | nil => simp
  | cons c rest => simp [ends c rfl]

theorem take_takeWhile_length (p : Char → Bool) (cs : List Char) :
    cs.take (cs.takeWhile p).length = cs.takeWhile p :=
  (List.prefix_iff_eq_take.1 (List.takeWhile_prefix p)).symm

theorem atWord_iff {word : String} {cs : List Char} :
    atWord word cs = true ↔ cs.takeWhile isWordChar = word.toList := by
  rw [atWord, wordLength, take_takeWhile_length, beq_iff_eq]

/-- The word of a keyword stands at the beginning of a text. -/
structure KeywordAt (word : String) (cs rest : List Char) : Prop where
  split : cs = word.toList ++ rest
  ends : NoWord rest

theorem KeywordAt.takeWhile {word : String} {cs rest : List Char} (h : KeywordAt word cs rest)
    (isWord : word.toList.all isWordChar = true) : cs.takeWhile isWordChar = word.toList := by
  rw [h.split, takeWhile_append (List.all_eq_true.1 isWord) h.ends]

theorem yields_keyword {word : String} {cs rest : List Char} (h : KeywordAt word cs rest)
    (isWord : word.toList.all isWordChar = true) : Yields (keyword word) cs () (skip rest) := by
  have at' := atWord_iff.2 (h.takeWhile isWord)
  obtain ⟨rfl, -⟩ := h
  exact Yields.token ((yields_lookahead at').bind (yields_literal _ _))

theorem run_keyword_some {word : String} {c c' : Cursor} {u : Unit}
    (h : (keyword word).run c = some (u, c')) :
    ∃ rest, KeywordAt word c.rest rest ∧ c'.rest = skip rest ∧ c'.misfit? = c.misfit? := by
  obtain ⟨c₁, read, rest, misfit⟩ := run_token_some h
  obtain ⟨_, c₂, look, found⟩ := run_bind_some.1 read
  obtain ⟨at', rfl⟩ := run_lookahead_some.1 look
  obtain ⟨split, misfit'⟩ := run_literal_some found
  refine ⟨c₁.rest, ⟨split, ?_⟩, rest, misfit.trans misfit'⟩
  have tail : c₂.rest.dropWhile isWordChar = c₁.rest := by
    have whole := List.takeWhile_append_dropWhile (p := isWordChar) (l := c₂.rest)
    rw [atWord_iff.1 at'] at whole
    exact List.append_cancel_left (whole.trans split)
  exact tail ▸ NoWord.dropWhile _

/-! ### Names -/

/-- A word that names something: it begins with no digit and is not reserved. -/
structure IsName (name : String) : Prop where
  isWord : ∀ c ∈ name.toList, isWordChar c = true
  filled : name.toList ≠ []
  digit : ∀ c, name.toList.head? = some c → c.isDigit = false
  free : name ∉ descriptionKeywords

theorem IsName.takeWhile {name : String} (h : IsName name) {rest : List Char} (ends : NoWord rest) :
    (name.toList ++ rest).takeWhile isWordChar = name.toList := takeWhile_append h.isWord ends

theorem IsName.ne {name : String} (h : IsName name) {word : String}
    (reserved : word ∈ descriptionKeywords) : name.toList ≠ word.toList :=
  fun same => h.free (String.toList_injective same ▸ reserved)

/-- The word that a text begins with. -/
def leadingWord (cs : List Char) : String := String.ofList (cs.takeWhile isWordChar)

theorem KeywordAt.leadingWord {word : String} {cs rest : List Char} (h : KeywordAt word cs rest)
    (isWord : word.toList.all isWordChar = true) : leadingWord cs = word := by
  rw [Packrat.leadingWord, h.takeWhile isWord, String.ofList_toList]

/-- How long a name at the beginning of a text is. -/
theorem identifierLength_eq_some {cs : List Char} {n : Nat} :
    (match cs.head? with
      | some c =>
        if wordLength cs == 0 || c.isDigit
          || descriptionKeywords.contains (String.ofList (cs.take (wordLength cs))) then none
        else some (wordLength cs)
      | none => none) = some n ↔
    n = (cs.takeWhile isWordChar).length ∧ IsName (leadingWord cs) := by
  have isName : IsName (leadingWord cs) ↔ cs.takeWhile isWordChar ≠ [] ∧
      (∀ c, cs.head? = some c → c.isDigit = false) ∧ leadingWord cs ∉ descriptionKeywords := by
    have word : (leadingWord cs).toList = cs.takeWhile isWordChar := by simp [leadingWord]
    have head : cs.takeWhile isWordChar ≠ [] → (cs.takeWhile isWordChar).head? = cs.head? := by
      cases cs with
      | nil => simp
      | cons c cs => by_cases h : isWordChar c = true <;> simp [h]
    constructor
    · rintro ⟨-, filled, digit, free⟩
      rw [word] at filled digit
      exact ⟨filled, head filled ▸ digit, free⟩
    · rintro ⟨filled, digit, free⟩
      refine ⟨fun c hc => ?_, by rwa [word], by rwa [word, head filled], free⟩
      rw [word] at hc
      exact List.all_eq_true.1 List.all_takeWhile c hc
  rw [isName, wordLength, take_takeWhile_length, ← leadingWord]
  cases cs with
  | nil => simp
  | cons c cs =>
    simp only [List.head?_cons, Option.some.injEq, forall_eq']
    split
    · next h =>
      simp only [Bool.or_eq_true, beq_iff_eq, List.length_eq_zero_iff, List.contains_eq_mem,
        decide_eq_true_eq] at h
      grind
    · next h =>
      simp only [Bool.or_eq_true, not_or, beq_iff_eq, List.length_eq_zero_iff,
        List.contains_eq_mem, decide_eq_true_eq] at h
      grind

/-- A name stands at the beginning of a text. -/
structure NameAt (cs : List Char) (name : String) (rest : List Char) : Prop where
  split : cs = name.toList ++ rest
  isName : IsName name
  ends : NoWord rest

theorem NameAt.leadingWord {cs rest : List Char} {name : String} (h : NameAt cs name rest) :
    leadingWord cs = name := by
  rw [Packrat.leadingWord, h.split, h.isName.takeWhile h.ends, String.ofList_toList]

theorem yields_identifier {cs rest : List Char} {name : String} (h : NameAt cs name rest) :
    Yields (bareIdentifier descriptionKeywords) cs name rest := by
  have word := h.leadingWord
  obtain ⟨rfl, isName, ends⟩ := h
  have measured := identifierLength_eq_some.2
    ⟨(congrArg List.length (isName.takeWhile ends)).symm, word.symm ▸ isName⟩
  exact (yields_lexeme measured).bind (.pure ⟨String.ofList_toList, rfl⟩)

theorem run_identifier_some {c c' : Cursor} {name : String}
    (h : (bareIdentifier descriptionKeywords).run c = some (name, c')) :
    NameAt c.rest name c'.rest ∧ c'.misfit? = c.misfit? := by
  obtain ⟨text, c₁, read, out⟩ := run_bind_some.1 h
  obtain ⟨rfl, rfl⟩ := run_pure_some.1 out
  obtain ⟨split, misfit, n, measured, taken⟩ := run_lexeme_some read
  obtain ⟨rfl, isName⟩ := identifierLength_eq_some.1 measured
  rw [take_takeWhile_length] at taken
  have tail : c.rest.dropWhile isWordChar = c'.rest := by
    have whole := List.takeWhile_append_dropWhile (p := isWordChar) (l := c.rest)
    rw [← taken] at whole
    exact List.append_cancel_left (whole.trans split)
  rw [leadingWord, ← taken] at isName
  exact ⟨⟨by simpa using split, isName, tail ▸ NoWord.dropWhile _⟩, misfit⟩

theorem yields_callee {cs rest : List Char} {name : String} (h : NameAt cs name ('(' :: rest)) :
    Yields readCallee cs name ('(' :: rest) :=
  (yields_identifier h).bind ((yields_lookahead rfl).bind Yields.pure)

theorem run_callee_some {c c' : Cursor} {name : String}
    (h : readCallee.run c = some (name, c')) :
    ∃ rest, NameAt c.rest name ('(' :: rest) ∧ c'.rest = '(' :: rest ∧ c'.misfit? = c.misfit? := by
  obtain ⟨x, c₁, read, tail⟩ := run_bind_some.1 h
  obtain ⟨u, c₂, look, out⟩ := run_bind_some.1 tail
  obtain ⟨rfl, rfl⟩ := run_pure_some.1 out
  obtain ⟨head, rfl⟩ := run_lookahead_some.1 look
  obtain ⟨name', misfit⟩ := run_identifier_some read
  obtain ⟨rest, found⟩ : ∃ rest, c'.rest = '(' :: rest := by
    rw [beq_iff_eq, List.head?_eq_some_iff] at head
    exact head
  exact ⟨rest, found ▸ name', found, misfit⟩

/-! ### Literals -/

/-- A text without the character that closes it, as a measure of literals sees it. -/
def Enclosed (length : List Char → Option Nat) (close : Char) (body : List Char) : Prop :=
  ∀ rest, length (body ++ close :: rest) = some body.length

theorem quotedLength_cons {quote c : Char} (cs : List Char) (h : c ≠ '\\') :
    quotedLength quote (c :: cs) =
      if c == quote then some 0 else (quotedLength quote cs).map (· + 1) := by
  rw [quotedLength]
  · simp [h]
  · simp [h]

theorem quotedLength_eq_some {quote : Char} (plain : quote ≠ '\\') {cs : List Char} {n : Nat}
    (h : quotedLength quote cs = some n) : Enclosed (quotedLength quote) quote (cs.take n) := by
  fun_induction quotedLength quote cs generalizing n with
  | case1 => cases h
  | case2 d cs ih =>
    obtain ⟨m, found, rfl⟩ := Option.map_eq_some_iff.1 h
    have enclosed := ih found
    intro rest
    simp [List.take_succ_cons, quotedLength, enclosed rest]
  | case3 c cs _ isQuote =>
    obtain rfl : 0 = n := by simpa using h
    intro rest
    simp [quotedLength_cons rest plain]
  | case4 => cases h
  | case5 c cs _ isQuote slash ih =>
    obtain ⟨m, found, rfl⟩ := Option.map_eq_some_iff.1 h
    have enclosed := ih found
    intro rest
    rw [List.take_succ_cons, List.cons_append,
      quotedLength_cons _ (by simpa using slash), if_neg isQuote, enclosed rest]
    rfl

/-- The letter of a flag, if the flag is set. -/
def flagLetter (letter : Char) (flag : Bool) : List Char := if flag then [letter] else []

/-- The letter that makes a literal ignore case, or no such word. -/
structure CaseFlagAt (cs : List Char) (flag : Bool) (rest : List Char) : Prop where
  split : cs = flagLetter 'i' flag ++ rest
  ends : if flag then NoWord rest else atWord "i" rest = false

theorem atWord_letter {rest : List Char} : atWord "i" ('i' :: rest) = true ↔ NoWord rest := by
  have letter : isWordChar 'i' = true := by decide
  rw [atWord_iff]
  cases rest with
  | nil => simp [letter]
  | cons c rest => by_cases h : isWordChar c = true <;> simp [h, letter]

/-- Every text begins with the letter or without it. -/
theorem CaseFlagAt.exists (cs : List Char) : ∃ flag rest, CaseFlagAt cs flag rest := by
  by_cases word : atWord "i" cs = true
  · obtain ⟨rest, split⟩ : ∃ rest, cs = 'i' :: rest := by
      have whole := List.takeWhile_append_dropWhile (p := isWordChar) (l := cs)
      rw [atWord_iff.1 word] at whole
      exact ⟨_, whole.symm⟩
    exact ⟨true, rest, split, atWord_letter.1 (split ▸ word)⟩
  · exact ⟨false, cs, rfl, by simpa using word⟩

theorem yields_caseFlag {cs rest : List Char} {flag : Bool} (h : CaseFlagAt cs flag rest) :
    Yields readCaseFlag cs flag rest := by
  obtain ⟨rfl, ends⟩ := h
  cases flag with
  | true =>
    have letter : Yields (do lookahead (atWord "i"); literal ['i']) ('i' :: rest) () rest :=
      (yields_lookahead (atWord_letter.2 ends)).bind (yields_literal ['i'] rest)
    exact letter.attempt.bind Yields.pure
  | false => exact (Yields.attempt_none (.bind (refuses_lookahead ends))).bind Yields.pure

theorem run_caseFlag_some {c c' : Cursor} {flag : Bool}
    (h : readCaseFlag.run c = some (flag, c')) :
    CaseFlagAt c.rest flag c'.rest ∧ c'.misfit? = c.misfit? := by
  obtain ⟨o, c₁, tried, out⟩ := run_bind_some.1 h
  obtain ⟨rfl, rfl⟩ := run_pure_some.1 out
  rcases run_attempt_some.1 tried with ⟨u, rfl, read⟩ | ⟨refused, rfl, rfl⟩
  · obtain ⟨u, c₂, look, found⟩ := run_bind_some.1 read
    obtain ⟨at', rfl⟩ := run_lookahead_some.1 look
    obtain ⟨split, misfit⟩ := run_literal_some found
    exact ⟨⟨split, atWord_letter.1 (by rwa [split] at at')⟩, misfit⟩
  · refine ⟨⟨rfl, ?_⟩, rfl⟩
    refine Bool.eq_false_iff.2 fun word => ?_
    obtain ⟨rest, split⟩ : ∃ rest, c'.rest = 'i' :: rest := by
      have whole := List.takeWhile_append_dropWhile (p := isWordChar) (l := c'.rest)
      rw [atWord_iff.1 word] at whole
      exact ⟨_, whole.symm⟩
    obtain ⟨u, d, run, -⟩ := yields_literal ['i'] rest c' split
    rw [run_bind, run_lookahead, if_pos word, Option.bind_some, run] at refused
    cases refused

theorem yields_binaryFlag {flag : Bool} {rest : List Char} (h : rest.head? ≠ some 'b') :
    Yields readBinaryFlag (flagLetter 'b' flag ++ rest) flag rest := by
  cases flag with
  | true => exact (yields_literal ['b'] rest).attempt.bind Yields.pure
  | false =>
    have other : ¬ ['b'] <+: rest := fun ⟨t, split⟩ => h (by rw [← split]; rfl)
    exact (Yields.attempt_none (refuses_literal other)).bind Yields.pure

theorem run_binaryFlag_some {c c' : Cursor} {flag : Bool}
    (h : readBinaryFlag.run c = some (flag, c')) :
    c.rest = flagLetter 'b' flag ++ c'.rest ∧ c'.misfit? = c.misfit? := by
  obtain ⟨o, c₁, tried, out⟩ := run_bind_some.1 h
  obtain ⟨rfl, rfl⟩ := run_pure_some.1 out
  rcases run_attempt_some.1 tried with ⟨u, rfl, read⟩ | ⟨-, rfl, rfl⟩
  · exact run_literal_some read
  · exact ⟨rfl, rfl⟩

theorem Scan.Reads.spanned {α : Type} {r : Reader α} {cs : List Char} {P : α → List Char → Prop}
    (h : Reads r cs P) : Reads (spanned r) cs fun out rest => P out.2 rest :=
  .offset fun _ => h.bind fun _ _ hp => .offset fun _ => .pure hp

/-- A reading with its span, of which only what is read matters. -/
theorem Scan.Yields.spanned {α β : Type} {r : Reader α} {f : Span × α → Reader β} {cs rest : List Char}
    {x : α} {Q : β → List Char → Prop} (h : Yields r cs x rest)
    (next : ∀ span, Reads (f (span, x)) rest Q) : Reads (spanned r >>= f) cs Q :=
  (Reads.spanned h).bind fun ⟨span, _⟩ _ ⟨value, left⟩ => by
    obtain rfl : _ = x := value
    exact left ▸ next span

theorem run_spanned_some {α : Type} {r : Reader α} {c c' : Cursor} {span : Span} {x : α} :
    (spanned r).run c = some ((span, x), c') ↔
      r.run c = some (x, c') ∧ span = ⟨c.offset, c'.offset⟩ := by
  constructor
  · intro h
    obtain ⟨n, c₁, start, h₁⟩ := run_bind_some.1 h
    obtain ⟨rfl, rfl⟩ := run_offset_some.1 start
    obtain ⟨y, c₂, read, h₂⟩ := run_bind_some.1 h₁
    obtain ⟨n, c₃, stop, out⟩ := run_bind_some.1 h₂
    obtain ⟨rfl, rfl⟩ := run_offset_some.1 stop
    obtain ⟨same, rfl⟩ := run_pure_some.1 out
    obtain ⟨rfl, rfl⟩ := Prod.mk.inj same
    exact ⟨read, rfl⟩
  · rintro ⟨read, rfl⟩
    refine run_bind_some.2 ⟨_, c, run_offset_some.2 ⟨rfl, rfl⟩, ?_⟩
    refine run_bind_some.2 ⟨x, c', read, ?_⟩
    exact run_bind_some.2 ⟨_, c', run_offset_some.2 ⟨rfl, rfl⟩, run_pure_some.2 ⟨rfl, rfl⟩⟩

/-- A text in quotes, with its flags, at the beginning of a text. -/
inductive TextLiteral : List Char → String → Bool → Bool → List Char → Prop where
  | intro {quote : Char} {body tail rest : List Char} {ignoreCase binary : Bool}
      (mark : quote = '"' ∨ quote = '\'') (enclosed : Enclosed (quotedLength quote) quote body)
      (flag : CaseFlagAt tail ignoreCase rest) :
      TextLiteral (flagLetter 'b' binary ++ quote :: body ++ quote :: tail)
        (String.ofList (Text.unescape body)) ignoreCase binary rest

theorem yields_quotedBody {quote : Char} {body : List Char} (rest : List Char)
    (enclosed : Enclosed (quotedLength quote) quote body) :
    Yields (quotedBody quote) (quote :: body ++ quote :: rest) body rest :=
  (yields_literal [quote] (body ++ quote :: rest)).bind <|
    (yields_lexeme (enclosed rest)).bind <| (yields_literal [quote] rest).bind Yields.pure

/-- A literal in quotes of either kind stands for its body without the escapes. -/
theorem yields_quoted {quote : Char} {body : List Char} (mark : quote = '"' ∨ quote = '\'')
    (rest : List Char) (enclosed : Enclosed (quotedLength quote) quote body) :
    Yields bareQuoted (quote :: body ++ quote :: rest) (String.ofList (Text.unescape body)) rest := by
  have inner := yields_quotedBody rest enclosed
  refine Yields.bind (x := body) ?_ Yields.pure
  rcases mark with rfl | rfl
  · exact Reads.orElse_left inner
  · exact Reads.orElse_right (.bind (refuses_literal (by simp))) inner

theorem run_quotedBody_some {quote : Char} (plain : quote ≠ '\\') {c c' : Cursor}
    {body : List Char} (h : (quotedBody quote).run c = some (body, c')) :
    c.rest = quote :: body ++ quote :: c'.rest ∧ Enclosed (quotedLength quote) quote body ∧
      c'.misfit? = c.misfit? := by
  obtain ⟨_, c₁, opened, h₁⟩ := run_bind_some.1 h
  obtain ⟨text, c₂, inside, h₂⟩ := run_bind_some.1 h₁
  obtain ⟨_, c₃, closed, out⟩ := run_bind_some.1 h₂
  obtain ⟨rfl, rfl⟩ := run_pure_some.1 out
  obtain ⟨split₁, misfit₁⟩ := run_literal_some opened
  obtain ⟨split₂, misfit₂, n, measured, taken⟩ := run_lexeme_some inside
  obtain ⟨split₃, misfit₃⟩ := run_literal_some closed
  refine ⟨?_, taken ▸ quotedLength_eq_some plain measured,
    misfit₃.trans (misfit₂.trans misfit₁)⟩
  rw [split₁, split₂, split₃]
  simp

theorem reads_textLiteral {cs rest : List Char} {value : String} {ignoreCase binary : Bool}
    (h : TextLiteral cs value ignoreCase binary rest) :
    Reads readTextLiteral cs fun p t => ∃ span, p = .str span value ignoreCase binary ∧ t = rest := by
  obtain ⟨mark, enclosed, flag⟩ := h
  rename_i quote body tail
  have noFlag : (quote :: body ++ quote :: tail).head? ≠ some 'b' := by
    rcases mark with rfl | rfl <;> simp
  have quoted := yields_quoted mark tail enclosed
  have whole : Yields (do
      let binary ← readBinaryFlag
      let value ← bareQuoted
      let ignoreCase ← readCaseFlag
      pure (value, ignoreCase, binary)) (flagLetter 'b' binary ++ quote :: body ++ quote :: tail)
      (String.ofList (Text.unescape body), ignoreCase, binary) rest := by
    rw [List.append_assoc]
    exact (yields_binaryFlag noFlag).bind <| quoted.bind <| (yields_caseFlag flag).bind Yields.pure
  exact whole.spanned fun span => .pure ⟨span, rfl, rfl⟩

theorem run_textLiteral_some {c c' : Cursor} {p : Phrase}
    (h : readTextLiteral.run c = some (p, c')) :
    ∃ value ignoreCase binary, p = .str ⟨c.offset, c'.offset⟩ value ignoreCase binary ∧
      TextLiteral c.rest value ignoreCase binary c'.rest ∧ c'.misfit? = c.misfit? := by
  obtain ⟨⟨span, value, ignoreCase, binary⟩, c₁, read, out⟩ := run_bind_some.1 h
  obtain ⟨rfl, rfl⟩ := run_pure_some.1 out
  obtain ⟨inner, rfl⟩ := run_spanned_some.1 read
  obtain ⟨b, c₁, flag₁, h₁⟩ := run_bind_some.1 inner
  obtain ⟨v, c₂, quoted, h₂⟩ := run_bind_some.1 h₁
  obtain ⟨i, c₃, flag₂, out⟩ := run_bind_some.1 h₂
  obtain ⟨same, rfl⟩ := run_pure_some.1 out
  simp only [Prod.mk.injEq] at same
  obtain ⟨rfl, rfl, rfl⟩ := same
  obtain ⟨split₁, misfit₁⟩ := run_binaryFlag_some flag₁
  obtain ⟨split₃, misfit₃⟩ := run_caseFlag_some flag₂
  obtain ⟨body, c₄, read, out⟩ := run_bind_some.1 quoted
  obtain ⟨rfl, rfl⟩ := run_pure_some.1 out
  obtain ⟨quote, mark, split₂, enclosed, misfit₂⟩ : ∃ quote, (quote = '"' ∨ quote = '\'') ∧
      c₁.rest = quote :: body ++ quote :: c₂.rest ∧ Enclosed (quotedLength quote) quote body ∧
      c₂.misfit? = c₁.misfit? := by
    rcases run_orElse_some.1 read with read | ⟨-, read⟩
    · exact ⟨_, .inl rfl, run_quotedBody_some (by decide) read⟩
    · exact ⟨_, .inr rfl, run_quotedBody_some (by decide) read⟩
  refine ⟨_, _, _, rfl, ?_, misfit₃.trans (misfit₂.trans misfit₁)⟩
  rw [split₁, split₂, ← List.append_assoc]
  exact .intro mark enclosed split₃

theorem patternLength_cons {c : Char} (cs : List Char) (h : c ≠ '\\') :
    patternLength (c :: cs) =
      if c == '/' then some 0 else if c == '\n' then none else (patternLength cs).map (· + 1) := by
  rw [patternLength]
  · simp [h]
  · simp [h]

theorem patternLength_eq_some {cs : List Char} {n : Nat} (h : patternLength cs = some n) :
    Enclosed patternLength '/' (cs.take n) := by
  fun_induction patternLength cs generalizing n with
  | case1 => cases h
  | case2 d cs ih =>
    obtain ⟨m, found, rfl⟩ := Option.map_eq_some_iff.1 h
    have enclosed := ih found
    intro rest
    simp [List.take_succ_cons, patternLength, enclosed rest]
  | case3 c cs _ closes =>
    obtain rfl : 0 = n := by simpa using h
    intro rest
    simp [patternLength]
  | case4 => cases h
  | case5 c cs _ open' plain ih =>
    obtain ⟨m, found, rfl⟩ := Option.map_eq_some_iff.1 h
    have enclosed := ih found
    simp only [Bool.or_eq_true, beq_iff_eq, not_or] at plain
    intro rest
    rw [List.take_succ_cons, List.cons_append, patternLength_cons _ plain.1, if_neg open',
      if_neg (by simpa using plain.2), enclosed rest]
    rfl

/-- What a measured pattern ends before is the slash that closes it. -/
theorem patternLength_split {cs : List Char} {n : Nat} (h : patternLength cs = some n) :
    ∃ tail, cs = cs.take n ++ '/' :: tail := by
  fun_induction patternLength cs generalizing n with
  | case1 => cases h
  | case2 d cs ih =>
    obtain ⟨m, found, rfl⟩ := Option.map_eq_some_iff.1 h
    obtain ⟨tail, split⟩ := ih found
    exact ⟨tail, by rw [List.take_succ_cons, List.take_succ_cons]; simpa using split⟩
  | case3 c cs _ closes =>
    obtain rfl : 0 = n := by simpa using h
    obtain rfl : c = '/' := by simpa using closes
    exact ⟨cs, rfl⟩
  | case4 => cases h
  | case5 c cs _ open' plain ih =>
    obtain ⟨m, found, rfl⟩ := Option.map_eq_some_iff.1 h
    obtain ⟨tail, split⟩ := ih found
    exact ⟨tail, by rw [List.take_succ_cons]; simpa using split⟩

theorem filledPatternLength_eq_some {cs : List Char} {n : Nat} :
    filledPatternLength cs = some n ↔ patternLength cs = some n ∧ n ≠ 0 := by
  rw [filledPatternLength]
  split
  · next empty => simp [empty, eq_comm]
  · next filled => exact ⟨fun h => ⟨h, fun zero => filled (zero ▸ h)⟩, And.left⟩

/-- A pattern between slashes, with its flags, at the beginning of a text. -/
inductive PatternLiteral : List Char → String → Bool → Bool → List Char → Prop where
  | intro {body tail rest : List Char} {ignoreCase binary : Bool}
      (enclosed : Enclosed patternLength '/' body) (filled : body ≠ [])
      (flag : CaseFlagAt tail ignoreCase rest) :
      PatternLiteral (flagLetter 'b' binary ++ '/' :: body ++ '/' :: tail)
        (String.ofList (Text.replaceAll ['\\', '/'] ['/'] body)) ignoreCase binary rest

/-- A pattern that a description may hold. -/
def IsPattern (pattern : String) : Prop :=
  ∃ body, Enclosed patternLength '/' body ∧ body ≠ [] ∧
    pattern = String.ofList (Text.replaceAll ['\\', '/'] ['/'] body)

theorem reads_patternLiteral {cs rest : List Char} {pattern : String} {ignoreCase binary : Bool}
    (h : PatternLiteral cs pattern ignoreCase binary rest) :
    Reads readPatternLiteral cs fun p t =>
      ∃ span, p = .regex span pattern ignoreCase binary ∧ t = rest := by
  obtain ⟨enclosed, filled, flag⟩ := h
  rename_i body tail
  have measured : filledPatternLength (body ++ '/' :: tail) = some body.length :=
    filledPatternLength_eq_some.2 ⟨enclosed tail, by simpa using filled⟩
  have whole : Yields (do
      let binary ← readBinaryFlag
      literal ['/']
      let body ← lexeme filledPatternLength
      literal ['/']
      let ignoreCase ← readCaseFlag
      pure (Text.replaceAll ['\\', '/'] ['/'] body, ignoreCase, binary))
      (flagLetter 'b' binary ++ '/' :: body ++ '/' :: tail)
      (Text.replaceAll ['\\', '/'] ['/'] body, ignoreCase, binary) rest := by
    rw [List.append_assoc]
    exact (yields_binaryFlag (by simp)).bind <|
      (yields_literal ['/'] (body ++ '/' :: tail)).bind <| (yields_lexeme measured).bind <|
      (yields_literal ['/'] tail).bind <| (yields_caseFlag flag).bind Yields.pure
  exact whole.spanned fun span => .pure ⟨span, rfl, rfl⟩

theorem run_patternLiteral_some {c c' : Cursor} {p : Phrase}
    (h : readPatternLiteral.run c = some (p, c')) :
    ∃ pattern ignoreCase binary, p = .regex ⟨c.offset, c'.offset⟩ pattern ignoreCase binary ∧
      PatternLiteral c.rest pattern ignoreCase binary c'.rest ∧ c'.misfit? = c.misfit? := by
  obtain ⟨⟨span, pattern, ignoreCase, binary⟩, c₁, read, out⟩ := run_bind_some.1 h
  obtain ⟨rfl, rfl⟩ := run_pure_some.1 out
  obtain ⟨inner, rfl⟩ := run_spanned_some.1 read
  obtain ⟨b, c₁, flag₁, h₁⟩ := run_bind_some.1 inner
  obtain ⟨_, c₂, opened, h₂⟩ := run_bind_some.1 h₁
  obtain ⟨body, c₃, inside, h₃⟩ := run_bind_some.1 h₂
  obtain ⟨_, c₄, closed, h₄⟩ := run_bind_some.1 h₃
  obtain ⟨i, c₅, flag₂, out⟩ := run_bind_some.1 h₄
  obtain ⟨same, rfl⟩ := run_pure_some.1 out
  simp only [Prod.mk.injEq] at same
  obtain ⟨rfl, rfl, rfl⟩ := same
  obtain ⟨split₁, misfit₁⟩ := run_binaryFlag_some flag₁
  obtain ⟨split₂, misfit₂⟩ := run_literal_some opened
  obtain ⟨split₃, misfit₃, n, measured, taken⟩ := run_lexeme_some inside
  obtain ⟨split₄, misfit₄⟩ := run_literal_some closed
  obtain ⟨split₅, misfit₅⟩ := run_caseFlag_some flag₂
  obtain ⟨measured, positive⟩ := filledPatternLength_eq_some.1 measured
  refine ⟨_, _, _, rfl, ?_,
    misfit₅.trans (misfit₄.trans (misfit₃.trans (misfit₂.trans misfit₁)))⟩
  have enclosed : Enclosed patternLength '/' body := taken ▸ patternLength_eq_some measured
  have filled : body ≠ [] := by
    rintro rfl
    have all := measured
    rw [split₃, split₄] at all
    have none : patternLength ([] ++ '/' :: c₄.rest) = some 0 := enclosed c₄.rest
    exact positive (Option.some.inj (all.symm.trans none))
  rw [split₁, split₂, split₃, split₄]
  have whole : flagLetter 'b' binary ++ (['/'] ++ (body ++ (['/'] ++ c₄.rest))) =
      flagLetter 'b' binary ++ '/' :: body ++ '/' :: c₄.rest := by simp
  rw [whole]
  exact .intro enclosed filled split₅

/-- Host code between its marks at the beginning of a text. -/
inductive HostLiteral : List Char → String → List Char → Prop where
  | intro {body rest : List Char} (plain : backtick ∉ body) :
      HostLiteral (backtick :: body ++ backtick :: rest) (String.ofList body) rest

theorem yields_hostLiteral {cs rest : List Char} {source : String}
    (h : HostLiteral cs source rest) : Yields bareHost cs source rest := by
  obtain ⟨plain⟩ := h
  rename_i body
  have inside : ∀ c ∈ body, (c != backtick) = true := fun c hc => by
    simp only [bne_iff_ne]
    rintro rfl
    exact plain hc
  have measured : some ((body ++ backtick :: rest).takeWhile (· != backtick)).length
      = some body.length := by rw [takeWhile_append inside (by simp)]
  exact (yields_literal [backtick] (body ++ backtick :: rest)).bind <|
    (yields_lexeme measured).bind <| (yields_literal [backtick] rest).bind Yields.pure

theorem run_hostLiteral_some {c c' : Cursor} {source : String}
    (h : bareHost.run c = some (source, c')) :
    HostLiteral c.rest source c'.rest ∧ c'.misfit? = c.misfit? := by
  obtain ⟨_, c₁, opened, h₁⟩ := run_bind_some.1 h
  obtain ⟨body, c₂, inside, h₂⟩ := run_bind_some.1 h₁
  obtain ⟨_, c₃, closed, out⟩ := run_bind_some.1 h₂
  obtain ⟨rfl, rfl⟩ := run_pure_some.1 out
  obtain ⟨split₁, misfit₁⟩ := run_literal_some opened
  obtain ⟨split₂, misfit₂, n, measured, taken⟩ := run_lexeme_some inside
  obtain ⟨split₃, misfit₃⟩ := run_literal_some closed
  obtain rfl : _ = n := by simpa using measured
  rw [take_takeWhile_length] at taken
  refine ⟨?_, misfit₃.trans (misfit₂.trans misfit₁)⟩
  rw [split₁, split₂, split₃]
  have whole : [backtick] ++ (body ++ ([backtick] ++ c'.rest)) =
      backtick :: body ++ backtick :: c'.rest := by simp
  rw [whole]
  refine .intro fun inside => ?_
  rw [taken] at inside
  simpa using List.all_eq_true.1 List.all_takeWhile _ inside

/-- Digits of a number below a limit at the beginning of a text. -/
inductive Numeral (limit : Nat) : List Char → Nat → List Char → Prop where
  | intro {digits rest : List Char} (filled : digits ≠ [])
      (isDigit : ∀ c ∈ digits, c.isDigit = true)
      (ends : ∀ c, rest.head? = some c → c.isDigit = false)
      (below : Decimal.ofDigits digits < limit) :
      Numeral limit (digits ++ rest) (Decimal.ofDigits digits) rest

theorem yields_numeral {limit : Nat} {isBound : Bool} {cs rest : List Char} {n : Nat}
    (h : Numeral limit cs n rest) : Yields (bareNumeral limit isBound) cs n rest := by
  obtain ⟨filled, isDigit, ends, below⟩ := h
  rename_i digits
  have measured : (if digitLength (digits ++ rest) == 0 then none
      else some (digitLength (digits ++ rest))) = some digits.length := by
    rw [digitLength, takeWhile_append isDigit ends]
    simpa using filled
  refine Reads.offset fun _ => (yields_lexeme measured).bind <| Reads.offset fun _ => ?_
  simp only [below, if_true]
  exact .pure ⟨rfl, rfl⟩

theorem run_digits_some {c c' : Cursor} {digits : List Char}
    (h : bareDigits.run c = some (digits, c')) :
    c.rest = digits ++ c'.rest ∧ digits ≠ [] ∧ (∀ d ∈ digits, d.isDigit = true) ∧
      (∀ d, c'.rest.head? = some d → d.isDigit = false) ∧ c'.misfit? = c.misfit? := by
  obtain ⟨split, misfit, n, measured, taken⟩ := run_lexeme_some h
  split at measured
  · cases measured
  · next some' =>
    obtain rfl : digitLength c.rest = n := by simpa using measured
    rw [digitLength, take_takeWhile_length] at taken
    have tail : c.rest.dropWhile Char.isDigit = c'.rest := by
      have whole := List.takeWhile_append_dropWhile (p := Char.isDigit) (l := c.rest)
      rw [← taken] at whole
      exact List.append_cancel_left (whole.trans split)
    refine ⟨split, ?_, ?_, fun d head => ?_, misfit⟩
    · rw [taken]
      simpa [digitLength] using some'
    · rw [taken]
      exact fun d hd => List.all_eq_true.1 List.all_takeWhile d hd
    · have := List.head?_dropWhile_not Char.isDigit c.rest
      rw [tail, head] at this
      simpa using this

/-- A numeral is read as it stands unless it does not fit, which is noted. -/
theorem run_numeral_some {limit : Nat} {isBound : Bool} {c c' : Cursor} {n : Nat}
    (h : (bareNumeral limit isBound).run c = some (n, c')) :
    (∃ d, c.rest.head? = some d ∧ d.isDigit = true) ∧
      (c'.misfit? = none → Numeral limit c.rest n c'.rest ∧ c.misfit? = none) := by
  obtain ⟨start, c₁, at', h₁⟩ := run_bind_some.1 h
  obtain ⟨rfl, rfl⟩ := run_offset_some.1 at'
  obtain ⟨digits, c₂, read, h₂⟩ := run_bind_some.1 h₁
  obtain ⟨stop, c₃, at', h₃⟩ := run_bind_some.1 h₂
  obtain ⟨rfl, rfl⟩ := run_offset_some.1 at'
  obtain ⟨split, filled, isDigit, ends, misfit⟩ := run_digits_some read
  refine ⟨?_, fun fits => ?_⟩
  · obtain ⟨d, ds, rfl⟩ := List.exists_cons_of_ne_nil filled
    exact ⟨d, by rw [split]; rfl, isDigit d (by simp)⟩
  · dsimp only at h₃
    split at h₃
    · next below =>
      obtain ⟨rfl, rfl⟩ := run_pure_some.1 h₃
      exact ⟨split ▸ .intro filled isDigit ends below, misfit ▸ fits⟩
    · obtain ⟨_, c₄, noted, out⟩ := run_bind_some.1 h₃
      obtain ⟨rfl, rfl⟩ := run_pure_some.1 out
      obtain rfl := (Prod.mk.inj (Option.some.inj noted)).2
      cases found : c₃.misfit? <;> simp [found] at fits

/-! ### Operators behind a phrase -/

/-- A bound of a repetition at the beginning of a text. -/
inductive BoundAt : List Char → Phrase.Bound → List Char → Prop where
  | int {cs rest : List Char} {n : Nat} (h : Numeral 0x10000000000000000 cs n rest) :
      BoundAt cs (.int n) rest
  | host {cs rest : List Char} {source : String} (h : HostLiteral cs source rest) :
      BoundAt cs (.host source) rest

/-- A bound with the blanks behind it, or nothing. -/
inductive BoundAt? : List Char → Option Phrase.Bound → List Char → Prop where
  | none (cs : List Char) : BoundAt? cs none cs
  | some {cs rest : List Char} {b : Phrase.Bound} (h : BoundAt cs b rest) :
      BoundAt? cs (some b) (skip rest)

theorem yields_bound {cs rest : List Char} {b : Phrase.Bound} (h : BoundAt cs b rest) :
    Yields readBound cs b (skip rest) := by
  refine Yields.token ?_
  cases h with
  | int h => exact Reads.orElse_left ((yields_numeral h).bind Yields.pure)
  | host h =>
    refine Reads.orElse_right (.bind (.of_run fun c n c' hc run => ?_))
      ((yields_hostLiteral h).bind Yields.pure)
    obtain ⟨⟨d, head, digit⟩, -⟩ := run_numeral_some run
    obtain ⟨plain⟩ := h
    rw [hc] at head
    obtain rfl : backtick = d := by simpa using head
    exact absurd digit (by decide)

theorem run_bound_some {c c' : Cursor} {b : Phrase.Bound} (h : readBound.run c = some (b, c')) :
    (∃ d, c.rest.head? = some d ∧ (d.isDigit = true ∨ d = backtick)) ∧
      (c'.misfit? = none →
        (∃ rest, BoundAt c.rest b rest ∧ c'.rest = skip rest) ∧ c.misfit? = none) := by
  obtain ⟨c₁, read, rest, misfit⟩ := run_token_some h
  rcases run_orElse_some.1 read with read | ⟨-, read⟩
  · obtain ⟨n, c₂, found, out⟩ := run_bind_some.1 read
    obtain ⟨rfl, rfl⟩ := run_pure_some.1 out
    obtain ⟨⟨d, head, digit⟩, fits⟩ := run_numeral_some found
    refine ⟨⟨d, head, .inl digit⟩, fun none => ?_⟩
    obtain ⟨numeral, start⟩ := fits (misfit ▸ none)
    exact ⟨⟨_, .int numeral, rest⟩, start⟩
  · obtain ⟨source, c₂, found, out⟩ := run_bind_some.1 read
    obtain ⟨rfl, rfl⟩ := run_pure_some.1 out
    obtain ⟨literal, misfit'⟩ := run_hostLiteral_some found
    refine ⟨⟨backtick, ?_, .inr rfl⟩, fun none => ?_⟩
    · generalize c.rest = cs at literal
      cases literal
      rfl
    · exact ⟨⟨_, .host literal, rest⟩, misfit' ▸ misfit ▸ none⟩

theorem yields_bound? {cs rest : List Char} {b? : Option Phrase.Bound} {close : Char}
    (h : BoundAt? cs b? (close :: rest)) (plain : close.isDigit = false ∧ close ≠ backtick) :
    Yields (attempt readBound) cs b? (close :: rest) := by
  generalize left : close :: rest = tail at h
  cases h with
  | none =>
    refine Yields.attempt_none (.of_run fun c b c' hc run => ?_)
    obtain ⟨⟨d, head, digit⟩, -⟩ := run_bound_some run
    obtain rfl : close = d := by simpa [hc, ← left] using head
    simp_all
  | some h => exact (yields_bound h).attempt

theorem run_bound?_some {c c' : Cursor} {b? : Option Phrase.Bound}
    (h : (attempt readBound).run c = some (b?, c')) (fits : c'.misfit? = none) :
    BoundAt? c.rest b? c'.rest ∧ c.misfit? = none := by
  rcases run_attempt_some.1 h with ⟨b, rfl, read⟩ | ⟨-, rfl, rfl⟩
  · obtain ⟨⟨rest, bound, left⟩, start⟩ := (run_bound_some read).2 fits
    exact ⟨left ▸ .some bound, start⟩
  · exact ⟨.none _, fits⟩

/-- An operator behind a phrase, at the beginning of a text. -/
inductive SuffixAt : List Char → Phrase.Suffix → List Char → Prop where
  | opt (rest : List Char) : SuffixAt ('?' :: rest) .opt rest
  | many (rest : List Char) : SuffixAt ('*' :: rest) .many rest
  | some (rest : List Char) : SuffixAt ('+' :: rest) .some rest
  | exact {cs rest : List Char} {b? : Option Phrase.Bound}
      (bound : BoundAt? (skip cs) b? ('\x7d' :: rest)) :
      SuffixAt ('\x7b' :: cs) (.repeated b? b?) rest
  | between {cs mid rest : List Char} {least most : Option Phrase.Bound}
      (lower : BoundAt? (skip cs) least (',' :: mid))
      (upper : BoundAt? (skip mid) most ('\x7d' :: rest)) :
      SuffixAt ('\x7b' :: cs) (.repeated least most) rest

theorem reads_suffix {cs rest : List Char} {suffix : Phrase.Suffix}
    (h : SuffixAt cs suffix rest) :
    Reads readSuffix cs fun out t => out.2 = suffix ∧ t = rest := by
  refine Reads.spanned (P := fun x t => x = suffix ∧ t = rest) ?_
  have refuse : ∀ (a b : Char) (tail : List Char) (s : Phrase.Suffix), a ≠ b →
      Refuses (literal [a] *> pure s) (b :: tail) := fun a b tail s ne =>
    .seqRight (refuses_literal (by simpa using ne))
  cases h with
  | opt => exact .orElse_left ((yields_literal ['?'] rest).seqRight Yields.pure)
  | many =>
    exact .orElse_right (refuse _ _ _ _ (by decide))
      (.orElse_left ((yields_literal ['*'] rest).seqRight Yields.pure))
  | some =>
    exact .orElse_right (refuse _ _ _ _ (by decide)) <| .orElse_right (refuse _ _ _ _ (by decide))
      (.orElse_left ((yields_literal ['+'] rest).seqRight Yields.pure))
  | exact bound =>
    refine .orElse_right (refuse _ _ _ _ (by decide)) <|
      .orElse_right (refuse _ _ _ _ (by decide)) <| .orElse_right (refuse _ _ _ _ (by decide)) ?_
    exact (yields_symbol "\x7b" _).bind <| (yields_bound? bound (by decide)).bind <|
      (Yields.attempt_none (refuses_symbol (by simp))).bind <| Yields.pure.bind <|
      (yields_literal ['\x7d'] rest).bind Yields.pure
  | between lower upper =>
    refine .orElse_right (refuse _ _ _ _ (by decide)) <|
      .orElse_right (refuse _ _ _ _ (by decide)) <| .orElse_right (refuse _ _ _ _ (by decide)) ?_
    exact (yields_symbol "\x7b" _).bind <| (yields_bound? lower (by decide)).bind <|
      (yields_symbol "," _).attempt.bind <| (yields_bound? upper (by decide)).bind <|
      (yields_literal ['\x7d'] rest).bind Yields.pure

theorem run_suffix_some {c c' : Cursor} {span : Span} {suffix : Phrase.Suffix}
    (h : readSuffix.run c = some ((span, suffix), c')) :
    (∃ d, c.rest.head? = some d ∧ d ∈ ['?', '*', '+', '\x7b']) ∧ span = ⟨c.offset, c'.offset⟩ ∧
      (c'.misfit? = none → SuffixAt c.rest suffix c'.rest ∧ c.misfit? = none) := by
  obtain ⟨read, rfl⟩ := run_spanned_some.1 h
  have letter : ∀ {d : Char} {s : Phrase.Suffix},
      ((literal [d] *> pure s : Reader Phrase.Suffix).run c = some (suffix, c')) →
      c.rest = d :: c'.rest ∧ suffix = s ∧ c'.misfit? = c.misfit? := by
    intro d s run
    obtain ⟨_, c₁, found, out⟩ := run_seqRight_some.1 run
    obtain ⟨rfl, rfl⟩ := run_pure_some.1 out
    obtain ⟨split, misfit⟩ := run_literal_some found
    exact ⟨split, rfl, misfit⟩
  rcases run_orElse_some.1 read with read | ⟨-, read⟩
  · obtain ⟨split, rfl, misfit⟩ := letter read
    exact ⟨⟨'?', by simp [split]⟩, rfl, fun fits => ⟨split ▸ .opt _, misfit ▸ fits⟩⟩
  rcases run_orElse_some.1 read with read | ⟨-, read⟩
  · obtain ⟨split, rfl, misfit⟩ := letter read
    exact ⟨⟨'*', by simp [split]⟩, rfl, fun fits => ⟨split ▸ .many _, misfit ▸ fits⟩⟩
  rcases run_orElse_some.1 read with read | ⟨-, read⟩
  · obtain ⟨split, rfl, misfit⟩ := letter read
    exact ⟨⟨'+', by simp [split]⟩, rfl, fun fits => ⟨split ▸ .some _, misfit ▸ fits⟩⟩
  obtain ⟨_, c₁, opened, h₁⟩ := run_bind_some.1 read
  obtain ⟨least, c₂, lower, h₂⟩ := run_bind_some.1 h₁
  obtain ⟨comma, c₃, tried, h₃⟩ := run_bind_some.1 h₂
  obtain ⟨cs, split₁, left₁, misfit₁⟩ := run_symbol_some opened
  refine ⟨⟨'\x7b', by simp [split₁]⟩, rfl, fun fits => ?_⟩
  rcases run_attempt_some.1 tried with ⟨_, rfl, found⟩ | ⟨-, rfl, rfl⟩
  · obtain ⟨most, c₄, upper, h₄⟩ := run_bind_some.1 h₃
    obtain ⟨_, c₅, closed, out⟩ := run_bind_some.1 h₄
    obtain ⟨rfl, rfl⟩ := run_pure_some.1 out
    obtain ⟨split₅, misfit₅⟩ := run_literal_some closed
    obtain ⟨mid, split₃, left₃, misfit₃⟩ := run_symbol_some found
    obtain ⟨bound, fits₃⟩ := run_bound?_some upper (misfit₅ ▸ fits)
    obtain ⟨bound', fits₂⟩ := run_bound?_some lower (misfit₃ ▸ fits₃)
    rw [left₁, split₃] at bound'
    rw [left₃, split₅] at bound
    exact ⟨split₁ ▸ .between bound' bound, misfit₁ ▸ fits₂⟩
  · obtain ⟨most, c₄, upper, h₄⟩ := run_bind_some.1 h₃
    obtain ⟨_, c₅, closed, out⟩ := run_bind_some.1 h₄
    obtain ⟨rfl, rfl⟩ := run_pure_some.1 out
    obtain ⟨split₅, misfit₅⟩ := run_literal_some closed
    obtain ⟨rfl, rfl⟩ := run_pure_some.1 upper
    obtain ⟨bound, fits₂⟩ := run_bound?_some lower (misfit₅ ▸ fits)
    rw [left₁, split₅] at bound
    exact ⟨split₁ ▸ .exact bound, misfit₁ ▸ fits₂⟩

/-! ### Operators between phrases -/

/-- How an operator is written. -/
def Phrase.Operator.token : Phrase.Operator → String
  | .choice => "|"
  | .applyRight => "|>"
  | .applyLeft => "<|"
  | .sep => "//"
  | .sepTrailer => "/?"
  | .keepLeft => "<<"
  | .keepRight => ">>"
  | .satisfying => "where"

/-- How loosely an operator binds. -/
def Phrase.Operator.level : Phrase.Operator → Nat
  | .satisfying => 0
  | .keepLeft | .keepRight => 1
  | .sep | .sepTrailer => 2
  | .applyRight | .applyLeft => 3
  | .choice => 4

/-- The operators of a level. -/
def levelOperator : Nat → Reader Phrase.Operator
  | 0 => keyword "where" *> pure .satisfying
  | 1 => (symbol "<<" *> pure .keepLeft) <|> (symbol ">>" *> pure .keepRight)
  | 2 => (symbol "//" *> pure .sep) <|> (symbol "/?" *> pure .sepTrailer)
  | 3 => (symbol "|>" *> pure .applyRight) <|> (symbol "<|" *> pure .applyLeft)
  | _ => (lookahead fun cs => !(['|', '>'].isPrefixOf cs)) *> symbol "|" *> pure .choice

/-- An operator between phrases, at the beginning of a text. -/
structure OperatorAt (cs : List Char) (op : Phrase.Operator) (rest : List Char) : Prop where
  split : cs = op.token.toList ++ rest
  word : op = .satisfying → NoWord rest
  bar : op = .choice → rest.head? ≠ some '>'

theorem OperatorAt.unique {cs rest rest' : List Char} {op op' : Phrase.Operator}
    (h : OperatorAt cs op rest) (h' : OperatorAt cs op' rest') : op = op' := by
  obtain ⟨split, word, bar⟩ := h
  obtain ⟨split', word', bar'⟩ := h'
  rw [split] at split'
  cases op <;> cases op' <;> simp_all [Phrase.Operator.token]
  -- The choice is the one operator that another one begins with.
  subst split'
  exact bar' rfl

theorem yields_operator {cs rest : List Char} {op : Phrase.Operator} (h : OperatorAt cs op rest) :
    Yields (levelOperator op.level) cs op (skip rest) := by
  obtain ⟨rfl, word, bar⟩ := h
  have first : ∀ {text : String} {s : Reader Phrase.Operator} {op : Phrase.Operator},
      Yields ((symbol text *> pure op) <|> s) (text.toList ++ rest) op (skip rest) :=
    Reads.orElse_left ((yields_symbol _ _).seqRight Yields.pure)
  have second : ∀ {text text' : String} {op op' : Phrase.Operator},
      ¬ text'.toList <+: text.toList ++ rest →
      Yields ((symbol text' *> pure op') <|> (symbol text *> pure op)) (text.toList ++ rest) op
        (skip rest) := fun other =>
    Reads.orElse_right (.seqRight (refuses_symbol other))
      ((yields_symbol _ _).seqRight Yields.pure)
  cases op with
  | satisfying =>
    exact (yields_keyword ⟨rfl, word rfl⟩ (by decide)).seqRight Yields.pure
  | keepLeft | sep | applyRight => exact first
  | keepRight | sepTrailer | applyLeft => exact second (by simp)
  | choice =>
    have alone : (!(['|', '>'].isPrefixOf ('|' :: rest))) = true := by
      cases rest with
      | nil => rfl
      | cons c rest =>
        have other : c ≠ '>' := by simpa using bar rfl
        have no : ['>'].isPrefixOf (c :: rest) = false := by simp [List.isPrefixOf, other.symm]
        simp [no]
    exact Yields.seqRight (x := ()) ((yields_lookahead alone).seqRight (yields_symbol "|" rest))
      Yields.pure

theorem run_operator_some {level : Nat} (le : level ≤ 4) {c c' : Cursor} {op : Phrase.Operator}
    (h : (levelOperator level).run c = some (op, c')) :
    ∃ rest, OperatorAt c.rest op rest ∧ op.level = level ∧ c'.rest = skip rest ∧
      c'.misfit? = c.misfit? := by
  have token : ∀ op' : Phrase.Operator, op' ≠ .satisfying → op' ≠ .choice →
      (symbol op'.token *> pure op' : Reader Phrase.Operator).run c = some (op, c') →
      ∃ rest, OperatorAt c.rest op rest ∧ op.level = op'.level ∧ c'.rest = skip rest ∧
        c'.misfit? = c.misfit? := by
    intro op' word bar run
    obtain ⟨_, c₁, found, out⟩ := run_seqRight_some.1 run
    obtain ⟨rfl, rfl⟩ := run_pure_some.1 out
    obtain ⟨rest, split, left, misfit⟩ := run_symbol_some found
    exact ⟨rest, ⟨split, fun e => (word e).elim, fun e => (bar e).elim⟩, rfl, left, misfit⟩
  match level, le with
  | 0, _ =>
    obtain ⟨_, c₁, found, out⟩ := run_seqRight_some.1 h
    obtain ⟨rfl, rfl⟩ := run_pure_some.1 out
    obtain ⟨rest, word, left, misfit⟩ := run_keyword_some found
    exact ⟨rest, ⟨word.split, fun _ => word.ends, nofun⟩, rfl, left, misfit⟩
  | 1, _ =>
    rcases run_orElse_some.1 h with h | ⟨-, h⟩
    · exact token .keepLeft nofun nofun h
    · exact token .keepRight nofun nofun h
  | 2, _ =>
    rcases run_orElse_some.1 h with h | ⟨-, h⟩
    · exact token .sep nofun nofun h
    · exact token .sepTrailer nofun nofun h
  | 3, _ =>
    rcases run_orElse_some.1 h with h | ⟨-, h⟩
    · exact token .applyRight nofun nofun h
    · exact token .applyLeft nofun nofun h
  | 4, _ =>
    obtain ⟨_, c₁, read, out⟩ := run_seqRight_some.1 h
    obtain ⟨rfl, rfl⟩ := run_pure_some.1 out
    obtain ⟨_, c₂, look, found⟩ := run_seqRight_some.1 read
    obtain ⟨alone, rfl⟩ := run_lookahead_some.1 look
    obtain ⟨rest, split, left, misfit⟩ := run_symbol_some found
    refine ⟨rest, ⟨split, nofun, fun _ head => ?_⟩, rfl, left, misfit⟩
    obtain ⟨tail, rfl⟩ := List.head?_eq_some_iff.1 head
    simp [split] at alone

end Packrat
