import Packrat.Proofs.Notation.Nesting
import Packrat.Proofs.Notation.Phrases

/-
**What is spelled is read.**

Where a phrase is spelled and nothing follows that would continue it, the reader of phrases reads
that phrase, up to spans, and leaves what follows or what follows behind blanks.  Each notation is a
lemma about its reader, given what its parts are read as; the induction over the notation puts them
together.

Main definitions:

* `Packrat.Rests` — the rests of a text that the blanks between tokens make alike.

Main results:

* `Packrat.Spells.reads` — a phrase that is spelled is read.
-/

set_option autoImplicit false

namespace Packrat

open Scan

/-- A rest of a text, with or without the blanks it begins with. -/
def Rests (rest t : List Char) : Prop := t = rest ∨ t = skip rest

theorem Rests.skip_eq {rest t : List Char} (h : Rests rest t) : skip t = skip rest := by
  rcases h with rfl | rfl <;> simp

theorem Rests.length_le {rest t : List Char} (h : Rests rest t) : t.length ≤ rest.length := by
  rcases h with rfl | rfl
  · exact Nat.le_refl _
  · exact skip_length_le rest

/-- A reader reads a phrase, up to spans, and leaves a rest. -/
def ReadsPhrase (r : Reader Phrase) (cs rest : List Char) (p : Phrase) : Prop :=
  Reads r cs fun q t => q.bare = p ∧ Rests rest t

theorem ReadsPhrase.token {r : Reader Phrase} {cs rest : List Char} {p : Phrase}
    (h : ReadsPhrase r cs rest p) : Reads (token r) cs fun q t => q.bare = p ∧ t = skip rest :=
  Reads.token (h.mono fun _ _ ⟨value, left⟩ => ⟨value, left.skip_eq⟩)

/-! ### Which notation begins -/

theorem leadingWord_of_head {c : Char} {cs : List Char} (h : isWordChar c = false) :
    leadingWord (c :: cs) = "" := by simp [leadingWord, h]

theorem NameAt.head {cs rest : List Char} {name : String} (h : NameAt cs name rest) :
    ∃ c, cs.head? = some c ∧ isWordChar c = true ∧ c.isDigit = false := by
  obtain ⟨c, l, begins⟩ := List.exists_cons_of_ne_nil h.isName.filled
  refine ⟨c, by rw [h.split, begins]; rfl, h.isName.isWord c (by simp [begins]), ?_⟩
  exact h.isName.digit c (by simp [begins])

theorem refuses_binding {phrase : Reader Phrase} {cs : List Char} (h : leadingWord cs ≠ "let") :
    Refuses (readBinding phrase) cs := .of_run fun c p c' hc run => by
  obtain ⟨⟨span, _⟩, c₁, read, -⟩ := run_bind_some.1 run
  obtain ⟨inner, -⟩ := run_spanned_some.1 read
  obtain ⟨_, c₂, word, -⟩ := run_bind_some.1 inner
  obtain ⟨rest, found, -⟩ := run_keyword_some word
  exact h (hc ▸ found.leadingWord (by decide))

theorem refuses_call {phrase : Reader Phrase} {cs : List Char}
    (h : ∀ name t, ¬ NameAt cs name ('(' :: t)) : Refuses (readCall phrase) cs :=
  .of_run fun c p c' hc run => by
    obtain ⟨⟨span, _⟩, c₁, read, -⟩ := run_bind_some.1 run
    obtain ⟨inner, -⟩ := run_spanned_some.1 read
    obtain ⟨name, c₂, callee, -⟩ := run_bind_some.1 inner
    obtain ⟨rest, found, -⟩ := run_callee_some callee
    exact h name rest (hc ▸ found)

theorem refuses_sequence {phrase : Reader Phrase} {cs : List Char} (h : cs.head? ≠ some '[') :
    Refuses (readSequence phrase) cs := .of_run fun c p c' hc run => by
  obtain ⟨⟨span, _⟩, c₁, read, -⟩ := run_bind_some.1 run
  obtain ⟨inner, -⟩ := run_spanned_some.1 read
  obtain ⟨_, c₂, opened, -⟩ := run_bind_some.1 inner
  obtain ⟨rest, split, -⟩ := run_symbol_some opened
  exact h (by rw [← hc, split]; rfl)

theorem refuses_group {phrase : Reader Phrase} {cs : List Char} (h : cs.head? ≠ some '(') :
    Refuses (readGroup phrase) cs := .of_run fun c p c' hc run => by
  obtain ⟨_, c₁, opened, -⟩ := run_bind_some.1 run
  obtain ⟨rest, split, -⟩ := run_symbol_some opened
  exact h (by rw [← hc, split]; rfl)

theorem refuses_textLiteral {cs : List Char} (h : ∀ v i b r, ¬ TextLiteral cs v i b r) :
    Refuses readTextLiteral cs := .of_run fun c p c' hc run => by
  obtain ⟨v, i, b, -, literal, -⟩ := run_textLiteral_some run
  exact h _ _ _ _ (hc ▸ literal)

theorem refuses_patternLiteral {cs : List Char} (h : ∀ v i b r, ¬ PatternLiteral cs v i b r) :
    Refuses readPatternLiteral cs := .of_run fun c p c' hc run => by
  obtain ⟨v, i, b, -, literal, -⟩ := run_patternLiteral_some run
  exact h _ _ _ _ (hc ▸ literal)

theorem TextLiteral.head {cs rest : List Char} {value : String} {ignoreCase binary : Bool}
    (h : TextLiteral cs value ignoreCase binary rest) :
    ∃ quote t, (quote = '"' ∨ quote = '\'') ∧ cs = flagLetter 'b' binary ++ quote :: t := by
  obtain ⟨mark, -, -⟩ := h
  exact ⟨_, _, mark, by rw [List.append_assoc]; rfl⟩

theorem PatternLiteral.head {cs rest : List Char} {pattern : String} {ignoreCase binary : Bool}
    (h : PatternLiteral cs pattern ignoreCase binary rest) :
    ∃ t, cs = flagLetter 'b' binary ++ '/' :: t ∧ filledPatternLength t ≠ none := by
  obtain ⟨enclosed, filled, -⟩ := h
  rename_i body tail
  refine ⟨body ++ '/' :: tail, by rw [List.append_assoc]; rfl, fun none => ?_⟩
  have measured := (filledPatternLength_eq_some (n := body.length)).2
    ⟨enclosed tail, by simpa using filled⟩
  rw [none] at measured
  cases measured

theorem HostLiteral.head {cs rest : List Char} {source : String}
    (h : HostLiteral cs source rest) : ∃ t, cs = backtick :: t := by
  obtain ⟨-⟩ := h
  exact ⟨_, rfl⟩

theorem NameAt.unique {cs rest rest' : List Char} {name name' : String}
    (h : NameAt cs name rest) (h' : NameAt cs name' rest') : name = name' ∧ rest = rest' := by
  have same : name = name' := h.leadingWord.symm.trans h'.leadingWord
  subst same
  exact ⟨rfl, List.append_cancel_left (h.split.symm.trans h'.split)⟩

/-- A text that begins with no word begins neither a binding nor a call. -/
theorem refuses_words (phrase : Reader Phrase) {c : Char} (cs : List Char)
    (h : isWordChar c = false) :
    Refuses (readBinding phrase) (c :: cs) ∧ Refuses (readCall phrase) (c :: cs) := by
  refine ⟨refuses_binding (by rw [leadingWord_of_head h]; decide), refuses_call fun name t named => ?_⟩
  obtain ⟨d, head, word, -⟩ := named.head
  obtain rfl : c = d := by simpa using head
  rw [h] at word
  cases word

/-- A literal begins neither a binding nor a call, whether or not a letter makes it binary. -/
theorem refuses_words_flagged (phrase : Reader Phrase) {c : Char} (cs : List Char) (binary : Bool)
    (h : isWordChar c = false) (other : c ≠ '(') :
    Refuses (readBinding phrase) (flagLetter 'b' binary ++ c :: cs) ∧
      Refuses (readCall phrase) (flagLetter 'b' binary ++ c :: cs) := by
  cases binary with
  | false => exact refuses_words phrase cs h
  | true =>
    have word : leadingWord ('b' :: c :: cs) = "b" := by
      have letter : isWordChar 'b' = true := by decide
      simp [leadingWord, letter, h]
    have short : leadingWord ('b' :: c :: cs) ≠ "let" := by
      rw [word]
      decide
    refine ⟨refuses_binding short, refuses_call fun name t named => other ?_⟩
    have same : "b" = name := word.symm.trans named.leadingWord
    have split := named.split
    rw [← same] at split
    exact (List.cons.inj (List.cons.inj split).2).1

theorem refuses_spanned {α : Type} {r : Reader α} {cs : List Char} (h : Refuses r cs) :
    Refuses (spanned r) cs := .of_run fun c x c' hc run => by
  have inner := (run_spanned_some (x := x.2)).1 run
  rw [h c hc] at inner
  cases inner.1

/-! ### Phrases without operators -/

section Primary

variable {phrase : Reader Phrase} {cs rest : List Char}

theorem ReadsPhrase.str {value : String} {ignoreCase binary : Bool}
    (h : TextLiteral cs value ignoreCase binary rest) :
    ReadsPhrase (readPrimary phrase) cs rest (.str .nowhere value ignoreCase binary) := by
  have read := reads_textLiteral h
  obtain ⟨quote, t, mark, rfl⟩ := h.head
  have plain : isWordChar quote = false ∧ quote ≠ '(' ∧ quote ≠ '[' := by
    rcases mark with rfl | rfl <;> decide
  obtain ⟨binding, call⟩ := refuses_words_flagged phrase t binary plain.1 plain.2.1
  have head : ∀ d, quote ≠ d → 'b' ≠ d → (flagLetter 'b' binary ++ quote :: t).head? ≠ some d := by
    cases binary <;> simp +contextual [flagLetter]
  refine .orElse_right binding <| .orElse_right call <|
    .orElse_right (refuses_sequence (head _ plain.2.2 (by decide))) <|
    .orElse_right (refuses_group (head _ plain.2.1 (by decide))) <| .orElse_left <|
    read.mono ?_
  rintro _ _ ⟨span, rfl, rfl⟩
  exact ⟨rfl, .inl rfl⟩

theorem ReadsPhrase.regex {pattern : String} {ignoreCase binary : Bool}
    (h : PatternLiteral cs pattern ignoreCase binary rest) :
    ReadsPhrase (readPrimary phrase) cs rest (.regex .nowhere pattern ignoreCase binary) := by
  have read := reads_patternLiteral h
  obtain ⟨t, rfl, -⟩ := h.head
  obtain ⟨binding, call⟩ :=
    refuses_words_flagged phrase t binary (show isWordChar '/' = false by decide) (by decide)
  have head : ∀ d, '/' ≠ d → 'b' ≠ d → (flagLetter 'b' binary ++ '/' :: t).head? ≠ some d := by
    cases binary <;> simp +contextual [flagLetter]
  have text : ∀ v i b r, ¬ TextLiteral (flagLetter 'b' binary ++ '/' :: t) v i b r := by
    intro v i b r literal
    obtain ⟨quote, t', mark, split⟩ := literal.head
    cases binary <;> cases b <;> rcases mark with rfl | rfl <;> simp [flagLetter] at split
  refine .orElse_right binding <| .orElse_right call <|
    .orElse_right (refuses_sequence (head _ (by decide) (by decide))) <|
    .orElse_right (refuses_group (head _ (by decide) (by decide))) <|
    .orElse_right (refuses_textLiteral text) <| .orElse_left <| read.mono ?_
  rintro _ _ ⟨span, rfl, rfl⟩
  exact ⟨rfl, .inl rfl⟩

/-- A text that begins with a certain character begins no literal that begins otherwise. -/
theorem refuses_literals {c : Char} (cs : List Char) (quotes : c ≠ '"' ∧ c ≠ '\'' ∧ c ≠ '/' ∧ c ≠ 'b') :
    Refuses readTextLiteral (c :: cs) ∧ Refuses readPatternLiteral (c :: cs) := by
  refine ⟨refuses_textLiteral fun v i b r literal => ?_,
    refuses_patternLiteral fun v i b r literal => ?_⟩
  · obtain ⟨quote, t, mark, split⟩ := literal.head
    cases b <;> rcases mark with rfl | rfl <;> simp_all [flagLetter]
  · obtain ⟨t, split, -⟩ := literal.head
    cases b <;> simp_all [flagLetter]

theorem ReadsPhrase.host {source : String} (h : HostLiteral cs source rest) :
    ReadsPhrase (readPrimary phrase) cs rest (.host .nowhere source) := by
  have read := yields_hostLiteral h
  obtain ⟨t, rfl⟩ := h.head
  obtain ⟨binding, call⟩ := refuses_words phrase t (show isWordChar backtick = false by decide)
  obtain ⟨text, pattern⟩ := refuses_literals (c := backtick) t (by decide)
  have head : ∀ d, backtick ≠ d → (backtick :: t).head? ≠ some d := by simp
  exact .orElse_right binding <| .orElse_right call <|
    .orElse_right (refuses_sequence (head _ (by decide))) <|
    .orElse_right (refuses_group (head _ (by decide))) <| .orElse_right text <| .orElse_right pattern <| .orElse_left <|
    read.spanned fun _ => .pure ⟨rfl, .inl rfl⟩

theorem ReadsPhrase.int {n : Nat} (h : Numeral 0x8000000000000000 cs n rest) :
    ReadsPhrase (readPrimary phrase) cs rest (.int .nowhere n) := by
  have read : Yields (bareNumeral 0x8000000000000000 false) cs n rest := yields_numeral h
  obtain ⟨filled, isDigit, -, -⟩ := h
  rename_i digits
  obtain ⟨c, t, rfl⟩ := List.exists_cons_of_ne_nil filled
  have digit : c.isDigit = true := isDigit c (by simp)
  have other : ∀ d : Char, d.isDigit = false → c ≠ d := fun d no e => by simp [e, no] at digit
  have binding : Refuses (readBinding phrase) (c :: t ++ rest) := refuses_binding fun word => by
    have word := congrArg String.toList word
    simp only [leadingWord, String.toList_ofList, List.cons_append, List.takeWhile_cons] at word
    split at word
    · exact other 'l' (by decide) (List.cons.inj word).1
    · cases word
  have call : Refuses (readCall phrase) (c :: t ++ rest) := refuses_call fun name t named => by
    obtain ⟨d, head, -, no⟩ := named.head
    exact other d no (by simpa using head)
  obtain ⟨text, pattern⟩ := refuses_literals (c := c) (t ++ rest)
    ⟨other _ (by decide), other _ (by decide), other _ (by decide), other _ (by decide)⟩
  have host : Refuses bareHost (c :: t ++ rest) := .of_run fun d s c' hc run => by
    obtain ⟨u, split⟩ := (run_hostLiteral_some run).1.head
    exact other backtick (by decide) (by simpa [hc] using congrArg List.head? split)
  exact .orElse_right binding <| .orElse_right call <|
    .orElse_right (refuses_sequence (by simpa using other '[' (by decide))) <|
    .orElse_right (refuses_group (by simpa using other '(' (by decide))) <|
    .orElse_right text <| .orElse_right pattern <|
    .orElse_right (refuses_spanned host).bind <| .orElse_left <|
    read.spanned fun _ => .pure ⟨rfl, .inl rfl⟩

theorem ReadsPhrase.ref {name : String} (h : NameAt cs name rest) (alone : Alone name rest) :
    ReadsPhrase (readPrimary phrase) cs rest (.ref .nowhere name) := by
  obtain ⟨c, head, word, digit⟩ := h.head
  obtain ⟨t, rfl⟩ := List.head?_eq_some_iff.1 head
  have other : ∀ d : Char, isWordChar d = false → c ≠ d := fun d no e => by simp [e, no] at word
  have binding : Refuses (readBinding phrase) (c :: t) := refuses_binding fun same => by
    rw [h.leadingWord] at same
    exact h.isName.ne (by decide) (congrArg String.toList same)
  have call : Refuses (readCall phrase) (c :: t) := refuses_call fun name' t' named =>
    alone.call (by rw [(h.unique named).2]; rfl)
  -- A binary literal would begin with the name `b`.
  have flagged : ∀ d u, isWordChar d = false → c :: t = 'b' :: d :: u →
      name = "b" ∧ rest = d :: u := fun d u plain split => by
    have named : NameAt (c :: t) "b" (d :: u) := ⟨split, ⟨List.all_eq_true.1 (by decide),
      by decide, by rintro c ⟨⟩; decide, by decide⟩, by simpa using plain⟩
    exact h.unique named
  have text : Refuses readTextLiteral (c :: t) := refuses_textLiteral fun v i b r literal => by
    obtain ⟨quote, u, mark, split⟩ := literal.head
    have plain : isWordChar quote = false := by rcases mark with rfl | rfl <;> decide
    cases b with
    | false => exact other quote plain (List.cons.inj split).1
    | true =>
      obtain ⟨rfl, rfl⟩ := flagged quote u plain split
      have := alone.text rfl
      rcases mark with rfl | rfl <;> simp_all
  have pattern : Refuses readPatternLiteral (c :: t) :=
    refuses_patternLiteral fun v i b r literal => by
      obtain ⟨u, split, filled⟩ := literal.head
      cases b with
      | false => exact other '/' (by decide) (List.cons.inj split).1
      | true =>
        obtain ⟨rfl, rfl⟩ := flagged '/' u (by decide) split
        exact filled (alone.pattern rfl u rfl)
  have host : Refuses bareHost (c :: t) := .of_run fun d s c' hc run => by
    obtain ⟨u, split⟩ := (run_hostLiteral_some run).1.head
    exact other backtick (by decide) (by simpa [hc] using congrArg List.head? split)
  have int : Refuses (bareNumeral 0x8000000000000000 false) (c :: t) :=
    .of_run fun d n c' hc run => by
      obtain ⟨⟨e, head, digit'⟩, -⟩ := run_numeral_some run
      obtain rfl : c = e := by simpa [hc] using head
      rw [digit] at digit'
      cases digit'
  exact .orElse_right binding <| .orElse_right call <|
    .orElse_right (refuses_sequence (by simpa using other '[' (by decide))) <|
    .orElse_right (refuses_group (by simpa using other '(' (by decide))) <|
    .orElse_right text <| .orElse_right pattern <|
    .orElse_right (refuses_spanned host).bind <| .orElse_right (refuses_spanned int).bind <|
    (yields_identifier h).spanned fun _ => .pure ⟨rfl, .inl rfl⟩

theorem ReadsPhrase.group {t r : List Char} {p : Phrase}
    (inner : ReadsPhrase phrase (skip t) r p) (closes : skip r = ')' :: rest) :
    ReadsPhrase (readPrimary phrase) ('(' :: t) rest p := by
  obtain ⟨binding, call⟩ := refuses_words phrase t (show isWordChar '(' = false by decide)
  refine .orElse_right binding <| .orElse_right call <|
    .orElse_right (refuses_sequence (by simp)) <| .orElse_left <| (yields_symbol "(" t).bind <|
    inner.token.bind ?_
  rintro q u ⟨value, rfl⟩
  rw [closes]
  exact (yields_literal [')'] rest).bind (.pure ⟨value, .inl rfl⟩)

theorem ReadsPhrase.bound {t₁ t₂ t₃ r₁ r₂ : List Char} {name : String} {value body : Phrase}
    (binds : KeywordAt "let" cs t₁) (named : NameAt (skip t₁) name r₁)
    (equals : skip r₁ = '=' :: t₂) (value' : ReadsPhrase phrase (skip t₂) r₂ value)
    (inside : KeywordAt "in" (skip r₂) t₃) (body' : ReadsPhrase phrase (skip t₃) rest body) :
    ReadsPhrase (readPrimary phrase) cs rest (.bound .nowhere name value body) := by
  refine .orElse_left ?_
  have inner : Reads (do
      keyword "let"
      let name ← readIdentifier
      symbol "="
      let value ← Scan.token phrase
      keyword "in"
      let body ← phrase
      pure (name, value, body)) cs fun x t =>
        x.1 = name ∧ x.2.1.bare = value ∧ x.2.2.bare = body ∧ Rests rest t := by
    refine (yields_keyword binds (by decide)).bind <| (yields_identifier named).token.bind ?_
    rw [equals]
    refine (yields_symbol "=" t₂).bind <| value'.token.bind ?_
    rintro v _ ⟨hv, rfl⟩
    refine (yields_keyword inside (by decide)).bind <| body'.bind ?_
    rintro b u ⟨hb, left⟩
    exact .pure ⟨rfl, hv, hb, left⟩
  refine inner.spanned.bind ?_
  rintro ⟨span, n, v, b⟩ u ⟨rfl, hv, hb, left⟩
  exact .pure ⟨by rw [Phrase.bare, hv, hb], left⟩

/-- Items of a list are read one after the other, each up to the comma or the closing character
behind it. -/
theorem Listed.reads {α : Type} {r : Reader α} (view : α → Option String × Phrase) {close : Char}
    {items : List Item} (listed : Listed close cs items rest) (plain : close ≠ ',')
    (closed : ∀ t, Refuses r (close :: t))
    (shorter : ∀ item ∈ items, Consumes item.start item.rest)
    (part : ∀ item ∈ items, (∃ t c, skip item.rest = c :: t ∧ (c = ',' ∨ c = close)) →
      Reads r item.start fun x t => view x = (item.label, item.phrase) ∧ t = skip item.rest) :
    Reads (listOf r (symbol ",")) cs fun xs t =>
      xs.map view = items.map (fun item => (item.label, item.phrase)) ∧ t = close :: rest := by
  have noComma : ∀ t, Refuses (symbol "," : Reader Unit) (close :: t) := fun t =>
    refuses_symbol (by simpa using plain.symm)
  -- Behind an item stand more items, perhaps a last comma, and the closing character.
  have further : ∀ (items : List Item) (item : Item) (cs : List Char),
      Listed close cs (item :: items) rest → (∀ i ∈ item :: items, Consumes i.start i.rest) →
      (∀ i ∈ item :: items, (∃ t c, skip i.rest = c :: t ∧ (c = ',' ∨ c = close)) →
        Reads r i.start fun x t => view x = (i.label, i.phrase) ∧ t = skip i.rest) →
      item.start = cs ∧ (∃ t c, skip item.rest = c :: t ∧ (c = ',' ∨ c = close)) ∧
      ReadsOn (symbol "," *> r) (skip item.rest) fun xs t =>
        xs.map view = items.map (fun item => (item.label, item.phrase)) ∧
          (t = close :: rest ∨ ∃ u, t = ',' :: u ∧ skip u = close :: rest) := by
    intro items
    induction items with
    | nil =>
      intro item cs listed shorter part
      cases listed with
      | last begins closes =>
        refine ⟨begins, ⟨rest, close, closes, .inr rfl⟩, ?_⟩
        rw [closes]
        exact .nil (.seqRight (noComma _)) ⟨rfl, .inl rfl⟩
      | cons begins comma later =>
        rename_i t
        refine ⟨begins, ⟨t, ',', comma, .inl rfl⟩, ?_⟩
        generalize left : skip t = u at later
        cases later
        rw [comma]
        refine .nil (.seqRight_next (yields_symbol "," t) ?_) ⟨rfl, .inr ⟨t, rfl, left⟩⟩
        rintro _ _ ⟨-, rfl⟩
        exact left ▸ closed _
    | cons next items ih =>
      intro item cs listed shorter part
      cases listed with
      | cons begins comma later =>
        rename_i t
        obtain ⟨starts, ends, readsOn⟩ := ih next (skip t) later
          (fun i mem => shorter i (by simp [mem])) (fun i mem => part i (by simp [mem]))
        refine ⟨begins, ⟨t, ',', comma, .inl rfl⟩, ?_⟩
        rw [comma]
        refine .cons ((yields_symbol "," t).seqRight ?_)
        rw [← starts]
        refine (part next (by simp) ends).mono ?_
        rintro x _ ⟨value, rfl⟩
        refine ⟨?_, readsOn.mono fun xs u ⟨values, left⟩ => ⟨by simp [value, values], left⟩⟩
        have := (shorter next (by simp)).shorter
        have := skip_length_le next.rest
        have := skip_length_le t
        rw [starts] at *
        simp only [List.length_cons]
        omega
  cases items with
  | nil =>
    cases listed
    exact .orElse_right (.bind (.bind (closed _))) (.pure ⟨rfl, rfl⟩)
  | cons item items =>
    obtain ⟨rfl, ends, readsOn⟩ := further items item cs listed shorter part
    refine .orElse_left (.bind (P := fun xs t =>
      xs.map view = (item :: items).map (fun item => (item.label, item.phrase)) ∧
        (t = close :: rest ∨ ∃ u, t = ',' :: u ∧ skip u = close :: rest)) ?_ ?_)
    · refine (part item (by simp) ends).bind ?_
      rintro x _ ⟨value, rfl⟩
      refine readsOn.many.bind fun xs u ⟨values, left⟩ => ?_
      exact .pure ⟨by simp [value, values], left⟩
    · rintro xs t ⟨values, rfl | ⟨u, rfl, left⟩⟩
      · exact (Yields.attempt_none (noComma _)).bind (.pure ⟨values, rfl⟩)
      · exact (yields_symbol "," u).attempt.bind (.pure ⟨values, left⟩)

theorem ReadsPhrase.sequence {t : List Char} {items : List Item}
    (listed : Listed ']' (skip t) items rest)
    (plain : ∀ item ∈ items, item.label = none ∧ item.text = item.start)
    (shorter : ∀ item ∈ items, Consumes item.text item.rest)
    (closed : ∀ u, Refuses phrase (']' :: u))
    (parts : ∀ item ∈ items, (∃ t c, skip item.rest = c :: t ∧ (c = ',' ∨ c = ']')) →
      ReadsPhrase phrase item.text item.rest item.phrase) :
    ReadsPhrase (readPrimary phrase) ('[' :: t) rest
      (.sequence .nowhere (items.map (·.phrase))) := by
  obtain ⟨binding, call⟩ := refuses_words phrase t (show isWordChar '[' = false by decide)
  have list := Listed.reads (r := Scan.token phrase) (fun q => (none, q.bare)) listed (by decide)
    (fun u => (closed u).token) (fun item mem => (plain item mem).2 ▸ shorter item mem)
    (fun item mem ends => by
      rw [← (plain item mem).2]
      refine (parts item mem ends).token.mono ?_
      rintro q u ⟨value, rfl⟩
      exact ⟨by rw [value, (plain item mem).1], rfl⟩)
  refine .orElse_right binding <| .orElse_right call <| .orElse_left ?_
  refine Reads.bind (Reads.spanned (P := fun (ps : List Phrase) u =>
    ps.map Phrase.bare = items.map (·.phrase) ∧ u = rest) ?_) ?_
  · refine (yields_symbol "[" t).bind <| list.bind ?_
    rintro ps _ ⟨values, rfl⟩
    refine (yields_literal [']'] rest).bind (.pure ⟨?_, rfl⟩)
    have := congrArg (List.map Prod.snd) values
    simpa [Function.comp_def] using this
  · rintro ⟨span, ps⟩ _ ⟨values, rfl⟩
    exact .pure ⟨by rw [Phrase.bare, barePhrases_eq, values], .inl rfl⟩

/-- A name with an equals sign behind it at the beginning of a text. -/
def LabelAt (cs : List Char) : Prop := ∃ name r t, NameAt cs name r ∧ skip r = '=' :: t

/-- The reader of an argument reads a label where there is one, and a phrase. -/
theorem reads_argument {item : Item} (labelled : item.Labelled)
    (read : ReadsPhrase phrase item.text item.rest item.phrase)
    (unlabelled : item.label = none → ¬ LabelAt item.start) :
    Reads (readArgument phrase) item.start fun x t =>
      (x.1, x.2.bare) = (item.label, item.phrase) ∧ t = skip item.rest := by
  rw [Item.Labelled] at labelled
  split at labelled
  · next none =>
    refine .orElse_right (.of_run fun c x c' hc run => unlabelled none ?_) ?_
    · obtain ⟨name, c₁, ident, run₁⟩ := run_bind_some.1 run
      obtain ⟨_, c₂, equals, -⟩ := run_bind_some.1 run₁
      obtain ⟨c₃, ident, left, -⟩ := run_token_some ident
      obtain ⟨t, split, -⟩ := run_symbol_some equals
      exact ⟨name, c₃.rest, t, hc ▸ (run_identifier_some ident).1, left ▸ split⟩
    · rw [← labelled]
      refine read.token.bind ?_
      rintro q _ ⟨value, rfl⟩
      exact .pure ⟨by rw [value, none], rfl⟩
  · next name some =>
    obtain ⟨r, t, named, equals, begins⟩ := labelled
    refine .orElse_left ((yields_identifier named).token.bind ?_)
    rw [equals]
    refine (yields_symbol "=" t).bind ?_
    rw [← begins]
    refine read.token.bind ?_
    rintro q _ ⟨value, rfl⟩
    exact .pure ⟨by rw [value, some], rfl⟩

theorem ReadsPhrase.call {t : List Char} {callee : String} {items : List Item}
    (named : NameAt cs callee ('(' :: t)) (listed : Listed ')' (skip t) items rest)
    (labelled : ∀ item ∈ items, item.Labelled)
    (shorter : ∀ item ∈ items, Consumes item.text item.rest)
    (closed : ∀ u, Refuses phrase (')' :: u))
    (args : ∀ item ∈ items, (∃ t c, skip item.rest = c :: t ∧ (c = ',' ∨ c = ')')) →
      ReadsPhrase phrase item.text item.rest item.phrase ∧
        (item.label = none → ¬ LabelAt item.start)) :
    ReadsPhrase (readPrimary phrase) cs rest
      (.call .nowhere callee (items.map fun item => (item.label, item.phrase))) := by
  have binding : Refuses (readBinding phrase) cs := refuses_binding fun same => by
    rw [named.leadingWord] at same
    exact named.isName.ne (by decide) (congrArg String.toList same)
  have refuse : ∀ u, Refuses (readArgument phrase) (')' :: u) := fun u =>
    .orElse (.bind (Refuses.token (.of_run fun c x c' hc run => by
      obtain ⟨d, head, word, -⟩ := (run_identifier_some run).1.head
      obtain rfl : ')' = d := by simpa [hc] using head
      exact absurd word (by decide)))) (.bind (closed u).token)
  have list := Listed.reads (r := readArgument phrase) (fun x => (x.1, x.2.bare)) listed
    (by decide) refuse (fun item mem => (shorter item mem).earlier (labelled item mem).suffix)
    (fun item mem ends => reads_argument (labelled item mem) (args item mem ends).1
      (args item mem ends).2)
  refine .orElse_right binding <| .orElse_left ?_
  refine Reads.bind (Reads.spanned (P := fun (x : String × List (Option String × Phrase)) u =>
    x.1 = callee ∧ bareArgs x.2 = items.map (fun item => (item.label, item.phrase)) ∧ u = rest)
    ?_) ?_
  · refine (yields_callee named).bind <| (yields_symbol "(" t).bind <| list.bind ?_
    rintro xs _ ⟨values, rfl⟩
    exact (yields_literal [')'] rest).bind (.pure ⟨rfl, by rw [bareArgs_eq]; exact values, rfl⟩)
  · rintro ⟨span, _, xs⟩ _ ⟨rfl, values, rfl⟩
    exact .pure ⟨by rw [Phrase.bare, values], .inl rfl⟩

end Primary

/-! ### Chains -/

/-- A chain of readings behind a first one; each of them begins behind blanks. -/
theorem ReadsPhrase.readChain {β : Type} {first : Reader Phrase} {next : Reader β}
    {cs r : List Char} {p : Phrase} {Q : Phrase × List β → List Char → Prop}
    (read : ReadsPhrase first cs r p)
    (later : ∀ q, q.bare = p → ReadsOn (blanks *> next) (skip r) fun xs t => Q (q, xs) t) :
    Reads (readChain first next) cs Q := by
  refine read.token.bind ?_
  rintro q _ ⟨value, rfl⟩
  exact (later q value).many.bind fun xs t hq => .pure hq

theorem reads_suffixes {cs rest : List Char} {suffixes : List Phrase.Suffix}
    (h : Suffixed cs suffixes rest) (follow : Follow 1 rest) {t : List Char} (left : Rests cs t) :
    ReadsOn (blanks *> readSuffix) t fun xs u => xs.map (·.2) = suffixes ∧ Rests rest u := by
  induction h generalizing t with
  | nil cs =>
    refine .nil (.behind (.of_run fun c x c' hc run => ?_)) ⟨rfl, left⟩
    obtain ⟨⟨d, head, mem⟩, -⟩ := run_suffix_some run
    rw [hc, left.skip_eq] at head
    exact follow.suffix (Nat.le_refl 1) d head mem
  | @cons cs t' rest suffix suffixes first later ih =>
    refine .cons (.behind ?_)
    rw [left.skip_eq]
    refine (reads_suffix first).mono ?_
    rintro ⟨span, s⟩ u ⟨rfl, rfl⟩
    refine ⟨?_, (ih follow (.inl rfl)).mono fun xs v ⟨values, out⟩ => ⟨by simp [values], out⟩⟩
    have := first.consumes.shorter
    have := left.skip_eq ▸ skip_length_le t
    omega

theorem reads_links {level : Nat} {operand : Reader Phrase} {cs rest : List Char}
    {links : List Link} (linked : Linked level cs links rest) (le : level ≤ 4)
    (shorter : ∀ link ∈ links, Consumes link.text link.rest)
    (operands : ∀ link ∈ links, Follow (level + 1) link.rest →
      ReadsPhrase operand link.text link.rest link.phrase)
    (follow : Follow (level + 2) rest) {t : List Char} (left : Rests cs t) :
    ReadsOn (blanks *> do
      let op ← levelOperator level
      let right ← operand
      pure (op, right)) t fun xs u =>
        xs.map (fun x => (x.1, x.2.bare)) = links.map (fun link => (link.op, link.phrase)) ∧
          Rests rest u := by
  induction linked generalizing t with
  | nil cs =>
    refine .nil (.behind (.bind (.of_run fun c op c' hc run => ?_))) ⟨rfl, left⟩
    obtain ⟨u, found, tight, -⟩ := run_operator_some le run
    rw [hc, left.skip_eq] at found
    have := follow.operator op u found
    omega
  | @cons cs t' rest link links operator tight begins later ih =>
    have shorter' := fun l mem => shorter l (List.mem_cons_of_mem _ mem)
    -- Behind the operand stands an operator of the same level, or what follows the chain.
    have next : Follow (level + 1) link.rest := by
      cases later with
      | nil => exact follow.mono (by omega)
      | cons operator' tight' => exact .of_operator operator' (by omega)
    refine .cons (.behind ?_)
    rw [left.skip_eq, ← tight]
    refine (yields_operator operator).bind ?_
    rw [← begins]
    refine (operands link (by simp) next).bind fun q u ⟨value, out⟩ => .pure ⟨?_, ?_⟩
    · have := out.length_le
      have := (shorter link (by simp)).shorter
      have := begins ▸ skip_length_le t'
      have := operator.consumes.shorter
      have := left.skip_eq ▸ skip_length_le t
      omega
    · rw [tight]
      refine (ih shorter' (fun l mem => operands l (List.mem_cons_of_mem _ mem)) follow out).mono ?_
      rintro xs v ⟨values, out'⟩
      exact ⟨by simp [value, values], out'⟩

theorem bare_foldPhrases (first : Phrase) (rest : List (Phrase.Operator × Phrase)) :
    (foldPhrases first rest).bare =
      (rest.map fun x => (x.1, x.2.bare)).foldl (fun left x => .binary .nowhere x.1 left x.2)
        first.bare := by
  rw [foldPhrases]
  induction rest generalizing first with
  | nil => rfl
  | cons x rest ih => rw [List.foldl_cons, ih, List.map_cons, List.foldl_cons, Phrase.bare]

theorem bare_foldSuffixes (first : Phrase) (suffixes : List (Span × Phrase.Suffix)) :
    (suffixes.foldl (fun inner next => .suffixed (inner.span.join next.1) inner next.2) first).bare =
      (suffixes.map (·.2)).foldl (fun inner s => .suffixed .nowhere inner s) first.bare := by
  induction suffixes generalizing first with
  | nil => rfl
  | cons x suffixes ih => rw [List.foldl_cons, ih, List.map_cons, List.foldl_cons, Phrase.bare]

theorem ReadsPhrase.suffixed {phrase : Reader Phrase} {cs r rest : List Char} {p : Phrase}
    {suffixes : List Phrase.Suffix} (first : ReadsPhrase (readPrimary phrase) cs r p)
    (later : Suffixed r suffixes rest) (follow : Follow 1 rest) :
    ReadsPhrase (readSuffixed phrase) cs rest
      (suffixes.foldl (fun inner s => .suffixed .nowhere inner s) p) := by
  refine Reads.bind (first.readChain (Q := fun out t =>
    out.1.bare = p ∧ out.2.map (·.2) = suffixes ∧ Rests rest t) fun q value => ?_) ?_
  · exact (reads_suffixes later follow (.inr rfl)).mono fun xs t ⟨values, out⟩ =>
      ⟨value, values, out⟩
  · rintro ⟨q, xs⟩ t ⟨rfl, rfl, out⟩
    exact .pure ⟨bare_foldSuffixes q xs, out⟩

theorem ReadsPhrase.chain {level : Nat} {operand : Reader Phrase} {cs r rest : List Char}
    {p : Phrase} {links : List Link} (le : level ≤ 4)
    (first : Follow (level + 1) r → ReadsPhrase operand cs r p) (linked : Linked level r links rest)
    (shorter : ∀ link ∈ links, Consumes link.text link.rest)
    (operands : ∀ link ∈ links, Follow (level + 1) link.rest →
      ReadsPhrase operand link.text link.rest link.phrase)
    (follow : Follow (level + 2) rest) :
    ReadsPhrase (readLevel operand (levelOperator level)) cs rest
      (links.foldl (fun left link => .binary .nowhere link.op left link.phrase) p) := by
  have next : Follow (level + 1) r := by
    cases linked with
    | nil => exact follow.mono (by omega)
    | cons operator tight => exact .of_operator operator (by omega)
  refine Reads.bind ((first next).readChain (Q := fun out t => out.1.bare = p ∧
    out.2.map (fun x => (x.1, x.2.bare)) = links.map (fun link => (link.op, link.phrase)) ∧
      Rests rest t) fun q value => ?_) ?_
  · exact (reads_links linked le shorter operands follow (.inr rfl)).mono
      fun xs t ⟨values, out⟩ => ⟨value, values, out⟩
  · rintro ⟨q, xs⟩ t ⟨rfl, values, out⟩
    refine .pure ⟨?_, out⟩
    rw [bare_foldPhrases, values, List.foldl_map]

/-! ### Phrases -/

theorem refuses_stage {phrase : Reader Phrase} {cs : List Char}
    (h : Refuses (readPrimary phrase) cs) (n : Nat) : Refuses (stage phrase n) cs := by
  induction n using Nat.strongRecOn with
  | _ n ih =>
    match n with
    | 0 => exact h
    | 1 => exact .bind (.bind h.token)
    | n + 2 => exact .bind (.bind (ih (n + 1) (by omega)).token)

/-- Characters that close a list begin no phrase. -/
theorem refuses_closing {c : Char} (closing : c ∈ [')', ']', '\x7d']) (cs : List Char) :
    Refuses readWholePhrase (c :: cs) := by
  have plain : isWordChar c = false ∧ c.isDigit = false ∧ c ≠ '[' ∧ c ≠ '(' ∧ c ≠ '"' ∧ c ≠ '\'' ∧
      c ≠ '/' ∧ c ≠ 'b' ∧ c ≠ backtick := by
    simp only [List.mem_cons, List.not_mem_nil, or_false] at closing
    rcases closing with rfl | rfl | rfl <;> decide
  obtain ⟨word, digit, bracket, paren, quote, quote', slash, letter, mark⟩ := plain
  obtain ⟨binding, call⟩ := refuses_words readWholePhrase cs word
  obtain ⟨text, pattern⟩ := refuses_literals cs ⟨quote, quote', slash, letter⟩
  rw [readWholePhrase_eq]
  refine refuses_stage (.orElse binding <| .orElse call <|
    .orElse (refuses_sequence (by simpa using bracket)) <|
    .orElse (refuses_group (by simpa using paren)) <| .orElse text <| .orElse pattern <|
    .orElse (refuses_spanned (.of_run fun d s c' hc run => ?_)).bind <|
    .orElse (refuses_spanned (.of_run fun d n c' hc run => ?_)).bind <|
    (refuses_spanned (.of_run fun d name c' hc run => ?_)).bind) 6
  · obtain ⟨u, split⟩ := (run_hostLiteral_some run).1.head
    exact mark (by simpa [hc] using congrArg List.head? split)
  · obtain ⟨⟨e, head, digit'⟩, -⟩ := run_numeral_some run
    obtain rfl : c = e := by simpa [hc] using head
    rw [digit] at digit'
    cases digit'
  · obtain ⟨e, head, word', -⟩ := (run_identifier_some run).1.head
    obtain rfl : c = e := by simpa [hc] using head
    rw [word] at word'
    cases word'

/-- A phrase without operators is a phrase of every stage. -/
theorem ReadsPhrase.stage {phrase : Reader Phrase} {cs rest : List Char} {p : Phrase}
    (h : ReadsPhrase (readPrimary phrase) cs rest p) {n : Nat} (le : n ≤ 6)
    (follow : Follow n rest) : ReadsPhrase (stage phrase n) cs rest p := by
  induction n using Nat.strongRecOn with
  | _ n ih =>
    match n with
    | 0 => exact h
    | 1 => exact h.suffixed (.nil _) follow
    | n + 2 =>
      exact .chain (by omega) (fun next => ih (n + 1) (by omega) (by omega) next) (.nil _)
        (by simp) (by simp) follow

/-- What stands before an equals sign is read as a name by the reader of phrases, which stops
there. -/
theorem LabelAt.reads {cs : List Char} (h : LabelAt cs) :
    Reads readWholePhrase cs fun _ t => ∃ u, skip t = '=' :: u := by
  obtain ⟨name, r, u, named, equals⟩ := h
  have solid : ∀ c t, r = c :: t → Solid c → c = '=' := fun c t split solid => by
    rw [split, skip_cons solid] at equals
    exact (List.cons.inj equals).1
  have alone : Alone name r := by
    have other : ∀ c : Char, Solid c → c ≠ '=' → r.head? ≠ some c := fun c plain ne head => by
      obtain ⟨t, split⟩ := List.head?_eq_some_iff.1 head
      exact ne (solid c t split plain)
    exact ⟨other _ (by decide) (by decide), fun _ => ⟨other _ (by decide) (by decide),
      other _ (by decide) (by decide)⟩, fun _ t split =>
      (other '/' (by decide) (by decide) (by rw [split]; rfl)).elim⟩
  rw [readWholePhrase_eq]
  refine ((ReadsPhrase.ref named alone).stage (Nat.le_refl 6)
    (.of_eq_cons equals (by decide))).mono fun _ t ⟨_, left⟩ => ⟨u, ?_⟩
  rw [left.skip_eq, equals]

/-- A phrase that is spelled is read, up to spans, where nothing follows that continues it. -/
theorem Spells.reads {n : Nat} {cs rest : List Char} {p : Phrase} (h : Spells n cs rest p)
    (le : n ≤ 6) (follow : Follow n rest) :
    ReadsPhrase (Packrat.stage readWholePhrase n) cs rest p := by
  have whole : ∀ {cs rest : List Char} {p : Phrase},
      (6 ≤ 6 → Follow 6 rest → ReadsPhrase (Packrat.stage readWholePhrase 6) cs rest p) →
      Follow 6 rest → ReadsPhrase readWholePhrase cs rest p := fun ih follow => by
    rw [readWholePhrase_eq]
    exact ih (Nat.le_refl 6) follow
  induction h with
  | bound binds named equals value' inside body' greedy ihValue ihBody =>
    have head : ∃ t, skip _ = 'i' :: t := ⟨_, inside.split⟩
    obtain ⟨t, split⟩ := head
    exact .bound binds named equals (whole ihValue (.of_eq_cons split (by decide))) inside
      (whole ihBody greedy)
  | call named listed labelled args ih =>
    refine .call named listed labelled (fun item mem => (args item mem).consumes)
      (refuses_closing (by decide)) fun item mem follows => ?_
    obtain ⟨t, c, ends, closes⟩ := follows
    have stops : Follow 6 item.rest := .of_eq_cons ends (by rcases closes with rfl | rfl <;> decide)
    have read := whole (ih item mem) stops
    refine ⟨read, fun unlabelled label => ?_⟩
    -- A label would have been read as a phrase that ends before an equals sign.
    have text : item.text = item.start := by
      have := labelled item mem
      rwa [Item.Labelled, unlabelled] at this
    obtain ⟨q, c', run, ⟨-, left⟩, -⟩ := read ⟨item.text, 0, none⟩ rfl
    obtain ⟨q', d, run', ⟨u, equals⟩, -⟩ := label.reads ⟨item.start, 0, none⟩ rfl
    rw [text, run'] at run
    obtain ⟨-, rfl⟩ := Prod.mk.inj (Option.some.inj run)
    rw [left.skip_eq, ends] at equals
    rcases closes with rfl | rfl <;> cases equals
  | sequence listed plain parts ih =>
    refine .sequence listed plain (fun item mem => (parts item mem).consumes)
      (refuses_closing (by decide)) fun item mem follows => ?_
    obtain ⟨t, c, ends, closes⟩ := follows
    exact whole (ih item mem) (.of_eq_cons ends (by rcases closes with rfl | rfl <;> decide))
  | group inner closes ih => exact .group (whole ih (.of_eq_cons closes (by decide))) closes
  | str literal => exact .str literal
  | regex literal => exact .regex literal
  | host literal => exact .host literal
  | int numeral => exact .int numeral
  | ref named alone => exact .ref named alone
  | suffixed first later ih =>
    exact (ih (by omega) ⟨by simp, fun _ _ _ => Nat.zero_le _⟩).suffixed later follow
  | chain first linked operands ihFirst ihOperands =>
    exact .chain (by omega) (ihFirst (by omega)) linked
      (fun link mem => (operands link mem).consumes)
      (fun link mem next => ihOperands link mem (by omega) next) follow

end Packrat
