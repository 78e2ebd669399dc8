import Packrat.Parser.Load
import Packrat.Proofs.Analysis.Resolution
import Packrat.Proofs.Notation.Statements
import Packrat.Proofs.Simulation.Programs
import Packrat.Regex.Search

/-
**The text kept for a definition.**

A rule keeps the slice of the description that it was written in, without the blanks around it.
Behind the last token of a statement stand blanks and comments only, of which the slice keeps a part;
so the slice is spelled as the statement is, and reading it gives the statement again.

Main definitions:

* `Packrat.EndsSolid` — what is taken ends in a character that is no blank;
* `Packrat.Description.Covered` — a phrase that is a whole description covers its text.

Main results:

* `Packrat.Spells.endsSolid` — phrases end in a character that is no blank;
* `Packrat.Parser.definition_parses` — the text kept for a rule is the statement it was made from.
-/

set_option autoImplicit false

namespace Packrat

open Scan

/-! ### The last character of a token -/

/-- What is taken ends in a character that is no blank. -/
def EndsSolid (cs rest : List Char) : Prop :=
  ∃ w c, cs = w ++ c :: rest ∧ Text.isBlank c = false

namespace EndsSolid

variable {cs mid rest : List Char}

theorem cons {c : Char} (solid : Text.isBlank c = false) (rest : List Char) :
    EndsSolid (c :: rest) rest := ⟨[], c, rfl, solid⟩

theorem earlier (h : EndsSolid mid rest) (before : mid <:+ cs) : EndsSolid cs rest := by
  obtain ⟨w, c, rfl, solid⟩ := h
  obtain ⟨v, rfl⟩ := before
  exact ⟨v ++ w, c, by rw [List.append_assoc], solid⟩

theorem closing {c : Char} (h : skip cs = c :: rest) (solid : Text.isBlank c = false) :
    EndsSolid cs rest := ((cons solid rest).earlier (h ▸ List.suffix_refl _)).earlier (skip_suffix cs)

theorem of_append {word : List Char} (filled : word ≠ [])
    (solid : ∀ c ∈ word, Text.isBlank c = false) (rest : List Char) :
    EndsSolid (word ++ rest) rest := by
  refine ⟨word.dropLast, word.getLast filled, ?_, solid _ (List.getLast_mem filled)⟩
  rw [List.append_cons, List.dropLast_append_getLast]

end EndsSolid

theorem CaseFlagAt.endsSolid {mid rest : List Char} {flag : Bool} {c : Char}
    (h : CaseFlagAt mid flag rest) (solid : Text.isBlank c = false) : EndsSolid (c :: mid) rest := by
  rw [h.split]
  cases flag with
  | true => exact ⟨[c], 'i', rfl, by decide⟩
  | false => exact .cons solid rest

theorem TextLiteral.endsSolid {cs rest : List Char} {value : String} {ignoreCase binary : Bool}
    (h : TextLiteral cs value ignoreCase binary rest) : EndsSolid cs rest := by
  obtain ⟨mark, enclosed, flag⟩ := h
  exact (flag.endsSolid (by rcases mark with rfl | rfl <;> decide)).earlier (List.suffix_append _ _)

theorem PatternLiteral.endsSolid {cs rest : List Char} {pattern : String} {ignoreCase binary : Bool}
    (h : PatternLiteral cs pattern ignoreCase binary rest) : EndsSolid cs rest := by
  obtain ⟨enclosed, filled, flag⟩ := h
  exact (flag.endsSolid (by decide)).earlier (List.suffix_append _ _)

theorem HostLiteral.endsSolid {cs rest : List Char} {source : String}
    (h : HostLiteral cs source rest) : EndsSolid cs rest := by
  obtain ⟨plain⟩ := h
  exact (EndsSolid.cons (by decide) _).earlier (List.suffix_append _ _)

theorem NameAt.endsSolid {cs rest : List Char} {name : String} (h : NameAt cs name rest) :
    EndsSolid cs rest := by
  rw [h.split]
  exact .of_append h.isName.filled (fun c mem => isBlank_of_isWordChar (h.isName.isWord c mem)) rest

theorem Numeral.endsSolid {limit n : Nat} {cs rest : List Char} (h : Numeral limit cs n rest) :
    EndsSolid cs rest := by
  obtain ⟨filled, isDigit, -, -⟩ := h
  refine .of_append filled (fun c mem => isBlank_of_isWordChar ?_) rest
  simp [isWordChar, Char.isAlphanum, isDigit c mem]

theorem SuffixAt.endsSolid {cs rest : List Char} {suffix : Phrase.Suffix}
    (h : SuffixAt cs suffix rest) : EndsSolid cs rest := by
  cases h with
  | opt | many | some => exact .cons (by decide) rest
  | exact bound =>
    exact (EndsSolid.cons (by decide) rest).earlier <| bound.suffix.trans <|
      (skip_suffix _).trans (List.suffix_cons _ _)
  | between lower upper =>
    exact (EndsSolid.cons (by decide) rest).earlier <| upper.suffix.trans <|
      (skip_suffix _).trans <| (List.suffix_cons _ _).trans <| lower.suffix.trans <|
      (skip_suffix _).trans (List.suffix_cons _ _)

theorem Suffixed.endsSolid {cs r rest : List Char} {suffixes : List Phrase.Suffix}
    (h : Suffixed r suffixes rest) (first : EndsSolid cs r) : EndsSolid cs rest := by
  induction h with
  | nil => exact first
  | @cons r t rest _ _ taken later ih =>
    obtain ⟨w, c, rfl, -⟩ := first
    exact ih <| taken.endsSolid.earlier <| (skip_suffix _).trans <|
      (List.suffix_cons c r).trans (List.suffix_append _ _)

theorem Linked.endsSolid {level : Nat} {cs r rest : List Char} {links : List Link}
    (h : Linked level r links rest) (first : EndsSolid cs r)
    (operands : ∀ link ∈ links, EndsSolid link.text link.rest) : EndsSolid cs rest := by
  induction h with
  | nil => exact first
  | @cons r t rest link links operator tight begins later ih =>
    refine ih ?_ fun l mem => operands l (by simp [mem])
    obtain ⟨w, c, rfl, -⟩ := first
    exact (operands link (by simp)).earlier <| (begins ▸ skip_suffix t).trans <|
      operator.consumes.skip.suffix.trans <| (List.suffix_cons c r).trans (List.suffix_append _ _)

/-- Phrases end in a character that is no blank. -/
theorem Spells.endsSolid {n : Nat} {cs rest : List Char} {p : Phrase} (h : Spells n cs rest p) :
    EndsSolid cs rest := by
  induction h with
  | bound binds named equals value' inside body' greedy ihValue ihBody =>
    refine ihBody.earlier <| (skip_suffix _).trans <|
      (inside.consumes (by decide)).skip.suffix.trans <| value'.consumes.skip.suffix.trans <|
      (Consumes.of_eq_cons equals).skip.suffix.trans <| named.consumes.skip.suffix.trans
      (binds.consumes (by decide)).suffix
  | call named listed labelled args ih =>
    refine (EndsSolid.cons (by decide) _).earlier <| (listed.closes fun i mem =>
      (args i mem).consumes.suffix.trans (labelled i mem).suffix).trans <| (skip_suffix _).trans <|
      (List.suffix_cons _ _).trans named.consumes.suffix
  | sequence listed plain parts ih =>
    exact (EndsSolid.cons (by decide) _).earlier <| (listed.closes fun i mem =>
      (plain i mem).2 ▸ (parts i mem).consumes.suffix).trans <| (skip_suffix _).trans
      (List.suffix_cons _ _)
  | group inner closes ih =>
    exact (EndsSolid.closing closes (by decide)).earlier <| inner.consumes.suffix.trans <|
      (skip_suffix _).trans (List.suffix_cons _ _)
  | str literal => exact literal.endsSolid
  | regex literal => exact literal.endsSolid
  | host literal => exact literal.endsSolid
  | int numeral => exact numeral.endsSolid
  | ref named => exact named.endsSolid
  | suffixed first later ih => exact later.endsSolid ih
  | chain first linked operands ihFirst ihOperands =>
    exact linked.endsSolid ihFirst ihOperands

/-! ### Slices of a text -/

/-- What precedes a text behind its beginning is blank if all of it is. -/
theorem Scan.skip_eq_nil_of_append {g g' : List Char} (h : skip (g ++ g') = []) : skip g = [] := by
  by_contra filled
  rw [skip_append filled] at h
  exact filled (List.append_eq_nil_iff.1 h).1

/-- Of a text between characters that are no blanks, only blanks behind it are trimmed off. -/
theorem Text.trimBoth_append {w z : List Char} (first : ∀ c, w.head? = some c → isBlank c = false)
    (last : EndsSolid w []) : ∃ g g', z = g ++ g' ∧ trimBoth isBlank (w ++ z) = w ++ g := by
  obtain ⟨v, c, rfl, solid⟩ := last
  have front : (v ++ [c] ++ z).dropWhile isBlank = v ++ [c] ++ z := by
    cases v with
    | nil => simp [solid]
    | cons d v => simp [first d rfl]
  have back : (v ++ [c]).reverse.dropWhile isBlank = (v ++ [c]).reverse := by
    simp [solid]
  refine ⟨(z.reverse.dropWhile isBlank).reverse, (z.reverse.takeWhile isBlank).reverse, ?_, ?_⟩
  · rw [← List.reverse_append, List.takeWhile_append_dropWhile, List.reverse_reverse]
  · rw [trimBoth, front, List.reverse_append, List.dropWhile_append, back]
    split
    · next none => simp [List.isEmpty_iff.1 none]
    · simp

theorem Text.takeBytes_zero (cs : List Char) : takeBytes 0 cs = [] := by
  cases cs with
  | nil => rfl
  | cons c cs =>
    have := c.utf8Size_pos
    simp [takeBytes, Nat.pos_iff_ne_zero.1 this]

theorem Text.dropBytes_zero (cs : List Char) : dropBytes 0 cs = cs := by
  have := takeBytes_append_dropBytes 0 cs
  rwa [takeBytes_zero, List.nil_append] at this

theorem Text.dropBytes_byteLength (cs rest : List Char) :
    dropBytes (byteLength cs) (cs ++ rest) = rest := by
  induction cs with
  | nil => exact dropBytes_zero rest
  | cons c cs ih => simp [byteLength, dropBytes, ih]

theorem Text.takeBytes_byteLength (cs rest : List Char) :
    takeBytes (byteLength cs) (cs ++ rest) = cs := by
  have := takeBytes_append_dropBytes (byteLength cs) (cs ++ rest)
  rw [dropBytes_byteLength] at this
  exact List.append_cancel_right this

/-- The text of a span, by what precedes it and what follows it. -/
theorem Span.textOf_eq {text : String} {pre mid post : List Char} (split : text.toList = pre ++ mid ++ post)
    {span : Span} (start : span.start = byteLength pre)
    (stop : span.stop = byteLength pre + byteLength mid) :
    span.textOf text = String.ofList (Text.trimBoth Text.isBlank mid) := by
  rw [Span.textOf, Text.trim, Text.bytesBetween, start, stop, split, Nat.add_sub_cancel_left,
    List.append_assoc, Text.dropBytes_byteLength, Text.takeBytes_byteLength, String.toList_ofList]

/-- The cursor at the beginning of a text. -/
def Scan.Cursor.ofText (text : String) : Cursor := ⟨text.toList, 0, none⟩

/-- What precedes a cursor in a text. -/
theorem Scan.Cursor.Before.split {text : String} {c : Cursor} (h : (Cursor.ofText text).Before c) :
    ∃ pre, text.toList = pre ++ c.rest ∧ byteLength pre = c.offset := by
  obtain ⟨pre, split⟩ := h.suffix
  have offset := h.offset
  refine ⟨pre, split.symm, ?_⟩
  change pre ++ c.rest = text.toList at split
  change 0 + byteLength text.toList = _ at offset
  rw [← split, byteLength_append] at offset
  omega

/-- The slice of what is taken and of blanks behind it is spelled as what is taken, up to blanks that
are cut off. -/
theorem slice_eq {cs rest mid post gap : List Char} (whole : cs = mid ++ post)
    (first : ∀ c, cs.head? = some c → Text.isBlank c = false) (ends : EndsSolid cs rest)
    (left : rest = gap ++ post) (blank : skip gap = []) :
    ∃ g m, rest = g ++ m ∧ skip g = [] ∧ cs = Text.trimBoth Text.isBlank mid ++ m := by
  obtain ⟨w, c, rfl, solid⟩ := ends
  obtain rfl : mid = w ++ [c] ++ gap := by
    rw [left, ← List.cons_append, ← List.append_assoc] at whole
    simpa using (List.append_cancel_right whole).symm
  obtain ⟨g, g', rfl, trimmed⟩ := Text.trimBoth_append (w := w ++ [c]) (z := gap)
    (fun d head => first d (by simpa using head?_append_some head rest)) ⟨w, c, rfl, solid⟩
  exact ⟨g, g' ++ post, by rw [left, List.append_assoc], skip_eq_nil_of_append blank, by
    rw [trimmed, left]
    simp⟩

theorem Scan.exists_blanks (cs : List Char) : ∃ gap, cs = gap ++ skip cs ∧ skip gap = [] := by
  have split := List.take_append_drop (blankLength false cs) cs
  refine ⟨cs.take (blankLength false cs), split.symm, List.drop_eq_nil_of_le ?_⟩
  have length := blankLength_append false (cs.take (blankLength false cs))
    (cs.drop (blankLength false cs))
  rw [split] at length
  rw [List.length_take] at *
  omega

theorem Rests.exists_blanks {rest t : List Char} (h : Rests rest t) :
    ∃ gap, rest = gap ++ t ∧ skip gap = [] := by
  rcases h with rfl | rfl
  · exact ⟨[], rfl, rfl⟩
  · exact Scan.exists_blanks rest

/-! ### Texts that are one statement -/

/-- A statement is read from a whole text, up to its spans. -/
def Statement.SpelledBy (s : Statement) (source : String) : Prop :=
  ∃ s', Description.parse source = .ok (.statements [s']) ∧ s'.bare = s.bare

theorem refuses_statement_nil : Refuses readStatement [] := by
  have noWord : Refuses (keyword "class") [] := .of_run fun c x c' hc run => by
    obtain ⟨t, word, -⟩ := run_keyword_some run
    exact (hc ▸ word.consumes (by decide)).filled rfl
  have noName : Refuses (bareIdentifier descriptionKeywords) [] := .of_run fun c x c' hc run =>
    (hc ▸ (run_identifier_some run).1.consumes).filled rfl
  have noFlag : Yields readIgnored [] false [] := yields_ignored (.no []) (by decide)
  have noHead : Refuses readRuleHead [] := .orElse noName.bind.bind noName.token.bind
  refine .orElse (refuses_spanned (refuses_literal (by decide)).bind).bind <|
    .orElse (refuses_spanned (.bind_next noFlag ?_)).bind
      (refuses_spanned (.bind_next noFlag ?_)).bind
  · rintro _ _ ⟨-, rfl⟩
    exact noWord.bind
  · rintro _ _ ⟨-, rfl⟩
    exact noHead.bind

/-- The reader of statements, as many as there are. -/
def readStatements : Reader Description := do
  let statements ← atLeastOne (token readStatement)
  pure (.statements statements)

/-- The reader of descriptions. -/
def readDescription : Reader Description := blanks *> (readStatements <|> (do
  let body ← token readWholePhrase
  pure (.phrase body)))

/-- A text is a description if the reader of descriptions takes it whole. -/
theorem parse_eq_ok {text : String} {d : Description} :
    Description.parse text = .ok d ↔ (Text.trim text).isEmpty = false ∧
      ∃ c, readDescription.run (.ofText text) = some (d, c) ∧ c.rest = [] ∧ c.misfit? = none := by
  have read : Description.read? text = readAll readDescription text := rfl
  rw [Description.parse, read, readAll]
  change _ ↔ _ ∧ ∃ c, readDescription.run ⟨text.toList, 0, none⟩ = _ ∧ _
  cases (Text.trim text).isEmpty
  · cases readDescription.run ⟨text.toList, 0, none⟩ with
    | none => simp
    | some out =>
      obtain ⟨e, c⟩ := out
      cases left : c.rest <;> cases misfit : c.misfit? <;> simp [left, misfit]
  · simp

theorem Opens.visible {x : List Char} (h : Opens x) : (Text.trim (String.ofList x)).isEmpty = false := by
  obtain ⟨c, head, word⟩ := h.begins
  obtain ⟨t, rfl⟩ := List.head?_eq_some_iff.1 head
  have solid := isBlank_of_isWordChar word
  obtain ⟨g, g', -, trimmed⟩ := Text.trimBoth_append (w := [c]) (z := t)
    (fun d head' => by obtain rfl := Option.some.inj head'; exact solid) ⟨[], c, rfl, solid⟩
  rw [Text.trim, String.toList_ofList, ← List.singleton_append, trimmed]
  exact Bool.eq_false_iff.2 fun empty => by simp [String.isEmpty_iff] at empty

/-- A text that begins with a word and that the reader of statements takes whole is one statement. -/
theorem parses_of_reads {P : Statement → Prop} {x : List Char} (opens : Opens x)
    (h : Reads readStatement x fun s t => P s ∧ skip t = []) :
    ∃ s, Description.parse (String.ofList x) = .ok (.statements [s]) ∧ P s := by
  have read : Reads readDescription x fun d t => ∃ s, d = .statements [s] ∧ P s ∧ t = [] := by
    have first : Reads (token readStatement) x fun s t => P s ∧ t = [] := .token h
    have list : Reads (atLeastOne (token readStatement)) x fun ss t =>
        ∃ s, ss = [s] ∧ P s ∧ t = [] := by
      refine first.bind ?_
      rintro s' _ ⟨same, rfl⟩
      have last : ReadsOn (token readStatement) [] fun ss t => ss = [] ∧ t = [] :=
        .nil refuses_statement_nil.token ⟨rfl, rfl⟩
      refine last.many.bind ?_
      rintro _ _ ⟨rfl, rfl⟩
      exact .pure ⟨s', rfl, same, rfl⟩
    refine .behind (opens.skip_eq.symm ▸ .orElse_left (list.bind ?_))
    rintro ss t ⟨s', rfl, same, left⟩
    exact .pure ⟨s', rfl, same, left⟩
  obtain ⟨_, c, run, ⟨s', rfl, same, left⟩, misfit⟩ :=
    read (.ofText (String.ofList x)) String.toList_ofList
  exact ⟨s', parse_eq_ok.2 ⟨opens.visible, c, run, left, misfit⟩, same⟩

theorem Follow.of_blank {n : Nat} {cs : List Char} (h : skip cs = []) : Follow n cs :=
  .of_head fun c head => by simp [h] at head

section Slices

variable {cs rest mid post : List Char} {r : RuleStatement} {k : ClassStatement}

theorem RuleAt.endsSolid (h : RuleAt cs r rest) : EndsSolid cs rest := by
  obtain ⟨flag, head, body⟩ := h
  exact body.endsSolid.earlier <| (skip_suffix _).trans <| (List.suffix_cons _ _).trans <|
    head.suffix.trans flag.suffix

theorem Opens.solid (h : Opens cs) : ∀ c, cs.head? = some c → Text.isBlank c = false := by
  obtain ⟨d, head, word⟩ := h.begins
  intro c head'
  obtain rfl : d = c := Option.some.inj (head.symm.trans head')
  exact isBlank_of_isWordChar word

theorem RuleAt.spelledBy_whole (h : RuleAt cs r.bare rest) (blank : skip rest = []) :
    (Statement.rule r).SpelledBy (String.ofList cs) :=
  parses_of_reads h.opens ((h.reads (.of_blank blank)).mono fun _ _ out =>
    ⟨out.1, out.2.skip_eq.trans blank⟩)

/-- The definition of a rule, cut off behind its last token, is that definition. -/
theorem RuleAt.spelledBy (h : RuleAt cs r.bare rest) (whole : cs = mid ++ post)
    (rests : Rests rest post) :
    (Statement.rule r).SpelledBy (String.ofList (Text.trimBoth Text.isBlank mid)) := by
  obtain ⟨gap, left, blank⟩ := rests.exists_blanks
  obtain ⟨g, m, rfl, blank', split⟩ := slice_eq whole h.opens.solid h.endsSolid left blank
  obtain ⟨x, same, slice⟩ := h.cut (.of_blank blank')
  obtain rfl := List.append_cancel_right (split.symm.trans same)
  exact slice.spelledBy_whole blank'

/-- The definition of a class, cut off behind its last token, is that definition. -/
theorem ClassAt.spelledBy (h : ClassAt cs k.bare rest) (whole : cs = mid ++ rest) :
    (Statement.cls k).SpelledBy (String.ofList (Text.trimBoth Text.isBlank mid)) := by
  obtain ⟨g, m, rfl, blank, split⟩ := slice_eq whole h.opens.solid
    ((EndsSolid.cons (by decide) _).earlier h.closes) (List.nil_append rest).symm rfl
  obtain ⟨x, same, slice⟩ := h.cut
  obtain rfl := List.append_cancel_right (split.symm.trans same)
  exact parses_of_reads slice.opens (slice.reads.mono fun s t out => ⟨out.1, out.2 ▸ blank⟩)

end Slices

/-! ### Statements of a description -/

/-- The text of what was read from one cursor to another. -/
theorem Span.textOf_run {text : String} {c c' : Cursor} (of : (Cursor.ofText text).Before c)
    (before : c.Before c') : ∃ mid, c.rest = mid ++ c'.rest ∧
      Span.textOf ⟨c.offset, c'.offset⟩ text = String.ofList (Text.trimBoth Text.isBlank mid) := by
  obtain ⟨pre, split, start⟩ := of.split
  obtain ⟨mid, whole⟩ := before.suffix
  have parts : text.toList = pre ++ mid ++ c'.rest := by rw [split, List.append_assoc, whole]
  refine ⟨mid, whole.symm, Span.textOf_eq parts start.symm ?_⟩
  have offset := before.offset
  rw [← whole, byteLength_append] at offset
  rw [start]
  dsimp only
  omega

/-- The text that a definition keeps of its statement. -/
def Statement.source (text : String) : Statement → String
  | .rule r =>
    if r.span = r.body.span then r.name ++ " = " ++ r.span.textOf text else r.span.textOf text
  | .cls k => k.span.textOf text
  | .hostSection _ _ => ""

/-- A statement that was read is spelled by the text that is kept of it. -/
theorem spelledBy_of_run {text : String} {c c' : Cursor} {s : Statement}
    (of : (Cursor.ofText text).Before c) (before : c.Before c')
    (h : readStatement.run c = some (s, c')) (fits : c'.misfit? = none) (ends : Ends c'.rest)
    (defines : s.name?.isSome = true) : s.SpelledBy (s.source text) := by
  obtain ⟨mid, whole, slice⟩ := Span.textOf_run of before
  rcases run_orElse_some.1 h with h | ⟨-, h⟩
  · obtain ⟨⟨span, source⟩, c₁, -, out⟩ := run_bind_some.1 h
    obtain ⟨rfl, -⟩ := run_pure_some.1 out
    cases defines
  rcases run_orElse_some.1 h with h | ⟨-, h⟩
  · obtain ⟨k, rfl, span, spelled⟩ := classAt_of_run h fits
    rw [Statement.source, span, slice]
    exact spelled.spelledBy whole
  · obtain ⟨r, rest, rfl, span, spelled, rests, other⟩ := ruleAt_of_run h fits (.ends ends)
    rw [Statement.source, if_neg other, span, slice]
    exact spelled.spelledBy whole rests

theorem Scan.Steady.statement : Steady readStatement :=
  .orElse (((literal _).bind fun _ => (lexeme _).bind fun _ => (literal _).bind fun _ =>
    pure _).spanned.bind fun _ => pure _) <|
  .orElse ((ignored.bind fun _ => (keyword _).bind fun _ => identifier.bind fun _ =>
    params.attempt.bind fun _ => (symbol _).bind fun _ => field.token.many.bind fun _ =>
    (literal _).bind fun _ => pure _).spanned.bind fun _ => pure _)
  ((ignored.bind fun _ => ruleHead.bind fun _ => (symbol _).bind fun _ => wholePhrase.bind fun _ =>
    pure _).spanned.bind fun _ => pure _)

theorem Ends.of_blank {cs : List Char} (h : skip cs = []) : Ends cs :=
  ⟨.of_blank h, fun c head => by simp [h] at head⟩

/-- What holds of each statement that is read in a text, holds of all that are read up to its end. -/
theorem each_of_steps {text : String} {P : Statement → Prop}
    (one : ∀ c c' s, (Cursor.ofText text).Before c → c.Before c' → readStatement.run c = some (s, c') →
      c'.misfit? = none → Ends c'.rest → P s)
    {c c' : Cursor} {ss : List Statement} (of : (Cursor.ofText text).Before c)
    (steps : Steps (token readStatement) c ss c') (whole : c'.rest = []) (fits : c'.misfit? = none) :
    ∀ s ∈ ss, P s := by
  induction steps with
  | nil => simp
  | @cons c c₁ c' s ss first later ih =>
    obtain ⟨d, read, left, misfit⟩ := run_token_some first
    have fits₁ := (later.before Steady.statement.token).misfit fits
    -- Behind a statement stands the next one, or nothing.
    have ends : Ends d.rest := by
      cases later with
      | nil => exact .of_blank (left.symm.trans whole)
      | @cons _ c₂ _ _ _ next rest =>
        obtain ⟨d', read', -, misfit'⟩ := run_token_some next
        have fits₂ := (rest.before Steady.statement.token).misfit fits
        exact ends_of_statement read' (misfit' ▸ fits₂) left
    have here := one c d s of (Steady.statement c s d read) read (misfit ▸ fits₁) ends
    have others := ih (of.trans (Steady.statement.token c s c₁ first)) whole fits
    intro s' mem
    rcases List.mem_cons.1 mem with rfl | mem
    · exact here
    · exact others s' mem

/-! ### Phrases that are descriptions -/

/-- A phrase begins with a word, a bracket or the mark of a literal. -/
theorem Spells.begins {n : Nat} {cs rest : List Char} {p : Phrase} (h : Spells n cs rest p) :
    ∃ c, cs.head? = some c ∧ (isWordChar c = true ∨ c ∈ ['[', '(', '"', '\'', '/', backtick]) := by
  have letter (c : Char) (flag : Bool) (word : List Char)
      (mark : c ∈ ['[', '(', '"', '\'', '/', backtick]) :
      ∃ d, (flagLetter 'b' flag ++ c :: word).head? = some d ∧
        (isWordChar d = true ∨ d ∈ ['[', '(', '"', '\'', '/', backtick]) := by
    cases flag with
    | true => exact ⟨'b', rfl, .inl (by decide)⟩
    | false => exact ⟨c, rfl, .inr mark⟩
  have word {cs : List Char} (opens : Opens cs) :
      ∃ c, cs.head? = some c ∧ (isWordChar c = true ∨ c ∈ ['[', '(', '"', '\'', '/', backtick]) := by
    obtain ⟨c, head, word⟩ := opens.begins
    exact ⟨c, head, .inl word⟩
  induction h with
  | bound binds => exact word (binds.opens (by decide) (by decide) (by decide))
  | call named => exact word named.opens
  | sequence | group => exact ⟨_, rfl, .inr (by decide)⟩
  | str literal =>
    obtain ⟨mark, -, -⟩ := literal
    rw [List.append_assoc, List.cons_append]
    exact letter _ _ _ (by rcases mark with rfl | rfl <;> decide)
  | regex literal =>
    obtain ⟨-, -, -⟩ := literal
    rw [List.append_assoc, List.cons_append]
    exact letter _ _ _ (by decide)
  | host literal =>
    obtain ⟨-⟩ := literal
    exact ⟨backtick, rfl, .inr (by decide)⟩
  | int numeral =>
    obtain ⟨filled, isDigit, -, -⟩ := numeral
    obtain ⟨d, w, rfl⟩ := List.exists_cons_of_ne_nil filled
    exact ⟨d, rfl, .inl (by simp [isWordChar, Char.isAlphanum, isDigit d (by simp)])⟩
  | ref named => exact word named.opens
  | suffixed _ _ ih => exact ih
  | chain _ _ _ ih => exact ih

/-- A phrase begins with a character that is no blank. -/
theorem Spells.startsSolid {n : Nat} {cs rest : List Char} {p : Phrase} (h : Spells n cs rest p) :
    ∀ c, cs.head? = some c → Text.isBlank c = false := by
  obtain ⟨c, head, word | mark⟩ := h.begins
  · rintro d head'
    obtain rfl : c = d := Option.some.inj (head.symm.trans head')
    exact isBlank_of_isWordChar word
  · rintro d head'
    obtain rfl : c = d := Option.some.inj (head.symm.trans head')
    simp only [List.mem_cons, List.not_mem_nil, or_false] at mark
    rcases mark with rfl | rfl | rfl | rfl | rfl | rfl <;> decide

/-- A phrase begins with no blank and no comment. -/
theorem Spells.skip_eq {n : Nat} {cs rest : List Char} {p : Phrase} (h : Spells n cs rest p) :
    skip cs = cs := by
  obtain ⟨c, head, begins⟩ := h.begins
  have solid := h.startsSolid c head
  obtain ⟨t, rfl⟩ := List.head?_eq_some_iff.1 head
  refine skip_cons ⟨Bool.eq_false_iff.2 fun space => ?_, ?_⟩
  · simp only [isSpace, Bool.or_eq_true, beq_iff_eq] at space
    rcases space with ((rfl | rfl) | rfl) | rfl <;> exact absurd solid (by decide)
  · rintro rfl
    rcases begins with word | mark
    · exact absurd word (by decide)
    · exact absurd mark (by decide)

/-- A description that is a phrase covers its text: nothing but blanks and comments precedes or
follows its span. -/
def Description.Covered (text : String) : Description → Prop
  | .statements _ => True
  | .phrase body => body.span.start + byteLength (skip text.toList) = byteLength text.toList ∧
      skip (Text.dropBytes body.span.stop text.toList) = []

instance (text : String) (d : Description) : Decidable (d.Covered text) :=
  match d with
  | .statements _ => inferInstanceAs (Decidable True)
  | .phrase _ => inferInstanceAs (Decidable (_ ∧ _))

/-- The definition of the rule `start` by a phrase. -/
theorem RuleAt.start {x rest : List Char} {p : Phrase} (h : Spells 6 x rest p) :
    RuleAt ("start = ".toList ++ x) ⟨"start", none, p, false, .nowhere⟩ rest := by
  have head : HeadAt ("start = ".toList ++ x) "start" none ('=' :: ' ' :: x) :=
    .plain (r := ' ' :: '=' :: ' ' :: x) ⟨rfl, ⟨List.all_eq_true.1 (by decide), by decide,
      by rintro c ⟨⟩; decide, by decide⟩, fun c head => by obtain rfl := Option.some.inj head; decide⟩
  refine .intro (.no _) head ?_
  rwa [skip_blank, h.skip_eq]

/-- The rule around a phrase that is a description. -/
def Phrase.startRule (body : Phrase) : RuleStatement := ⟨"start", none, body, false, body.span⟩

theorem startRule_spelledBy {text : String} {body : Phrase} {e : Cursor}
    (run : readWholePhrase.run (Cursor.ofText text).behind = some (body, e))
    (whole : skip e.rest = []) (fits : e.misfit? = none) (covered : (Description.phrase body).Covered text) :
    (Statement.rule body.startRule).SpelledBy ("start = " ++ body.span.textOf text) := by
  obtain ⟨start, stop⟩ := covered
  obtain ⟨rest, rests, spells, y, total, inside, within, closes⟩ :=
    spells_of_run _ _ _ run fits (.ends (.of_blank whole))
  rw [Cursor.behind_rest] at spells inside
  obtain ⟨gap, split, -⟩ := exists_blanks text.toList
  obtain ⟨mid, slice⟩ := inside
  have parts : text.toList = gap ++ mid ++ y := by
    rw [List.append_assoc, slice]
    exact split
  -- The span begins behind the blanks and stops where only blanks follow.
  have begins : body.span.start = byteLength gap := by
    have length := congrArg byteLength split
    rw [byteLength_append] at length
    omega
  have offset := (Cursor.ofText text).before_behind.offset
  have stops : body.span.stop = byteLength gap + byteLength mid := by
    have length := congrArg byteLength parts
    rw [byteLength_append, byteLength_append] at length
    rw [← offset] at total
    change _ = 0 + byteLength text.toList at total
    omega
  rw [stops, ← byteLength_append, parts, Text.dropBytes_byteLength] at stop
  have left : Rests rest y := closes.resolve_right fun ⟨t, paren⟩ => by simp [stop] at paren
  obtain ⟨gap', rest_eq, blank⟩ := left.exists_blanks
  obtain ⟨g, m, rfl, blank', slice'⟩ :=
    slice_eq slice.symm spells.startsSolid spells.endsSolid rest_eq blank
  have textOf := Span.textOf_eq parts begins stops
  generalize Text.trimBoth Text.isBlank mid = x at slice' textOf
  obtain ⟨x', same, body'⟩ := spells.cut (.of_blank blank')
  obtain rfl := List.append_cancel_right (slice'.symm.trans same)
  have rule : RuleAt ("start = ".toList ++ x) body.startRule.bare g := .start body'
  rw [textOf, ← String.ofList_toList (s := "start = "), ← String.ofList_append]
  exact rule.spelledBy_whole blank'

/-- What was read of a description: statements up to the end of the text, or a phrase. -/
theorem Description.run_of_parse {text : String} {description : Description}
    (read : Description.parse text = .ok description) :
    (∃ ss c, description = .statements ss ∧
      Steps (token readStatement) (Cursor.ofText text).behind ss c ∧ c.rest = [] ∧ c.misfit? = none) ∨
    ∃ body e, description = .phrase body ∧
      readWholePhrase.run (Cursor.ofText text).behind = some (body, e) ∧ skip e.rest = [] ∧
      e.misfit? = none := by
  obtain ⟨-, c, run, whole, fits⟩ := parse_eq_ok.1 read
  rw [readDescription, run_blanks_seqRight] at run
  rcases run_orElse_some.1 run with run | ⟨-, run⟩
  · obtain ⟨ss, c₁, list, out⟩ := run_bind_some.1 run
    obtain ⟨rfl, rfl⟩ := run_pure_some.1 out
    obtain ⟨s, c₂, first, h₂⟩ := run_bind_some.1 list
    obtain ⟨others, c₃, later, out⟩ := run_bind_some.1 h₂
    obtain ⟨rfl, rfl⟩ := run_pure_some.1 out
    exact .inl ⟨_, _, rfl, .cons first (run_many_some later), whole, fits⟩
  · obtain ⟨body, c₁, phrase, out⟩ := run_bind_some.1 run
    obtain ⟨rfl, rfl⟩ := run_pure_some.1 out
    obtain ⟨e, phrase, left, misfit⟩ := run_token_some phrase
    exact .inr ⟨_, e, rfl, phrase, left.symm.trans whole, misfit ▸ fits⟩

/-- Every statement that defines something is spelled by the text that is kept for it. -/
theorem Description.spelledBy_source {text : String} {description : Description}
    (read : Description.parse text = .ok description) (covered : description.Covered text) :
    ∀ s ∈ description.toStatements, s.name?.isSome = true → s.SpelledBy (s.source text) := by
  have of := (Cursor.ofText text).before_behind
  rcases run_of_parse read with ⟨ss, c, rfl, steps, whole, fits⟩ | ⟨body, e, rfl, run, whole, fits⟩
  · exact each_of_steps (fun c c' s of before run fits ends defines =>
      spelledBy_of_run of before run fits ends defines) of steps whole fits
  · intro s mem _
    obtain rfl := List.mem_singleton.1 mem
    have spelled := startRule_spelledBy run whole fits covered
    have source : (Statement.rule body.startRule).source text = "start = " ++ body.span.textOf text :=
      if_pos rfl
    exact source.symm ▸ spelled

/-! ### From statements to rules -/

/-- What is kept of definitions: their names, their texts, and whether they are synthetic. -/
def Definition.kept (d : Definition) : String × String × Bool := (d.name, d.source, d.synthetic)

/-- What is kept of a statement that defines something. -/
def Statement.kept? (text : String) (s : Statement) : Option (String × String × Bool) :=
  s.name?.map fun name => (name, s.source text, false)

theorem kept_of_lowerStatement {rules : List String} {text : String} {g out : Grammar}
    {s : Statement} (h : lowerStatement rules text g s = .ok out) :
    out.definitions.map (·.kept) =
      g.definitions.map (·.kept) ++ (s.kept? text).toList := by
  cases s with
  | rule r =>
    obtain ⟨d, lowered, h⟩ := Except.bind_eq_ok.1 h
    obtain rfl := Except.pure_eq_ok.1 h
    obtain ⟨body, -, h⟩ := Except.bind_eq_ok.1 lowered
    obtain rfl := Except.pure_eq_ok.1 h
    rw [List.map_append]
    rfl
  | cls k =>
    obtain ⟨d, lowered, h⟩ := Except.bind_eq_ok.1 h
    obtain rfl := Except.pure_eq_ok.1 h
    obtain ⟨items, -, h⟩ := Except.bind_eq_ok.1 lowered
    obtain rfl := Except.pure_eq_ok.1 h
    rw [List.map_append]
    rfl
  | hostSection source span =>
    obtain ⟨_, -, h⟩ := Except.bind_eq_ok.1 h
    obtain rfl := Except.pure_eq_ok.1 h
    simp [Statement.kept?, Statement.name?]

theorem kept_of_foldlM {rules : List String} {text : String} {ss : List Statement} {g out : Grammar}
    (h : ss.foldlM (lowerStatement rules text) g = .ok out) :
    out.definitions.map (·.kept) =
      g.definitions.map (·.kept) ++ ss.filterMap (·.kept? text) := by
  induction ss generalizing g with
  | nil =>
    obtain rfl := Except.pure_eq_ok.1 h
    simp
  | cons s ss ih =>
    rw [List.foldlM_cons] at h
    obtain ⟨next, first, h⟩ := Except.bind_eq_ok.1 h
    rw [ih h, kept_of_lowerStatement first, List.append_assoc]
    cases kept : s.kept? text <;> simp [kept]

/-- Lowering keeps the statements that define something, one for each, and adds synthetic ones. -/
theorem kept_of_lower {description : Description} {text : String} {g : Grammar}
    (h : description.lower text = .ok g) : ∃ ds : List Definition, (∀ d ∈ ds, d.synthetic = true) ∧
      g.definitions.map (·.kept) =
        description.toStatements.filterMap (·.kept? text) ++ ds.map (·.kept) := by
  obtain ⟨before, folded, h⟩ := Except.bind_eq_ok.1 h
  have kept := kept_of_foldlM folded
  simp only [List.map_nil, List.nil_append] at kept
  simp only [addSkipRule] at h
  split at h
  · obtain rfl : before = g := by simpa using h
    exact ⟨[], by simp, by simpa using kept⟩
  · split at h
    · exact absurd h not_refuse_eq_ok
    · obtain rfl : _ = g := by simpa using h
      exact ⟨[skipRule (before.definitions.filter (·.ignored))], by simp [skipRule],
        by rw [List.map_append, kept]⟩

/-- Analysis keeps names and texts. -/
theorem Grammar.kept_of_analyze {natives : List String} {g out : Grammar}
    (h : g.analyze natives = .ok out) :
    out.definitions.map (·.kept) = g.definitions.map (·.kept) :=
  (Grammar.passes_of_analyze h).2.map_eq _ fun _ _ => rfl

theorem kept_of_reserve {ds : List Definition} {p p' : Pools} {rs : List RuleEntry}
    (h : (ds.mapM Definition.reserve).Adds p rs p') :
    rs.map (fun r => (r.name, r.definition, r.synthetic)) = ds.map (·.kept) := by
  induction ds generalizing p rs with
  | nil =>
    obtain ⟨rfl, rfl⟩ := Build.adds_pure.1 h
    rfl
  | cons d ds ih =>
    obtain ⟨r, p₁, rs, h₁, h₂, rfl⟩ := Build.adds_mapM_cons.1 h
    obtain ⟨rfl, -⟩ := Definition.adds_reserve h₁
    rw [List.map_cons, List.map_cons, ih h₂]
    rfl

/-- The rules of a program keep the names and texts of the definitions. -/
theorem Grammar.kept_of_compile [Regex.Engine] {g : Grammar} {maxBlocks n n' : Nat}
    {program : Program} (h : (g.compile maxBlocks).run n = .ok (program, n')) :
    program.rules.map (fun r => (r.name, r.definition, r.synthetic)) = g.definitions.map (·.kept) := by
  obtain ⟨p, emitted, -⟩ := compile_eq_ok h
  obtain ⟨rules, p₁, reserved, rest⟩ := Build.adds_bind.1 emitted
  obtain ⟨_, p₂, -, rest⟩ := Build.adds_bind.1 rest
  obtain ⟨same, -⟩ := Build.adds_pure.1 rest
  exact same ▸ kept_of_reserve reserved

/-- What a parser was built from. -/
theorem Parser.stages_of_build [Regex.Engine] {options : Options} {natives : Host.Natives}
    {text : String} {description : Description} {n n' : Nat} {p : Parser}
    (read : Description.parse text = .ok description)
    (built : (build options natives text).run n = .ok (p, n')) :
    ∃ g analyzed m, description.lower text = .ok g ∧ g.analyze (natives.map (·.1)) = .ok analyzed ∧
      (analyzed.compile options.maxBlocks).run n = .ok (p.program, m) := by
  rw [build] at built
  split at built
  case h_2 => cases built
  dsimp only at built
  rw [StateT.run_bind] at built
  obtain ⟨⟨analyzed, n₂⟩, made, built⟩ := Except.bind_eq_ok.1 built
  obtain ⟨out, found, same⟩ := Except.bind_eq_ok.1 made
  obtain ⟨rfl, rfl⟩ := Prod.mk.inj (Except.pure_eq_ok.1 same)
  dsimp only at built
  rw [StateT.run_bind] at built
  obtain ⟨⟨program, m⟩, compiled, built⟩ := Except.bind_eq_ok.1 built
  change grammarOf natives text = .ok _ at found
  obtain ⟨d, parsed, stages⟩ := Except.bind_eq_ok.1 found
  obtain rfl : description = d := Except.ok.inj (read.symm.trans parsed)
  obtain ⟨g, lowered, analysis⟩ := Except.bind_eq_ok.1 stages
  refine ⟨g, _, m, lowered, analysis, ?_⟩
  dsimp only at built
  rw [load, StateT.run_bind] at built
  obtain ⟨⟨env, n₃⟩, -, built⟩ := Except.bind_eq_ok.1 built
  dsimp only at built
  rw [StateT.run_bind] at built
  obtain ⟨⟨globals, n₄⟩, -, built⟩ := Except.bind_eq_ok.1 built
  obtain ⟨rfl, -⟩ := Prod.mk.inj (Except.pure_eq_ok.1 built)
  exact compiled

/-- **The text kept for a rule is its definition.** The rules of a parser are those of the
description's statements that define something, in their order, and each keeps a text that is read as
that statement, up to spans. -/
theorem Parser.definition_parses [Regex.Engine] {options : Options} {natives : Host.Natives}
    {text : String} {description : Description} {n n' : Nat} {p : Parser}
    (read : Description.parse text = .ok description) (covered : description.Covered text)
    (built : (build options natives text).run n = .ok (p, n')) :
    List.Forall₂ (fun s r => s.name? = some r.name ∧ s.SpelledBy r.definition)
      (description.toStatements.filter (·.name?.isSome)) p.rules := by
  obtain ⟨g, out, m, lowered, analyzed, compiled⟩ := stages_of_build read built
  obtain ⟨ds, synthetic, kept⟩ := kept_of_lower lowered
  have all := (Grammar.kept_of_compile compiled).trans <|
    (Grammar.kept_of_analyze analyzed).trans kept
  -- The rules that are not synthetic are those of the statements.
  have rules : p.rules.map (fun r => (r.name, r.definition, r.synthetic)) =
      description.toStatements.filterMap (·.kept? text) := by
    have filtered := congrArg (List.filter fun x => !x.2.2) all
    rw [List.filter_map, List.filter_append] at filtered
    have none : (ds.map (·.kept)).filter (fun x => !x.2.2) = [] := by
      simpa [Definition.kept] using synthetic
    have every : (description.toStatements.filterMap (·.kept? text)).filter (fun x => !x.2.2) =
        description.toStatements.filterMap (·.kept? text) := by
      refine List.filter_eq_self.2 fun x mem => ?_
      obtain ⟨s, -, found⟩ := List.mem_filterMap.1 mem
      obtain ⟨name, -, rfl⟩ := Option.map_eq_some_iff.1 found
      rfl
    rw [none, every, List.append_nil] at filtered
    exact filtered
  have spelled := description.spelledBy_source read covered
  generalize description.toStatements = ss at rules spelled
  generalize p.rules = rs at rules
  induction ss generalizing rs with
  | nil =>
    obtain rfl := List.map_eq_nil_iff.1 rules
    exact .nil
  | cons s ss ih =>
    have others := fun s mem => spelled s (List.mem_cons_of_mem _ mem)
    cases named : s.name? with
    | none =>
      have kept : s.kept? text = none := by rw [Statement.kept?, named]; rfl
      rw [List.filterMap_cons, kept] at rules
      rw [List.filter_cons_of_neg (by simp [named])]
      exact ih others rs rules
    | some name =>
      have kept : s.kept? text = some (name, s.source text, false) := by
        rw [Statement.kept?, named]; rfl
      rw [List.filterMap_cons, kept] at rules
      rw [List.filter_cons_of_pos (by simp [named])]
      obtain ⟨r, rs', rfl, same, rest⟩ := List.map_eq_cons_iff.1 rules
      obtain ⟨rfl, source, -⟩ : r.name = name ∧ r.definition = s.source text ∧ r.synthetic = false := by
        simpa using same
      exact .cons ⟨named, source ▸ spelled s (by simp) (by simp [named])⟩ (ih others rs' rest)

/-- Whether a text is a description that it covers and a parser can be built from. -/
def Parser.buildsCovered (text : String) : Bool :=
  match Description.parse text with
  | .ok d => decide (d.Covered text) && ((build {} [] text).run 0).isOk
  | .error _ => false

/-- A phrase with a group inside, and blanks and a comment around. -/
theorem Parser.definition_parses_phrase : ∃ description p n',
    Description.parse " \"a\" | (\"b\" | \"c\")* # end" = .ok description ∧
      description.Covered " \"a\" | (\"b\" | \"c\")* # end" ∧
      (build {} [] " \"a\" | (\"b\" | \"c\")* # end").run 0 = .ok (p, n') ∧
      List.Forall₂ (fun s r => s.name? = some r.name ∧ s.SpelledBy r.definition)
        (description.toStatements.filter (·.name?.isSome)) p.rules := by
  have builds : buildsCovered " \"a\" | (\"b\" | \"c\")* # end" = true := by decide +kernel
  rw [buildsCovered] at builds
  split at builds
  · next description read =>
    simp only [Bool.and_eq_true, decide_eq_true_eq] at builds
    obtain ⟨⟨p, n'⟩, built⟩ := Except.exists_of_isOk builds.2
    exact ⟨description, p, n', read, builds.1, built, definition_parses read builds.1 built⟩
  · cases builds

end Packrat
