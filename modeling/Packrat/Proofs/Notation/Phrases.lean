import Mathlib.Tactic.Tauto
import Packrat.Proofs.Notation.Tokens

/-
**How phrases are spelled.**

The notation of phrases as a relation between a text, the rest of it behind the phrase and the
phrase that is spelled, without spans.  The stages are those of the grammar: phrases without
operators, phrases with operators behind them, and one stage for each level of operators.  Where
the reader looks ahead to tell two notations apart, the relation says what must not follow.

Main definitions:

* `Packrat.Phrase.bare` — a phrase without its spans;
* `Packrat.Spells` — the notation of phrases;
* `Packrat.Linked`, `Packrat.Listed` — operands with operators between them, items of a list;
* `Packrat.Follow` — what may follow a phrase of a stage;
* `Packrat.Phrase.Tidy` — phrases whose names, patterns and numbers can be written.

Main results:

* `Packrat.Spells.consumes` — a phrase takes a character at least;
* `Packrat.Spells.tidy` — a phrase that is spelled is tidy.
-/

set_option autoImplicit false

namespace Packrat

open Scan

mutual

/-- A phrase without its spans. -/
def Phrase.bare : Phrase → Phrase
  | .str _ value ignoreCase binary => .str .nowhere value ignoreCase binary
  | .regex _ pattern ignoreCase binary => .regex .nowhere pattern ignoreCase binary
  | .ref _ name => .ref .nowhere name
  | .call _ callee args => .call .nowhere callee (bareArgs args)
  | .sequence _ items => .sequence .nowhere (barePhrases items)
  | .suffixed _ inner suffix => .suffixed .nowhere inner.bare suffix
  | .binary _ op left right => .binary .nowhere op left.bare right.bare
  | .bound _ name value body => .bound .nowhere name value.bare body.bare
  | .host _ source => .host .nowhere source
  | .int _ n => .int .nowhere n

def barePhrases : List Phrase → List Phrase
  | [] => []
  | p :: ps => p.bare :: barePhrases ps

def bareArgs : List (Option String × Phrase) → List (Option String × Phrase)
  | [] => []
  | (keyword, p) :: rest => (keyword, p.bare) :: bareArgs rest

end

@[simp] theorem barePhrases_eq (ps : List Phrase) : barePhrases ps = ps.map Phrase.bare := by
  induction ps with
  | nil => rfl
  | cons p ps ih => rw [barePhrases, ih, List.map_cons]

@[simp] theorem bareArgs_eq (args : List (Option String × Phrase)) :
    bareArgs args = args.map fun arg => (arg.1, arg.2.bare) := by
  induction args with
  | nil => rfl
  | cons arg args ih => rw [bareArgs, ih, List.map_cons]

/-! ### What may follow -/

/-- What may follow a phrase of a stage: no operator that the stage would take along. -/
structure Follow (n : Nat) (cs : List Char) : Prop where
  suffix : 1 ≤ n → ∀ c, (skip cs).head? = some c → c ∉ ['?', '*', '+', '\x7b']
  operator : ∀ op rest, OperatorAt (skip cs) op rest → n ≤ op.level + 1

theorem OperatorAt.head {cs rest : List Char} {op : Phrase.Operator} (h : OperatorAt cs op rest) :
    ∃ c, cs.head? = some c ∧ c ∈ ['|', '<', '/', '>', 'w'] := by
  rw [h.split]
  cases op <;> simp [Phrase.Operator.token]

/-- Characters that are no operator's first end a phrase of any stage. -/
theorem Follow.of_head {n : Nat} {cs : List Char}
    (h : ∀ c, (skip cs).head? = some c → c ∉ ['?', '*', '+', '\x7b', '|', '<', '/', '>', 'w']) :
    Follow n cs where
  suffix _ c head mem := h c head (by simp only [List.mem_cons] at mem ⊢; tauto)
  operator op rest found := by
    obtain ⟨c, head, mem⟩ := found.head
    exact (h c head (by simp only [List.mem_cons] at mem ⊢; tauto)).elim

theorem Follow.of_eq_cons {n : Nat} {cs t : List Char} {c : Char} (split : skip cs = c :: t)
    (other : c ∉ ['?', '*', '+', '\x7b', '|', '<', '/', '>', 'w']) : Follow n cs :=
  .of_head fun d head => by
    obtain rfl : c = d := by simpa [split] using head
    exact other

theorem Follow.of_operator {n : Nat} {cs rest : List Char} {op : Phrase.Operator}
    (h : OperatorAt (skip cs) op rest) (le : n ≤ op.level + 1) : Follow n cs where
  suffix _ c head mem := by
    obtain ⟨d, head', mem'⟩ := h.head
    obtain rfl : c = d := by simpa [head] using head'
    simp only [List.mem_cons, List.not_mem_nil, or_false] at mem mem'
    rcases mem with rfl | rfl | rfl | rfl <;> simp at mem'
  operator op' rest' found := found.unique h ▸ le

theorem Follow.mono {m n : Nat} {cs : List Char} (h : Follow n cs) (le : m ≤ n) : Follow m cs where
  suffix pos := h.suffix (by omega)
  operator op rest found := by have := h.operator op rest found; omega

/-! ### The notation -/

/-- An operator and the operand behind it: where the operand begins and what it leaves. -/
structure Link where
  op : Phrase.Operator
  text : List Char
  rest : List Char
  phrase : Phrase

/-- Operands with operators of a level before them, one after the other. -/
inductive Linked (level : Nat) : List Char → List Link → List Char → Prop where
  | nil (cs : List Char) : Linked level cs [] cs
  | cons {cs t rest : List Char} {link : Link} {links : List Link}
      (operator : OperatorAt (skip cs) link.op t) (tight : link.op.level = level)
      (begins : link.text = skip t) (later : Linked level link.rest links rest) :
      Linked level cs (link :: links) rest

/-- Operators behind a phrase, one after the other. -/
inductive Suffixed : List Char → List Phrase.Suffix → List Char → Prop where
  | nil (cs : List Char) : Suffixed cs [] cs
  | cons {cs t rest : List Char} {suffix : Phrase.Suffix} {suffixes : List Phrase.Suffix}
      (first : SuffixAt (skip cs) suffix t) (later : Suffixed t suffixes rest) :
      Suffixed cs (suffix :: suffixes) rest

/-- An item of a list: its label, where it and its phrase begin, and what it leaves. -/
structure Item where
  label : Option String
  start : List Char
  text : List Char
  rest : List Char
  phrase : Phrase

/-- The label of an item is what precedes its phrase. -/
def Item.Labelled (item : Item) : Prop :=
  match item.label with
  | none => item.text = item.start
  | some name => ∃ r t, NameAt item.start name r ∧ skip r = '=' :: t ∧ item.text = skip t

/-- Items with commas between them, up to the character that closes the list; a comma may stand
behind the last one. -/
inductive Listed (close : Char) : List Char → List Item → List Char → Prop where
  | nil (rest : List Char) : Listed close (close :: rest) [] rest
  | last {cs rest : List Char} {item : Item} (begins : item.start = cs)
      (closes : skip item.rest = close :: rest) : Listed close cs [item] rest
  | cons {cs t rest : List Char} {item : Item} {items : List Item} (begins : item.start = cs)
      (comma : skip item.rest = ',' :: t) (later : Listed close (skip t) items rest) :
      Listed close cs (item :: items) rest

/-- What follows a name tells it apart from a call and from a binary literal. -/
structure Alone (name : String) (rest : List Char) : Prop where
  call : rest.head? ≠ some '('
  text : name = "b" → rest.head? ≠ some '"' ∧ rest.head? ≠ some '\''
  pattern : name = "b" → ∀ t, rest = '/' :: t → filledPatternLength t = none

/-- The notation of phrases, by stages: phrases without operators, phrases with operators behind
them, and chains of operators of each level. The body of a binding extends as far as possible. -/
inductive Spells : Nat → List Char → List Char → Phrase → Prop where
  | bound {cs t₁ t₂ t₃ r₁ r₂ rest : List Char} {name : String} {value body : Phrase}
      (binds : KeywordAt "let" cs t₁) (named : NameAt (skip t₁) name r₁)
      (equals : skip r₁ = '=' :: t₂) (value' : Spells 6 (skip t₂) r₂ value)
      (inside : KeywordAt "in" (skip r₂) t₃) (body' : Spells 6 (skip t₃) rest body)
      (greedy : Follow 6 rest) :
      Spells 0 cs rest (.bound .nowhere name value body)
  | call {cs t rest : List Char} {callee : String} {items : List Item}
      (named : NameAt cs callee ('(' :: t)) (listed : Listed ')' (skip t) items rest)
      (labelled : ∀ item ∈ items, item.Labelled)
      (args : ∀ item ∈ items, Spells 6 item.text item.rest item.phrase) :
      Spells 0 cs rest (.call .nowhere callee (items.map fun item => (item.label, item.phrase)))
  | sequence {t rest : List Char} {items : List Item} (listed : Listed ']' (skip t) items rest)
      (plain : ∀ item ∈ items, item.label = none ∧ item.text = item.start)
      (parts : ∀ item ∈ items, Spells 6 item.text item.rest item.phrase) :
      Spells 0 ('[' :: t) rest (.sequence .nowhere (items.map (·.phrase)))
  | group {t r rest : List Char} {p : Phrase} (inner : Spells 6 (skip t) r p)
      (closes : skip r = ')' :: rest) : Spells 0 ('(' :: t) rest p
  | str {cs rest : List Char} {value : String} {ignoreCase binary : Bool}
      (literal : TextLiteral cs value ignoreCase binary rest) :
      Spells 0 cs rest (.str .nowhere value ignoreCase binary)
  | regex {cs rest : List Char} {pattern : String} {ignoreCase binary : Bool}
      (literal : PatternLiteral cs pattern ignoreCase binary rest) :
      Spells 0 cs rest (.regex .nowhere pattern ignoreCase binary)
  | host {cs rest : List Char} {source : String} (literal : HostLiteral cs source rest) :
      Spells 0 cs rest (.host .nowhere source)
  | int {cs rest : List Char} {n : Nat} (numeral : Numeral 0x8000000000000000 cs n rest) :
      Spells 0 cs rest (.int .nowhere n)
  | ref {cs rest : List Char} {name : String} (named : NameAt cs name rest)
      (alone : Alone name rest) : Spells 0 cs rest (.ref .nowhere name)
  | suffixed {cs r rest : List Char} {p : Phrase} {suffixes : List Phrase.Suffix}
      (first : Spells 0 cs r p) (later : Suffixed r suffixes rest) :
      Spells 1 cs rest (suffixes.foldl (fun inner s => .suffixed .nowhere inner s) p)
  | chain {level : Nat} {cs r rest : List Char} {p : Phrase} {links : List Link}
      (first : Spells (level + 1) cs r p) (linked : Linked level r links rest)
      (operands : ∀ link ∈ links, Spells (level + 1) link.text link.rest link.phrase) :
      Spells (level + 2) cs rest
        (links.foldl (fun left link => .binary .nowhere link.op left link.phrase) p)

/-! ### What is taken -/

/-- A rest of a text that is shorter than the text. -/
structure Consumes (cs rest : List Char) : Prop where
  suffix : rest <:+ cs
  shorter : rest.length < cs.length

namespace Consumes

variable {cs mid rest : List Char}

theorem of_append {word : List Char} (split : cs = word ++ rest) (filled : word ≠ []) :
    Consumes cs rest where
  suffix := ⟨word, split.symm⟩
  shorter := by
    have := List.length_pos_iff.2 filled
    simp only [split, List.length_append]
    omega

theorem further (h : Consumes cs mid) (h' : rest <:+ mid) : Consumes cs rest :=
  ⟨h'.trans h.suffix, Nat.lt_of_le_of_lt h'.length_le h.shorter⟩

theorem earlier (h : Consumes mid rest) (h' : mid <:+ cs) : Consumes cs rest :=
  ⟨h.suffix.trans h', Nat.lt_of_lt_of_le h.shorter h'.length_le⟩

theorem skip (h : Consumes (Scan.skip cs) rest) : Consumes cs rest := h.earlier (skip_suffix cs)

theorem cons (c : Char) (cs : List Char) : Consumes (c :: cs) cs :=
  ⟨List.suffix_cons c cs, Nat.lt_succ_self _⟩

theorem of_eq_cons {c : Char} (split : cs = c :: rest) : Consumes cs rest := split ▸ cons c rest

end Consumes

theorem KeywordAt.consumes {word : String} {cs rest : List Char} (h : KeywordAt word cs rest)
    (filled : word.toList ≠ []) : Consumes cs rest := .of_append h.split filled

theorem NameAt.consumes {cs rest : List Char} {name : String} (h : NameAt cs name rest) :
    Consumes cs rest := .of_append h.split h.isName.filled

theorem OperatorAt.consumes {cs rest : List Char} {op : Phrase.Operator}
    (h : OperatorAt cs op rest) : Consumes cs rest :=
  .of_append h.split (by cases op <;> simp [Phrase.Operator.token])

theorem CaseFlagAt.suffix {cs rest : List Char} {flag : Bool} (h : CaseFlagAt cs flag rest) :
    rest <:+ cs := ⟨_, h.split.symm⟩

theorem TextLiteral.consumes {cs rest : List Char} {value : String} {ignoreCase binary : Bool}
    (h : TextLiteral cs value ignoreCase binary rest) : Consumes cs rest := by
  obtain ⟨mark, enclosed, flag⟩ := h
  exact ((Consumes.cons _ _).earlier (List.suffix_append _ _)).further flag.suffix

theorem PatternLiteral.consumes {cs rest : List Char} {pattern : String} {ignoreCase binary : Bool}
    (h : PatternLiteral cs pattern ignoreCase binary rest) : Consumes cs rest := by
  obtain ⟨enclosed, filled, flag⟩ := h
  exact ((Consumes.cons _ _).earlier (List.suffix_append _ _)).further flag.suffix

theorem HostLiteral.consumes {cs rest : List Char} {source : String}
    (h : HostLiteral cs source rest) : Consumes cs rest := by
  obtain ⟨plain⟩ := h
  exact (Consumes.cons _ _).earlier (List.suffix_append _ _)

theorem Numeral.consumes {limit n : Nat} {cs rest : List Char} (h : Numeral limit cs n rest) :
    Consumes cs rest := by
  obtain ⟨filled⟩ := h
  exact .of_append rfl filled

theorem BoundAt?.suffix {cs rest : List Char} {b? : Option Phrase.Bound}
    (h : BoundAt? cs b? rest) : rest <:+ cs := by
  cases h with
  | none => exact List.suffix_refl _
  | some h =>
    refine (skip_suffix _).trans ?_
    cases h with
    | int h => exact h.consumes.suffix
    | host h => exact h.consumes.suffix

theorem SuffixAt.consumes {cs rest : List Char} {suffix : Phrase.Suffix}
    (h : SuffixAt cs suffix rest) : Consumes cs rest := by
  cases h with
  | opt | many | some => exact .cons _ _
  | exact bound =>
    exact (Consumes.cons _ _).further <| (List.suffix_cons _ _).trans <|
      bound.suffix.trans (skip_suffix _)
  | between lower upper =>
    exact (Consumes.cons _ _).further <| (List.suffix_cons _ _).trans <|
      upper.suffix.trans <| (skip_suffix _).trans <| (List.suffix_cons _ _).trans <|
      lower.suffix.trans (skip_suffix _)

theorem Suffixed.suffix {cs rest : List Char} {suffixes : List Phrase.Suffix}
    (h : Suffixed cs suffixes rest) : rest <:+ cs := by
  induction h with
  | nil => exact List.suffix_refl _
  | cons first later ih => exact ih.trans first.consumes.skip.suffix

theorem Linked.suffix {level : Nat} {cs rest : List Char} {links : List Link}
    (h : Linked level cs links rest) (operands : ∀ link ∈ links, Consumes link.text link.rest) :
    rest <:+ cs := by
  induction h with
  | nil => exact List.suffix_refl _
  | @cons cs t rest link links operator tight begins later ih =>
    have operand := operands link (by simp)
    rw [begins] at operand
    exact (ih fun link mem => operands link (by simp [mem])).trans <|
      operand.skip.suffix.trans operator.consumes.skip.suffix

theorem Item.Labelled.suffix {item : Item} (h : item.Labelled) : item.text <:+ item.start := by
  rw [Item.Labelled] at h
  split at h
  · exact h ▸ List.suffix_refl _
  · obtain ⟨r, t, named, equals, begins⟩ := h
    exact begins ▸ (skip_suffix t).trans <| (Consumes.of_eq_cons equals).skip.suffix.trans
      named.consumes.suffix

/-- A list ends with the character that closes it. -/
theorem Listed.closes {close : Char} {cs rest : List Char} {items : List Item}
    (h : Listed close cs items rest) (parts : ∀ item ∈ items, item.rest <:+ item.start) :
    close :: rest <:+ cs := by
  induction h with
  | nil => exact List.suffix_refl _
  | last begins closes =>
    exact (closes ▸ skip_suffix _).trans (begins ▸ parts _ (by simp))
  | cons begins comma later ih =>
    exact (ih fun item mem => parts item (by simp [mem])).trans <| (skip_suffix _).trans <|
      (Consumes.of_eq_cons comma).skip.suffix.trans (begins ▸ parts _ (by simp))

theorem Listed.consumes {close : Char} {cs rest : List Char} {items : List Item}
    (h : Listed close cs items rest) (parts : ∀ item ∈ items, item.rest <:+ item.start) :
    Consumes cs rest := (Consumes.cons _ _).earlier (h.closes parts)

/-- A phrase takes a character at least. -/
theorem Spells.consumes {n : Nat} {cs rest : List Char} {p : Phrase} (h : Spells n cs rest p) :
    Consumes cs rest := by
  induction h with
  | bound binds named equals value' inside body' greedy ihValue ihBody =>
    exact ihBody.skip.earlier <| (inside.consumes (by decide)).skip.suffix.trans <|
      ihValue.skip.suffix.trans <| (Consumes.of_eq_cons equals).skip.suffix.trans <|
      named.consumes.skip.suffix.trans (binds.consumes (by decide)).suffix
  | call named listed labelled args ih =>
    have items := listed.consumes fun item mem =>
      (ih item mem).suffix.trans (labelled item mem).suffix
    exact named.consumes.further (items.skip.suffix.trans (List.suffix_cons _ _))
  | sequence listed plain parts ih =>
    have items := listed.consumes fun item mem => (plain item mem).2 ▸ (ih item mem).suffix
    exact (Consumes.cons _ _).further items.skip.suffix
  | group inner closes ih =>
    exact (Consumes.cons _ _).further ((Consumes.of_eq_cons closes).skip.suffix.trans ih.skip.suffix)
  | str literal => exact literal.consumes
  | regex literal => exact literal.consumes
  | host literal => exact literal.consumes
  | int numeral => exact numeral.consumes
  | ref named => exact named.consumes
  | suffixed first later ih => exact ih.further later.suffix
  | chain first linked operands ihFirst ihOperands =>
    exact ihFirst.further (linked.suffix ihOperands)

/-! ### What can be written -/

/-- A bound that can be written. -/
def Phrase.Bound.Tidy : Phrase.Bound → Prop
  | .int n => n < 0x10000000000000000
  | .host source => backtick ∉ source.toList

/-- An operator behind a phrase whose bounds can be written. -/
def Phrase.Suffix.Tidy : Phrase.Suffix → Prop
  | .opt | .many | .some => True
  | .repeated least most => (∀ b ∈ least, b.Tidy) ∧ ∀ b ∈ most, b.Tidy

/-- A phrase whose names are names, whose patterns and host code hold no mark that would close them,
and whose numbers fit. -/
inductive Phrase.Tidy : Phrase → Prop where
  | str (span : Span) (value : String) (ignoreCase binary : Bool) :
      Tidy (.str span value ignoreCase binary)
  | regex (span : Span) {pattern : String} (ignoreCase binary : Bool)
      (isPattern : IsPattern pattern) : Tidy (.regex span pattern ignoreCase binary)
  | ref (span : Span) {name : String} (isName : IsName name) : Tidy (.ref span name)
  | call (span : Span) {callee : String} {args : List (Option String × Phrase)}
      (isName : IsName callee) (labels : ∀ arg ∈ args, ∀ name, arg.1 = some name → IsName name)
      (parts : ∀ arg ∈ args, Tidy arg.2) : Tidy (.call span callee args)
  | sequence (span : Span) {items : List Phrase} (parts : ∀ p ∈ items, Tidy p) :
      Tidy (.sequence span items)
  | suffixed (span : Span) {inner : Phrase} {suffix : Phrase.Suffix} (part : Tidy inner)
      (behind : suffix.Tidy) : Tidy (.suffixed span inner suffix)
  | binary (span : Span) (op : Phrase.Operator) {left right : Phrase} (first : Tidy left)
      (second : Tidy right) : Tidy (.binary span op left right)
  | bound (span : Span) {name : String} {value body : Phrase} (isName : IsName name)
      (first : Tidy value) (second : Tidy body) : Tidy (.bound span name value body)
  | host (span : Span) {source : String} (plain : backtick ∉ source.toList) :
      Tidy (.host span source)
  | int (span : Span) {n : Nat} (fits : n < 0x8000000000000000) : Tidy (.int span n)

theorem HostLiteral.plain {cs rest : List Char} {source : String}
    (h : HostLiteral cs source rest) : backtick ∉ source.toList := by
  obtain ⟨plain⟩ := h
  rwa [String.toList_ofList]

theorem Numeral.below {limit n : Nat} {cs rest : List Char} (h : Numeral limit cs n rest) :
    n < limit := by
  obtain ⟨-, -, -, below⟩ := h
  exact below

theorem PatternLiteral.isPattern {cs rest : List Char} {pattern : String} {ignoreCase binary : Bool}
    (h : PatternLiteral cs pattern ignoreCase binary rest) : IsPattern pattern := by
  obtain ⟨enclosed, filled, -⟩ := h
  exact ⟨_, enclosed, filled, rfl⟩

theorem BoundAt?.tidy {cs rest : List Char} {b? : Option Phrase.Bound} (h : BoundAt? cs b? rest) :
    ∀ b ∈ b?, b.Tidy := by
  cases h with
  | none => simp
  | some bound =>
    rintro b ⟨⟩
    cases bound with
    | int numeral => exact numeral.below
    | host literal => exact literal.plain

theorem SuffixAt.tidy {cs rest : List Char} {suffix : Phrase.Suffix}
    (h : SuffixAt cs suffix rest) : suffix.Tidy := by
  cases h with
  | opt | many | some => trivial
  | exact bound => exact ⟨bound.tidy, bound.tidy⟩
  | between lower upper => exact ⟨lower.tidy, upper.tidy⟩

theorem Suffixed.tidy {cs rest : List Char} {suffixes : List Phrase.Suffix}
    (h : Suffixed cs suffixes rest) : ∀ s ∈ suffixes, s.Tidy := by
  induction h with
  | nil => simp
  | cons first later ih => simpa using ⟨first.tidy, ih⟩

theorem Phrase.Tidy.suffixes {p : Phrase} (h : p.Tidy) {suffixes : List Phrase.Suffix}
    (behind : ∀ s ∈ suffixes, s.Tidy) :
    (suffixes.foldl (fun inner s => .suffixed .nowhere inner s) p).Tidy := by
  induction suffixes generalizing p with
  | nil => exact h
  | cons s suffixes ih =>
    exact ih (.suffixed _ h (behind s (by simp))) fun t ht => behind t (by simp [ht])

theorem Phrase.Tidy.links {p : Phrase} (h : p.Tidy) {links : List Link}
    (operands : ∀ link ∈ links, link.phrase.Tidy) :
    (links.foldl (fun left link => .binary .nowhere link.op left link.phrase) p).Tidy := by
  induction links generalizing p with
  | nil => exact h
  | cons link links ih =>
    exact ih (.binary _ _ h (operands link (by simp))) fun l hl => operands l (by simp [hl])

/-- A phrase that is spelled is tidy. -/
theorem Spells.tidy {n : Nat} {cs rest : List Char} {p : Phrase} (h : Spells n cs rest p) :
    p.Tidy := by
  induction h with
  | bound _ named _ _ _ _ _ first second => exact .bound _ named.isName first second
  | call named _ labelled _ parts =>
    refine .call _ named.isName (fun arg mem name label => ?_) fun arg mem => ?_
    · obtain ⟨item, mem', rfl⟩ := List.mem_map.1 mem
      have labelled := labelled item mem'
      rw [Item.Labelled, show item.label = some name from label] at labelled
      obtain ⟨_, _, named, -⟩ := labelled
      exact named.isName
    · obtain ⟨item, mem', rfl⟩ := List.mem_map.1 mem
      exact parts item mem'
  | sequence _ _ _ parts =>
    refine .sequence _ fun p mem => ?_
    obtain ⟨item, mem', rfl⟩ := List.mem_map.1 mem
    exact parts item mem'
  | group _ _ inner => exact inner
  | str => exact .str _ _ _ _
  | regex literal => exact .regex _ _ _ literal.isPattern
  | host literal => exact .host _ literal.plain
  | int numeral => exact .int _ numeral.below
  | ref named => exact .ref _ named.isName
  | suffixed _ later first => exact first.suffixes later.tidy
  | chain _ _ _ first operands => exact first.links operands

end Packrat
