import Packrat.Proofs.Analysis.Lowering
import Packrat.Proofs.Notation.Definitions

/-
**Expressions are shown in the notation of descriptions.**

Every expression that a phrase stands for is shown as a text that spells a phrase again.  An
expression that is shown without an operator between its parts can stand as an operand; one that is
shown with such an operator is put in parentheses there.  So two facts about a text are enough: what
it spells where an operand is to come, and what it spells where a whole phrase is to come.

Main definitions:

* `Packrat.Tight`, `Packrat.Loose` — texts that spell an operand, and a whole phrase;
* `Packrat.Expr.phrase` — the phrase that an expression is shown as.

Main results:

* `Packrat.Loose.group` — a phrase in parentheses is an operand;
* `Packrat.Tight.chain` — operands with one operator between them;
* `Packrat.Tight.call`, `Packrat.Tight.sequence` — lists in brackets;
* `Packrat.Expr.Made.shown` — the text of an expression spells its phrase.
-/

set_option autoImplicit false

namespace Packrat

open Scan

/-! ### Texts that spell a phrase -/

/-- What may stand behind a phrase that is shown: nothing that its last token would take along. -/
def Clear (tail : List Char) : Prop :=
  ∀ c, tail.head? = some c → isWordChar c = false ∧ c ∉ ['(', '"', '\'', '/']

theorem Clear.nil : Clear [] := by simp [Clear]

theorem Clear.cons {c : Char} (other : isWordChar c = false ∧ c ∉ ['(', '"', '\'', '/'])
    (tail : List Char) : Clear (c :: tail) := fun d head => by
  obtain rfl : c = d := Option.some.inj head
  exact other

theorem Clear.noWord {tail : List Char} (h : Clear tail) : NoWord tail := fun c head => (h c head).1

theorem Clear.caseFlag {tail : List Char} (h : Clear tail) (flag : Bool) :
    CaseFlagAt (flagLetter 'i' flag ++ tail) flag tail := by
  refine ⟨rfl, ?_⟩
  cases flag with
  | true => exact h.noWord
  | false =>
    refine Bool.eq_false_iff.2 fun word => ?_
    rw [atWord_iff] at word
    cases tail with
    | nil => cases word
    | cons c tail => simp [(h c rfl).1] at word

theorem Clear.alone {tail : List Char} (h : Clear tail) (name : String) : Alone name tail where
  call head := (h _ head).2 (by simp)
  text _ := ⟨fun head => (h _ head).2 (by simp), fun head => (h _ head).2 (by simp)⟩
  pattern _ t split := ((h '/' (by rw [split]; rfl)).2 (by simp)).elim

/-- A text that spells an operand. -/
def Tight (shown : String) (p : Phrase) : Prop :=
  ∀ tail, Clear tail → Spells 1 (shown.toList ++ tail) tail p

/-- A text that spells a phrase where no operator follows. -/
def Loose (shown : String) (p : Phrase) : Prop :=
  ∀ tail, Clear tail → Follow 6 tail → Spells 6 (shown.toList ++ tail) tail p

theorem Spells.mono {m n : Nat} {cs rest : List Char} {p : Phrase} (h : Spells m cs rest p)
    (le : m ≤ n) : Spells n cs rest p := by
  induction le with
  | refl => exact h
  | @step n le ih =>
    cases n with
    | zero => exact .suffixed ih (.nil _)
    | succ n => exact .chain ih (.nil _) (by simp)

theorem Tight.of_spells {shown : String} {p : Phrase}
    (h : ∀ tail, Clear tail → Spells 0 (shown.toList ++ tail) tail p) : Tight shown p :=
  fun tail clear => (h tail clear).mono (by decide)

theorem Tight.loose {shown : String} {p : Phrase} (h : Tight shown p) : Loose shown p :=
  fun tail clear _ => (h tail clear).mono (by decide)

/-- A phrase in parentheses is an operand. -/
theorem Loose.group {shown : String} {p : Phrase} (h : Loose shown p) :
    Tight ("(" ++ shown ++ ")") p := .of_spells fun tail _ => by
  have closing : skip (')' :: tail) = ')' :: tail := skip_cons (by decide)
  have inner := h (')' :: tail) (.cons (by decide) _) (.of_eq_cons closing (by decide))
  have group := Spells.group (inner.skip_eq.symm ▸ inner) closing
  simpa using group

/-! ### Operators behind a phrase -/

theorem Suffixed.concat {cs r rest : List Char} {suffixes : List Phrase.Suffix}
    {suffix : Phrase.Suffix} (h : Suffixed cs suffixes r) (last : SuffixAt (skip r) suffix rest) :
    Suffixed cs (suffixes ++ [suffix]) rest := by
  induction h with
  | nil => exact .cons last (.nil _)
  | cons first later ih => exact .cons first (ih last)

/-- A text that stands for an operator behind a phrase. -/
structure ShowsSuffix (shown : String) (suffix : Phrase.Suffix) : Prop where
  at' : ∀ tail, SuffixAt (shown.toList ++ tail) suffix tail
  begins : ∃ c t, shown.toList = c :: t ∧ c ∈ ['?', '*', '+', '\x7b']

theorem Tight.suffixed {shown behind : String} {p : Phrase} {suffix : Phrase.Suffix}
    (h : Tight shown p) (last : ShowsSuffix behind suffix) :
    Tight (shown ++ behind) (.suffixed .nowhere p suffix) := fun tail clear => by
  obtain ⟨c, t, split, mark⟩ := last.begins
  have plain : Solid c ∧ isWordChar c = false ∧ c ∉ ['(', '"', '\'', '/'] := by
    simp only [List.mem_cons, List.not_mem_nil, or_false] at mark
    rcases mark with rfl | rfl | rfl | rfl <;> decide
  have first := h (behind.toList ++ tail) (by rw [split]; exact .cons plain.2 _)
  have solid : skip (behind.toList ++ tail) = behind.toList ++ tail := by
    rw [split]
    exact skip_cons plain.1
  have last := solid.symm ▸ last.at' tail
  rw [String.toList_append, List.append_assoc]
  cases first with
  | suffixed first later =>
    have all := Spells.suffixed first (later.concat last)
    rwa [List.foldl_append] at all

/-- A bound as it is written. -/
def Bound.phrase : Bound → Phrase.Bound
  | .const n => .int n
  | .host s => .host s.source

theorem BoundAt.skip_eq {cs rest : List Char} {b : Phrase.Bound} (h : BoundAt cs b rest) :
    skip cs = cs := by
  cases h with
  | int numeral => exact numeral.skip_eq
  | host literal =>
    obtain ⟨t, rfl⟩ := literal.head
    exact skip_cons (by decide)

theorem boundAt?_boundText {b? : Option Bound} (written : ∀ b ∈ b?, b.Shown) {c : Char}
    (closing : c.isDigit = false ∧ Solid c) (tail : List Char) :
    BoundAt? (skip ((Expr.boundText b?).toList ++ c :: tail)) (b?.map Bound.phrase) (c :: tail) := by
  have stays : skip (c :: tail) = c :: tail := skip_cons closing.2
  cases b? with
  | none => exact stays.symm ▸ .none _
  | some b =>
    have written := written b rfl
    have bound : BoundAt ((Expr.boundText (some b)).toList ++ c :: tail) b.phrase (c :: tail) := by
      cases b with
      | const n =>
        exact .int (numeral_toString written fun d head => by
          obtain rfl : c = d := Option.some.inj head
          exact closing.1)
      | host s => exact .host (written.literal _)
    have all := BoundAt?.some bound
    rwa [stays, ← bound.skip_eq] at all

/-- The operator that a repetition is shown with. -/
def Expr.repetition (least most : Option Bound) : Phrase.Suffix :=
  match least, most with
  | none, none => .many
  | some (.const 0), none => .many
  | some (.const 1), none => .some
  | least, most => .repeated (least.map Bound.phrase) (most.map Bound.phrase)

theorem showsSuffix_repetitionText {least most : Option Bound} (lower : ∀ b ∈ least, b.Shown)
    (upper : ∀ b ∈ most, b.Shown) :
    ShowsSuffix (Expr.repetitionText least most) (Expr.repetition least most) := by
  have between : ShowsSuffix ("\x7b" ++ Expr.boundText least ++ "," ++ Expr.boundText most ++ "\x7d")
      (.repeated (least.map Bound.phrase) (most.map Bound.phrase)) := by
    refine ⟨fun tail => ?_, '\x7b', _, by simp; rfl, by decide⟩
    have last := boundAt?_boundText upper (c := '\x7d') (by decide) tail
    have first := boundAt?_boundText lower (c := ',') (by decide)
      ((Expr.boundText most).toList ++ '\x7d' :: tail)
    simpa using SuffixAt.between first last
  unfold Expr.repetitionText
  split
  · exact ⟨fun tail => .many tail, _, _, rfl, by decide⟩
  · exact ⟨fun tail => .many tail, _, _, rfl, by decide⟩
  · exact ⟨fun tail => .some tail, _, _, rfl, by decide⟩
  · rw [Expr.repetition]
    · exact between
    all_goals assumption

/-! ### Operators between phrases -/

/-- An operator between blanks. -/
theorem operatorAt_token (op : Phrase.Operator) (tail : List Char) :
    OperatorAt (skip ((" " ++ op.token ++ " ").toList ++ tail)) op (' ' :: tail) := by
  refine ⟨?_, fun _ => noWord_cons.2 (by decide), fun _ => by simp⟩
  cases op <;> simp [Phrase.Operator.token] <;> exact skip_cons (by decide)

theorem clear_linked (op : Phrase.Operator) (parts : List (String × Phrase)) {tail : List Char}
    (clear : Clear tail) : Clear ((parts.flatMap fun part =>
        (" " ++ op.token ++ " ").toList ++ part.1.toList) ++ tail) := by
  cases parts with
  | nil => exact clear
  | cons => simpa using Clear.cons (by decide) _

/-- Operands with one operator before each of them. -/
theorem exists_linked (op : Phrase.Operator) {parts : List (String × Phrase)}
    (shown : ∀ part ∈ parts, Tight part.1 part.2) {tail : List Char} (clear : Clear tail) :
    ∃ links, Linked op.level ((parts.flatMap fun part =>
        (" " ++ op.token ++ " ").toList ++ part.1.toList) ++ tail) links tail ∧
      (∀ link ∈ links, Spells (op.level + 1) link.text link.rest link.phrase) ∧
      links.map (fun link => (link.op, link.phrase)) = parts.map fun part => (op, part.2) := by
  induction parts with
  | nil => exact ⟨[], .nil _, by simp, rfl⟩
  | cons part parts ih =>
    obtain ⟨links, linked, operands, same⟩ := ih fun q mem => shown q (by simp [mem])
    have operand := shown part (by simp) _ (clear_linked op parts clear)
    rw [List.flatMap_cons, List.append_assoc, List.append_assoc]
    generalize (parts.flatMap fun part =>
        (" " ++ op.token ++ " ").toList ++ part.1.toList) ++ tail = rest at linked operand ⊢
    refine ⟨⟨op, part.1.toList ++ rest, rest, part.2⟩ :: links, ?_, ?_, ?_⟩
    · exact .cons (operatorAt_token op _) rfl (by rw [skip_blank, operand.skip_eq]) linked
    · simpa using ⟨operand.mono (by omega), operands⟩
    · rw [List.map_cons, List.map_cons, same]

/-- Operands with one operator between them, grouped from the left. -/
theorem Tight.chain (op : Phrase.Operator) (word : String) (spaced : " " ++ op.token ++ " " = word)
    (first : String × Phrase) (parts : List (String × Phrase))
    (shown : ∀ part ∈ first :: parts, Tight part.1 part.2) :
    Loose (word.intercalate ((first :: parts).map (·.1)))
      (parts.foldl (fun left part => .binary .nowhere op left part.2) first.2) :=
  fun tail clear _ => by
  subst spaced
  obtain ⟨links, linked, operands, same⟩ := exists_linked op
    (fun part mem => shown part (List.mem_cons_of_mem _ mem)) clear
  have folded : parts.foldl (fun left part => .binary .nowhere op left part.2) first.2 =
      links.foldl (fun left link => .binary .nowhere link.op left link.phrase) first.2 := by
    have := congrArg (List.foldl (fun left x => .binary .nowhere x.1 left x.2) first.2) same
    rw [List.foldl_map, List.foldl_map] at this
    exact this.symm
  have operand := shown first (by simp) _ (clear_linked op parts clear)
  have le : op.level + 2 ≤ 6 := by cases op <;> decide
  have all := (Spells.chain (operand.mono (by omega)) linked operands).mono le
  rw [String.toList_intercalate, List.map_map, List.map_cons, List.intercalate_cons_eq,
    List.flatMap_map, List.append_assoc, folded]
  exact all

theorem Tight.binary (op : Phrase.Operator) (word : String) {left right : String} {p q : Phrase}
    (spaced : " " ++ op.token ++ " " = word) (first : Tight left p) (second : Tight right q) :
    Loose (left ++ word ++ right) (.binary .nowhere op p q) :=
  Tight.chain op word spaced (left, p) [(right, q)] (by simp [first, second])

/-! ### Lists in brackets -/

/-- An argument as it is shown: its label, its text and the phrase that the text spells. -/
structure Argument where
  label : Option String
  shown : String
  phrase : Phrase

/-- The text of an argument with its label. -/
def Argument.text (arg : Argument) : String :=
  match arg.label with
  | none => arg.shown
  | some name => name ++ "=" ++ arg.shown

/-- An argument whose label is a name and whose text spells its phrase. -/
structure Argument.Shows (arg : Argument) : Prop where
  isName : ∀ name ∈ arg.label, IsName name
  loose : Loose arg.shown arg.phrase

/-- An argument is an item of a list. -/
theorem Argument.Shows.exists_item {arg : Argument} (h : arg.Shows) {tail : List Char}
    (clear : Clear tail) (follow : Follow 6 tail) :
    ∃ item : Item, item.start = arg.text.toList ++ tail ∧ item.rest = tail ∧ item.Labelled ∧
      Spells 6 item.text item.rest item.phrase ∧ (item.label, item.phrase) = (arg.label, arg.phrase) ∧
      skip item.start = item.start := by
  obtain ⟨label, shown, phrase⟩ := arg
  have spells := h.loose tail clear follow
  cases label with
  | none =>
    exact ⟨⟨none, shown.toList ++ tail, shown.toList ++ tail, tail, phrase⟩, rfl, rfl, rfl, spells,
      rfl, spells.skip_eq⟩
  | some name =>
    have named : NameAt (name.toList ++ '=' :: (shown.toList ++ tail)) name
        ('=' :: (shown.toList ++ tail)) :=
      ⟨rfl, h.isName name rfl, noWord_cons.2 (by decide)⟩
    refine ⟨⟨some name, name.toList ++ '=' :: (shown.toList ++ tail), shown.toList ++ tail, tail, phrase⟩,
      by simp [Argument.text], rfl, ?_, spells, rfl, named.opens.skip_eq⟩
    exact ⟨_, _, named, skip_cons (by decide), spells.skip_eq.symm⟩

/-- The text of a list, up to the character that closes it. -/
def listText (args : List Argument) (close : Char) (rest : List Char) : List Char :=
  (", ".intercalate (args.map (·.text))).toList ++ close :: rest

theorem listText_cons (arg next : Argument) (args : List Argument) (close : Char) (rest : List Char) :
    listText (arg :: next :: args) close rest =
      arg.text.toList ++ ',' :: ' ' :: listText (next :: args) close rest := by
  simp [listText, String.toList_intercalate, List.intercalate_cons_eq]

/-- Arguments with commas between them are a list. -/
theorem exists_listed {close : Char} (closing : close = ')' ∨ close = ']') {args : List Argument}
    (shows : ∀ arg ∈ args, arg.Shows) (rest : List Char) :
    ∃ items, Listed close (listText args close rest) items rest ∧
      (∀ item ∈ items, item.Labelled ∧ Spells 6 item.text item.rest item.phrase) ∧
      items.map (fun item => (item.label, item.phrase)) =
        args.map (fun arg => (arg.label, arg.phrase)) ∧
      skip (listText args close rest) = listText args close rest := by
  have clear : ∀ c t, c = close ∨ c = ',' → Clear (c :: t) ∧ Follow 6 (c :: t) ∧
      skip (c :: t) = c :: t := fun c t mark => by
    have plain : (isWordChar c = false ∧ c ∉ ['(', '"', '\'', '/']) ∧ Solid c ∧
        c ∉ ['?', '*', '+', '\x7b', '|', '<', '/', '>', 'w'] := by
      rcases mark with rfl | rfl
      · rcases closing with rfl | rfl <;> decide
      · decide
    exact ⟨.cons plain.1 t, .of_eq_cons (skip_cons plain.2.1) plain.2.2, skip_cons plain.2.1⟩
  induction args with
  | nil => exact ⟨[], .nil rest, by simp, rfl, (clear close rest (.inl rfl)).2.2⟩
  | cons arg args ih =>
    have first := shows arg (by simp)
    cases args with
    | nil =>
      obtain ⟨clear', follow, stays⟩ := clear close rest (.inl rfl)
      obtain ⟨item, start, left, labelled, spells, same, solid⟩ := first.exists_item clear' follow
      refine ⟨[item], .last start (by rw [left, stays]), by simpa using ⟨labelled, spells⟩,
        by simpa using same, ?_⟩
      rw [start] at solid
      exact solid
    | cons next args =>
      obtain ⟨items, listed, parts, same', begins⟩ := ih fun a mem => shows a (by simp [mem])
      obtain ⟨clear', follow, stays⟩ := clear ',' (' ' :: listText (next :: args) close rest) (.inr rfl)
      obtain ⟨item, start, left, labelled, spells, same, solid⟩ := first.exists_item clear' follow
      rw [listText_cons]
      refine ⟨item :: items, .cons start (by rw [left, stays]) ?_, ?_, ?_, ?_⟩
      · rwa [skip_blank, begins]
      · simpa using ⟨⟨labelled, spells⟩, fun i mem => parts i mem⟩
      · rw [List.map_cons, same, same']
        rfl
      · rwa [start] at solid

/-- Arguments in parentheses behind a name. -/
theorem Tight.call {callee : String} (isName : IsName callee) (args : List Argument)
    (shows : ∀ arg ∈ args, arg.Shows) :
    Tight (callee ++ "(" ++ ", ".intercalate (args.map (·.text)) ++ ")")
      (.call .nowhere callee (args.map fun arg => (arg.label, arg.phrase))) :=
  .of_spells fun tail _ => by
    obtain ⟨items, listed, parts, same, begins⟩ := exists_listed (.inl rfl) shows tail
    have named : NameAt (callee.toList ++ '(' :: listText args ')' tail) callee
        ('(' :: listText args ')' tail) := ⟨rfl, isName, noWord_cons.2 (by decide)⟩
    have call := Spells.call named (begins.symm ▸ listed)
      (fun item mem => (parts item mem).1) fun item mem => (parts item mem).2
    rw [same] at call
    simpa [listText] using call

/-- Phrases in square brackets. -/
theorem Tight.sequence {parts : List (String × Phrase)} (shown : ∀ part ∈ parts, Loose part.1 part.2) :
    Tight ("[" ++ ", ".intercalate (parts.map (·.1)) ++ "]") (.sequence .nowhere (parts.map (·.2))) :=
  .of_spells fun tail _ => by
    let args := parts.map fun part => Argument.mk none part.1 part.2
    have shows : ∀ arg ∈ args, arg.Shows := by
      intro arg mem
      obtain ⟨part, inside, rfl⟩ := List.mem_map.1 mem
      exact ⟨by simp, shown part inside⟩
    obtain ⟨items, listed, spelled, same, begins⟩ := exists_listed (.inr rfl) shows tail
    have texts : args.map (·.text) = parts.map (·.1) := by simp [args, Argument.text]
    have phrases : items.map (·.phrase) = parts.map (·.2) := by
      have := congrArg (List.map (·.2)) same
      rw [List.map_map, List.map_map, List.map_map] at this
      exact this
    have plain : ∀ item ∈ items, item.label = none ∧ item.text = item.start := fun item mem => by
      have unlabelled : item.label = none := by
        have := List.mem_map_of_mem (f := fun item : Item => (item.label, item.phrase)) mem
        rw [same] at this
        obtain ⟨arg, mem', eq⟩ := List.mem_map.1 this
        obtain ⟨part, -, rfl⟩ := List.mem_map.1 mem'
        exact (Prod.mk.inj eq).1.symm
      have labelled := (spelled item mem).1
      rw [Item.Labelled, unlabelled] at labelled
      exact ⟨unlabelled, labelled⟩
    have sequence := Spells.sequence (begins.symm ▸ listed) plain fun item mem => (spelled item mem).2
    rw [phrases] at sequence
    simpa [listText, texts] using sequence

theorem KeywordAt.of_blank (word : String) (rest : List Char) :
    KeywordAt word (word.toList ++ ' ' :: rest) (' ' :: rest) := ⟨rfl, noWord_cons.2 (by decide)⟩

/-! ### Expressions -/

namespace Expr

/-- Alternatives as they are written. -/
def joined : List Phrase → Phrase
  | [] => .sequence .nowhere []
  | p :: ps => ps.foldl (fun left q => .binary .nowhere .choice left q) p

/-- A truth value as it is written. -/
def flagPhrase (b : Bool) : Phrase := .ref .nowhere (flagText b)

/-- A separated list as it is written. -/
def separated (flags : SepFlags) (item separator : Phrase) : Phrase :=
  if flags.discardSeparators && flags.allowEmpty then
    .binary .nowhere (if flags.allowTrailer then .sepTrailer else .sep) item separator
  else
    .call .nowhere "Sep" [(none, item), (none, separator),
      (some "discard_separators", flagPhrase flags.discardSeparators),
      (some "allow_trailer", flagPhrase flags.allowTrailer),
      (some "allow_empty", flagPhrase flags.allowEmpty)]

mutual

/-- The phrase that an expression is shown as. -/
def phrase : Expr → Phrase
  | .str _ value flags =>
    .str .nowhere (String.ofList (literalChars value flags.binary)) flags.ignoreCase flags.binary
  | .regex _ pattern flags => .regex .nowhere pattern flags.ignoreCase flags.binary
  | .ref _ name _ => .ref .nowhere name
  | .seq _ items _ => .sequence .nowhere (phrases items)
  | .choice _ alternatives => joined (phrases alternatives)
  | .list _ item least most => .suffixed .nowhere item.phrase (repetition least most)
  | .sep _ item separator flags => separated flags item.phrase separator.phrase
  | .opt _ inner => .suffixed .nowhere inner.phrase .opt
  | .apply _ left right applyLeft =>
    .binary .nowhere (if applyLeft then .applyLeft else .applyRight) left.phrase right.phrase
  | .discard _ left right discardLeft =>
    .binary .nowhere (if discardLeft then .keepRight else .keepLeft) left.phrase right.phrase
  | .expect _ inner => .call .nowhere "Expect" [(none, inner.phrase)]
  | .expectNot _ inner => .call .nowhere "ExpectNot" [(none, inner.phrase)]
  | .fail _ none => .call .nowhere "Fail" []
  | .fail _ (some message) => .call .nowhere "Fail" [(none, .str .nowhere message false false)]
  | .bound _ name value body => .bound .nowhere name value.phrase body.phrase
  | .satisfying _ inner predicate => .binary .nowhere .satisfying inner.phrase predicate.phrase
  | .skip _ items => .call .nowhere "Skip" ((phrases items).map (none, ·))
  | .call _ callee args _ => .call .nowhere callee (argPhrases args)
  | .host _ snippet => .host .nowhere snippet.source
  | .operators _ atom levels =>
    .call .nowhere "OperatorPrecedence" ((none, atom.phrase) :: levelPhrases levels)

def phrases : List Expr → List Phrase
  | [] => []
  | e :: es => e.phrase :: phrases es

def argPhrases : List (Option String × Expr) → List (Option String × Phrase)
  | [] => []
  | (keyword, e) :: rest => (keyword, e.phrase) :: argPhrases rest

def levelPhrases : List (Fixity × Expr) → List (Option String × Phrase)
  | [] => []
  | (fixity, e) :: rest =>
    (none, .call .nowhere fixity.name [(none, e.phrase)]) :: levelPhrases rest

end

@[simp] theorem phrases_eq (es : List Expr) : phrases es = es.map phrase := by
  induction es with
  | nil => rfl
  | cons e es ih => exact congrArg (e.phrase :: ·) ih

@[simp] theorem argPhrases_eq (args : List (Option String × Expr)) :
    argPhrases args = args.map fun arg => (arg.1, arg.2.phrase) := by
  induction args with
  | nil => rfl
  | cons arg args ih => exact congrArg ((arg.1, arg.2.phrase) :: ·) ih

@[simp] theorem levelPhrases_eq (levels : List (Fixity × Expr)) :
    levelPhrases levels = levels.map fun level =>
      (none, .call .nowhere level.1.name [(none, level.2.phrase)]) := by
  induction levels with
  | nil => rfl
  | cons level levels ih =>
    exact congrArg ((none, .call .nowhere level.1.name [(none, level.2.phrase)]) :: ·) ih

theorem textAll_eq (es : List Expr) : textAll es = es.map text := by
  induction es with
  | nil => rfl
  | cons e es ih => exact congrArg (e.text :: ·) ih

theorem textOperands_eq (es : List Expr) : textOperands es = es.map fun e => operand e e.text := by
  induction es with
  | nil => rfl
  | cons e es ih => exact congrArg (operand e e.text :: ·) ih

/-- The arguments of a call as they are shown. -/
def arguments (args : List (Option String × Expr)) : List Argument :=
  args.map fun arg => ⟨arg.1, arg.2.text, arg.2.phrase⟩

theorem textArgs_eq (args : List (Option String × Expr)) :
    textArgs args = (arguments args).map (·.text) := by
  induction args with
  | nil => rfl
  | cons arg args ih =>
    obtain ⟨_ | name, e⟩ := arg
    · exact congrArg (e.text :: ·) ih
    · exact congrArg ((name ++ "=" ++ e.text) :: ·) ih

/-- A level of operators as it is shown. -/
def levelArgument (level : Fixity × Expr) : Argument :=
  ⟨none, level.1.name ++ "(" ++ level.2.text ++ ")", .call .nowhere level.1.name [(none, level.2.phrase)]⟩

theorem textLevels_eq (levels : List (Fixity × Expr)) :
    textLevels levels = (levels.map levelArgument).map (·.text) := by
  induction levels with
  | nil => rfl
  | cons level levels ih => exact congrArg ((levelArgument level).text :: ·) ih

theorem phrase_choice (tag : Tag) (items : List Expr) :
    (Expr.choice tag items).phrase = joined (phrases items) := rfl

theorem phrase_sep (tag : Tag) (item separator : Expr) (flags : SepFlags) :
    (Expr.sep tag item separator flags).phrase =
      separated flags item.phrase separator.phrase := rfl

theorem phrase_call (tag : Tag) (callee : String) (args : List (Option String × Expr))
    (binding : Binding) :
    (Expr.call tag callee args binding).phrase = .call .nowhere callee (argPhrases args) := rfl

theorem phrase_operators (tag : Tag) (atom : Expr) (levels : List (Fixity × Expr)) :
    (Expr.operators tag atom levels).phrase =
      .call .nowhere "OperatorPrecedence" ((none, atom.phrase) :: levelPhrases levels) := rfl

theorem text_choice (tag : Tag) (items : List Expr) :
    (Expr.choice tag items).text = " | ".intercalate (textOperands items) := rfl

theorem text_sep (tag : Tag) (item separator : Expr) (flags : SepFlags) :
    (Expr.sep tag item separator flags).text = sepText flags item.text separator.text
      (operand item item.text) (operand separator separator.text) := rfl

theorem text_call (tag : Tag) (callee : String) (args : List (Option String × Expr))
    (binding : Binding) : (Expr.call tag callee args binding).text =
      callee ++ "(" ++ ", ".intercalate (textArgs args) ++ ")" := rfl

theorem text_operators (tag : Tag) (atom : Expr) (levels : List (Fixity × Expr)) :
    (Expr.operators tag atom levels).text =
      "OperatorPrecedence(" ++ ", ".intercalate (atom.text :: textLevels levels) ++ ")" := rfl

end Expr

/-! ### Names that forms are called by -/

/-- Whether a word is a name. -/
def isNameWord (name : String) : Bool :=
  name.toList.all isWordChar && name.toList.head?.any (!·.isDigit) &&
    !descriptionKeywords.contains name

theorem IsName.of_word {name : String} (h : isNameWord name = true) : IsName name := by
  simp only [isNameWord, Bool.and_eq_true, List.all_eq_true, Option.any_eq_true, Bool.not_eq_true',
    List.contains_eq_mem, decide_eq_false_iff_not] at h
  obtain ⟨⟨isWord, c, head, digit⟩, free⟩ := h
  exact ⟨isWord, fun empty => by simp [empty] at head, fun d head' => by
    obtain rfl : c = d := Option.some.inj (head.symm.trans head')
    exact digit, free⟩

theorem Tight.ref {name : String} (isName : IsName name) : Tight name (.ref .nowhere name) :=
  .of_spells fun _ clear => .ref ⟨rfl, isName, clear.noWord⟩ (clear.alone name)

theorem Tight.flag (b : Bool) : Tight (Expr.flagText b) (Expr.flagPhrase b) :=
  .ref (.of_word (by cases b <;> decide +kernel))

/-- A form with arguments given by position. -/
theorem Tight.form {callee : String} (isName : IsName callee) (parts : List (String × Phrase))
    (shown : ∀ part ∈ parts, Loose part.1 part.2) :
    Tight (callee ++ "(" ++ ", ".intercalate (parts.map (·.1)) ++ ")")
      (.call .nowhere callee ((parts.map (·.2)).map (none, ·))) := by
  have call := Tight.call isName (parts.map fun part => ⟨none, part.1, part.2⟩)
    (fun arg mem => by
      obtain ⟨part, inside, rfl⟩ := List.mem_map.1 mem
      exact ⟨by simp, shown part inside⟩)
  rw [List.map_map, List.map_map] at call
  rw [List.map_map]
  exact call

namespace Expr

/-- What the text of an expression spells. -/
structure Shown (e : Expr) : Prop where
  tight : e.isOperatorForm = false → Tight e.text e.phrase
  loose : Loose e.text e.phrase

theorem Shown.of_tight {e : Expr} (h : Tight e.text e.phrase) : e.Shown := ⟨fun _ => h, h.loose⟩

theorem Shown.of_loose {e : Expr} (op : e.isOperatorForm = true) (h : Loose e.text e.phrase) :
    e.Shown := ⟨fun plain => by simp [op] at plain, h⟩

/-- An expression as an operand. -/
theorem Shown.operand {e : Expr} (h : e.Shown) : Tight (operand e e.text) e.phrase := by
  rw [Expr.operand]
  split
  · exact h.loose.group
  · next plain => exact h.tight (by simpa using plain)

theorem Shown.arguments {args : List (Option String × Expr)} (shown : ∀ arg ∈ args, arg.2.Shown)
    (labels : ∀ arg ∈ args, ∀ name ∈ arg.1, IsName name) : ∀ a ∈ arguments args, a.Shows := by
  intro a mem
  obtain ⟨arg, inside, rfl⟩ := List.mem_map.1 mem
  exact ⟨labels arg inside, (shown arg inside).loose⟩

/-- The text and the phrase of each of some expressions. -/
def shownAs (items : List Expr) : List (String × Phrase) := items.map fun e => (e.text, e.phrase)

theorem shownAs_texts (items : List Expr) : (shownAs items).map (·.1) = textAll items := by
  rw [shownAs, textAll_eq, List.map_map]
  rfl

theorem shownAs_phrases (items : List Expr) : (shownAs items).map (·.2) = phrases items := by
  rw [shownAs, phrases_eq, List.map_map]
  rfl

theorem Shown.each {items : List Expr} (shown : ∀ e ∈ items, e.Shown) :
    ∀ part ∈ shownAs items, Loose part.1 part.2 := by
  intro part mem
  obtain ⟨e, inside, rfl⟩ := List.mem_map.1 mem
  exact (shown e inside).loose

theorem Shown.seq {tag : Tag} {items : List Expr} (shown : ∀ e ∈ items, e.Shown) :
    (Expr.seq tag items none).Shown := by
  have all := Tight.sequence (Shown.each shown)
  rw [shownAs_texts, shownAs_phrases] at all
  exact .of_tight all

theorem Shown.skip {tag : Tag} {items : List Expr} (shown : ∀ e ∈ items, e.Shown) :
    (Expr.skip tag items).Shown := by
  have all := Tight.form (.of_word (by decide +kernel : isNameWord "Skip" = true)) _ (Shown.each shown)
  rw [shownAs_texts, shownAs_phrases] at all
  exact .of_tight all

theorem Shown.choice {tag : Tag} {first : Expr} {others : List Expr}
    (shown : ∀ e ∈ first :: others, e.Shown) : (Expr.choice tag (first :: others)).Shown := by
  have all := Tight.chain .choice " | " (by decide +kernel) (Expr.operand first first.text, first.phrase)
    (others.map fun e => (Expr.operand e e.text, e.phrase)) (by
      intro part mem
      rw [← List.map_cons (f := fun e : Expr => (Expr.operand e e.text, e.phrase))] at mem
      obtain ⟨e, inside, rfl⟩ := List.mem_map.1 mem
      exact (shown e inside).operand)
  refine .of_loose rfl ?_
  rw [List.foldl_map] at all
  rw [text_choice, phrase_choice, textOperands_eq, phrases_eq, List.map_cons, List.map_cons, joined,
    List.foldl_map]
  rw [List.map_cons, List.map_map] at all
  exact all

/-- An expression with a single argument in parentheses behind a name. -/
theorem Shown.unary {e inner : Expr} (callee : String) (h : inner.Shown)
    (isName : isNameWord callee = true) (text : e.text = callee ++ "(" ++ inner.text ++ ")")
    (phrase : e.phrase = .call .nowhere callee [(none, inner.phrase)]) : e.Shown := by
  have all := Tight.form (.of_word isName) [(inner.text, inner.phrase)] (by simpa using h.loose)
  exact .of_tight (text ▸ phrase ▸ all)

/-- Two operands with an operator between them. -/
theorem Shown.binary {e left right : Expr} (op : Phrase.Operator) (word : String)
    (spaced : " " ++ op.token ++ " " = word) (h : left.Shown) (h' : right.Shown)
    (form : e.isOperatorForm = true)
    (text : e.text = Expr.operand left left.text ++ word ++ Expr.operand right right.text)
    (phrase : e.phrase = .binary .nowhere op left.phrase right.phrase) : e.Shown :=
  .of_loose form (text ▸ phrase ▸ Tight.binary op word spaced h.operand h'.operand)

theorem Shown.sep {tag : Tag} {item separator : Expr} (flags : SepFlags) (h : item.Shown)
    (h' : separator.Shown) : (Expr.sep tag item separator flags).Shown := by
  by_cases form : (flags.discardSeparators && flags.allowEmpty) = true
  · refine .binary (if flags.allowTrailer then .sepTrailer else .sep)
      (if flags.allowTrailer then " /? " else " // ") ?_ h h' form ?_ ?_
    · cases flags.allowTrailer <;> decide +kernel
    · rw [text_sep, sepText, if_pos form]
    · rw [phrase_sep, separated, if_pos form]
  · have all := Tight.call (.of_word (by decide +kernel : isNameWord "Sep" = true))
      [⟨none, item.text, item.phrase⟩, ⟨none, separator.text, separator.phrase⟩,
        ⟨some "discard_separators", flagText _, flagPhrase flags.discardSeparators⟩,
        ⟨some "allow_trailer", flagText _, flagPhrase flags.allowTrailer⟩,
        ⟨some "allow_empty", flagText _, flagPhrase flags.allowEmpty⟩] (by
      have flag : ∀ {word : String} (b : Bool), isNameWord word = true →
          (Argument.mk (some word) (flagText b) (flagPhrase b)).Shows := fun b isName =>
        ⟨by simpa using IsName.of_word isName, (Tight.flag b).loose⟩
      simp only [List.mem_cons, List.not_mem_nil, or_false, forall_eq_or_imp, forall_eq]
      exact ⟨⟨by simp, h.loose⟩, ⟨by simp, h'.loose⟩, flag _ (by decide +kernel),
        flag _ (by decide +kernel), flag _ (by decide +kernel)⟩)
    refine .of_tight ?_
    rw [text_sep, sepText, if_neg form, phrase_sep, separated, if_neg form]
    have same : ∀ a b x y z : String, "Sep(" ++ a ++ ", " ++ b ++ ", discard_separators=" ++ x ++
        ", allow_trailer=" ++ y ++ ", allow_empty=" ++ z ++ ")" =
        "Sep" ++ "(" ++ ", ".intercalate [a, b, "discard_separators" ++ "=" ++ x,
          "allow_trailer" ++ "=" ++ y, "allow_empty" ++ "=" ++ z] ++ ")" := fun a b x y z => by
      simp [← String.toList_inj]
    rw [same]
    exact all

theorem Shown.call {tag : Tag} {callee : String} {args : List (Option String × Expr)}
    {binding : Binding} (isName : IsName callee) (labels : ∀ arg ∈ args, ∀ name ∈ arg.1, IsName name)
    (shown : ∀ arg ∈ args, arg.2.Shown) : (Expr.call tag callee args binding).Shown := by
  have all := Tight.call isName _ (Shown.arguments shown labels)
  rw [← textArgs_eq, Expr.arguments, List.map_map] at all
  refine .of_tight ?_
  rw [text_call, phrase_call, argPhrases_eq]
  exact all

theorem Shown.operators {tag : Tag} {atom : Expr} {levels : List (Fixity × Expr)} (h : atom.Shown)
    (shown : ∀ level ∈ levels, level.2.Shown) : (Expr.operators tag atom levels).Shown := by
  have each : ∀ arg ∈ levels.map levelArgument, arg.Shows := by
    intro arg mem
    obtain ⟨⟨fixity, e⟩, inside, rfl⟩ := List.mem_map.1 mem
    have isName : isNameWord fixity.name = true := by cases fixity <;> decide +kernel
    have all := Tight.form (.of_word isName) [(e.text, e.phrase)]
      (by simpa using (shown _ inside).loose)
    exact ⟨by simp [levelArgument], Tight.loose all⟩
  have all := Tight.call (.of_word (by decide +kernel : isNameWord "OperatorPrecedence" = true))
    (⟨none, atom.text, atom.phrase⟩ :: levels.map levelArgument) (by
      simpa using ⟨⟨by simp, h.loose⟩, by simpa using each⟩)
  rw [List.map_cons, List.map_cons, ← textLevels_eq, List.map_map] at all
  refine .of_tight ?_
  rw [text_operators, phrase_operators, levelPhrases_eq]
  exact all

theorem Shown.fail {tag : Tag} (message? : Option String) : (Expr.fail tag message?).Shown := by
  have isName : IsName "Fail" := .of_word (by decide +kernel)
  cases message? with
  | none => exact .of_tight (.form isName [] (by simp))
  | some message =>
    refine .of_tight (.form isName
      [(Text.quoteText message, .str .nowhere message false false)] ?_)
    simp only [List.mem_singleton, forall_eq]
    exact Tight.loose <| .of_spells fun tail clear =>
      .str (textLiteral_quoteText message (clear.caseFlag false))

/-- A binding extends as far as possible. -/
theorem Shown.bound {tag : Tag} {name : String} {value body : Expr} (isName : IsName name)
    (h : value.Shown) (h' : body.Shown) : (Expr.bound tag name value body).Shown :=
  .of_loose rfl fun tail clear follow => by
    have inside := h'.loose tail clear follow
    have keyword : Scan.skip (' ' :: 'i' :: 'n' :: ' ' :: (body.text.toList ++ tail)) =
        'i' :: 'n' :: ' ' :: (body.text.toList ++ tail) := by
      rw [skip_blank]
      exact skip_cons (by decide)
    have given := h.loose (' ' :: 'i' :: 'n' :: ' ' :: (body.text.toList ++ tail))
      (.cons (by decide) _) (.of_eq_cons keyword (by decide))
    have named : NameAt (name.toList ++ ' ' :: '=' :: ' ' :: (value.text.toList ++
        ' ' :: 'i' :: 'n' :: ' ' :: (body.text.toList ++ tail))) name _ :=
      ⟨rfl, isName, noWord_cons.2 (by decide)⟩
    have bound := Spells.bound (.of_blank "let" _)
      (by rw [skip_blank, named.opens.skip_eq]; exact named)
      (by rw [skip_blank]; exact skip_cons (by decide))
      (by rw [skip_blank, given.skip_eq]; exact given)
      (by rw [keyword]; exact .of_blank "in" _)
      (by rw [skip_blank, inside.skip_eq]; exact inside) follow
    have text : (Expr.bound tag name value body).text =
        "let " ++ name ++ " = " ++ value.text ++ " in " ++ body.text := rfl
    have phrase : (Expr.bound tag name value body).phrase =
        .bound .nowhere name value.phrase body.phrase := rfl
    rw [text, phrase]
    simpa using bound.mono (by decide : 0 ≤ 6)

/-- **Expressions are shown in the notation of descriptions.** The text of an expression that is
made of phrases spells the phrase that it is shown as. -/
theorem Made.shown {rules : List String} {e : Expr} (h : e.Made True rules) : e.Shown := by
  induction h with
  | @intro e here below ih =>
    cases e with
    | str =>
      exact .of_tight <| .of_spells fun tail clear =>
        .str (textLiteral_literalText _ _ (clear.caseFlag _))
    | regex =>
      exact .of_tight <| .of_spells fun tail clear =>
        .regex (patternLiteral_patternText (here.2 trivial) _ (clear.caseFlag _))
    | ref => exact .of_tight (.ref (here.2 trivial))
    | seq tag items cls? =>
      obtain rfl : cls? = none := here
      exact .seq ih
    | choice tag items =>
      cases items with
      | nil => exact absurd here (by simp [Fresh])
      | cons => exact .choice ih
    | list tag item least most =>
      exact .of_tight ((ih item (by simp [children])).operand.suffixed
        (showsSuffix_repetitionText (here.2 trivial).1 (here.2 trivial).2))
    | sep tag item separator flags =>
      exact .sep flags (ih item (by simp [children])) (ih separator (by simp [children]))
    | opt tag inner =>
      exact .of_tight ((ih inner (by simp [children])).operand.suffixed
        ⟨fun tail => .opt tail, '?', [], rfl, by decide⟩)
    | apply tag left right applyLeft =>
      exact .binary _ (if applyLeft then " <| " else " |> ")
        (by cases applyLeft <;> decide +kernel) (ih left (by simp [children]))
        (ih right (by simp [children])) rfl rfl rfl
    | discard tag left right discardLeft =>
      exact .binary _ (if discardLeft then " >> " else " << ")
        (by cases discardLeft <;> decide +kernel) (ih left (by simp [children]))
        (ih right (by simp [children])) rfl rfl rfl
    | expect tag inner =>
      exact .unary "Expect" (ih inner (by simp [children])) (by decide +kernel) rfl rfl
    | expectNot tag inner =>
      exact .unary "ExpectNot" (ih inner (by simp [children])) (by decide +kernel) rfl rfl
    | fail tag message? => exact .fail message?
    | bound tag name value body =>
      exact .bound (here trivial) (ih value (by simp [children])) (ih body (by simp [children]))
    | satisfying tag inner predicate =>
      exact .binary _ " where " (by decide +kernel) (ih inner (by simp [children]))
        (ih predicate (by simp [children])) rfl rfl rfl
    | skip => exact .skip ih
    | call tag callee args =>
      exact .call (here.2.2 trivial).1 (here.2.2 trivial).2 fun arg mem =>
        ih arg.2 (List.mem_map_of_mem mem)
    | host tag snippet => exact .of_tight <| .of_spells fun tail _ => .host ((here trivial).literal tail)
    | operators tag atom levels =>
      exact .operators (ih atom (by simp [children])) fun level mem =>
        ih level.2 (by simpa [children] using .inr ⟨level.1, mem⟩)

end Expr

end Packrat
