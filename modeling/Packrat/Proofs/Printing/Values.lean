import Packrat.Host.Eval
import Packrat.Proofs.Printing.Operands

/-
**Values read back.**

A value made of `None`, truth values, integers, texts and lists is shown as an expression of host code
that comes to an equal value wherever it is evaluated.  The text of such a value is an operand: whatever
comma, bracket or end of the text follows it, the readers of expressions take it and no more.  Texts are
read back escape by escape, and a negative integer as the negation of the natural one, so the least
integer, whose negation is no literal, is left out.

Main definitions:

* `Packrat.Value.Plain` — values made of what has literals, and of lists;
* `Packrat.Host.Term.Denotes` — terms that come to a certain value everywhere;
* `Packrat.Host.ReadsBack` — values whose texts are operands that denote them.

Main results:

* `Packrat.Value.Plain.readsBack` — texts of plain values are such operands, nested or not;
* `Packrat.Value.repr_reads_back` — **the text of a plain value evaluates to an equal value**.
-/

set_option autoImplicit false

namespace Packrat

open Scan

/-- A value made of `None`, truth values, integers other than the least one, texts, and lists of such
values. -/
inductive Value.Plain : Value → Prop
  | none : Plain .none
  | bool (b : Bool) : Plain (.bool b)
  | int {n : Int64} (least : n ≠ Int64.minValue) : Plain (.int n)
  | str (s : String) : Plain (.str s)
  | list (id : Nat) {items : List Value} (plain : ∀ v ∈ items, Plain v) : Plain (.list id items)

/-! ### Texts of lists -/

namespace Value

variable {items : List Value}

theorem reprAll_eq (items : List Value) : reprAll items = items.map repr := by
  induction items with
  | nil => rfl
  | cons v items ih => rw [reprAll, ih, List.map_cons]

/-- The texts of the items behind the first one, each with the comma before it. -/
def laterText (items : List Value) : List Char := items.flatMap fun v => ", ".toList ++ v.repr.toList

/-- The texts of items with commas between them. -/
def itemsText : List Value → List Char
  | [] => []
  | v :: items => v.repr.toList ++ laterText items

theorem toList_repr_list (id : Nat) (items : List Value) :
    (Value.list id items).repr.toList = '[' :: (itemsText items ++ [']']) := by
  rw [repr_list, reprAll_eq, String.toList_append, String.toList_append, String.toList_intercalate,
    List.map_map]
  cases items with
  | nil => rfl
  | cons v items =>
    rw [List.map_cons, List.intercalate_cons_eq, List.flatMap_map]
    rfl

/-- An item is shorter than the list that it stands in. -/
theorem length_repr_lt {v : Value} (id : Nat) (mem : v ∈ items) :
    v.repr.toList.length < (Value.list id items).repr.toList.length := by
  have later : ∀ {items : List Value}, v ∈ items → v.repr.toList.length ≤ (laterText items).length :=
    fun {items} mem => by
      obtain ⟨before, after, rfl⟩ := List.append_of_mem mem
      simp [laterText]
      omega
  have inside : v.repr.toList.length ≤ (itemsText items).length := by
    cases mem with
    | head => simp [itemsText]
    | tail _ mem =>
      have := later mem
      simp only [itemsText, List.length_append]
      omega
  rw [toList_repr_list, List.length_cons, List.length_append]
  omega

end Value

namespace Host

/-! ### What terms denote -/

/-- A term comes to a value equal to a certain one wherever it is evaluated. -/
def Term.Denotes (t : Term) (v : Value) : Prop :=
  ∀ compare call env n, ∃ w n', (t.evalWith compare call env).run n = .ok (w, n') ∧ w.eq v = true

theorem Term.denotes_literal {s : Scalar} {v : Value} (same : s.value.eq v = true) :
    (Term.literal s).Denotes v := fun compare call env n =>
  ⟨s.value, n, by rw [evalWith]; rfl, same⟩

theorem evalAll_denotes {ts : List Term} {vs : List Value} (h : List.Forall₂ Term.Denotes ts vs)
    (compare : Compare) (call : Call) (env : Env) (n : Nat) :
    ∃ ws n', (evalAll compare call env ts).run n = .ok (ws, n') ∧ Value.eqAll ws vs = true := by
  induction h generalizing n with
  | nil => exact ⟨[], n, by rw [evalAll]; rfl, rfl⟩
  | @cons t v ts vs denotes _ ih =>
    obtain ⟨w, n₁, run, same⟩ := denotes compare call env n
    obtain ⟨ws, n₂, runs, sames⟩ := ih n₁
    refine ⟨w :: ws, n₂, ?_, by rw [Value.eqAll, same, sames]; rfl⟩
    rw [evalAll, StateT.run_bind, run]
    change ((evalAll compare call env ts).run n₁ >>= _) = _
    rw [runs]
    rfl

theorem Term.denotes_list {ts : List Term} {vs : List Value} (id : Nat)
    (h : List.Forall₂ Term.Denotes ts vs) : (Term.list ts).Denotes (.list id vs) :=
  fun compare call env n => by
    obtain ⟨ws, n', runs, sames⟩ := evalAll_denotes h compare call env n
    refine ⟨.list n' ws, n' + 1, ?_, by rw [Value.eq, sames, Bool.or_true]⟩
    rw [evalWith, StateT.run_bind, runs]
    rfl

/-- A natural number below the limit stands for the integer of the same value. -/
theorem ofNat_toInt {n : Int64} {m : Nat} (same : n.toInt = m) : Int64.ofNat m = n := by
  rw [← Int64.ofInt_toInt n, same]
  rfl

/-- The negation of a literal denotes the negative integer. -/
theorem Term.denotes_negative {n : Int64} {m : Nat} (same : n.toInt = -m)
    (below : m < 0x8000000000000000) :
    (Term.unary .neg (.literal (.int (Int64.ofNat m)))).Denotes (.int n) := fun compare call env k => by
  have literal : (Int64.ofNat m).toInt = m := Int64.toInt_ofNat_of_lt below
  have fit : fit? (-(Int64.ofNat m).toInt) = some n := by
    rw [literal, ← same, fit?, if_pos ⟨n.le_toInt, n.toInt_lt⟩, Int64.ofInt_toInt]
  have negated : unaryOp .neg (.int (Int64.ofNat m)) = .ok (.int n) := by
    rw [unaryOp, exactly, fit]
  refine ⟨.int n, k, ?_, by rw [Value.eq, beq_self_eq_true]⟩
  rw [evalWith, evalWith, Scalar.value, pure_bind, negated]
  rfl

/-! ### Literals -/

section Literals

variable {c : Char} {cs rest : List Char}

/-- A character with which neither a number nor a text begins. -/
def BeginsWord (c : Char) : Prop := c.isDigit = false ∧ c ∉ ['.', '"', '\'']

instance (c : Char) : Decidable (BeginsWord c) := inferInstanceAs (Decidable (_ ∧ _))

theorem BeginsWord.refuses (begins : BeginsWord c) (cs : List Char) :
    Refuses readFloatLiteral (c :: cs) ∧ Refuses readInteger (c :: cs) ∧
      Refuses bareQuoted (c :: cs) := by
  obtain ⟨digit, other⟩ := begins
  simp only [List.mem_cons, List.not_mem_nil, or_false, not_or] at other
  obtain ⟨point, double, single⟩ := other
  have number : Refuses readFloatLiteral (c :: cs) ∧ Refuses readInteger (c :: cs) :=
    refuses_number (by simpa using digit) (by simpa using point)
  have quote {q : Char} (ne : c ≠ q) : Refuses (quotedBody q) (c :: cs) :=
    (refuses_literal (by simpa using ne.symm)).bind
  exact ⟨number.1, number.2, ((quote double).orElse (quote single)).bind⟩

/-- A word that is a literal, where nothing continues it. -/
theorem yields_word {word : String} {s : Scalar} (isWord : word.toList.all isWordChar = true)
    (closes : Closes rest) :
    Yields (keyword word *> pure (Term.literal s)) (word.toList ++ rest) (.literal s) rest := by
  have read : Yields (keyword word) (word.toList ++ rest) () (skip rest) :=
    yields_keyword ⟨rfl, closes.noWord⟩ isWord
  rw [closes.skip_eq] at read
  exact read.seqRight Yields.pure

theorem refuses_word {word : String} {s : Scalar} (filled : word.toList ≠ [])
    (other : some c ≠ word.toList.head?) :
    Refuses (keyword word *> pure (Term.literal s)) (c :: cs) :=
  (refuses_keyword_of_head filled (by simpa using other)).seqRight

theorem yields_none (closes : Closes rest) :
    Yields readLiteral ("None".toList ++ rest) (.literal .none) rest := by
  have begins : BeginsWord 'N' := by decide
  obtain ⟨float, integer, quoted⟩ := begins.refuses ("one".toList ++ rest)
  exact .orElse_right float <| .orElse_right integer <| .orElse_right quoted.token.bind <|
    .orElse_left (yields_word (by decide) closes)

theorem yields_bool (b : Bool) (closes : Closes rest) :
    Yields readLiteral ((if b then "True" else "False").toList ++ rest) (.literal (.bool b)) rest := by
  cases b with
  | true =>
    have begins : BeginsWord 'T' := by decide
    obtain ⟨float, integer, quoted⟩ := begins.refuses ("rue".toList ++ rest)
    exact .orElse_right float <| .orElse_right integer <| .orElse_right quoted.token.bind <|
      .orElse_right (refuses_word (by decide) (by decide)) <|
      .orElse_left (yields_word (by decide) closes)
  | false =>
    have begins : BeginsWord 'F' := by decide
    obtain ⟨float, integer, quoted⟩ := begins.refuses ("alse".toList ++ rest)
    exact .orElse_right float <| .orElse_right integer <| .orElse_right quoted.token.bind <|
      .orElse_right (refuses_word (by decide) (by decide)) <|
      .orElse_right (refuses_word (by decide) (by decide)) (yields_word (by decide) closes)

/-- The quoted form of a text is a literal that stands for the text. -/
theorem yields_text (s : String) (closes : Closes rest) :
    Yields readLiteral ((Text.quoteText s).toList ++ rest) (.literal (.str s)) rest := by
  have mark := Text.quoteMark_eq_or s.toList
  have escaped := fun c (_ : c ∈ s.toList) => Text.escaped_escapeChar mark c
  have quoted := yields_quoted mark rest (Text.enclosed_flatMap mark escaped)
  rw [Text.unescape_flatMap escaped, String.ofList_toList] at quoted
  have token := quoted.token
  rw [closes.skip_eq] at token
  have shown : (Text.quoteText s).toList ++ rest = Text.quoteMark s.toList ::
      s.toList.flatMap (Text.escapeChar (Text.quoteMark s.toList)) ++
        Text.quoteMark s.toList :: rest := by
    simp [Text.quoteText, Text.quoteChars]
  rw [← shown] at token
  have head : ((Text.quoteText s).toList ++ rest).head? = some (Text.quoteMark s.toList) := by
    rw [shown]
    rfl
  obtain ⟨float, integer⟩ : Refuses readFloatLiteral ((Text.quoteText s).toList ++ rest) ∧
      Refuses readInteger ((Text.quoteText s).toList ++ rest) := by
    refine refuses_number ?_ ?_ <;> rw [head] <;> rcases mark with mark | mark <;> simp [mark]
  exact .orElse_right float <| .orElse_right integer <| .orElse_left <| token.bind Yields.pure

theorem BeginsWord.refuses_literal (begins : BeginsWord c) (other : c ∉ ['N', 'T', 'F']) :
    Refuses readLiteral (c :: cs) := by
  obtain ⟨float, integer, quoted⟩ := begins.refuses cs
  simp only [List.mem_cons, List.not_mem_nil, or_false, not_or] at other
  obtain ⟨none, true', false'⟩ := other
  exact .orElse float <| .orElse integer <| .orElse quoted.token.bind <|
    .orElse (refuses_word (by decide) (by simpa using none)) <|
    .orElse (refuses_word (by decide) (by simpa using true'))
      (refuses_word (by decide) (by simpa using false'))

end Literals

/-! ### Lists -/

section Lists

variable {rest : List Char}

/-- No expression begins with a bracket that closes. -/
theorem refuses_term_bracket (depth : Nat) : Refuses (readTerm depth) (']' :: rest) := by
  cases depth with
  | zero => exact .failure
  | succ depth =>
    have noSymbol {text : String} (filled : text.toList ≠ []) (other : some ']' ≠ text.toList.head?) :
        Refuses (symbol text) (']' :: rest) := refuses_symbol_of_head filled other
    have noName : Refuses readName (']' :: rest) :=
      .token (.bind (refuses_lexeme (by simp [wordLength, isWordChar])))
    have noAtom : Refuses (readAtom (readTerm depth)) (']' :: rest) :=
      .orElse (BeginsWord.refuses_literal (by decide) (by decide)) <|
        .orElse (noSymbol (by decide) (by decide)).bind <|
        .orElse (noSymbol (by decide) (by decide)).bind noName.bind
    have noSigned : Refuses (readSigned (readTerm depth)) (']' :: rest) :=
      .bind <| .bind <| .bind_next (yields_noSign (by simp) (by simp)) fun _ _ out =>
        out.2 ▸ noAtom.bind.bind
    have noSum : Refuses (readSum (readTerm depth)) (']' :: rest) :=
      have noProduct : Refuses (readProduct (readTerm depth)) (']' :: rest) := noSigned.bind.bind
      noProduct.bind.bind
    have noWord {text : String} (filled : text.toList ≠ []) (other : some ']' ≠ text.toList.head?) :
        Refuses (keyword text) (']' :: rest) := refuses_keyword_of_head filled other
    have noNegated : Refuses (readNegated (readTerm depth)) (']' :: rest) :=
      .bind_next (yields_many_nil (noWord (by decide) (by decide))) fun _ _ out =>
        out.2 ▸ noSum.bind.bind
    have noDisjunction : Refuses (readDisjunction (readTerm depth)) (']' :: rest) :=
      have noConjunction : Refuses (readConjunction (readTerm depth)) (']' :: rest) :=
        noNegated.bind.bind
      noConjunction.bind.bind
    exact .orElse (noWord (by decide) (by decide)).bind noDisjunction.bind

end Lists

/-! ### Texts of values -/

/-- The text of a value is an expression that denotes the value, wherever an operand may end behind
it. -/
structure ReadsBack (v : Value) (depth : Nat) : Prop where
  solid : ∃ c w, v.repr.toList = c :: w ∧ Solid c
  reads : ∀ rest, Closes rest →
    ∃ t, Yields (readTerm (depth + 1)) (v.repr.toList ++ rest) t rest ∧ t.Denotes v

variable {v : Value} {items : List Value} {depth : Nat}

/-- A text that is an atom has no sign and begins with no word that is an operator. -/
theorem ReadsBack.of_atom {c : Char} {w : List Char} (split : v.repr.toList = c :: w)
    (plain : Solid c ∧ c ∉ ['-', '+', 'l', 'n'])
    (atom : ∀ rest, Closes rest →
      ∃ t, Yields (readAtom (readTerm depth)) (v.repr.toList ++ rest) t rest ∧ t.Denotes v) :
    ReadsBack v depth := by
  obtain ⟨solid, other⟩ := plain
  simp only [List.mem_cons, List.not_mem_nil, or_false, not_or] at other
  obtain ⟨minus, plus, letterL, letterN⟩ := other
  refine ⟨⟨c, w, split, solid⟩, fun rest closes => ?_⟩
  obtain ⟨t, read, denotes⟩ := atom rest closes
  have noSign : Yields (many readSign) (v.repr.toList ++ rest) [] (v.repr.toList ++ rest) :=
    yields_noSign (by simpa [split] using minus) (by simpa [split] using plus)
  exact ⟨t, yields_term (yields_signed noSign read closes) closes (by simpa [split] using letterL)
    (by simpa [split] using letterN), denotes⟩

theorem ReadsBack.of_literal {s : Scalar} {c : Char} {w : List Char} (split : v.repr.toList = c :: w)
    (plain : Solid c ∧ c ∉ ['-', '+', 'l', 'n']) (same : s.value.eq v = true)
    (literal : ∀ rest, Closes rest → Yields readLiteral (v.repr.toList ++ rest) (.literal s) rest) :
    ReadsBack v depth :=
  .of_atom split plain fun rest closes =>
    ⟨.literal s, .orElse_left (literal rest closes), Term.denotes_literal same⟩

theorem ReadsBack.skip_eq (h : ReadsBack v depth) (rest : List Char) :
    skip (v.repr.toList ++ rest) = v.repr.toList ++ rest := by
  obtain ⟨c, w, split, solid⟩ := h.solid
  rw [split, List.cons_append, skip_cons solid]

theorem readsBack_none : ReadsBack .none depth := by
  have shown : Value.none.repr = "None" := by rw [Value.repr]
  refine .of_literal (s := .none) (by rw [shown]; rfl) (by decide) rfl fun rest closes => ?_
  rw [shown]
  exact yields_none closes

theorem readsBack_bool (b : Bool) : ReadsBack (Value.bool b) depth := by
  have shown : (Value.bool b).repr = if b then "True" else "False" := by rw [Value.repr]
  obtain ⟨c, w, split, plain⟩ : ∃ c w, (Value.bool b).repr.toList = c :: w ∧
      Solid c ∧ c ∉ ['-', '+', 'l', 'n'] := by
    rw [shown]
    cases b with
    | true => exact ⟨'T', _, rfl, by decide⟩
    | false => exact ⟨'F', _, rfl, by decide⟩
  refine .of_literal (s := .bool b) split plain (by simp [Scalar.value, Value.eq]) fun rest closes => ?_
  rw [shown]
  exact yields_bool b closes

theorem readsBack_natural {n : Int64} {m : Nat} (same : n.toInt = m) : ReadsBack (Value.int n) depth := by
  have below := n.toInt_lt
  have shown : (Value.int n).repr.toList = (toString m).toList := by rw [Value.repr, same]; rfl
  have numeral (rest : List Char) (ends : ∀ c, rest.head? = some c → c.isDigit = false) :
      Numeral 0x8000000000000000 ((Value.int n).repr.toList ++ rest) m rest :=
    shown ▸ numeral_toString (by omega) ends
  refine ⟨?_, fun rest closes => ⟨_, yields_numeralTerm (numeral rest closes.noDigit) closes depth, ?_⟩⟩
  · obtain ⟨c, w, split⟩ := List.exists_cons_of_ne_nil (l := (toString m).toList)
      (by rw [Nat.toString_eq_ofList_toDigits, String.toList_ofList]; exact Nat.toDigits_ne_nil)
    exact ⟨c, w, shown.trans split, solid_of_isDigit (toList_numeral m c (split ▸ List.mem_cons_self))⟩
  · exact Term.denotes_literal (by rw [ofNat_toInt same]; simp [Scalar.value, Value.eq])

/-- A negative integer is shown as a sign and a numeral. -/
theorem readsBack_negative {n : Int64} {m : Nat} (same : n.toInt = Int.negSucc m)
    (least : n ≠ Int64.minValue) : ReadsBack (Value.int n) depth := by
  have below : m + 1 < 0x8000000000000000 := by
    have := n.le_toInt
    have : n.toInt ≠ Int64.minValue.toInt := fun same => least (Int64.toInt_inj.1 same)
    have bound : Int64.minValue.toInt = -0x8000000000000000 := rfl
    omega
  have shown : (Value.int n).repr.toList = '-' :: (toString (m + 1)).toList := by
    rw [Value.repr, same]
    change ("-" ++ toString (m + 1)).toList = _
    rw [String.toList_append]
    rfl
  refine ⟨⟨_, _, shown, by decide⟩, fun rest closes =>
    ⟨_, ?_, Term.denotes_negative (by omega) below⟩⟩
  have numeral := numeral_toString below closes.noDigit
  have minus := yields_minus numeral.skip_eq (ne_head_of_numeral numeral (by decide))
    (ne_head_of_numeral numeral (by decide))
  rw [shown, List.cons_append]
  exact yields_term (yields_signed minus (yields_numeralAtom numeral closes) closes) closes
    (by simp) (by simp)

theorem readsBack_int {n : Int64} (least : n ≠ Int64.minValue) : ReadsBack (Value.int n) depth := by
  cases same : n.toInt with
  | ofNat m => exact readsBack_natural same
  | negSucc m => exact readsBack_negative same least

theorem readsBack_str (s : String) : ReadsBack (Value.str s) depth := by
  have shown : (Value.str s).repr = Text.quoteText s := by rw [Value.repr]
  obtain ⟨w, split⟩ : ∃ w, (Value.str s).repr.toList = Text.quoteMark s.toList :: w := by
    simp [shown, Text.quoteText, Text.quoteChars]
  refine .of_literal split ?_ (s := .str s) (by simp [Scalar.value, Value.eq]) fun rest closes => ?_
  · rcases Text.quoteMark_eq_or s.toList with mark | mark <;> rw [mark] <;> decide
  · rw [shown]
    exact yields_text s closes

/-! ### Lists -/

theorem closes_laterText (items : List Value) (rest : List Char) :
    Closes (Value.laterText items ++ ']' :: rest) := by
  cases items with
  | nil => exact closes_bracket rest
  | cons v items => exact closes_comma _

/-- The items behind the first one are read one by one, up to the bracket. -/
theorem readsOn_later (back : ∀ v ∈ items, ReadsBack v depth) (rest : List Char) :
    ∃ ts, List.Forall₂ Term.Denotes ts items ∧
      ReadsOn (symbol "," *> readTerm (depth + 1)) (Value.laterText items ++ ']' :: rest) fun us left =>
        us = ts ∧ left = ']' :: rest := by
  induction items with
  | nil => exact ⟨[], .nil, .nil (refuses_symbol (by simp [Value.laterText])).seqRight ⟨rfl, rfl⟩⟩
  | cons v items ih =>
    have first := back v (by simp)
    obtain ⟨t, read, denotes⟩ := first.reads _ (closes_laterText items rest)
    obtain ⟨ts, denote, later⟩ := ih fun u mem => back u (by simp [mem])
    have comma := yields_symbol "," (' ' :: (v.repr.toList ++ (Value.laterText items ++ ']' :: rest)))
    rw [skip_blank, first.skip_eq] at comma
    have split : Value.laterText (v :: items) ++ ']' :: rest =
        ",".toList ++ ' ' :: (v.repr.toList ++ (Value.laterText items ++ ']' :: rest)) := by
      simp [Value.laterText]
    refine ⟨t :: ts, .cons denotes denote, ?_⟩
    rw [split]
    refine .cons (comma.seqRight (read.mono fun u left out => ?_))
    obtain ⟨rfl, rfl⟩ := out
    exact ⟨by simp; omega, later.mono fun us left out => ⟨out.1 ▸ rfl, out.2⟩⟩

theorem yields_items (back : ∀ v ∈ items, ReadsBack v depth) (rest : List Char) :
    ∃ ts, List.Forall₂ Term.Denotes ts items ∧
      Yields (listOf (readTerm (depth + 1)) (symbol ",")) (skip (Value.itemsText items ++ ']' :: rest)) ts
        (']' :: rest) := by
  cases items with
  | nil =>
    rw [Value.itemsText, List.nil_append, skip_cons (by decide)]
    exact ⟨[], .nil, Reads.orElse_right (refuses_term_bracket _).bind.bind Yields.pure⟩
  | cons v items =>
    have first := back v (by simp)
    obtain ⟨t, read, denotes⟩ := first.reads _ (closes_laterText items rest)
    have others : ∀ u ∈ items, ReadsBack u depth := fun u mem => back u (by simp [mem])
    obtain ⟨ts, denote, later⟩ := readsOn_later others rest
    refine ⟨t :: ts, .cons denotes denote, ?_⟩
    rw [Value.itemsText, List.append_assoc, first.skip_eq]
    have all : Yields (sepBy (readTerm (depth + 1)) (symbol ","))
        (v.repr.toList ++ (Value.laterText items ++ ']' :: rest)) (t :: ts) (']' :: rest) :=
      read.bind (later.many.bind fun us left out => .pure ⟨out.1 ▸ rfl, out.2⟩)
    exact Reads.orElse_left <| all.bind <|
      (Yields.attempt_none (refuses_symbol (by simp))).bind Yields.pure

theorem readsBack_list (id : Nat) (back : ∀ v ∈ items, ReadsBack v depth) :
    ReadsBack (Value.list id items) (depth + 1) := by
  refine .of_atom (Value.toList_repr_list id items) (by decide) fun rest closes => ?_
  obtain ⟨ts, denote, read⟩ := yields_items back rest
  refine ⟨.list ts, ?_, Term.denotes_list id denote⟩
  have closing := yields_symbol "]" rest
  rw [closes.skip_eq] at closing
  rw [Value.toList_repr_list, List.cons_append, List.append_assoc]
  exact Reads.orElse_right (BeginsWord.refuses_literal (by decide) (by decide)) <|
    Reads.orElse_left <| (yields_symbol "[" _).bind <| read.bind <| closing.bind Yields.pure

end Host

/-! ### All plain values -/

section

open Host

variable {v : Value} {depth : Nat}

/-- The text of a plain value is an operand of every depth that its length asks for. -/
theorem Value.Plain.readsBack (plain : v.Plain) (enough : v.repr.toList.length ≤ depth) :
    ReadsBack v depth := by
  induction plain generalizing depth with
  | none => exact readsBack_none
  | bool b => exact readsBack_bool b
  | int least => exact readsBack_int least
  | str s => exact readsBack_str s
  | @list id items plain ih =>
    cases depth with
    | zero => simp [Value.toList_repr_list] at enough
    | succ depth =>
      refine readsBack_list id fun u mem => ih u mem ?_
      have := Value.length_repr_lt id mem
      omega

/-- The text of a plain value is an expression of host code, and it comes to an equal value in every
environment; between quotes of either kind, the escapes of a text are read back. -/
theorem Value.repr_reads_back (plain : v.Plain) :
    (∃ t, Host.Term.parse v.repr = .ok t ∧ ∀ lib env n, ∃ w n',
      (t.evalIn lib env).run n = .ok (w, n') ∧ w.eq v = true) ∧
    ∀ quote, quote = '"' ∨ quote = '\'' → ∀ cs : List Char,
      Text.unescape (cs.flatMap (Text.escapeChar quote)) = cs := by
  refine ⟨?_, fun quote mark cs => Text.unescape_flatMap fun c _ => Text.escaped_escapeChar mark c⟩
  have back : ReadsBack v v.repr.toList.length := plain.readsBack (Nat.le_refl _)
  have whole := back.skip_eq []
  rw [List.append_nil] at whole
  obtain ⟨t, read, denotes⟩ := back.reads [] closes_nil
  rw [List.append_nil] at read
  exact ⟨t, Host.Term.parse_of_yields (by rwa [whole]), fun lib env n => denotes _ _ env n⟩

end

/-- A list of values that are hard to read back: a text with both quotes, a comment sign and what looks
like escapes, in a list in a list, beside a negative integer. -/
def Value.nestedValue : Value :=
  .list 0 [.none, .bool true, .int (-7), .list 1 [.str "it's \"#\\x41\n", .list 2 []]]

theorem Value.nestedValue_plain : nestedValue.Plain := by
  have inner : ∀ v ∈ [Value.str "it's \"#\\x41\n", .list 2 []], v.Plain := by
    simp only [List.forall_mem_cons]
    exact ⟨.str _, .list 2 nofun, nofun⟩
  refine .list 0 ?_
  simp only [List.forall_mem_cons]
  exact ⟨.none, .bool true, .int (by decide), .list 1 inner, nofun⟩

theorem Value.repr_reads_back_nested : nestedValue.Plain ∧
    ∃ t, Host.Term.parse nestedValue.repr = .ok t ∧ ∀ lib env n, ∃ w n',
      (t.evalIn lib env).run n = .ok (w, n') ∧ w.eq nestedValue = true :=
  ⟨nestedValue_plain, (repr_reads_back nestedValue_plain).1⟩

end Packrat
