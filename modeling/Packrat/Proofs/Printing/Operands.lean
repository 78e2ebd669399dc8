import Packrat.Host.Reader
import Packrat.Proofs.Printing.Literals

/-
**Operands of host code.**

An operand stands alone where nothing can follow it but the end of the text, or the comma or the
bracket behind an item of a list: no operator begins there, so the readers of all levels hand on what
the tightest one has read.  What a reader refuses is told by the first character to come.

Main definitions:

* `Packrat.Host.Closes` — where an operand may end;
* `Packrat.Host.Term.start` — where the term of a whole text begins.

Main results:

* `Packrat.Host.yields_term` — an operand that stands alone is an expression;
* `Packrat.Host.Term.parse_of_yields` — an expression that is the whole text is its term;
* `Packrat.Host.Term.parse_numeral` — a number in decimal digits stands for itself.
-/

set_option autoImplicit false

namespace Packrat

open Scan

/-! ### The first character -/

section Head

variable {text : String} {cs : List Char}

theorem refuses_symbol_of_head (filled : text.toList ≠ []) (other : cs.head? ≠ text.toList.head?) :
    Refuses (symbol text) cs := refuses_symbol fun starts => by
  obtain ⟨c, w, split⟩ := List.exists_cons_of_ne_nil filled
  obtain ⟨u, rfl⟩ := starts
  simp [split] at other

theorem atWord_of_head (filled : text.toList ≠ []) (other : cs.head? ≠ text.toList.head?) :
    atWord text cs = false := Bool.eq_false_iff.2 fun word => by
  obtain ⟨c, w, split⟩ := List.exists_cons_of_ne_nil filled
  have starts : text.toList <+: cs := atWord_iff.1 word ▸ List.takeWhile_prefix _
  obtain ⟨u, rfl⟩ := starts
  simp [split] at other

theorem refuses_keyword_of_head (filled : text.toList ≠ []) (other : cs.head? ≠ text.toList.head?) :
    Refuses (keyword text) cs := (refuses_lookahead (atWord_of_head filled other)).bind.token

end Head

namespace Host

/-! ### Where an operand ends -/

/-- Where an operand may end: with the text, or before a comma or a bracket. -/
def Closes (rest : List Char) : Prop := ∀ c, rest.head? = some c → c = ',' ∨ c = ']'

theorem closes_nil : Closes [] := nofun

theorem closes_comma (cs : List Char) : Closes (',' :: cs) := fun _ head =>
  .inl (Option.some.inj head).symm

theorem closes_bracket (cs : List Char) : Closes (']' :: cs) := fun _ head =>
  .inr (Option.some.inj head).symm

namespace Closes

variable {rest : List Char} {expr : Reader Term} {α β : Type}

theorem skip_eq (closes : Closes rest) : skip rest = rest := by
  cases rest with
  | nil => rfl
  | cons c rest =>
    refine skip_cons ?_
    rcases closes c rfl with rfl | rfl <;> decide

theorem noDigit (closes : Closes rest) : ∀ c, rest.head? = some c → c.isDigit = false := fun c head => by
  rcases closes c head with rfl | rfl <;> decide

theorem noWord (closes : Closes rest) : NoWord rest := fun c head => by
  rcases closes c head with rfl | rfl <;> decide

/-- A token that begins with another character does not begin here. -/
theorem ne_head (closes : Closes rest) {text : String}
    (plain : text.toList.head?.any (fun c => c != ',' && c != ']') = true) :
    text.toList ≠ [] ∧ rest.head? ≠ text.toList.head? := by
  cases split : text.toList with
  | nil => simp [split] at plain
  | cons c w =>
    refine ⟨by simp, fun same => ?_⟩
    rcases closes c same with rfl | rfl <;> simp [split] at plain

theorem refuses_symbol (closes : Closes rest) {text : String}
    (plain : text.toList.head?.any (fun c => c != ',' && c != ']') = true) :
    Refuses (Scan.symbol text) rest :=
  have other := closes.ne_head plain
  refuses_symbol_of_head other.1 other.2

theorem refuses_keyword (closes : Closes rest) {text : String}
    (plain : text.toList.head?.any (fun c => c != ',' && c != ']') = true) :
    Refuses (Scan.keyword text) rest :=
  have other := closes.ne_head plain
  refuses_keyword_of_head other.1 other.2

theorem refuses_twoWords (closes : Closes rest) {first second : String}
    (plain : first.toList.head?.any (fun c => c != ',' && c != ']') = true) :
    Refuses (Scan.token (Scan.lexeme (twoWords first second))) rest := by
  have other := closes.ne_head plain
  exact .token (refuses_lexeme (by simp [twoWords, atWord_of_head other.1 other.2]))

theorem refuses_trailer (closes : Closes rest) : Refuses (readTrailer expr) rest :=
  .orElse (closes.refuses_symbol (by decide)).bind <|
    .orElse (closes.refuses_symbol (by decide)).bind (closes.refuses_symbol (by decide)).bind

theorem refuses_multiplicative (closes : Closes rest) : Refuses readMultiplicative rest := by
  have star : Refuses ((Scan.lookahead fun cs => !"**".toList.isPrefixOf cs) *> Scan.symbol "*") rest :=
    .of_run fun c u c' at' run => by
      obtain ⟨_, c₁, look, found⟩ := run_seqRight_some.1 run
      obtain ⟨-, rfl⟩ := run_lookahead_some.1 look
      rw [closes.refuses_symbol (by decide) c₁ at'] at found
      cases found
  exact .orElse (closes.refuses_symbol (by decide)).seqRight <| .orElse star.seqRight <|
    .orElse (closes.refuses_symbol (by decide)).seqRight
      (closes.refuses_symbol (by decide)).seqRight

theorem refuses_additive (closes : Closes rest) : Refuses readAdditive rest :=
  .orElse (closes.refuses_symbol (by decide)).seqRight (closes.refuses_symbol (by decide)).seqRight

theorem refuses_comparison (closes : Closes rest) : Refuses readComparison rest := by
  have sign {text : String} (op : Comparison)
      (plain : text.toList.head?.any (fun c => c != ',' && c != ']') = true) :
      Refuses (Scan.symbol text *> pure op) rest := (closes.refuses_symbol plain).seqRight
  exact .orElse (sign _ (by decide)) <| .orElse (sign _ (by decide)) <| .orElse (sign _ (by decide)) <|
    .orElse (sign _ (by decide)) <| .orElse (sign _ (by decide)) <| .orElse (sign _ (by decide)) <|
    .orElse (closes.refuses_twoWords (by decide)).seqRight <|
    .orElse (closes.refuses_keyword (by decide)).seqRight <|
    .orElse (closes.refuses_twoWords (by decide)).seqRight
      (closes.refuses_keyword (by decide)).seqRight

end Closes

/-! ### Levels -/

section Levels

variable {α β : Type} {cs mid rest : List Char} {t : Term}

theorem yields_many_nil {r : Reader α} (no : Refuses r cs) : Yields (Scan.many r) cs [] cs :=
  (ReadsOn.nil no ⟨rfl, rfl⟩).many

theorem yields_chain {r : Reader α} {operator : Reader β} {x : α} (h : Yields r cs x rest)
    (no : Refuses operator rest) : Yields (Scan.chain r operator) cs (x, []) rest :=
  h.bind <| (yields_many_nil no.bind).bind Yields.pure

/-- An atom behind its signs. -/
theorem yields_signed {expr : Reader Term} {signs : List UnaryOp}
    (signed : Yields (Scan.many readSign) cs signs mid) (atom : Yields (readAtom expr) mid t rest)
    (closes : Closes rest) : Yields (readSigned expr) cs (applySigns signs t) rest := by
  have suffixed : Yields (Host.readSuffixed expr) mid t rest :=
    atom.bind <| (yields_many_nil closes.refuses_trailer).bind Yields.pure
  have operand : Yields (do
      let signs ← Scan.many readSign
      let base ← Host.readSuffixed expr
      pure (signs, base)) cs (signs, t) rest := signed.bind (suffixed.bind Yields.pure)
  exact (yields_chain operand (closes.refuses_symbol (by decide))).bind Yields.pure

theorem refuses_sign (minus : cs.head? ≠ some '-') (plus : cs.head? ≠ some '+') :
    Refuses readSign cs :=
  .orElse (refuses_symbol_of_head (by decide) minus).seqRight
    (refuses_symbol_of_head (by decide) plus).seqRight

/-- Where no sign begins there is none. -/
theorem yields_noSign (minus : cs.head? ≠ some '-') (plus : cs.head? ≠ some '+') :
    Yields (Scan.many readSign) cs [] cs := yields_many_nil (refuses_sign minus plus)

/-- A minus alone. -/
theorem yields_minus (solid : skip cs = cs) (minus : cs.head? ≠ some '-')
    (plus : cs.head? ≠ some '+') : Yields (Scan.many readSign) ('-' :: cs) [.neg] cs := by
  have one : Yields readSign ('-' :: cs) .neg (skip cs) :=
    Reads.orElse_left ((yields_symbol "-" cs).seqRight Yields.pure)
  rw [solid] at one
  refine ReadsOn.many (.cons (one.mono fun op left out => ?_))
  obtain ⟨rfl, rfl⟩ := out
  exact ⟨by simp, .nil (refuses_sign minus plus) ⟨rfl, rfl⟩⟩

/-- An operand that stands alone is an expression. -/
theorem yields_term {depth : Nat} (operand : Yields (readSigned (readTerm depth)) cs t rest)
    (closes : Closes rest) (noLambda : cs.head? ≠ some 'l') (noNot : cs.head? ≠ some 'n') :
    Yields (readTerm (depth + 1)) cs t rest := by
  have product : Yields (readProduct (readTerm depth)) cs t rest :=
    (yields_chain operand closes.refuses_multiplicative).bind Yields.pure
  have sum : Yields (readSum (readTerm depth)) cs t rest :=
    (yields_chain product closes.refuses_additive).bind Yields.pure
  have negated : Yields (readNegated (readTerm depth)) cs t rest :=
    (yields_many_nil (refuses_keyword_of_head (by decide) noNot)).bind <|
      (yields_chain sum closes.refuses_comparison).bind Yields.pure
  have conjunction : Yields (readConjunction (readTerm depth)) cs t rest :=
    (yields_chain negated (closes.refuses_keyword (by decide))).bind Yields.pure
  have disjunction : Yields (readDisjunction (readTerm depth)) cs t rest :=
    (yields_chain conjunction (closes.refuses_keyword (by decide))).bind Yields.pure
  exact Reads.orElse_right (refuses_keyword_of_head (by decide) noLambda).bind <|
    disjunction.bind <| Reads.orElse_right (closes.refuses_keyword (by decide)).bind Yields.pure

end Levels

/-! ### Numerals -/

/-- A float literal without a point has an exponent. -/
theorem floatLength_plain {cs : List Char} (plain : (cs.drop (digitLength cs)).head? ≠ some '.') :
    floatLength cs = if digitLength cs = 0 then none
      else (exponentLength (cs.drop (digitLength cs))).map (digitLength cs + ·) := by
  rw [floatLength]
  split
  · next places point => simp [point] at plain
  · simp

section Numerals

variable {cs rest : List Char} {n : Nat}

/-- Where neither a digit nor a point begins there is no number. -/
theorem refuses_number (noDigit : ∀ c, cs.head? = some c → c.isDigit = false)
    (noPoint : cs.head? ≠ some '.') : Refuses readFloatLiteral cs ∧ Refuses readInteger cs := by
  have none : digitLength cs = 0 := by
    cases cs with
    | nil => rfl
    | cons c cs => simp [digitLength, noDigit c rfl]
  constructor
  · refine Refuses.bind (Refuses.token (refuses_lexeme ?_))
    rw [floatLength_plain (by rwa [none]), if_pos none]
  · have digits : Refuses bareDigits cs := refuses_lexeme (by simp [none])
    exact .bind_next (P := fun _ t => t = cs) (fun c hc => ⟨c.offset, c, rfl, hc, rfl⟩)
      fun _ _ left => left ▸ digits.bind

theorem yields_integer (numeral : Numeral 0x8000000000000000 cs n rest) (closes : Closes rest) :
    Yields readInteger cs (.literal (.int (Int64.ofNat n))) rest := by
  obtain ⟨filled, isDigit, ends, below⟩ := numeral
  rename_i digits
  have measured : (if digitLength (digits ++ rest) == 0 then none
      else some (digitLength (digits ++ rest))) = some digits.length := by
    rw [digitLength, takeWhile_append isDigit ends]
    simpa using filled
  refine Reads.offset fun _ => (yields_lexeme measured).bind <| Reads.offset fun _ => ?_
  simp only [below, if_true]
  have behind := yields_blanks rest
  rw [closes.skip_eq] at behind
  exact behind.bind Yields.pure

/-- A numeral is no float literal. -/
theorem refuses_float (numeral : Numeral 0x8000000000000000 cs n rest) (closes : Closes rest) :
    Refuses readFloatLiteral cs := by
  obtain ⟨filled, isDigit, ends, below⟩ := numeral
  rename_i digits
  have left : (digits ++ rest).drop (digitLength (digits ++ rest)) = rest := by
    rw [digitLength, takeWhile_append isDigit ends, List.drop_left]
  have noExponent : exponentLength rest = none := by
    cases rest with
    | nil => rfl
    | cons c rest => rcases closes c rfl with rfl | rfl <;> rfl
  have noPoint : rest.head? ≠ some '.' := fun head => by simpa using closes '.' head
  refine Refuses.bind (Refuses.token (refuses_lexeme ?_))
  rw [floatLength_plain (by rwa [left]), left, noExponent]
  split <;> rfl

/-- A numeral is an atom. -/
theorem yields_numeralAtom {expr : Reader Term} (numeral : Numeral 0x8000000000000000 cs n rest)
    (closes : Closes rest) : Yields (readAtom expr) cs (.literal (.int (Int64.ofNat n))) rest :=
  Reads.orElse_left <| Reads.orElse_right (refuses_float numeral closes) <|
    Reads.orElse_left (yields_integer numeral closes)

theorem toList_numeral (n : Nat) : ∀ c ∈ (toString n).toList, c.isDigit = true := by
  rw [Nat.toString_eq_ofList_toDigits, String.toList_ofList]
  exact fun c => Nat.isDigit_of_mem_toDigits (by decide) (by decide)

/-- A numeral begins with a digit. -/
theorem ne_head_of_numeral {limit : Nat} (numeral : Numeral limit cs n rest) {c : Char}
    (other : c.isDigit = false) : cs.head? ≠ some c := fun head => by
  obtain ⟨filled, isDigit, -, -⟩ := numeral
  rename_i digits
  obtain ⟨d, ds, rfl⟩ := List.exists_cons_of_ne_nil filled
  obtain rfl : d = c := by simpa using head
  simp [isDigit d (by simp)] at other

theorem yields_numeralTerm (numeral : Numeral 0x8000000000000000 cs n rest) (closes : Closes rest)
    (depth : Nat) : Yields (readTerm (depth + 1)) cs (.literal (.int (Int64.ofNat n))) rest := by
  have noSign : Yields (Scan.many readSign) cs [] cs :=
    yields_noSign (ne_head_of_numeral numeral (by decide)) (ne_head_of_numeral numeral (by decide))
  exact yields_term (yields_signed noSign (yields_numeralAtom numeral closes) closes) closes
    (ne_head_of_numeral numeral (by decide)) (ne_head_of_numeral numeral (by decide))

end Numerals

/-! ### Whole texts -/

/-- Where the term of a text begins. -/
def Term.start (source : String) : Cursor :=
  (Cursor.mk source.toList 0 none).advance (blankLength false source.toList)

@[simp] theorem Term.start_rest (source : String) : (start source).rest = skip source.toList := rfl

@[simp] theorem Term.start_misfit? (source : String) : (start source).misfit? = none := rfl

theorem Term.parse_eq_ok {source : String} {t : Term} : Term.parse source = .ok t ↔
    ∃ c, (readTerm ((skip source.toList).length + 1)).run (start source) = some (t, c) ∧
      c.rest = [] ∧ c.misfit? = none := by
  have whole : (Scan.blanks *> readExpression).run ⟨source.toList, 0, none⟩ =
      (readTerm ((skip source.toList).length + 1)).run (start source) := by
    rw [run_seqRight, run_blanks]
    rfl
  rw [Term.parse, Term.read?, readAll, whole]
  cases (readTerm ((skip source.toList).length + 1)).run (start source) with
  | none => simp
  | some out =>
    obtain ⟨x, ⟨rest, offset, misfit?⟩⟩ := out
    cases rest with
    | nil => cases misfit? <;> simp [fitting]
    | cons c rest => simp

/-- An expression that is the whole text is its term. -/
theorem Term.parse_of_yields {source : String} {t : Term}
    (h : Yields (readTerm ((skip source.toList).length + 1)) (skip source.toList) t []) :
    Term.parse source = .ok t := by
  obtain ⟨_, c, run, ⟨rfl, left⟩, misfit⟩ := h (start source) rfl
  exact Term.parse_eq_ok.2 ⟨c, run, left, misfit⟩

/-- A number in decimal digits stands for itself. -/
theorem Term.parse_numeral {n : Nat} (fits : n < 0x8000000000000000) :
    Term.parse (toString n) = .ok (.literal (.int (Int64.ofNat n))) := by
  have numeral : Numeral _ ((toString n).toList ++ []) n [] := numeral_toString fits (by simp)
  rw [List.append_nil] at numeral
  refine Term.parse_of_yields ?_
  rw [numeral.skip_eq]
  exact yields_numeralTerm numeral closes_nil _

end Host

end Packrat
