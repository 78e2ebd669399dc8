import Packrat.Proofs.Notation.Tokens

/-
**The grammar of phrases as an equation.**

The reader of phrases is bounded by a depth of nesting, which never is the reason for what it does:
nested phrases are shorter than the phrase around them.  So the reader of whole phrases is the reader
of the loosest operators over itself.

Main definitions:

* `Packrat.stage` — the readers of the stages of the grammar;
* `Packrat.Scan.AgreeBelow` — readers that do the same on short texts.

Main results:

* `Packrat.readWholePhrase_eq` — the equation of the grammar;
* `Packrat.Scan.Steady.wholePhrase` — reading moves over the text.
-/

set_option autoImplicit false

namespace Packrat

open Scan

/-- The readers of the stages: phrases without operators, with operators behind them, and chains of
operators of each level. -/
def stage (phrase : Reader Phrase) : Nat → Reader Phrase
  | 0 => readPrimary phrase
  | 1 => readSuffixed phrase
  | level + 2 => readLevel (stage phrase (level + 1)) (levelOperator level)

theorem readPhrase_succ (depth : Nat) : readPhrase (depth + 1) = stage (readPhrase depth) 6 := rfl

/-! ### Reading moves over the text -/

section Steady

theorem Scan.Steady.bareIdentifier (reserved : List String) :
    Steady (bareIdentifier reserved) := (lexeme _).bind fun _ => pure _

theorem Scan.Steady.identifier : Steady readIdentifier := (bareIdentifier _).token

theorem Scan.Steady.callee : Steady readCallee :=
  (bareIdentifier _).bind fun _ => (lookahead _).bind fun _ => pure _

theorem Scan.Steady.spanned {α : Type} {r : Reader α} (h : Steady r) : Steady (spanned r) :=
  offset.bind fun _ => h.bind fun _ => offset.bind fun _ => pure _

theorem Scan.Steady.quotedBody (quote : Char) : Steady (quotedBody quote) :=
  (literal _).bind fun _ => (lexeme _).bind fun _ => (literal _).bind fun _ => pure _

theorem Scan.Steady.bareHost : Steady bareHost :=
  (literal _).bind fun _ => (lexeme _).bind fun _ => (literal _).bind fun _ => pure _

theorem Scan.Steady.caseFlag : Steady readCaseFlag :=
  ((lookahead _).bind fun _ => literal _).attempt.bind fun _ => pure _

theorem Scan.Steady.binaryFlag : Steady readBinaryFlag := (literal _).attempt.bind fun _ => pure _

theorem Scan.Steady.textLiteral : Steady readTextLiteral :=
  (binaryFlag.bind fun _ => (((quotedBody _).orElse (quotedBody _)).bind fun _ => pure _).bind
    fun _ => caseFlag.bind fun _ => pure _).spanned.bind fun _ => pure _

theorem Scan.Steady.patternLiteral : Steady readPatternLiteral :=
  (binaryFlag.bind fun _ => (literal _).bind fun _ => (lexeme _).bind fun _ => (literal _).bind
    fun _ => caseFlag.bind fun _ => pure _).spanned.bind fun _ => pure _

theorem Scan.Steady.noteMisfit (misfit : Misfit) : Steady (noteMisfit misfit) :=
  fun c u c' run => by
    obtain rfl := (Prod.mk.inj (Option.some.inj run)).2
    refine ⟨List.suffix_refl _, rfl, fun none => ?_⟩
    cases found : c.misfit? <;> simp [found] at none ⊢

theorem Scan.Steady.numeral (limit : Nat) (isBound : Bool) : Steady (bareNumeral limit isBound) :=
  offset.bind fun _ => (lexeme _).bind fun digits => offset.bind fun _ => by
    dsimp only
    split
    · exact pure _
    · exact (noteMisfit _).bind fun _ => pure _

theorem Scan.Steady.bound : Steady readBound :=
  (((numeral _ _).bind fun _ => pure _).orElse (bareHost.bind fun _ => pure _)).token

theorem Scan.Steady.suffix : Steady readSuffix :=
  (((literal _).seqRight (pure _)).orElse <| ((literal _).seqRight (pure _)).orElse <|
    ((literal _).seqRight (pure _)).orElse <| (symbol _).bind fun _ => bound.attempt.bind fun _ =>
    (symbol _).attempt.bind fun comma => by
      cases comma with
      | none => exact (pure _).bind fun _ => (literal _).bind fun _ => pure _
      | some _ => exact bound.attempt.bind fun _ => (literal _).bind fun _ => pure _).spanned

theorem Scan.Steady.operator (level : Nat) : Steady (levelOperator level) := by
  match level with
  | 0 => exact (keyword _).seqRight (pure _)
  | 1 | 2 | 3 => exact ((symbol _).seqRight (pure _)).orElse ((symbol _).seqRight (pure _))
  | _ + 4 => exact ((lookahead _).seqRight (symbol _)).seqRight (pure _)

variable {phrase : Reader Phrase}

theorem Scan.Steady.argument (h : Steady phrase) : Steady (readArgument phrase) :=
  (identifier.bind fun _ => (symbol _).bind fun _ => h.token.bind fun _ => pure _).orElse
    (h.token.bind fun _ => pure _)

theorem steadyBinding (h : Steady phrase) : Steady (do
    keyword "let"
    let name ← readIdentifier
    symbol "="
    let value ← token phrase
    keyword "in"
    let body ← phrase
    pure (name, value, body)) :=
  (Steady.keyword _).bind fun _ => Steady.identifier.bind fun _ => (Steady.symbol _).bind fun _ =>
    h.token.bind fun _ => (Steady.keyword _).bind fun _ => h.bind fun _ => .pure _

theorem steadyCall (h : Steady phrase) : Steady (do
    let callee ← readCallee
    symbol "("
    let args ← listOf (readArgument phrase) (symbol ",")
    literal [')']
    pure (callee, args)) :=
  Steady.callee.bind fun _ => (Steady.symbol _).bind fun _ => (h.argument.listOf (.symbol _)).bind
    fun _ => (Steady.literal _).bind fun _ => .pure _

theorem steadySequence (h : Steady phrase) : Steady (do
    symbol "["
    let items ← listOf (token phrase) (symbol ",")
    literal [']']
    pure items) :=
  (Steady.symbol _).bind fun _ => (h.token.listOf (.symbol _)).bind fun _ =>
    (Steady.literal _).bind fun _ => .pure _

theorem Scan.Steady.primary (h : Steady phrase) : Steady (readPrimary phrase) :=
  .orElse ((steadyBinding h).spanned.bind fun _ => pure _) <|
  .orElse ((steadyCall h).spanned.bind fun _ => pure _) <|
  .orElse ((steadySequence h).spanned.bind fun _ => pure _) <|
  .orElse ((symbol _).bind fun _ => h.token.bind fun _ => (literal _).bind fun _ => pure _) <|
  .orElse textLiteral <| .orElse patternLiteral <|
  .orElse (bareHost.spanned.bind fun _ => pure _) <|
  .orElse ((numeral _ _).spanned.bind fun _ => pure _) <|
  (bareIdentifier _).spanned.bind fun _ => pure _

theorem Scan.Steady.chain {α β : Type} {first : Reader α} {next : Reader β} (h : Steady first)
    (h' : Steady next) : Steady (readChain first next) :=
  h.token.bind fun _ => (blanks.seqRight h').many.bind fun _ => pure _

theorem Scan.Steady.stage (h : Steady phrase) (n : Nat) : Steady (stage phrase n) := by
  induction n using Nat.strongRecOn with
  | _ n ih =>
    match n with
    | 0 => exact h.primary
    | 1 => exact (h.primary.chain suffix).bind fun _ => pure _
    | n + 2 =>
      have tighter := ih (n + 1) (by omega)
      exact (tighter.chain ((operator n).bind fun _ => tighter.bind fun _ => pure _)).bind
        fun _ => pure _

theorem Scan.Steady.nested (depth : Nat) : Steady (readPhrase depth) := by
  induction depth with
  | zero => exact failure
  | succ depth ih => exact ih.stage 6

theorem run_wholePhrase (c : Cursor) :
    readWholePhrase.run c = (readPhrase (c.rest.length + 1)).run c := by
  have got : (get : Reader Cursor).run c = some (c, c) := rfl
  rw [readWholePhrase, run_bind, got, Option.bind_some]

theorem Scan.Steady.wholePhrase : Steady readWholePhrase := fun c p c' run =>
  Steady.nested (c.rest.length + 1) c p c' (run_wholePhrase c ▸ run)

end Steady

/-! ### Readers that do the same on short texts -/

namespace Scan

variable {α β : Type}

/-- Readers that do the same on texts of less than so many characters. -/
def AgreeBelow (n : Nat) (r s : Reader α) : Prop :=
  ∀ c : Cursor, c.rest.length < n → r.run c = s.run c

/-- A reader that takes a character at least. -/
def Shrinks (r : Reader α) : Prop :=
  ∀ c x c', r.run c = some (x, c') → c'.rest.length < c.rest.length

theorem Shrinks.symbol {text : String} (filled : text.toList ≠ []) : Shrinks (symbol text) :=
  fun c x c' run => by
    obtain ⟨rest, split, left, -⟩ := run_symbol_some run
    have := List.length_pos_iff.2 filled
    have := skip_length_le rest
    simp only [split, left, List.length_append]
    omega

theorem Shrinks.keyword {word : String} (filled : word.toList ≠ []) : Shrinks (keyword word) :=
  fun c x c' run => by
    obtain ⟨rest, found, left, -⟩ := run_keyword_some run
    have := List.length_pos_iff.2 filled
    have := skip_length_le rest
    simp only [found.split, left, List.length_append]
    omega

theorem Shrinks.callee : Shrinks readCallee := fun c x c' run => by
  obtain ⟨rest, named, left, -⟩ := run_callee_some run
  have := List.length_pos_iff.2 named.isName.filled
  rw [left, named.split, List.length_append]
  omega

namespace AgreeBelow

variable {n : Nat} {r s : Reader α}

theorem refl (r : Reader α) : AgreeBelow n r r := fun _ _ => rfl

theorem bind {f g : α → Reader β} (h : AgreeBelow n r s) (steady : Steady r)
    (next : ∀ x, AgreeBelow n (f x) (g x)) : AgreeBelow n (r >>= f) (s >>= g) := fun c short => by
  rw [run_bind, run_bind, ← h c short]
  cases run : r.run c with
  | none => rfl
  | some out => exact next out.1 out.2 (Nat.lt_of_le_of_lt (steady c _ _ run).suffix.length_le short)

/-- Behind a reader that takes a character, readers need to agree on shorter texts only. -/
theorem after {f g : α → Reader β} (shrinks : Shrinks r) (next : ∀ x, AgreeBelow n (f x) (g x)) :
    AgreeBelow (n + 1) (r >>= f) (r >>= g) := fun c short => by
  rw [run_bind, run_bind]
  cases run : r.run c with
  | none => rfl
  | some out => exact next out.1 out.2 (by have := shrinks c _ _ run; omega)

theorem orElse {r' s' : Reader α} (h : AgreeBelow n r s) (h' : AgreeBelow n r' s') :
    AgreeBelow n (r <|> r') (s <|> s') := fun c short => by
  rw [run_orElse, run_orElse, h c short, h' c short]

theorem seqRight {r' s' : Reader β} (h : AgreeBelow n r s) (steady : Steady r)
    (h' : AgreeBelow n r' s') : AgreeBelow n (r *> r') (s *> s') := fun c short => by
  rw [run_seqRight, run_seqRight, ← h c short]
  cases run : r.run c with
  | none => rfl
  | some out => exact h' out.2 (Nat.lt_of_le_of_lt (steady c _ _ run).suffix.length_le short)

theorem token (h : AgreeBelow n r s) (steady : Steady r) : AgreeBelow n (token r) (token s) :=
  h.bind steady fun _ => refl _

theorem attempt (h : AgreeBelow n r s) : AgreeBelow n (attempt r) (attempt s) := fun c short => by
  have map : ∀ t : Reader α, (some <$> t : Reader (Option α)).run c =
      (t.run c).map fun out => (some out.1, out.2) := fun t => by
    change (t.run c).bind _ = _
    cases t.run c <;> rfl
  rw [Scan.attempt, Scan.attempt, run_orElse, run_orElse, map, map, h c short]

theorem many (h : AgreeBelow n r s) (steady : Steady r) : AgreeBelow n (many r) (many s) := by
  have upTo : ∀ fuel, AgreeBelow n (manyUpTo r fuel) (manyUpTo s fuel) := by
    intro fuel
    induction fuel with
    | zero => exact refl _
    | succ fuel ih =>
      refine h.attempt.bind steady.attempt fun o => ?_
      cases o with
      | none => exact refl _
      | some x =>
        refine ih.bind (fun c xs c' run => (run_manyUpTo_some run).before steady) fun _ => refl _
  exact fun c short => upTo _ c short

theorem spanned (h : AgreeBelow n r s) (steady : Steady r) : AgreeBelow n (spanned r) (spanned s) :=
  (refl _).bind .offset fun _ => h.bind steady fun _ => refl _

theorem listOf {separator : Reader β} (h : AgreeBelow n r s) (steady : Steady r)
    (steady' : Steady separator) : AgreeBelow n (listOf r separator) (listOf s separator) :=
  .orElse (.bind (.bind h steady fun _ => .bind (.many (.seqRight (refl _) steady' h)
    (steady'.seqRight steady)) (steady'.seqRight steady).many fun _ => refl _)
    (steady.sepBy steady') fun _ => refl _) (refl _)

theorem chain {next next' : Reader β} (h : AgreeBelow n r s) (steady : Steady r)
    (h' : AgreeBelow n next next') (steady' : Steady next) :
    AgreeBelow n (readChain r next) (readChain s next') :=
  (h.token steady).bind steady.token fun _ => (AgreeBelow.many ((refl _).seqRight .blanks h')
    (Steady.blanks.seqRight steady')).bind (Steady.blanks.seqRight steady').many fun _ => refl _

end AgreeBelow

end Scan

variable {n : Nat} {f g : Reader Phrase}

theorem Scan.AgreeBelow.argument (h : AgreeBelow n f g) (steady : Steady f) :
    AgreeBelow n (readArgument f) (readArgument g) :=
  .orElse (.bind (refl _) .identifier fun _ => .bind (refl _) (.symbol _) fun _ =>
    (h.token steady).bind steady.token fun _ => refl _)
    ((h.token steady).bind steady.token fun _ => refl _)

/-- Phrases inside of a phrase without operators stand behind a character of it. -/
theorem Scan.AgreeBelow.primary (h : AgreeBelow n f g) (steady : Steady f) :
    AgreeBelow (n + 1) (readPrimary f) (readPrimary g) := by
  have binding : AgreeBelow (n + 1) (readBinding f) (readBinding g) :=
    .bind (.spanned (.after (.keyword (by decide)) fun _ => .bind (refl _) .identifier fun _ =>
      .bind (refl _) (.symbol _) fun _ => .bind (h.token steady) steady.token fun _ =>
      .bind (refl _) (.keyword _) fun _ => h.bind steady fun _ => refl _)
      (steadyBinding steady)) (steadyBinding steady).spanned fun _ => refl _
  have call : AgreeBelow (n + 1) (readCall f) (readCall g) :=
    .bind (.spanned (.after .callee fun _ => .bind (refl _) (.symbol _) fun _ =>
      .bind ((h.argument steady).listOf steady.argument (.symbol _))
        (steady.argument.listOf (.symbol _)) fun _ => refl _)
      (steadyCall steady)) (steadyCall steady).spanned fun _ => refl _
  have sequence : AgreeBelow (n + 1) (readSequence f) (readSequence g) :=
    .bind (.spanned (.after (.symbol (by decide)) fun _ =>
      .bind ((h.token steady).listOf steady.token (.symbol _)) (steady.token.listOf (.symbol _))
        fun _ => refl _)
      (steadySequence steady)) (steadySequence steady).spanned fun _ => refl _
  have group : AgreeBelow (n + 1) (readGroup f) (readGroup g) :=
    .after (.symbol (by decide)) fun _ => .bind (h.token steady) steady.token fun _ => refl _
  exact .orElse binding <| .orElse call <| .orElse sequence <| .orElse group <| refl _

theorem Scan.AgreeBelow.stage (h : AgreeBelow n f g) (steady : Steady f) (k : Nat) :
    AgreeBelow (n + 1) (stage f k) (stage g k) := by
  induction k using Nat.strongRecOn with
  | _ k ih =>
    match k with
    | 0 => exact h.primary steady
    | 1 =>
      exact ((h.primary steady).chain steady.primary (refl _) .suffix).bind
        (steady.primary.chain .suffix) fun _ => refl _
    | k + 2 =>
      have tighter := ih (k + 1) (by omega)
      have steady' : Steady (Packrat.stage f (k + 1)) := steady.stage (k + 1)
      have link : Steady (do
          let op ← levelOperator k
          let right ← Packrat.stage f (k + 1)
          pure (op, right)) := (Steady.operator k).bind fun _ => steady'.bind fun _ => .pure _
      exact (tighter.chain steady' (.bind (refl _) (.operator k) fun _ =>
        tighter.bind steady' fun _ => refl _) link).bind (steady'.chain link) fun _ => refl _

/-- The depth of nesting does not matter where it exceeds the length of the text. -/
theorem agreeBelow_readPhrase {d e : Nat} (le : d ≤ e) :
    AgreeBelow d (readPhrase d) (readPhrase e) := by
  induction d generalizing e with
  | zero => exact fun c short => absurd short (Nat.not_lt_zero _)
  | succ d ih =>
    obtain ⟨e, rfl⟩ : ∃ e', e = e' + 1 := ⟨e - 1, by omega⟩
    exact (ih (by omega : d ≤ e)).stage (.nested d) 6

/-- Whole phrases are read by the loosest stage over themselves. -/
theorem readWholePhrase_eq : readWholePhrase = stage readWholePhrase 6 := by
  refine StateT.ext fun c => ?_
  have below : AgreeBelow c.rest.length readWholePhrase (readPhrase c.rest.length) :=
    fun d short => by
      have longer : d.rest.length + 1 ≤ c.rest.length := by omega
      rw [run_wholePhrase]
      exact agreeBelow_readPhrase longer d (Nat.lt_succ_self _)
  rw [run_wholePhrase, readPhrase_succ]
  exact (below.stage .wholePhrase 6 c (Nat.lt_succ_self _)).symm

end Packrat
