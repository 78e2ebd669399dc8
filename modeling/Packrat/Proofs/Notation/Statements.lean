import Packrat.Proofs.Notation.Cutting
import Packrat.Proofs.Notation.Soundness

/-
**How statements are spelled.**

The notation of rules and classes, as the notation of phrases: what is spelled is read, what was
read is spelled, and a statement is spelled in the same way when the text behind it is cut off.

Main definitions:

* `Packrat.RuleStatement.bare`, `Packrat.ClassStatement.bare` — statements without their spans;
* `Packrat.RuleAt`, `Packrat.ClassAt` — the notation of rules and classes.

Main results:

* `Packrat.RuleAt.reads`, `Packrat.ClassAt.reads` — a statement that is spelled is read;
* `Packrat.ruleAt_of_run`, `Packrat.classAt_of_run` — a statement that was read is spelled;
* `Packrat.RuleAt.cut`, `Packrat.ClassAt.cut` — statements at the end of a text.
-/

set_option autoImplicit false

namespace Packrat

open Scan

/-- The definition of a rule without its spans. -/
def RuleStatement.bare (r : RuleStatement) : RuleStatement :=
  { r with body := r.body.bare, span := .nowhere }

/-- A field without its spans. -/
def FieldStatement.bare (f : FieldStatement) : FieldStatement := ⟨f.name, f.phrase.bare, .nowhere⟩

/-- The definition of a class without its spans. -/
def ClassStatement.bare (c : ClassStatement) : ClassStatement :=
  { c with fields := c.fields.map (·.bare), span := .nowhere }

/-- A statement without its spans. -/
def Statement.bare : Statement → Statement
  | .rule r => .rule r.bare
  | .cls c => .cls c.bare
  | .hostSection source _ => .hostSection source .nowhere

/-! ### The notation -/

/-- The word that marks a statement as ignored, or nothing. -/
inductive IgnoredAt : List Char → Bool → List Char → Prop where
  | yes {cs t : List Char} (word : KeywordAt "ignored" cs t) : IgnoredAt cs true (skip t)
  | no (cs : List Char) : IgnoredAt cs false cs

/-- Parameters in parentheses, with the blanks behind them. -/
inductive ParamsAt : List Char → List String → List Char → Prop where
  | intro {t rest : List Char} {items : List Item} (listed : Listed ')' (skip t) items rest)
      (names : ∀ i ∈ items, ∃ name, NameAt i.start name i.rest ∧
        (i.label, i.phrase) = (some name, .int .nowhere 0)) :
      ParamsAt ('(' :: t) (items.filterMap (·.label)) (skip rest)

/-- The name of a rule, with its parameters if it has any. -/
inductive HeadAt : List Char → String → Option (List String) → List Char → Prop where
  | plain {cs r : List Char} {name : String} (named : NameAt cs name r) :
      HeadAt cs name none (skip r)
  | params {cs t rest : List Char} {name : String} {params : List String}
      (named : NameAt cs name ('(' :: t)) (list : ParamsAt ('(' :: t) params rest) :
      HeadAt cs name (some params) rest

/-- The definition of a rule. -/
inductive RuleAt : List Char → RuleStatement → List Char → Prop where
  | intro {cs c₁ t rest : List Char} {ignored : Bool} {name : String}
      {params : Option (List String)} {body : Phrase} (flag : IgnoredAt cs ignored c₁)
      (head : HeadAt c₁ name params ('=' :: t)) (body' : Spells 6 (skip t) rest body) :
      RuleAt cs ⟨name, params, body, ignored, .nowhere⟩ rest

/-- Parameters, if there are any. -/
inductive ParamsAt? : List Char → Option (List String) → List Char → Prop where
  | none (cs : List Char) : ParamsAt? cs none cs
  | some {cs rest : List Char} {params : List String} (list : ParamsAt cs params rest) :
      ParamsAt? cs (some params) rest

/-- Fields of a class, one after the other. -/
inductive FieldsAt : List Char → List FieldStatement → List Char → Prop where
  | nil (cs : List Char) : FieldsAt cs [] cs
  | cons {cs r t u rest : List Char} {name : String} {p : Phrase} {fields : List FieldStatement}
      (named : NameAt cs name r) (colon : skip r = ':' :: t) (phrase : Spells 6 (skip t) u p)
      (later : FieldsAt (skip u) fields rest) :
      FieldsAt cs (⟨name, p, .nowhere⟩ :: fields) rest

/-- The definition of a class. -/
inductive ClassAt : List Char → ClassStatement → List Char → Prop where
  | intro {cs c₁ c₂ r t rest : List Char} {ignored : Bool} {name : String}
      {params : Option (List String)} {fields : List FieldStatement}
      (flag : IgnoredAt cs ignored c₁) (word : KeywordAt "class" c₁ c₂)
      (named : NameAt (skip c₂) name r) (params' : ParamsAt? (skip r) params ('\x7b' :: t))
      (fields' : FieldsAt (skip t) fields ('\x7d' :: rest)) :
      ClassAt cs ⟨name, params, fields, ignored, .nowhere⟩ rest

/-! ### What is taken -/

theorem IgnoredAt.suffix {cs c₁ : List Char} {flag : Bool} (h : IgnoredAt cs flag c₁) :
    c₁ <:+ cs := by
  cases h with
  | yes word => exact (skip_suffix _).trans (word.consumes (by decide)).suffix
  | no => exact List.suffix_refl _

theorem ParamsAt.suffix {cs rest : List Char} {params : List String} (h : ParamsAt cs params rest) :
    rest <:+ cs := by
  obtain ⟨listed, names⟩ := h
  refine (skip_suffix _).trans <| (List.suffix_cons _ _).trans <| (listed.closes fun i mem => ?_).trans
    <| (skip_suffix _).trans (List.suffix_cons _ _)
  obtain ⟨name, named, -⟩ := names i mem
  exact named.consumes.suffix

theorem HeadAt.suffix {cs rest : List Char} {name : String} {params : Option (List String)}
    (h : HeadAt cs name params rest) : rest <:+ cs := by
  cases h with
  | plain named => exact (skip_suffix _).trans named.consumes.suffix
  | params named list => exact list.suffix.trans named.consumes.suffix

theorem ParamsAt?.suffix {cs rest : List Char} {params : Option (List String)}
    (h : ParamsAt? cs params rest) : rest <:+ cs := by
  cases h with
  | none => exact List.suffix_refl _
  | some list => exact list.suffix

theorem FieldsAt.suffix {cs rest : List Char} {fields : List FieldStatement}
    (h : FieldsAt cs fields rest) : rest <:+ cs := by
  induction h with
  | nil => exact List.suffix_refl _
  | cons named colon phrase later ih =>
    exact ih.trans <| (skip_suffix _).trans <| phrase.consumes.suffix.trans <|
      (skip_suffix _).trans <| (Consumes.of_eq_cons colon).skip.suffix.trans named.consumes.suffix

/-- A class ends with the brace that closes it. -/
theorem ClassAt.closes {cs rest : List Char} {k : ClassStatement} (h : ClassAt cs k rest) :
    '\x7d' :: rest <:+ cs := by
  obtain ⟨flag, word, named, params', fields'⟩ := h
  exact fields'.suffix.trans <| (skip_suffix _).trans <| (List.suffix_cons _ _).trans <|
    params'.suffix.trans <| (skip_suffix _).trans <| named.consumes.suffix.trans <|
    (skip_suffix _).trans <| (word.consumes (by decide)).suffix.trans flag.suffix

/-! ### What is spelled is read -/

theorem yields_ignored {cs rest : List Char} {flag : Bool} (h : IgnoredAt cs flag rest)
    (other : leadingWord rest ≠ "ignored") : Yields readIgnored cs flag rest := by
  cases h with
  | yes word => exact (yields_keyword word (by decide)).attempt.bind Yields.pure
  | no =>
    refine (Yields.attempt_none (.of_run fun c x c' hc run => other ?_)).bind Yields.pure
    obtain ⟨t, word, -⟩ := run_keyword_some run
    exact hc ▸ word.leadingWord (by decide)

theorem yields_params {cs rest : List Char} {params : List String} (h : ParamsAt cs params rest) :
    Yields readParams cs params rest := by
  obtain ⟨listed, names⟩ := h
  rename_i t rest items
  have list := Listed.reads (r := readIdentifier) (fun name => (some name, .int .nowhere 0)) listed
    (by decide) (fun u => Refuses.token (.of_run fun c x c' hc run => by
      obtain ⟨d, head, word, -⟩ := (run_identifier_some run).1.head
      obtain rfl : ')' = d := by simpa [hc] using head
      exact absurd word (by decide)))
    (fun i mem => by
      obtain ⟨name, named, -⟩ := names i mem
      exact named.consumes)
    (fun i mem _ => by
      obtain ⟨name, named, value⟩ := names i mem
      exact (yields_identifier named).token.mono fun x u ⟨same, left⟩ => ⟨by rw [same, value], left⟩)
  refine (yields_symbol "(" t).bind <| list.bind fun xs u ⟨values, left⟩ => ?_
  have same : xs = items.filterMap (·.label) := by
    have := congrArg (List.filterMap (·.1)) values
    simpa [List.filterMap_map, Function.comp_def] using this
  rw [left]
  exact (yields_symbol ")" rest).bind (.pure ⟨same, rfl⟩)

theorem yields_head {cs t : List Char} {name : String} {params : Option (List String)}
    (h : HeadAt cs name params ('=' :: t)) : Yields readRuleHead cs (name, params) ('=' :: t) := by
  generalize left : '=' :: t = rest at h
  cases h with
  | plain named =>
    rename_i r
    refine Reads.orElse_right (.bind (.of_run fun c x c' hc run => ?_))
      ((yields_identifier named).token.bind Yields.pure)
    obtain ⟨u, named', -⟩ := run_callee_some run
    rw [hc] at named'
    rw [(named.unique named').2, skip_cons (by decide)] at left
    cases left
  | params named list =>
    exact Reads.orElse_left ((yields_callee named).bind ((yields_params list).bind Yields.pure))

theorem HeadAt.leadingWord {cs rest : List Char} {name : String} {params : Option (List String)}
    (h : HeadAt cs name params rest) : IsName (leadingWord cs) := by
  cases h with
  | plain named => exact named.leadingWord ▸ named.isName
  | params named => exact named.leadingWord ▸ named.isName

theorem ReadsPhrase.of_spells {cs rest : List Char} {p : Phrase} (h : Spells 6 cs rest p)
    (follow : Follow 6 rest) : ReadsPhrase readWholePhrase cs rest p := by
  rw [readWholePhrase_eq]
  exact h.reads (Nat.le_refl 6) follow

theorem RuleAt.readsRule {cs rest : List Char} {r : RuleStatement} (h : RuleAt cs r rest)
    (follow : Follow 6 rest) :
    Reads readRule cs fun s t => s.bare = .rule r ∧ Rests rest t := by
  obtain ⟨flag, head, body'⟩ := h
  rename_i c₁ t ignored name params body
  have other : leadingWord c₁ ≠ "ignored" := fun same =>
    head.leadingWord.free (same ▸ by decide)
  refine Reads.bind (Reads.spanned (P := fun x u => x.1 = ignored ∧ x.2.1 = (name, params) ∧
    x.2.2.bare = body ∧ Rests rest u) ?_) ?_
  · refine (yields_ignored flag other).bind <| (yields_head head).bind <|
      (yields_symbol "=" t).bind <| (ReadsPhrase.of_spells body' follow).bind ?_
    rintro q u ⟨value, left⟩
    exact .pure ⟨rfl, rfl, value, left⟩
  · rintro ⟨span, i, ⟨n, ps⟩, q⟩ u ⟨rfl, same, rfl, left⟩
    obtain ⟨rfl, rfl⟩ := Prod.mk.inj same
    exact .pure ⟨rfl, left⟩

/-- A text that begins with a word other than the operator `where`. -/
structure Opens (cs : List Char) : Prop where
  begins : ∃ c, cs.head? = some c ∧ isWordChar c = true
  other : leadingWord cs ≠ "where"

theorem KeywordAt.opens {word : String} {cs t : List Char} (h : KeywordAt word cs t)
    (isWord : word.toList.all isWordChar = true) (filled : word.toList ≠ [])
    (other : word ≠ "where") : Opens cs where
  begins := by
    obtain ⟨c, w, split⟩ := List.exists_cons_of_ne_nil filled
    exact ⟨c, by rw [h.split, split]; rfl, List.all_eq_true.1 isWord c (by simp [split])⟩
  other := h.leadingWord isWord ▸ other

theorem NameAt.opens {cs rest : List Char} {name : String} (h : NameAt cs name rest) : Opens cs where
  begins := by
    obtain ⟨c, head, word, -⟩ := h.head
    exact ⟨c, head, word⟩
  other := h.leadingWord ▸ fun same => h.isName.free (same ▸ by decide)

theorem Opens.skip_eq {cs : List Char} (h : Opens cs) : skip cs = cs := by
  obtain ⟨c, head, word⟩ := h.begins
  obtain ⟨t, rfl⟩ := List.head?_eq_some_iff.1 head
  refine skip_cons ⟨Bool.eq_false_iff.2 fun space => ?_, ?_⟩
  · simp only [isSpace, Bool.or_eq_true, beq_iff_eq] at space
    rcases space with ((rfl | rfl) | rfl) | rfl <;> exact absurd word (by decide)
  · rintro rfl
    exact absurd word (by decide)

/-- A word other than the operator `where` ends a phrase. -/
theorem Opens.ends {cs : List Char} (h : Opens (skip cs)) : Ends cs := by
  obtain ⟨⟨c, head, word⟩, other⟩ := h
  have plain : ∀ d, (skip cs).head? = some d → isWordChar d = true := fun d head' => by
    obtain rfl : c = d := by simpa [head] using head'
    exact word
  refine ⟨⟨fun _ d head' mem => ?_, fun op t found => ?_⟩, fun d head' mem => ?_⟩
  · have := plain d head'
    simp only [List.mem_cons, List.not_mem_nil, or_false] at mem
    rcases mem with rfl | rfl | rfl | rfl <;> exact absurd this (by decide)
  · obtain ⟨d, head', mem⟩ := found.head
    have := plain d head'
    by_cases same : op = .satisfying
    · subst same
      exact (other (KeywordAt.leadingWord ⟨found.split, found.word rfl⟩ (by decide))).elim
    · have head'' := found.split
      cases op <;> first
        | exact absurd rfl same
        | (rw [head''] at head'
           obtain rfl := Option.some.inj head'
           exact absurd this (by decide))
  · have := plain d head'
    simp only [List.mem_cons, List.not_mem_nil, or_false] at mem
    rcases mem with rfl | rfl | rfl <;> exact absurd this (by decide)

theorem reads_fields {cs rest : List Char} {fields : List FieldStatement}
    (h : FieldsAt cs fields ('\x7d' :: rest)) :
    ReadsOn (token readField) cs fun xs t =>
      xs.map (·.bare) = fields ∧ t = '\x7d' :: rest := by
  generalize left : '\x7d' :: rest = tail at h
  induction h with
  | nil cs =>
    subst left
    refine .nil (Refuses.token (.of_run fun c x c' hc run => ?_)) ⟨rfl, rfl⟩
    obtain ⟨⟨span, _⟩, c₁, read, -⟩ := run_bind_some.1 run
    obtain ⟨inner, -⟩ := run_spanned_some.1 read
    obtain ⟨name, c₂, ident, -⟩ := run_bind_some.1 inner
    obtain ⟨c₃, ident, -⟩ := run_token_some ident
    obtain ⟨d, head, word, -⟩ := (run_identifier_some ident).1.head
    obtain rfl : '\x7d' = d := by simpa [hc] using head
    exact absurd word (by decide)
  | @cons cs r t u tail name p fields named colon phrase later ih =>
    -- Behind a field stands the next one, or the end of the class.
    have follow : Follow 6 u := by
      cases later with
      | nil => exact .of_eq_cons left.symm (by decide)
      | cons named' => exact named'.opens.ends.follow
    have field : Reads readField cs fun f t => f.bare = ⟨name, p, .nowhere⟩ ∧ Rests u t := by
      refine Reads.bind (Reads.spanned (P := fun x v => x.1 = name ∧ x.2.bare = p ∧ Rests u v) ?_) ?_
      · refine (yields_identifier named).token.bind ?_
        rw [colon]
        refine (yields_symbol ":" t).bind <| (ReadsPhrase.of_spells phrase follow).bind ?_
        rintro q v ⟨value, left⟩
        exact .pure ⟨rfl, value, left⟩
      · rintro ⟨span, n, q⟩ v ⟨rfl, rfl, left⟩
        exact .pure ⟨rfl, left⟩
    refine .cons (Reads.token (field.mono ?_))
    rintro f v ⟨value, rests⟩
    rw [rests.skip_eq]
    refine ⟨?_, (ih left).mono fun xs w ⟨values, out⟩ => ⟨by simp [value, values], out⟩⟩
    have last := (phrase.consumes.further (skip_suffix u)).shorter
    have first := named.consumes.further
      ((skip_suffix t).trans (Consumes.of_eq_cons colon).skip.suffix)
    have := first.shorter
    omega

theorem ClassAt.readsClass {cs rest : List Char} {k : ClassStatement} (h : ClassAt cs k rest) :
    Reads readClass cs fun s t => s.bare = .cls k ∧ t = rest := by
  obtain ⟨flag, word, named, params', fields'⟩ := h
  rename_i c₁ c₂ r t ignored name params fields
  have other : leadingWord c₁ ≠ "ignored" := by
    rw [word.leadingWord (by decide)]
    decide
  have params'' : Yields (attempt readParams) (skip r) params ('\x7b' :: t) := by
    generalize left : '\x7b' :: t = u at params'
    generalize skip r = v at params'
    cases params' with
    | none =>
      subst left
      exact Yields.attempt_none (.bind (refuses_symbol (by simp)))
    | some list => exact (yields_params list).attempt
  refine Reads.bind (Reads.spanned (P := fun x u => x.1 = ignored ∧ x.2.1 = name ∧ x.2.2.1 = params ∧
    x.2.2.2.map (·.bare) = fields ∧ u = rest) ?_) ?_
  · refine (yields_ignored flag other).bind <| (yields_keyword word (by decide)).bind <|
      (yields_identifier named).token.bind <| params''.bind <|
      (yields_symbol "\x7b" t).bind <| (reads_fields fields').many.bind ?_
    rintro xs _ ⟨values, rfl⟩
    exact (yields_literal ['\x7d'] rest).bind (.pure ⟨rfl, rfl, rfl, values, rfl⟩)
  · rintro ⟨span, i, n, ps, fs⟩ u ⟨rfl, rfl, rfl, rfl, rfl⟩
    exact .pure ⟨rfl, rfl⟩

theorem refuses_hostSection {cs : List Char} (begins : IsName (leadingWord cs) ∨
    leadingWord cs ∈ descriptionKeywords) : Refuses readHostSection cs := .of_run fun c x c' hc run => by
  obtain ⟨⟨span, _⟩, c₁, read, -⟩ := run_bind_some.1 run
  obtain ⟨inner, -⟩ := run_spanned_some.1 read
  obtain ⟨_, c₂, opened, -⟩ := run_bind_some.1 inner
  obtain ⟨split, -⟩ := run_literal_some opened
  have empty : leadingWord cs = "" := by
    rw [← hc, split]
    exact leadingWord_of_head (by decide)
  rw [empty] at begins
  rcases begins with isName | mem
  · exact isName.filled rfl
  · exact absurd mem (by decide)

theorem IgnoredAt.leadingWord {cs c₁ : List Char} {flag : Bool} (h : IgnoredAt cs flag c₁) :
    leadingWord cs = "ignored" ∨ c₁ = cs := by
  cases h with
  | yes word => exact .inl (word.leadingWord (by decide))
  | no => exact .inr rfl

/-- The definition of a rule that is spelled is read, up to spans, where nothing follows that
continues its body. -/
theorem RuleAt.reads {cs rest : List Char} {r : RuleStatement} (h : RuleAt cs r rest)
    (follow : Follow 6 rest) :
    Reads readStatement cs fun s t => s.bare = .rule r ∧ Rests rest t := by
  have read := h.readsRule follow
  obtain ⟨flag, head, -⟩ := h
  rename_i c₁ t ignored name params body
  have other : leadingWord c₁ ≠ "ignored" := fun same => head.leadingWord.free (same ▸ by decide)
  refine .orElse_right (refuses_hostSection ?_) (.orElse_right ?_ read)
  · rcases flag.leadingWord with word | rfl
    · exact .inr (word ▸ by decide)
    · exact .inl head.leadingWord
  · have noClass : Refuses (keyword "class") c₁ := .of_run fun c x c' hc run => by
      obtain ⟨u, word, -⟩ := run_keyword_some run
      have same := (hc ▸ word : KeywordAt _ _ _).leadingWord (by decide)
      exact head.leadingWord.free (same ▸ by decide)
    exact (refuses_spanned (Refuses.bind_next (yields_ignored flag other) fun _ _ out =>
      out.2 ▸ noClass.bind)).bind

/-- The definition of a class that is spelled is read, up to spans. -/
theorem ClassAt.reads {cs rest : List Char} {k : ClassStatement} (h : ClassAt cs k rest) :
    Reads readStatement cs fun s t => s.bare = .cls k ∧ t = rest := by
  have read := h.readsClass
  obtain ⟨flag, word, -, -, -⟩ := h
  refine .orElse_right (refuses_hostSection (.inr ?_)) (.orElse_left read)
  rcases flag.leadingWord with first | same
  · exact first ▸ by decide
  · rw [← same, word.leadingWord (by decide)]
    decide

/-! ### What was read is spelled -/

theorem ignoredAt_of_run {c c' : Cursor} {flag : Bool} (h : readIgnored.run c = some (flag, c')) :
    IgnoredAt c.rest flag c'.rest := by
  obtain ⟨o, c₁, tried, out⟩ := run_bind_some.1 h
  obtain ⟨rfl, rfl⟩ := run_pure_some.1 out
  rcases run_attempt_some.1 tried with ⟨_, rfl, read⟩ | ⟨-, rfl, rfl⟩
  · obtain ⟨t, word, left, -⟩ := run_keyword_some read
    exact left ▸ .yes word
  · exact .no _

theorem paramsAt_of_run {c c' : Cursor} {params : List String}
    (h : readParams.run c = some (params, c')) (fits : c'.misfit? = none) :
    ParamsAt c.rest params c'.rest := by
  obtain ⟨_, d₁, opened, h₁⟩ := run_bind_some.1 h
  obtain ⟨_, d₂, list, h₂⟩ := run_bind_some.1 h₁
  obtain ⟨_, d₃, closed, out⟩ := run_bind_some.1 h₂
  obtain ⟨rfl, rfl⟩ := run_pure_some.1 out
  obtain ⟨t, split₁, left₁, -⟩ := run_symbol_some opened
  obtain ⟨rest, split₃, left₃, misfit₃⟩ := run_symbol_some closed
  obtain ⟨items, listed, values, names⟩ := listed_of_run
    (fun name => (some name, .int .nowhere 0)) (fun i => ∃ name, NameAt i.start name i.rest ∧
      (i.label, i.phrase) = (some name, .int .nowhere 0)) Steady.identifier list split₃
    (misfit₃ ▸ fits) fun d name d' _ run _ _ => by
      obtain ⟨e, ident, left, -⟩ := run_token_some run
      obtain ⟨named, -⟩ := run_identifier_some ident
      exact ⟨⟨some name, d.rest, d.rest, e.rest, .int .nowhere 0⟩, rfl, left.symm, rfl, name, named,
        rfl⟩
  have same : params = items.filterMap (·.label) := by
    have := congrArg (List.filterMap (·.1)) values
    simpa [List.filterMap_map, Function.comp_def] using this
  rw [split₁, left₃, same]
  exact .intro (left₁ ▸ listed) names

theorem headAt_of_run {c c' : Cursor} {name : String} {params : Option (List String)}
    (h : readRuleHead.run c = some ((name, params), c')) (fits : c'.misfit? = none) :
    HeadAt c.rest name params c'.rest := by
  rcases run_orElse_some.1 h with h | ⟨-, h⟩
  · obtain ⟨n, d, callee, h₁⟩ := run_bind_some.1 h
    obtain ⟨ps, d', list, out⟩ := run_bind_some.1 h₁
    obtain ⟨same, rfl⟩ := run_pure_some.1 out
    obtain ⟨rfl, rfl⟩ := Prod.mk.inj same
    obtain ⟨t, named, left, -⟩ := run_callee_some callee
    exact .params named (left ▸ paramsAt_of_run list fits)
  · obtain ⟨n, d, ident, out⟩ := run_bind_some.1 h
    obtain ⟨same, rfl⟩ := run_pure_some.1 out
    obtain ⟨rfl, rfl⟩ := Prod.mk.inj same
    obtain ⟨e, ident, left, -⟩ := run_token_some ident
    exact left ▸ .plain (run_identifier_some ident).1

theorem Scan.Steady.ignored : Steady readIgnored := (keyword _).attempt.bind fun _ => pure _

theorem Scan.Steady.params : Steady readParams :=
  (symbol _).bind fun _ => (identifier.listOf (symbol _)).bind fun _ => (symbol _).bind
    fun _ => pure _

theorem Scan.Steady.ruleHead : Steady readRuleHead :=
  (callee.bind fun _ => params.bind fun _ => pure _).orElse (identifier.bind fun _ => pure _)

/-- A rule that was read, taken apart. -/
theorem run_rule_some {c c' : Cursor} {s : Statement} (h : readRule.run c = some (s, c'))
    (fits : c'.misfit? = none) :
    ∃ r c₁ t d, s = .rule r ∧ r.span = ⟨c.offset, c'.offset⟩ ∧ IgnoredAt c.rest r.ignored c₁ ∧
      HeadAt c₁ r.name r.params ('=' :: t) ∧ d.rest = skip t ∧ c.offset < d.offset ∧
      readWholePhrase.run d = some (r.body, c') := by
  obtain ⟨⟨span, ignored, ⟨name, params⟩, body⟩, c₁, read, out⟩ := run_bind_some.1 h
  obtain ⟨rfl, rfl⟩ := run_pure_some.1 out
  obtain ⟨inner, rfl⟩ := run_spanned_some.1 read
  obtain ⟨_, d₁, flag, h₁⟩ := run_bind_some.1 inner
  obtain ⟨_, d₂, head, h₂⟩ := run_bind_some.1 h₁
  obtain ⟨_, d₃, equals, h₃⟩ := run_bind_some.1 h₂
  obtain ⟨_, d₄, phrase, out⟩ := run_bind_some.1 h₃
  obtain ⟨same, rfl⟩ := run_pure_some.1 out
  simp only [Prod.mk.injEq] at same
  obtain ⟨rfl, rfl, rfl⟩ := same
  obtain ⟨t, split₃, left₃, misfit₃⟩ := run_symbol_some equals
  have head' := headAt_of_run head (misfit₃ ▸ (Steady.wholePhrase d₃ _ c' phrase).misfit fits)
  rw [split₃] at head'
  refine ⟨_, _, t, d₃, rfl, rfl, ignoredAt_of_run flag, head', left₃, ?_, phrase⟩
  -- The sign of equality takes a byte.
  have before := ((Steady.ignored c _ d₁ flag).trans (Steady.ruleHead d₁ _ d₂ head)).offset_le
  have offset := (Steady.symbol _ d₂ _ d₃ equals).offset
  have short := byteLength_le_of_suffix (skip_suffix t)
  have sign : byteLength "=".toList = 1 := by decide
  rw [split₃, left₃, byteLength_append] at offset
  omega

/-- The definition of a rule that was read is spelled where it was read; its body begins behind its
head. -/
theorem ruleAt_of_run {c c' : Cursor} {s : Statement} (h : readRule.run c = some (s, c'))
    (fits : c'.misfit? = none) (halts : Halts c') :
    ∃ r rest, s = .rule r ∧ r.span = ⟨c.offset, c'.offset⟩ ∧ RuleAt c.rest r.bare rest ∧
      Rests rest c'.rest ∧ r.span ≠ r.body.span := by
  obtain ⟨r, c₁, t, d, rfl, span, flag, head, left, behind, phrase⟩ := run_rule_some h fits
  obtain ⟨rest, rests, spells, -⟩ := spells_of_run d _ c' phrase fits halts
  refine ⟨r, rest, rfl, span, .intro flag head (left ▸ spells), rests, fun same => ?_⟩
  have begins := Begins.wholePhrase d _ c' phrase
  rw [← same, span] at begins
  exact absurd begins (Nat.not_le.2 behind)

theorem Scan.Steady.field : Steady readField :=
  (identifier.bind fun _ => (symbol _).bind fun _ => wholePhrase.bind fun _ => pure _).spanned.bind
    fun _ => pure _

/-- A field that was read begins with its name. -/
theorem run_field_some {c c' : Cursor} {f : FieldStatement} (h : readField.run c = some (f, c')) :
    ∃ r t d, NameAt c.rest f.name r ∧ skip r = ':' :: t ∧ d.rest = skip t ∧
      readWholePhrase.run d = some (f.phrase, c') := by
  obtain ⟨⟨span, name, p⟩, c₁, read, out⟩ := run_bind_some.1 h
  obtain ⟨rfl, rfl⟩ := run_pure_some.1 out
  obtain ⟨inner, -⟩ := run_spanned_some.1 read
  obtain ⟨_, d₁, ident, h₁⟩ := run_bind_some.1 inner
  obtain ⟨_, d₂, colon, h₂⟩ := run_bind_some.1 h₁
  obtain ⟨_, d₃, phrase, out⟩ := run_bind_some.1 h₂
  obtain ⟨same, rfl⟩ := run_pure_some.1 out
  simp only [Prod.mk.injEq] at same
  obtain ⟨rfl, rfl⟩ := same
  obtain ⟨e, ident', left₁, -⟩ := run_token_some ident
  obtain ⟨t, split₂, left₂, -⟩ := run_symbol_some colon
  exact ⟨e.rest, t, d₂, (run_identifier_some ident').1, left₁ ▸ split₂, left₂, phrase⟩

/-- Fields that were read are spelled where they were read. -/
theorem fieldsAt_of_run {c c' : Cursor} {fields : List FieldStatement} {rest : List Char}
    (steps : Steps (token readField) c fields c') (closes : c'.rest = '\x7d' :: rest)
    (fits : c'.misfit? = none) : FieldsAt c.rest (fields.map (·.bare)) ('\x7d' :: rest) := by
  induction steps with
  | nil c => exact closes ▸ .nil _
  | @cons c c₁ c' f fields first later ih =>
    obtain ⟨d, read, left, misfit⟩ := run_token_some first
    obtain ⟨r, t, e, named, colon, begins, phrase⟩ := run_field_some read
    -- Behind a field stands the next one, or the end of the class.
    have ends : Ends d.rest := by
      cases later with
      | nil => exact .of_eq_cons (left.symm.trans closes) (by decide)
      | cons next =>
        obtain ⟨d', read', -, -⟩ := run_token_some next
        obtain ⟨_, _, _, named', -⟩ := run_field_some read'
        exact Opens.ends (left ▸ named'.opens)
    have fits₁ := (later.before Steady.field.token).misfit fits
    obtain ⟨u, rests, spells, -⟩ := spells_of_run e _ d phrase (misfit ▸ fits₁) (.ends ends)
    have := ih closes fits
    rw [left, rests.skip_eq] at this
    exact .cons named colon (begins ▸ spells) this

/-- The definition of a class that was read is spelled where it was read. -/
theorem classAt_of_run {c c' : Cursor} {s : Statement} (h : readClass.run c = some (s, c'))
    (fits : c'.misfit? = none) :
    ∃ k, s = .cls k ∧ k.span = ⟨c.offset, c'.offset⟩ ∧ ClassAt c.rest k.bare c'.rest := by
  obtain ⟨⟨span, ignored, name, params, fields⟩, c₁, read, out⟩ := run_bind_some.1 h
  obtain ⟨rfl, rfl⟩ := run_pure_some.1 out
  obtain ⟨inner, rfl⟩ := run_spanned_some.1 read
  obtain ⟨_, d₁, flag, h₁⟩ := run_bind_some.1 inner
  obtain ⟨_, d₂, word, h₂⟩ := run_bind_some.1 h₁
  obtain ⟨_, d₃, ident, h₃⟩ := run_bind_some.1 h₂
  obtain ⟨_, d₄, list, h₄⟩ := run_bind_some.1 h₃
  obtain ⟨_, d₅, opened, h₅⟩ := run_bind_some.1 h₄
  obtain ⟨_, d₆, read', h₆⟩ := run_bind_some.1 h₅
  obtain ⟨_, d₇, closed, out⟩ := run_bind_some.1 h₆
  obtain ⟨same, rfl⟩ := run_pure_some.1 out
  simp only [Prod.mk.injEq] at same
  obtain ⟨rfl, rfl, rfl, rfl⟩ := same
  obtain ⟨t₂, word', left₂, -⟩ := run_keyword_some word
  obtain ⟨e, ident', left₃, -⟩ := run_token_some ident
  obtain ⟨t, split₅, left₅, misfit₅⟩ := run_symbol_some opened
  obtain ⟨split₇, misfit₇⟩ := run_literal_some closed
  have steps := run_many_some read'
  have fits₆ := misfit₇ ▸ fits
  have fits₄ := misfit₅ ▸ (steps.before Steady.field.token).misfit fits₆
  have params' : ParamsAt? d₃.rest params d₄.rest := by
    rcases run_attempt_some.1 list with ⟨ps, rfl, found⟩ | ⟨-, rfl, rfl⟩
    · exact .some (paramsAt_of_run found fits₄)
    · exact .none _
  rw [split₅, left₃] at params'
  exact ⟨_, rfl, rfl, .intro (ignoredAt_of_run flag) word' (left₂ ▸ (run_identifier_some ident').1)
    params' (left₅ ▸ fieldsAt_of_run steps split₇ fits₆)⟩

/-! ### Statements one after the other -/

theorem IgnoredAt.opens {cs c₁ : List Char} {flag : Bool} (h : IgnoredAt cs flag c₁)
    (inner : Opens c₁) : Opens cs := by
  cases h with
  | yes word => exact word.opens (by decide) (by decide) (by decide)
  | no => exact inner

theorem HeadAt.opens {cs rest : List Char} {name : String} {params : Option (List String)}
    (h : HeadAt cs name params rest) : Opens cs := by
  cases h with
  | plain named => exact named.opens
  | params named => exact named.opens

theorem RuleAt.opens {cs rest : List Char} {r : RuleStatement} (h : RuleAt cs r rest) : Opens cs := by
  obtain ⟨flag, head, -⟩ := h
  exact flag.opens head.opens

theorem ClassAt.opens {cs rest : List Char} {k : ClassStatement} (h : ClassAt cs k rest) :
    Opens cs := by
  obtain ⟨flag, word, -⟩ := h
  exact flag.opens (word.opens (by decide) (by decide) (by decide))

/-- A statement is none of what continues a phrase. -/
theorem ends_of_statement {c c' : Cursor} {s : Statement} {cs : List Char}
    (h : readStatement.run c = some (s, c')) (fits : c'.misfit? = none) (behind : c.rest = skip cs) :
    Ends cs := by
  have opens : Opens c.rest → Ends cs := fun h => Opens.ends (behind ▸ h)
  rcases run_orElse_some.1 h with h | ⟨-, h⟩
  · obtain ⟨⟨span, _⟩, c₁, read, -⟩ := run_bind_some.1 h
    obtain ⟨inner, -⟩ := run_spanned_some.1 read
    obtain ⟨_, c₂, opened, -⟩ := run_bind_some.1 inner
    obtain ⟨split, -⟩ := run_literal_some opened
    exact .of_eq_cons (behind ▸ split) (by decide)
  rcases run_orElse_some.1 h with h | ⟨-, h⟩
  · obtain ⟨k, -, -, spelled⟩ := classAt_of_run h fits
    exact opens spelled.opens
  · obtain ⟨r, c₁, t, d, -, -, flag, head, -⟩ := run_rule_some h fits
    exact opens (flag.opens head.opens)

/-! ### Statements at the end of a text -/

variable {z m : List Char}

theorem IgnoredAt.cut {cs x : List Char} {flag : Bool} (h : IgnoredAt cs flag (x ++ m))
    (filled : x ≠ []) : ∃ y, cs = y ++ m ∧ y ≠ [] ∧ IgnoredAt y flag x := by
  generalize left : x ++ m = rest at h
  cases h with
  | yes word =>
    obtain ⟨t, rfl, rfl⟩ := skip_eq_append left.symm filled
    obtain ⟨y, split, word'⟩ := word.cut
    exact ⟨y, split, (word'.consumes (by decide)).filled, .yes word'⟩
  | no => exact ⟨x, left.symm, filled, .no x⟩

theorem ParamsAt.cut {cs x : List Char} {params : List String} (h : ParamsAt cs params (x ++ m))
    (filled : x ≠ []) : ∃ y, cs = '(' :: y ++ m ∧ ParamsAt ('(' :: y) params x := by
  generalize left : x ++ m = u at h
  obtain ⟨listed, names⟩ := h
  rename_i t rest items
  obtain ⟨r, rfl, rfl⟩ := skip_eq_append left.symm filled
  obtain ⟨y, items', split, filled', listed', values, names'⟩ := Listed.cut
    (fun i => ∃ name, NameAt i.start name i.rest ∧ (i.label, i.phrase) = (some name, .int .nowhere 0))
    (by decide) listed fun i mem y left _ => by
      obtain ⟨name, named, value⟩ := names i mem
      obtain ⟨w, split, named'⟩ := (left ▸ named).cut
      exact ⟨⟨some name, w, w, y, .int .nowhere 0⟩, value.symm, split, named'.consumes.filled, rfl,
        name, named', rfl⟩
  obtain ⟨t', rfl, rfl⟩ := skip_eq_append split filled'
  have labels : items.filterMap (·.label) = items'.filterMap (·.label) := by
    have := congrArg (List.filterMap (·.1)) values
    simpa [List.filterMap_map, Function.comp_def] using this.symm
  exact ⟨t', rfl, labels ▸ .intro listed' names'⟩

theorem HeadAt.cut {cs x : List Char} {name : String} {params : Option (List String)}
    (h : HeadAt cs name params (x ++ m)) (filled : x ≠ []) :
    ∃ y, cs = y ++ m ∧ y ≠ [] ∧ HeadAt y name params x := by
  generalize left : x ++ m = rest at h
  cases h with
  | plain named =>
    obtain ⟨r, rfl, rfl⟩ := skip_eq_append left.symm filled
    obtain ⟨y, split, named'⟩ := named.cut
    exact ⟨y, split, named'.consumes.filled, .plain named'⟩
  | params named list =>
    subst left
    obtain ⟨t, split, list'⟩ := list.cut filled
    obtain ⟨y, split', named'⟩ := (split ▸ named).cut
    exact ⟨y, split', named'.consumes.filled, .params named' list'⟩

/-- The definition of a rule is spelled in the same way when the text behind it is cut off. -/
theorem RuleAt.cut {cs : List Char} {r : RuleStatement} (h : RuleAt cs r (z ++ m))
    (trims : Trims z m) : ∃ x, cs = x ++ m ∧ RuleAt x r z := by
  generalize left : z ++ m = rest at h
  obtain ⟨flag, head, body⟩ := h
  subst left
  obtain ⟨u, split, body'⟩ := body.cut trims
  obtain ⟨t, rfl, rfl⟩ := skip_eq_append split body'.consumes.filled
  obtain ⟨y, split', filled, head'⟩ := HeadAt.cut (x := '=' :: t) head (by simp)
  obtain ⟨x, split'', -, flag'⟩ := (split' ▸ flag).cut filled
  exact ⟨x, split'', .intro flag' head' body'⟩

/-- Behind the phrase of a field stands a name or the brace that closes the class. -/
theorem FieldsAt.trims {u : List Char} {fields : List FieldStatement}
    (h : FieldsAt (skip u) fields ('\x7d' :: z)) : Trims u m := by
  generalize behind : skip u = cs at h
  generalize closes : '\x7d' :: z = rest at h
  cases h with
  | nil => exact .of_eq_cons (behind.trans closes.symm) (by decide)
  | cons named colon =>
    refine ⟨?_, fun _ => (Opens.ends (behind ▸ named.opens)).follow⟩
    -- A name that is a single letter has a colon behind it.
    rintro rfl
    have single : cs = ['i'] := behind.symm
    have shorter := named.consumes.shorter
    rw [single, List.length_singleton, Nat.lt_one_iff, List.length_eq_zero_iff] at shorter
    rw [shorter] at colon
    cases colon

theorem FieldsAt.cut {cs : List Char} {fields : List FieldStatement}
    (h : FieldsAt cs fields ('\x7d' :: z ++ m)) :
    ∃ x, cs = x ++ m ∧ x ≠ [] ∧ FieldsAt x fields ('\x7d' :: z) := by
  generalize left : '\x7d' :: z ++ m = rest at h
  induction h with
  | nil cs => exact ⟨'\x7d' :: z, left.symm, by simp, .nil _⟩
  | @cons cs r t u rest name p fields named colon phrase later ih =>
    obtain ⟨x, split, filled, fields'⟩ := ih left
    obtain ⟨u', rfl, rfl⟩ := skip_eq_append split filled
    obtain ⟨y, split', phrase'⟩ := phrase.cut fields'.trims
    obtain ⟨t', rfl, rfl⟩ := skip_eq_append split' phrase'.consumes.filled
    obtain ⟨r', rfl, colon'⟩ := skip_eq_append (x := ':' :: t') colon (by simp)
    obtain ⟨w, split'', named'⟩ := named.cut
    exact ⟨w, split'', named'.consumes.filled, .cons named' colon' phrase' fields'⟩

/-- The definition of a class is spelled in the same way when the text behind it is cut off. -/
theorem ClassAt.cut {cs : List Char} {k : ClassStatement} (h : ClassAt cs k (z ++ m)) :
    ∃ x, cs = x ++ m ∧ ClassAt x k z := by
  generalize left : z ++ m = rest at h
  obtain ⟨flag, word, named, params', fields'⟩ := h
  rename_i c₁ c₂ r t ignored name params fields
  subst left
  obtain ⟨x, split, filled, fields''⟩ := FieldsAt.cut fields'
  obtain ⟨t', rfl, rfl⟩ := skip_eq_append split filled
  obtain ⟨y, split', filled', params''⟩ : ∃ y, skip r = y ++ m ∧ y ≠ [] ∧
      ParamsAt? y params ('\x7b' :: t') := by
    generalize left : '\x7b' :: (t' ++ m) = u at params'
    generalize skip r = v at params'
    cases params' with
    | none => exact ⟨'\x7b' :: t', left.symm, by simp, .none _⟩
    | some list =>
      obtain ⟨y, split, list'⟩ := ParamsAt.cut (x := '\x7b' :: t') (left ▸ list) (by simp)
      exact ⟨'(' :: y, split, by simp, .some list'⟩
  obtain ⟨r', rfl, rfl⟩ := skip_eq_append split' filled'
  obtain ⟨w, split'', named'⟩ := named.cut
  obtain ⟨c₂', rfl, rfl⟩ := skip_eq_append split'' named'.consumes.filled
  obtain ⟨c₁', rfl, word'⟩ := word.cut
  obtain ⟨x, split₀, -, flag'⟩ := flag.cut (word'.consumes (by decide)).filled
  exact ⟨x, split₀, .intro flag' word' named' params'' fields''⟩

end Packrat
