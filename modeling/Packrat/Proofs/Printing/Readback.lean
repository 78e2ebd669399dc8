import Packrat.Proofs.Printing.Expressions

/-
**What is shown of an expression reads back.**

The phrase that an expression is shown as is made into that expression again, up to where it stands
in the text, choices within choices, and a least number that asks for nothing.  The choice of a form
by its name, the slots of its arguments and the meaning of each argument are taken one by one, and a
chain of alternatives is taken from the left, as it is read.

Main definitions:

* `Packrat.Expr.normal` — an expression up to what reading back does not keep;
* `Packrat.Expr.Returns` — expressions whose phrase is made into them again.

Main results:

* `Packrat.Expr.Made.returns` — every expression made of phrases returns;
* `Packrat.Description.text_reads_back` — **the text of a rule's expression, read as a description,
  gives the expression back**.
-/

set_option autoImplicit false

namespace Packrat

namespace Expr

/-! ### What reading back keeps -/

/-- The tag of an expression that stands nowhere. -/
def noTag : Tag := ⟨0, .nowhere⟩

/-- A least number that asks for nothing is none where there is no greatest. -/
def leastNormal (least most : Option Bound) : Option Bound :=
  match least, most with
  | some (.const 0), none => none
  | least, _ => least

mutual

/-- An expression without its tags, with choices within choices taken as one and without a least
number that asks for nothing. -/
def normal : Expr → Expr
  | .str _ value flags => .str noTag value flags
  | .regex _ pattern flags => .regex noTag pattern flags
  | .ref _ name binding => .ref noTag name binding
  | .seq _ items cls? => .seq noTag (normals items) cls?
  | .choice _ items => .choice noTag ((normals items).flatMap alternatives)
  | .list _ item least most => .list noTag item.normal (leastNormal least most) most
  | .sep _ item separator flags => .sep noTag item.normal separator.normal flags
  | .opt _ inner => .opt noTag inner.normal
  | .apply _ left right applyLeft => .apply noTag left.normal right.normal applyLeft
  | .discard _ left right discardLeft => .discard noTag left.normal right.normal discardLeft
  | .expect _ inner => .expect noTag inner.normal
  | .expectNot _ inner => .expectNot noTag inner.normal
  | .fail _ message? => .fail noTag message?
  | .bound _ name value body => .bound noTag name value.normal body.normal
  | .satisfying _ inner predicate => .satisfying noTag inner.normal predicate.normal
  | .skip _ items => .skip noTag (normals items)
  | .call _ callee args binding => .call noTag callee (argNormals args) binding
  | .host _ snippet => .host noTag snippet
  | .operators _ atom levels => .operators noTag atom.normal (levelNormals levels)

def normals : List Expr → List Expr
  | [] => []
  | e :: es => e.normal :: normals es

def argNormals : List (Option String × Expr) → List (Option String × Expr)
  | [] => []
  | (keyword, e) :: rest => (keyword, e.normal) :: argNormals rest

def levelNormals : List (Fixity × Expr) → List (Fixity × Expr)
  | [] => []
  | (fixity, e) :: rest => (fixity, e.normal) :: levelNormals rest

end

@[simp] theorem normals_eq (es : List Expr) : normals es = es.map normal := by
  induction es with
  | nil => rfl
  | cons e es ih => exact congrArg (e.normal :: ·) ih

@[simp] theorem argNormals_eq (args : List (Option String × Expr)) :
    argNormals args = args.map fun arg => (arg.1, arg.2.normal) := by
  induction args with
  | nil => rfl
  | cons arg args ih => exact congrArg ((arg.1, arg.2.normal) :: ·) ih

@[simp] theorem levelNormals_eq (levels : List (Fixity × Expr)) :
    levelNormals levels = levels.map fun level => (level.1, level.2.normal) := by
  induction levels with
  | nil => rfl
  | cons level levels ih => exact congrArg ((level.1, level.2.normal) :: ·) ih

theorem normals_eq_normals {es items : List Expr} (h : es.map normal = items.map normal) :
    normals es = normals items := by rw [normals_eq, normals_eq, h]

theorem normal_choice (tag : Tag) (items : List Expr) :
    (Expr.choice tag items).normal = .choice noTag ((items.map normal).flatMap alternatives) := by
  rw [← normals_eq]
  rfl

/-- The alternatives of an expression, taken apart before or after. -/
theorem alternatives_normal (e : Expr) :
    ((alternatives e).map normal).flatMap alternatives = alternatives e.normal := by
  cases e with
  | choice tag items => rw [normal_choice]; rfl
  | _ => rfl

/-! ### Phrases without their spans -/

/-- Phrases that differ in their spans only from the phrase of an expression are made into it. -/
def Returns (rules : List String) (e : Expr) : Prop :=
  ∀ p : Phrase, p.bare = e.phrase → ∃ e', p.lower rules = .ok e' ∧ e'.normal = e.normal

end Expr

section Bare

variable {p : Phrase} {span : Span}

theorem Phrase.bare_eq_call {callee : String} {args : List (Option String × Phrase)}
    (h : p.bare = .call span callee args) :
    ∃ span' given, p = .call span' callee given ∧ given.map (fun arg => (arg.1, arg.2.bare)) = args := by
  cases p <;> simp [Phrase.bare] at h
  exact ⟨_, _, by rw [h.2.1], h.2.2⟩

theorem Phrase.bare_eq_binary {op : Phrase.Operator} {l r : Phrase} (h : p.bare = .binary span op l r) :
    ∃ span' l' r', p = .binary span' op l' r' ∧ l'.bare = l ∧ r'.bare = r := by
  cases p <;> simp [Phrase.bare] at h
  exact ⟨_, _, _, by rw [h.2.1], h.2.2⟩

theorem Phrase.bare_eq_suffixed {inner : Phrase} {suffix : Phrase.Suffix}
    (h : p.bare = .suffixed span inner suffix) :
    ∃ span' inner', p = .suffixed span' inner' suffix ∧ inner'.bare = inner := by
  cases p <;> simp [Phrase.bare] at h
  exact ⟨_, _, by rw [h.2.2], h.2.1⟩

theorem Phrase.bare_eq_ref {name : String} (h : p.bare = .ref span name) :
    ∃ span', p = .ref span' name := by
  cases p <;> simp [Phrase.bare] at h
  exact ⟨_, by rw [h.2]⟩

theorem Phrase.bare_eq_str {value : String} {ignoreCase binary : Bool}
    (h : p.bare = .str span value ignoreCase binary) : ∃ span', p = .str span' value ignoreCase binary := by
  cases p <;> simp [Phrase.bare] at h
  exact ⟨_, by rw [h.2.1, h.2.2.1, h.2.2.2]⟩

theorem Phrase.bare_eq_bound {name : String} {value body : Phrase}
    (h : p.bare = .bound span name value body) :
    ∃ span' v b, p = .bound span' name v b ∧ v.bare = value ∧ b.bare = body := by
  cases p <;> simp [Phrase.bare] at h
  exact ⟨_, _, _, by rw [h.2.1], h.2.2⟩

theorem Phrase.bare_eq_sequence {items : List Phrase} (h : p.bare = .sequence span items) :
    ∃ span' ps, p = .sequence span' ps ∧ ps.map Phrase.bare = items := by
  cases p <;> simp [Phrase.bare] at h
  exact ⟨_, _, rfl, h.2⟩

theorem Phrase.bare_eq_regex {pattern : String} {ignoreCase binary : Bool}
    (h : p.bare = .regex span pattern ignoreCase binary) :
    ∃ span', p = .regex span' pattern ignoreCase binary := by
  cases p <;> simp [Phrase.bare] at h
  exact ⟨_, by rw [h.2.1, h.2.2.1, h.2.2.2]⟩

theorem Phrase.bare_eq_host {source : String} (h : p.bare = .host span source) :
    ∃ span', p = .host span' source := by
  cases p <;> simp [Phrase.bare] at h
  exact ⟨_, by rw [h.2]⟩

end Bare

/-! ### Lists of phrases -/

/-- A phrase as an argument of a form. -/
def formArg (rules : List String) (p : Phrase) : FormArg :=
  ⟨p, fun _ => p.lower rules, fun _ => p.lowerLevel rules⟩

theorem formArgs_eq (rules : List String) (args : List (Option String × Phrase)) :
    formArgs rules args = args.map fun arg => (arg.1, formArg rules arg.2) := by
  induction args with
  | nil => rfl
  | cons arg args ih => rw [formArgs, ih]; rfl

namespace Expr

variable {rules : List String}

theorem Returns.each {items : List Expr} (returns : ∀ e ∈ items, Returns rules e) {ps : List Phrase}
    (same : ps.map Phrase.bare = items.map phrase) :
    ∃ es, lowerPhrases rules ps = .ok es ∧ es.map normal = items.map normal := by
  induction items generalizing ps with
  | nil =>
    obtain rfl := List.map_eq_nil_iff.1 same
    exact ⟨[], rfl, rfl⟩
  | cons e items ih =>
    obtain ⟨p, ps, rfl, first, later⟩ := List.map_eq_cons_iff.1 same
    obtain ⟨e', lowered, normal⟩ := returns e (by simp) p first
    obtain ⟨es, lowereds, normals⟩ := ih (fun x mem => returns x (by simp [mem])) later
    exact ⟨e' :: es, by rw [lowerPhrases, lowered, lowereds]; rfl, by simp [normal, normals]⟩

/-- The arguments of a call, without their labels. -/
theorem Returns.args {args : List (Option String × Expr)} (returns : ∀ arg ∈ args, Returns rules arg.2)
    {given : List (Option String × Phrase)}
    (same : (given.map fun arg => (arg.1, arg.2.bare)) = args.map fun arg => (arg.1, arg.2.phrase)) :
    ∃ out, lowerArgs (formArgs rules given) = .ok out ∧
      (out.map fun arg => (arg.1, arg.2.normal)) = args.map fun arg => (arg.1, arg.2.normal) := by
  induction args generalizing given with
  | nil =>
    obtain rfl := List.map_eq_nil_iff.1 same
    exact ⟨[], rfl, rfl⟩
  | cons arg args ih =>
    obtain ⟨⟨label, p⟩, given, rfl, first, later⟩ := List.map_eq_cons_iff.1 same
    obtain ⟨rfl, bare⟩ := Prod.mk.inj first
    obtain ⟨e', lowered, normal⟩ := returns arg (by simp) p bare
    obtain ⟨out, lowereds, normals⟩ := ih (fun x mem => returns x (by simp [mem])) later
    refine ⟨(arg.1, e') :: out, ?_, by simp [normal, normals]⟩
    change (Phrase.lower rules p >>= fun e => lowerArgs (formArgs rules given) >>= _) = _
    rw [lowered, lowereds]
    rfl

/-- Arguments that are given by position only. -/
theorem Returns.positional {items : List Expr} (returns : ∀ e ∈ items, Returns rules e)
    {given : List (Option String × Phrase)} (callee : String) (span : Span)
    (same : (given.map fun arg => (arg.1, arg.2.bare)) = (items.map phrase).map (none, ·)) :
    ∃ out es, positionalOnly callee span (formArgs rules given) = .ok out ∧
      out.length = items.length ∧ exprsOf out = .ok es ∧ es.map normal = items.map normal := by
  induction items generalizing given with
  | nil =>
    obtain rfl := List.map_eq_nil_iff.1 same
    exact ⟨[], [], rfl, rfl, rfl, rfl⟩
  | cons e items ih =>
    obtain ⟨⟨label, p⟩, given, rfl, first, later⟩ := List.map_eq_cons_iff.1 same
    obtain ⟨rfl, bare⟩ := Prod.mk.inj first
    obtain ⟨e', lowered, normal⟩ := returns e (by simp) p bare
    obtain ⟨out, es, found, length, lowereds, normals⟩ :=
      ih (fun x mem => returns x (by simp [mem])) later
    refine ⟨formArg rules p :: out, e' :: es, ?_, by simp [length], ?_, by simp [normal, normals]⟩
    · change (positionalOnly callee span (formArgs rules given) >>= _) = _
      rw [found]
      rfl
    · change (Phrase.lower rules p >>= fun e => exprsOf out >>= _) = _
      rw [lowered, lowereds]
      rfl

/-! ### Operators -/

theorem lower_binary {span : Span} {op : Phrase.Operator} {l r : Phrase} {l' r' : Expr}
    (h : l.lower rules = .ok l') (h' : r.lower rules = .ok r') :
    (Phrase.binary span op l r).lower rules = .ok (lowerOperator span op l' r') := by
  rw [Phrase.lower, h, h']
  rfl

/-- Phrases that are made into a choice between certain expressions. -/
def Chooses (rules : List String) (q : Phrase) (items : List Expr) : Prop :=
  ∀ p : Phrase, p.bare = q → ∃ e', p.lower rules = .ok e' ∧ e'.normal = .choice noTag items

theorem alternatives_append_normal (left right : Expr) (tag : Tag) :
    (Expr.choice tag (alternatives left ++ alternatives right)).normal =
      .choice noTag (alternatives left.normal ++ alternatives right.normal) := by
  rw [normal_choice, List.map_append, List.flatMap_append, alternatives_normal, alternatives_normal]

theorem Chooses.of_returns {left right : Expr} (h : Returns rules left) (h' : Returns rules right) :
    Chooses rules (.binary .nowhere .choice left.phrase right.phrase)
      (alternatives left.normal ++ alternatives right.normal) := fun p bare => by
  obtain ⟨span, l, r, rfl, first, second⟩ := Phrase.bare_eq_binary bare
  obtain ⟨l', lowered, same⟩ := h l first
  obtain ⟨r', lowered', same'⟩ := h' r second
  refine ⟨_, lower_binary lowered lowered', ?_⟩
  rw [← same, ← same']
  exact alternatives_append_normal l' r' ⟨0, span⟩

/-- One more alternative behind the others. -/
theorem Chooses.snoc {q : Phrase} {items : List Expr} {right : Expr} (h : Chooses rules q items)
    (h' : Returns rules right) :
    Chooses rules (.binary .nowhere .choice q right.phrase) (items ++ alternatives right.normal) :=
  fun p bare => by
    obtain ⟨span, l, r, rfl, first, second⟩ := Phrase.bare_eq_binary bare
    obtain ⟨l', lowered, same⟩ := h l first
    obtain ⟨r', lowered', same'⟩ := h' r second
    refine ⟨_, lower_binary lowered lowered', ?_⟩
    have all := alternatives_append_normal l' r' ⟨0, span⟩
    rwa [same, same'] at all

theorem Chooses.foldl {q : Phrase} {items others : List Expr} (h : Chooses rules q items)
    (returns : ∀ e ∈ others, Returns rules e) :
    Chooses rules ((others.map phrase).foldl (fun left r => .binary .nowhere .choice left r) q)
      (items ++ (others.map normal).flatMap alternatives) := by
  induction others generalizing q items with
  | nil => simpa using h
  | cons e others ih =>
    have all := ih (h.snoc (returns e (by simp))) fun x mem => returns x (by simp [mem])
    simpa using all

theorem Returns.choice {tag : Tag} {first second : Expr} {others : List Expr}
    (returns : ∀ e ∈ first :: second :: others, Returns rules e) :
    Returns rules (.choice tag (first :: second :: others)) := fun p bare => by
  have two := Chooses.of_returns (returns first (by simp)) (returns second (by simp))
  have later : ∀ e ∈ others, Returns rules e := fun e mem => returns e (by simp [mem])
  have all := two.foldl later
  obtain ⟨e', lowered, same⟩ := all p (by rw [bare, phrase_choice, phrases_eq]; rfl)
  exact ⟨e', lowered, by rw [same, normal_choice]; simp⟩

/-- An operator between two phrases that is no choice. -/
theorem Returns.binary {e left right : Expr} (op : Phrase.Operator) (h : Returns rules left)
    (h' : Returns rules right) (phrase : e.phrase = .binary .nowhere op left.phrase right.phrase)
    (made : ∀ span l r, l.normal = left.normal → r.normal = right.normal →
      (lowerOperator span op l r).normal = e.normal) : Returns rules e := fun p bare => by
  obtain ⟨span, l, r, rfl, first, second⟩ := Phrase.bare_eq_binary (bare.trans phrase)
  obtain ⟨l', lowered, same⟩ := h l first
  obtain ⟨r', lowered', same'⟩ := h' r second
  exact ⟨_, lower_binary lowered lowered', made span l' r' same same'⟩

/-! ### Repetitions -/

theorem lowerBound?_phrase {b? : Option Bound} (shown : ∀ b ∈ b?, b.Shown) (span : Span) :
    lowerBound? span (b?.map Bound.phrase) = .ok b? := by
  cases b? with
  | none => rfl
  | some b =>
    cases b with
    | const n => rfl
    | host s =>
      have lowered := (shown _ rfl : s.Shown).lower span
      simp [lowerBound?, Bound.phrase, Phrase.Bound.lower, lowered, Except.map]

/-- The operator behind a repetition is made into the repetition again. -/
theorem lowerSuffix_repetition {least most : Option Bound} (ordered : BoundsInOrder least most)
    (lower : ∀ b ∈ least, b.Shown) (upper : ∀ b ∈ most, b.Shown) (span : Span) (inner : Expr) :
    ∃ least', lowerSuffix span inner (repetition least most) = .ok (.list ⟨0, span⟩ inner least' most) ∧
      leastNormal least' most = leastNormal least most := by
  have whole : lowerSuffix span inner (.repeated (least.map Bound.phrase) (most.map Bound.phrase)) =
      .ok (.list ⟨0, span⟩ inner least most) := by
    rw [lowerSuffix, lowerBound?_phrase lower, lowerBound?_phrase upper]
    change lowerRepetition span inner least most = _
    unfold lowerRepetition
    split
    · next m n =>
      exact if_neg (Nat.not_lt.2 (ordered m n rfl rfl))
    · rfl
  unfold repetition
  split
  · exact ⟨none, rfl, rfl⟩
  · exact ⟨none, rfl, rfl⟩
  · exact ⟨some (.const 1), rfl, rfl⟩
  · exact ⟨least, whole, rfl⟩

/-! ### Forms -/

theorem lowerCall_form {callee : String} {span : Span} {args : List (Option String × FormArg)}
    {form : Except Failure Expr} (free : callee ∉ rules)
    (h : lowerForm? span callee args = some form) : lowerCall rules span callee args = form := by
  rw [lowerCall, if_neg (by simpa using free), h]

theorem lowerUnary_single (callee : String) (span : Span) (arg : FormArg) :
    lowerUnary callee span [(none, arg)] = arg.expr () := rfl

/-- A form with a single argument. -/
theorem Returns.unary {e inner : Expr} {callee : String} (h : Returns rules inner)
    (free : callee ∉ rules) (phrase : e.phrase = .call .nowhere callee [(none, inner.phrase)])
    (form : ∀ span args, ∃ build : Expr → Expr,
      lowerForm? span callee args = some ((lowerUnary callee span args).map build) ∧
        ∀ x, x.normal = inner.normal → (build x).normal = e.normal) : Returns rules e := fun p bare => by
  obtain ⟨span, given, rfl, same⟩ := Phrase.bare_eq_call (bare.trans phrase)
  obtain ⟨⟨label, q⟩, rest, rfl, first, last⟩ := List.map_eq_cons_iff.1 same
  obtain rfl := List.map_eq_nil_iff.1 last
  obtain ⟨rfl, bare'⟩ := Prod.mk.inj first
  obtain ⟨x, lowered, normal⟩ := h q bare'
  obtain ⟨build, built, result⟩ := form span [(none, formArg rules q)]
  refine ⟨build x, ?_, result x normal⟩
  rw [Phrase.lower, formArgs_eq]
  refine (lowerCall_form free built).trans ?_
  rw [lowerUnary_single]
  change (q.lower rules).map build = _
  rw [lowered]
  rfl

theorem Returns.expect {tag : Tag} {inner : Expr} (h : Returns rules inner)
    (free : "Expect" ∉ rules) : Returns rules (.expect tag inner) :=
  h.unary free rfl fun span _ =>
    ⟨.expect ⟨0, span⟩, rfl, fun _ same => congrArg (Expr.expect noTag) same⟩

theorem Returns.expectNot {tag : Tag} {inner : Expr} (h : Returns rules inner)
    (free : "ExpectNot" ∉ rules) : Returns rules (.expectNot tag inner) :=
  h.unary free rfl fun span _ =>
    ⟨.expectNot ⟨0, span⟩, rfl, fun _ same => congrArg (Expr.expectNot noTag) same⟩

theorem Returns.fail {tag : Tag} (message? : Option String) (free : "Fail" ∉ rules) :
    Returns rules (.fail tag message?) := fun p bare => by
  cases message? with
  | none =>
    obtain ⟨span, given, rfl, same⟩ := Phrase.bare_eq_call bare
    obtain rfl := List.map_eq_nil_iff.1 same
    refine ⟨.fail ⟨0, span⟩ none, ?_, rfl⟩
    exact lowerCall_form free (rfl)
  | some message =>
    obtain ⟨span, given, rfl, same⟩ := Phrase.bare_eq_call bare
    obtain ⟨⟨label, q⟩, rest, rfl, first, last⟩ := List.map_eq_cons_iff.1 same
    obtain rfl := List.map_eq_nil_iff.1 last
    obtain ⟨rfl, bare'⟩ := Prod.mk.inj first
    obtain ⟨inner, rfl⟩ := Phrase.bare_eq_str bare'
    refine ⟨.fail ⟨0, span⟩ (some message), ?_, rfl⟩
    exact lowerCall_form free (rfl)

theorem Returns.skip {tag : Tag} {items : List Expr} (filled : items ≠ [])
    (returns : ∀ e ∈ items, Returns rules e) (free : "Skip" ∉ rules) :
    Returns rules (.skip tag items) := fun p bare => by
  obtain ⟨span, given, rfl, same⟩ := Phrase.bare_eq_call bare
  rw [phrases_eq] at same
  obtain ⟨out, es, found, length, lowered, normals⟩ := Returns.positional returns "Skip" span same
  have some : out.isEmpty = false := by
    rw [List.isEmpty_eq_false_iff, ← List.length_pos_iff, length]
    exact List.length_pos_iff.2 filled
  refine ⟨.skip ⟨0, span⟩ es, ?_, congrArg (Expr.skip noTag) (normals_eq_normals normals)⟩
  rw [Phrase.lower]
  refine (lowerCall_form free (rfl)).trans ?_
  rw [lowerSkip, found]
  change (if out.isEmpty = true then _ else _) = _
  rw [some, if_neg (by decide), lowered]
  rfl

theorem lowerFlag_flagPhrase {p : Phrase} {b : Bool} (default : Bool) (bare : p.bare = flagPhrase b) :
    lowerFlag (some (formArg rules p)) default = .ok b := by
  obtain ⟨span, rfl⟩ := Phrase.bare_eq_ref bare
  cases b <;> rfl

/-- The arguments of a separated list, each in its slot. -/
theorem lowerSep_slots (span : Span) (item separator discard trailer empty : FormArg) :
    lowerSep span [(none, item), (none, separator), (some "discard_separators", discard),
        (some "allow_trailer", trailer), (some "allow_empty", empty)] =
      (do
        let item ← item.expr ()
        let separator ← separator.expr ()
        let discardSeparators ← lowerFlag (some discard) true
        let allowTrailer ← lowerFlag (some trailer) false
        let allowEmpty ← lowerFlag (some empty) true
        pure (.sep ⟨0, span⟩ item separator ⟨discardSeparators, allowTrailer, allowEmpty⟩)) := by
  have slots : formSlots "Sep"
      ["expr", "separator", "discard_separators", "allow_trailer", "allow_empty"] 2 span
      [(none, item), (none, separator), (some "discard_separators", discard),
        (some "allow_trailer", trailer), (some "allow_empty", empty)] =
      .ok [some item, some separator, some discard, some trailer, some empty] := by
    simp [formSlots, fillSlots, fillFrom, firstMissing?, List.idxOf?, List.findIdx?, List.findIdx?.go]
  rw [lowerSep, slots]
  rfl

theorem Returns.sep {tag : Tag} {item separator : Expr} (flags : SepFlags) (h : Returns rules item)
    (h' : Returns rules separator) (free : "Sep" ∉ rules) :
    Returns rules (.sep tag item separator flags) := by
  by_cases form : (flags.discardSeparators && flags.allowEmpty) = true
  · refine Returns.binary (if flags.allowTrailer then .sepTrailer else .sep) h h' ?_ ?_
    · rw [phrase_sep, separated, if_pos form]
    · rintro span l r first second
      obtain ⟨discard, trailer, empty⟩ := flags
      obtain ⟨rfl, rfl⟩ : discard = true ∧ empty = true := by simpa using form
      cases trailer <;> exact congrArg₂ (Expr.sep noTag · · _) first second
  · intro p bare
    rw [phrase_sep, separated, if_neg form] at bare
    obtain ⟨span, given, rfl, same⟩ := Phrase.bare_eq_call bare
    obtain ⟨⟨_, p₁⟩, rest, rfl, first, later⟩ := List.map_eq_cons_iff.1 same
    obtain ⟨⟨_, p₂⟩, rest, rfl, second, later⟩ := List.map_eq_cons_iff.1 later
    obtain ⟨⟨_, p₃⟩, rest, rfl, discard, later⟩ := List.map_eq_cons_iff.1 later
    obtain ⟨⟨_, p₄⟩, rest, rfl, trailer, later⟩ := List.map_eq_cons_iff.1 later
    obtain ⟨⟨_, p₅⟩, rest, rfl, empty, later⟩ := List.map_eq_cons_iff.1 later
    obtain rfl := List.map_eq_nil_iff.1 later
    obtain ⟨rfl, bare₁⟩ := Prod.mk.inj first
    obtain ⟨rfl, bare₂⟩ := Prod.mk.inj second
    obtain ⟨rfl, bare₃⟩ := Prod.mk.inj discard
    obtain ⟨rfl, bare₄⟩ := Prod.mk.inj trailer
    obtain ⟨rfl, bare₅⟩ := Prod.mk.inj empty
    obtain ⟨l, lowered, same₁⟩ := h p₁ bare₁
    obtain ⟨r, lowered', same₂⟩ := h' p₂ bare₂
    refine ⟨.sep ⟨0, span⟩ l r flags, ?_, congrArg₂ (Expr.sep noTag · · flags) same₁ same₂⟩
    rw [Phrase.lower, formArgs_eq]
    refine (lowerCall_form free (rfl)).trans ?_
    refine (lowerSep_slots span _ _ _ _ _).trans ?_
    change (p₁.lower rules >>= fun item => p₂.lower rules >>= fun separator => _) = _
    rw [lowered, lowered', lowerFlag_flagPhrase _ bare₃, lowerFlag_flagPhrase _ bare₄,
      lowerFlag_flagPhrase _ bare₅]
    rfl

theorem Returns.call {tag : Tag} {callee : String} {args : List (Option String × Expr)}
    (plain : callee ∉ formNames) (returns : ∀ arg ∈ args, Returns rules arg.2) :
    Returns rules (.call tag callee args .unresolved) := fun p bare => by
  obtain ⟨span, given, rfl, same⟩ := Phrase.bare_eq_call bare
  rw [argPhrases_eq] at same
  obtain ⟨out, lowered, normals⟩ := Returns.args returns same
  have same' : argNormals out = argNormals args := by rw [argNormals_eq, argNormals_eq, normals]
  refine ⟨.call ⟨0, span⟩ callee out .unresolved, ?_,
    congrArg (Expr.call noTag callee · .unresolved) same'⟩
  have noForm : lowerForm? span callee (formArgs rules given) = none := by
    rw [← Option.not_isSome_iff_eq_none, lowerForm?_isSome_iff]
    exact plain
  rw [Phrase.lower, lowerCall, noForm, ite_self, lowered]
  rfl

theorem fixity?_name (fixity : Fixity) : fixity? fixity.name = some fixity := by
  cases fixity <;> rfl

/-- Levels of operators that are given by position. -/
theorem Returns.levels {levels : List (Fixity × Expr)} (returns : ∀ level ∈ levels, Returns rules level.2)
    {given : List (Option String × Phrase)} (callee : String) (span : Span)
    (same : (given.map fun arg => (arg.1, arg.2.bare)) = levelPhrases levels) :
    ∃ out ls, positionalOnly callee span (formArgs rules given) = .ok out ∧ levelsOf out = .ok ls ∧
      (ls.map fun l => (l.1, l.2.normal)) = levels.map fun l => (l.1, l.2.normal) := by
  rw [levelPhrases_eq] at same
  induction levels generalizing given with
  | nil =>
    obtain rfl := List.map_eq_nil_iff.1 same
    exact ⟨[], [], rfl, rfl, rfl⟩
  | cons level levels ih =>
    obtain ⟨⟨label, p⟩, given, rfl, first, later⟩ := List.map_eq_cons_iff.1 same
    obtain ⟨rfl, bare⟩ := Prod.mk.inj first
    obtain ⟨out, ls, found, lowereds, normals⟩ := ih (fun x mem => returns x (by simp [mem])) later
    obtain ⟨inner, given', rfl, same'⟩ := Phrase.bare_eq_call bare
    have single : ∀ e ∈ [level.2], Returns rules e := by simpa using returns level (by simp)
    obtain ⟨out', es, found', -, lowered, normal⟩ := Returns.positional single level.1.name inner same'
    obtain ⟨e', rfl⟩ : ∃ e', es = [e'] := by
      rw [List.map_singleton] at normal
      obtain ⟨e', rest, rfl, -, last⟩ := List.map_eq_cons_iff.1 normal
      exact ⟨e', by rw [List.map_eq_nil_iff.1 last]⟩
    refine ⟨formArg rules (.call inner level.1.name given') :: out, (level.1, e') :: ls, ?_, ?_, ?_⟩
    · change (positionalOnly callee span (formArgs rules given) >>= _) = _
      rw [found]
      rfl
    · change (lowerOperatorLevel inner level.1.name (formArgs rules given') >>= fun l =>
        levelsOf out >>= _) = _
      rw [lowerOperatorLevel, fixity?_name, lowereds]
      change ((positionalOnly level.1.name inner (formArgs rules given') >>= fun args =>
        exprsOf args >>= _) >>= _) = _
      rw [found']
      change ((exprsOf out' >>= _) >>= _) = _
      rw [lowered]
      rfl
    · simpa [normals] using normal

theorem Returns.operators {tag : Tag} {atom : Expr} {levels : List (Fixity × Expr)}
    (h : Returns rules atom) (returns : ∀ level ∈ levels, Returns rules level.2)
    (free : "OperatorPrecedence" ∉ rules) : Returns rules (.operators tag atom levels) := fun p bare => by
  obtain ⟨span, given, rfl, same⟩ := Phrase.bare_eq_call bare
  obtain ⟨⟨label, q⟩, rest, rfl, first, later⟩ := List.map_eq_cons_iff.1 same
  obtain ⟨rfl, bare'⟩ := Prod.mk.inj first
  obtain ⟨a, lowered, same'⟩ := h q bare'
  obtain ⟨out, ls, found, lowereds, normals⟩ :=
    Returns.levels returns "OperatorPrecedence" span later
  have same'' : levelNormals ls = levelNormals levels := by
    rw [levelNormals_eq, levelNormals_eq, normals]
  refine ⟨.operators ⟨0, span⟩ a ls, ?_, congrArg₂ (Expr.operators noTag) same' same''⟩
  rw [Phrase.lower]
  refine (lowerCall_form free (rfl)).trans ?_
  have all : positionalOnly "OperatorPrecedence" span (formArgs rules ((none, q) :: rest)) =
      .ok (formArg rules q :: out) := by
    change (positionalOnly _ span (formArgs rules rest) >>= _) = _
    rw [found]
    rfl
  rw [lowerOperators, all]
  change (q.lower rules >>= fun atom => levelsOf out >>= _) = _
  rw [lowered, lowereds]
  rfl

theorem Returns.bound {tag : Tag} {name : String} {value body : Expr} (h : Returns rules value)
    (h' : Returns rules body) : Returns rules (.bound tag name value body) := fun p bare => by
  obtain ⟨span, v, b, rfl, first, second⟩ := Phrase.bare_eq_bound bare
  obtain ⟨v', lowered, same⟩ := h v first
  obtain ⟨b', lowered', same'⟩ := h' b second
  refine ⟨.bound ⟨0, span⟩ name v' b', ?_, congrArg₂ (Expr.bound noTag name) same same'⟩
  rw [Phrase.lower, lowered, lowered']
  rfl

theorem Returns.seq {tag : Tag} {items : List Expr} (returns : ∀ e ∈ items, Returns rules e) :
    Returns rules (.seq tag items none) := fun p bare => by
  obtain ⟨span, ps, rfl, same⟩ := Phrase.bare_eq_sequence bare
  obtain ⟨es, lowered, normals⟩ := Returns.each returns (same.trans (phrases_eq items))
  refine ⟨.seq ⟨0, span⟩ es none, ?_, congrArg (Expr.seq noTag · none) (normals_eq_normals normals)⟩
  rw [Phrase.lower, lowered]
  rfl

theorem Returns.list {tag : Tag} {item : Expr} {least most : Option Bound} (h : Returns rules item)
    (ordered : BoundsInOrder least most) (lower : ∀ b ∈ least, b.Shown) (upper : ∀ b ∈ most, b.Shown) :
    Returns rules (.list tag item least most) := fun p bare => by
  obtain ⟨span, inner, rfl, bare'⟩ := Phrase.bare_eq_suffixed bare
  obtain ⟨e', lowered, same⟩ := h inner bare'
  obtain ⟨least', made, same'⟩ := lowerSuffix_repetition ordered lower upper span e'
  refine ⟨.list ⟨0, span⟩ e' least' most, ?_, congrArg₂ (Expr.list noTag · · most) same same'⟩
  rw [Phrase.lower, lowered]
  exact made

theorem Returns.opt {tag : Tag} {inner : Expr} (h : Returns rules inner) :
    Returns rules (.opt tag inner) := fun p bare => by
  obtain ⟨span, q, rfl, bare'⟩ := Phrase.bare_eq_suffixed bare
  obtain ⟨e', lowered, same⟩ := h q bare'
  refine ⟨.opt ⟨0, span⟩ e', ?_, congrArg (Expr.opt noTag) same⟩
  rw [Phrase.lower, lowered]
  rfl

theorem Returns.str {tag : Tag} {value : List UInt8} {flags : MatchFlags} (plain : flags.skip = false)
    (encodes : Encodes value flags.binary) : Returns rules (.str tag value flags) := fun p bare => by
  obtain ⟨span, rfl⟩ := Phrase.bare_eq_str bare
  obtain ⟨ignoreCase, binary, skip⟩ := flags
  obtain rfl : skip = false := plain
  refine ⟨.str ⟨0, span⟩ value ⟨ignoreCase, binary, false⟩, ?_, rfl⟩
  rw [Phrase.lower, literalBytes_literalChars encodes]
  rfl

theorem Returns.regex {tag : Tag} {pattern : String} {flags : MatchFlags} (plain : flags.skip = false) :
    Returns rules (.regex tag pattern flags) := fun p bare => by
  obtain ⟨span, rfl⟩ := Phrase.bare_eq_regex bare
  obtain ⟨ignoreCase, binary, skip⟩ := flags
  obtain rfl : skip = false := plain
  exact ⟨_, rfl, rfl⟩

theorem Returns.host {tag : Tag} {snippet : Snippet} (shown : snippet.Shown) :
    Returns rules (.host tag snippet) := fun p bare => by
  obtain ⟨span, rfl⟩ := Phrase.bare_eq_host bare
  refine ⟨.host ⟨0, span⟩ snippet, ?_, rfl⟩
  rw [Phrase.lower, shown.lower]
  rfl

/-- An expression that is made of phrases returns from the phrase that it is shown as. -/
theorem Made.returns {names : List String} {e : Expr} (h : e.Made True names)
    (plain : ∀ name ∈ formNames, name ∉ names) (free : ∀ name ∈ formNames, name ∉ rules) :
    Returns rules e := by
  induction h with
  | @intro e here below ih =>
    cases e with
    | str => exact .str here.1 here.2
    | regex => exact .regex here.1
    | ref tag name binding =>
      obtain ⟨rfl, -⟩ := here
      intro p bare
      obtain ⟨span, rfl⟩ := Phrase.bare_eq_ref bare
      exact ⟨_, rfl, rfl⟩
    | seq tag items cls? =>
      obtain rfl : cls? = none := here
      exact .seq ih
    | choice tag items =>
      match items, here with
      | _ :: _ :: _, _ => exact .choice ih
    | list tag item least most =>
      exact .list (ih item (by simp [children])) here.1 (here.2 trivial).1 (here.2 trivial).2
    | sep tag item separator flags =>
      exact .sep flags (ih item (by simp [children])) (ih separator (by simp [children]))
        (free _ (by decide))
    | opt tag inner => exact .opt (ih inner (by simp [children]))
    | apply tag left right applyLeft =>
      refine .binary (if applyLeft then .applyLeft else .applyRight)
        (ih left (by simp [children])) (ih right (by simp [children])) rfl ?_
      rintro span l r first second
      cases applyLeft <;> exact congrArg₂ (Expr.apply noTag · · _) first second
    | discard tag left right discardLeft =>
      refine .binary (if discardLeft then .keepRight else .keepLeft)
        (ih left (by simp [children])) (ih right (by simp [children])) rfl ?_
      rintro span l r first second
      cases discardLeft <;> exact congrArg₂ (Expr.discard noTag · · _) first second
    | expect tag inner => exact .expect (ih inner (by simp [children])) (free _ (by decide))
    | expectNot tag inner => exact .expectNot (ih inner (by simp [children])) (free _ (by decide))
    | fail tag message? => exact .fail message? (free _ (by decide))
    | bound tag name value body =>
      exact .bound (ih value (by simp [children])) (ih body (by simp [children]))
    | satisfying tag inner predicate =>
      refine .binary .satisfying (ih inner (by simp [children]))
        (ih predicate (by simp [children])) rfl ?_
      rintro span l r first second
      exact congrArg₂ (Expr.satisfying noTag) first second
    | skip tag items => exact .skip here ih (free _ (by decide))
    | call tag callee args binding =>
      obtain ⟨rfl, form, -⟩ := here
      exact .call (fun mem => plain callee mem (form mem)) fun arg mem => ih arg.2 (List.mem_map_of_mem mem)
    | host tag snippet => exact .host (here trivial)
    | operators tag atom levels =>
      exact .operators (ih atom (by simp [children])) (fun level mem =>
        ih level.2 (by simpa [children] using .inr ⟨level.1, mem⟩)) (free _ (by decide))

end Expr

/-! ### Definitions of a description -/

/-- A statement whose name is a name and whose phrase can be written. -/
def Statement.Tidy : Statement → Prop
  | .rule r => IsName r.name ∧ r.body.bare.Tidy
  | .cls k => IsName k.name
  | .hostSection _ _ => True

theorem HeadAt.isName {cs rest : List Char} {name : String} {params : Option (List String)}
    (h : HeadAt cs name params rest) : IsName name := by
  cases h with
  | plain named => exact named.isName
  | params named => exact named.isName

theorem tidy_of_run {c c' : Scan.Cursor} {s : Statement} (h : readStatement.run c = some (s, c'))
    (fits : c'.misfit? = none) (ends : Ends c'.rest) : s.Tidy := by
  rcases Scan.run_orElse_some.1 h with h | ⟨-, h⟩
  · obtain ⟨⟨span, source⟩, c₁, -, out⟩ := Scan.run_bind_some.1 h
    obtain ⟨rfl, -⟩ := Scan.run_pure_some.1 out
    trivial
  rcases Scan.run_orElse_some.1 h with h | ⟨-, h⟩
  · obtain ⟨k, rfl, span, spelled⟩ := classAt_of_run h fits
    obtain ⟨-, -, named, -, -⟩ := spelled
    exact named.isName
  · obtain ⟨r, rest, rfl, span, spelled, rests, other⟩ := ruleAt_of_run h fits (.ends ends)
    obtain ⟨-, head, body⟩ := spelled
    exact ⟨head.isName, body.tidy⟩

/-- The statements of a description that was read are tidy. -/
theorem Description.tidy_of_parse {text : String} {description : Description}
    (read : Description.parse text = .ok description) : ∀ s ∈ description.toStatements, s.Tidy := by
  rcases run_of_parse read with ⟨ss, c, rfl, steps, whole, fits⟩ | ⟨body, e, rfl, run, whole, fits⟩
  · exact each_of_steps (fun _ _ _ _ _ run fits ends => tidy_of_run run fits ends)
      (Scan.Cursor.ofText text).before_behind steps whole fits
  · intro s mem
    obtain rfl := List.mem_singleton.1 mem
    obtain ⟨rest, -, spells, -⟩ := spells_of_run _ _ _ run fits (.ends (.of_blank whole))
    exact ⟨.of_word (by decide +kernel : isNameWord "start" = true), spells.tidy⟩

/-- A definition whose name is a name and whose body, if it is no class, is made of phrases. -/
structure Definition.Made (rules : List String) (d : Definition) : Prop where
  isName : IsName d.name
  body : d.fields = none → d.body.Made True rules

theorem lowerStatement_made {rules : List String} {text : String} {g out : Grammar} {s : Statement}
    (tidy : s.Tidy) (made : ∀ d ∈ g.definitions, d.Made rules)
    (h : lowerStatement rules text g s = .ok out) : ∀ d ∈ out.definitions, d.Made rules := by
  have added {d : Definition} (new : d.Made rules) : ∀ x ∈ g.definitions ++ [d], x.Made rules := by
    simpa [or_imp, forall_and] using ⟨made, new⟩
  cases s with
  | rule r =>
    obtain ⟨d, lowered, h⟩ := Except.bind_eq_ok.1 h
    obtain rfl := Except.pure_eq_ok.1 h
    obtain ⟨body, found, h⟩ := Except.bind_eq_ok.1 lowered
    obtain rfl := Except.pure_eq_ok.1 h
    exact added ⟨tidy.1, fun _ => r.body.lower_made rules (fun _ => tidy.2) body found⟩
  | cls k =>
    obtain ⟨d, lowered, h⟩ := Except.bind_eq_ok.1 h
    obtain rfl := Except.pure_eq_ok.1 h
    obtain ⟨items, -, h⟩ := Except.bind_eq_ok.1 lowered
    obtain rfl := Except.pure_eq_ok.1 h
    exact added ⟨tidy, fun none => by cases none⟩
  | hostSection source span =>
    obtain ⟨_, -, h⟩ := Except.bind_eq_ok.1 h
    obtain rfl := Except.pure_eq_ok.1 h
    exact made

theorem addSkipRule_made {rules : List String} {g out : Grammar}
    (made : ∀ d ∈ g.definitions, d.Made rules) (h : addSkipRule g = .ok out) :
    ∀ d ∈ out.definitions, d.Made rules := by
  simp only [addSkipRule] at h
  split at h
  · obtain rfl : g = out := by simpa using h
    exact made
  next some =>
  split at h
  · exact absurd h not_refuse_eq_ok
  · obtain rfl : _ = out := by simpa using h
    intro d mem
    rcases List.mem_append.1 mem with mem | mem
    · exact made d mem
    · obtain rfl := List.mem_singleton.1 mem
      refine ⟨.of_word (by decide +kernel : isNameWord "_ignored" = true), fun _ => ⟨?_, fun c mem => ?_⟩⟩
      · change List.map _ _ ≠ []
        simpa using some
      · obtain ⟨d, inside, rfl⟩ := List.mem_map.1 mem
        exact ⟨⟨rfl, fun _ => (made d (List.mem_filter.1 inside).1).isName⟩, by simp [Expr.children]⟩

/-- The rules of a description that was read have bodies made of phrases. -/
theorem Description.lower_made {text : String} {description : Description} {g : Grammar}
    (read : Description.parse text = .ok description) (lowered : description.lower text = .ok g) :
    ∀ d ∈ g.definitions, d.Made (description.toStatements.filterMap (·.name?)) := by
  obtain ⟨before, folded, h⟩ := Except.bind_eq_ok.1 lowered
  have tidy := description.tidy_of_parse read
  generalize description.toStatements.filterMap (·.name?) = rules at folded ⊢
  have made : ∀ d ∈ before.definitions, d.Made rules :=
    Except.foldlM_keeps (P := fun g => ∀ d ∈ g.definitions, d.Made rules)
      (fun s mem _ _ made => lowerStatement_made (tidy s mem) made) (by simp) folded
  exact addSkipRule_made made h

theorem lowerRule_eq_ok {rules : List String} {r : RuleStatement} {e : Expr} (text : String)
    (h : r.body.lower rules = .ok e) :
    ∃ d, lowerRule rules text r = .ok d ∧ d.body = e ∧ d.ignored = r.ignored := by
  rw [lowerRule, h]
  exact ⟨_, rfl, rfl, rfl⟩

/-- A description of one rule that is not ignored defines that rule only. -/
theorem lower_single {text name : String} {r : RuleStatement} {d : Definition} (named : r.name = name)
    (h : lowerRule [name] text r = .ok d) (unmarked : d.ignored = false) :
    (Description.statements [.rule r]).lower text = .ok ⟨[d], []⟩ := by
  subst named
  rw [Description.lower]
  change ((lowerRule [r.name] text r >>= _) >>= _) >>= _ = _
  rw [h]
  change addSkipRule ⟨[d], []⟩ = _
  rw [addSkipRule, List.filter_cons_of_neg (by simp [unmarked])]
  rfl

/-- **Expressions that are shown read back.** The text of a rule's expression, as the definition of
a rule `start`, is a description, and what that description defines is the expression again. -/
theorem Description.text_reads_back {text : String} {description : Description} {g : Grammar}
    (read : Description.parse text = .ok description) (lowered : description.lower text = .ok g)
    (plain : ∀ s ∈ description.toStatements, ∀ name, s.name? = some name → name ∉ formNames)
    {d : Definition} (mem : d ∈ g.definitions) (rule : d.fields = none) :
    ∃ back g' d', Description.parse ("start = " ++ d.body.text) = .ok back ∧
      back.lower ("start = " ++ d.body.text) = .ok g' ∧ g'.definitions = [d'] ∧
      d'.body.normal = d.body.normal := by
  have made := (Description.lower_made read lowered d mem).body rule
  have spells := made.shown.loose [] .nil (.of_blank rfl)
  rw [List.append_nil] at spells
  have start := RuleAt.start spells
  obtain ⟨s, parsed, same⟩ := parses_of_reads start.opens
    ((start.reads (.of_blank rfl)).mono fun _ _ out => ⟨out.1, out.2.skip_eq⟩)
  have whole : String.ofList ("start = ".toList ++ d.body.text.toList) = "start = " ++ d.body.text := by
    rw [String.ofList_append, String.ofList_toList, String.ofList_toList]
  rw [whole] at parsed
  cases s with
  | rule r =>
    simp only [Statement.bare, RuleStatement.bare, Statement.rule.injEq, RuleStatement.mk.injEq] at same
    obtain ⟨name, -, bare, ignored, -⟩ := same
    have free : ∀ name ∈ formNames, name ∉ ["start"] := by decide
    have names : ∀ name ∈ formNames, name ∉ description.toStatements.filterMap (·.name?) :=
      fun name form mem => by
        obtain ⟨s, inside, named⟩ := List.mem_filterMap.1 mem
        exact plain s inside name named form
    obtain ⟨e', back, same⟩ := made.returns names free r.body bare
    obtain ⟨d', lowered', body, unmarked⟩ := lowerRule_eq_ok ("start = " ++ d.body.text) back
    refine ⟨_, ⟨[d'], []⟩, d', parsed, ?_, rfl, body ▸ same⟩
    exact lower_single name lowered' (unmarked.trans ignored)
  | cls | hostSection => cases same

/-- Whether a text is a description without rules that are named like forms, whose first rule is
shown in a certain way. -/
def Description.showsFirst (text shown : String) : Bool :=
  match Description.parse text with
  | .ok description =>
    (description.toStatements.all fun s => s.name?.all (!formNames.contains ·)) &&
      match description.lower text with
      | .ok ⟨d :: _, _⟩ => d.fields.isNone && d.body.text == shown
      | _ => false
  | .error _ => false

/-- Alternatives within alternatives, a bound that asks for nothing, escapes and host code. -/
theorem Description.text_reads_back_nested : ∃ description g d,
    Description.parse
        "start = (\"\\\"\" | (k\x7b0,\x7d | /b\\/c/i)) // f(\x60 1 \x60)\nf(x) = x\nclass k \x7b x: b'\\xff' \x7d" =
      .ok description ∧
    description.lower
        "start = (\"\\\"\" | (k\x7b0,\x7d | /b\\/c/i)) // f(\x60 1 \x60)\nf(x) = x\nclass k \x7b x: b'\\xff' \x7d" =
      .ok g ∧
    (∀ s ∈ description.toStatements, ∀ name, s.name? = some name → name ∉ formNames) ∧
    d ∈ g.definitions ∧ d.fields = none ∧
    d.body.text = "(\"\\\"\" | k* | /b\\/c/i) // f(\x601\x60)" ∧
    ∃ back g' d', Description.parse ("start = " ++ d.body.text) = .ok back ∧
      back.lower ("start = " ++ d.body.text) = .ok g' ∧ g'.definitions = [d'] ∧
      d'.body.normal = d.body.normal := by
  have shows : showsFirst
      "start = (\"\\\"\" | (k\x7b0,\x7d | /b\\/c/i)) // f(\x60 1 \x60)\nf(x) = x\nclass k \x7b x: b'\\xff' \x7d"
      "(\"\\\"\" | k* | /b\\/c/i) // f(\x601\x60)" = true := by decide +kernel
  rw [showsFirst] at shows
  split at shows
  case h_2 => cases shows
  next description read =>
  rw [Bool.and_eq_true, List.all_eq_true] at shows
  obtain ⟨named, shows⟩ := shows
  have plain : ∀ s ∈ description.toStatements, ∀ name, s.name? = some name → name ∉ formNames :=
    fun s mem name same => by simpa [same] using named s mem
  split at shows
  · next d ds sections lowered =>
    obtain ⟨rule, text⟩ : d.fields = none ∧ d.body.text = _ := by simpa using shows
    exact ⟨description, _, d, read, lowered, plain, List.mem_cons_self, rule, text,
      text_reads_back read lowered plain List.mem_cons_self rule⟩
  · cases shows

end Packrat
