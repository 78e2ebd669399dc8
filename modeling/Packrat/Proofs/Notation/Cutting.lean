import Packrat.Proofs.Notation.Phrases

/-
**Phrases at the end of a text.**

A phrase is spelled in the same way when the text behind it is cut off, provided that what is left
of that text does not turn into an operator or the letter of a literal by the cut.  Every token in
front of the cut ends before it, so it is the same token.

Main definitions:

* `Packrat.Trims` — a rest that a cut does not turn into something else.

Main results:

* `Packrat.Scan.skip_eq_append` — blanks before something that stays are the same blanks;
* `Packrat.Spells.cut` — what is spelled is spelled without the text behind it.
-/

set_option autoImplicit false

namespace Packrat

open Scan

variable {cs z m : List Char}

theorem head?_append_some {c : Char} (h : z.head? = some c) (m : List Char) :
    (z ++ m).head? = some c := by
  cases z with
  | nil => cases h
  | cons d z => exact h

/-- Blanks end where they end in a longer text, unless they reach the end of the shorter one. -/
theorem Scan.blankLength_append (inComment : Bool) (cs m : List Char) :
    blankLength inComment (cs ++ m) = blankLength inComment cs ∨
      blankLength inComment cs = cs.length ∧ cs.length ≤ blankLength inComment (cs ++ m) := by
  induction cs generalizing inComment with
  | nil => cases inComment <;> simp [blankLength]
  | cons c cs ih =>
    cases inComment with
    | true =>
      simp only [List.cons_append, blankLength, List.length_cons]
      have := ih (c != '\n')
      omega
    | false =>
      simp only [List.cons_append, blankLength, List.length_cons]
      split
      · have := ih false
        omega
      · split
        · have := ih true
          omega
        · exact .inl rfl

theorem Scan.skip_append {cs : List Char} (h : skip cs ≠ []) (m : List Char) :
    skip (cs ++ m) = skip cs ++ m := by
  rcases blankLength_append false cs m with same | ⟨all, -⟩
  · rw [skip, skip, same, List.drop_append_of_le_length (blankLength_le false cs)]
  · exact absurd (by rw [skip, all, List.drop_length]) h

/-- Blanks before something that stays are the same blanks when the text behind is cut off. -/
theorem Scan.skip_eq_append {x : List Char} (h : skip cs = x ++ m) (filled : x ≠ []) :
    ∃ y, cs = y ++ m ∧ skip y = x := by
  obtain ⟨y, rfl⟩ : ∃ y, cs = y ++ m :=
    ⟨cs.take (blankLength false cs) ++ x, by
      rw [List.append_assoc, ← h]
      exact (List.take_append_drop _ cs).symm⟩
  refine ⟨y, rfl, ?_⟩
  by_cases none : skip y = []
  · have short := congrArg List.length none
    have long := congrArg List.length h
    have := List.length_pos_iff.2 filled
    have := blankLength_append false y m
    have := blankLength_le false y
    simp only [skip, List.length_drop, List.length_append, List.length_nil] at short long
    omega
  · rw [skip_append none] at h
    exact List.append_cancel_right h

/-! ### Tokens -/

theorem NoWord.cut (h : NoWord (z ++ m)) : NoWord z := fun c head => h c (head?_append_some head m)

theorem NameAt.cut {name : String} (h : NameAt cs name (z ++ m)) :
    ∃ x, cs = x ++ m ∧ NameAt x name z :=
  ⟨name.toList ++ z, by rw [h.split, List.append_assoc], rfl, h.isName, h.ends.cut⟩

theorem KeywordAt.cut {word : String} (h : KeywordAt word cs (z ++ m)) :
    ∃ x, cs = x ++ m ∧ KeywordAt word x z :=
  ⟨word.toList ++ z, by rw [h.split, List.append_assoc], rfl, h.ends.cut⟩

theorem OperatorAt.cut {op : Phrase.Operator} (h : OperatorAt cs op (z ++ m)) :
    ∃ x, cs = x ++ m ∧ OperatorAt x op z :=
  ⟨op.token.toList ++ z, by rw [h.split, List.append_assoc], rfl, fun e => (h.word e).cut,
    fun e head => h.bar e (head?_append_some head m)⟩

theorem Numeral.cut {limit n : Nat} (h : Numeral limit cs n (z ++ m)) :
    ∃ x, cs = x ++ m ∧ Numeral limit x n z := by
  generalize left : z ++ m = rest at h
  obtain ⟨filled, isDigit, ends, below⟩ := h
  subst left
  exact ⟨_, by rw [List.append_assoc],
    .intro filled isDigit (fun c head => ends c (head?_append_some head m)) below⟩

theorem HostLiteral.cut {source : String} (h : HostLiteral cs source (z ++ m)) :
    ∃ x, cs = x ++ m ∧ HostLiteral x source z := by
  generalize left : z ++ m = rest at h
  obtain ⟨plain⟩ := h
  subst left
  exact ⟨_, by simp, .intro plain⟩

theorem CaseFlagAt.cut {flag : Bool} (h : CaseFlagAt cs flag (z ++ m)) (letter : z ≠ ['i']) :
    ∃ x, cs = x ++ m ∧ CaseFlagAt x flag z := by
  refine ⟨flagLetter 'i' flag ++ z, by rw [h.split, List.append_assoc], rfl, ?_⟩
  have ends := h.ends
  cases flag with
  | true => exact NoWord.cut ends
  | false =>
    refine Bool.eq_false_iff.2 fun word => ?_
    have whole := List.takeWhile_append_dropWhile (p := isWordChar) (l := z)
    rw [atWord_iff.1 word] at whole
    -- The letter is followed by something that is not cut off.
    have more : z.dropWhile isWordChar ≠ [] := fun none => by
      rw [none] at whole
      exact letter whole.symm
    obtain ⟨c, t, split⟩ := List.exists_cons_of_ne_nil more
    have plain : NoWord (c :: t ++ m) := by
      have := NoWord.dropWhile z
      rw [split] at this
      simpa using this
    rw [split] at whole
    have again : atWord "i" (z ++ m) = true := by
      rw [← whole]
      exact atWord_letter.2 plain
    rw [again] at ends
    cases ends

theorem TextLiteral.cut {value : String} {ignoreCase binary : Bool}
    (h : TextLiteral cs value ignoreCase binary (z ++ m)) (letter : z ≠ ['i']) :
    ∃ x, cs = x ++ m ∧ TextLiteral x value ignoreCase binary z := by
  generalize left : z ++ m = rest at h
  obtain ⟨mark, enclosed, flag⟩ := h
  subst left
  obtain ⟨x, rfl, flag'⟩ := flag.cut letter
  exact ⟨_, by simp, .intro mark enclosed flag'⟩

theorem PatternLiteral.cut {pattern : String} {ignoreCase binary : Bool}
    (h : PatternLiteral cs pattern ignoreCase binary (z ++ m)) (letter : z ≠ ['i']) :
    ∃ x, cs = x ++ m ∧ PatternLiteral x pattern ignoreCase binary z := by
  generalize left : z ++ m = rest at h
  obtain ⟨enclosed, filled, flag⟩ := h
  subst left
  obtain ⟨x, rfl, flag'⟩ := flag.cut letter
  exact ⟨_, by simp, .intro enclosed filled flag'⟩

theorem BoundAt.cut {b : Phrase.Bound} (h : BoundAt cs b (z ++ m)) :
    ∃ x, cs = x ++ m ∧ BoundAt x b z := by
  cases h with
  | int h =>
    obtain ⟨x, split, numeral⟩ := h.cut
    exact ⟨x, split, .int numeral⟩
  | host h =>
    obtain ⟨x, split, literal⟩ := h.cut
    exact ⟨x, split, .host literal⟩

theorem BoundAt?.cut {b? : Option Phrase.Bound} (h : BoundAt? cs b? (z ++ m)) (filled : z ≠ []) :
    ∃ x, cs = x ++ m ∧ BoundAt? x b? z := by
  generalize left : z ++ m = rest at h
  cases h with
  | none => exact ⟨z, left.symm, .none z⟩
  | some h =>
    obtain ⟨y, rfl, rfl⟩ := skip_eq_append left.symm filled
    obtain ⟨x, split, bound⟩ := h.cut
    exact ⟨x, split, .some bound⟩

/-- A bound behind blanks. -/
theorem BoundAt?.cut_skip {b? : Option Phrase.Bound} {c : Char}
    (h : BoundAt? (skip cs) b? (c :: z ++ m)) :
    ∃ x, cs = x ++ m ∧ BoundAt? (skip x) b? (c :: z) := by
  obtain ⟨x, split, bound⟩ := h.cut (by simp)
  have filled : x ≠ [] := by
    rintro rfl
    have := bound.suffix.length_le
    simp at this
  obtain ⟨y, rfl, rfl⟩ := skip_eq_append split filled
  exact ⟨y, rfl, bound⟩

theorem SuffixAt.cut {suffix : Phrase.Suffix} (h : SuffixAt cs suffix (z ++ m)) :
    ∃ x, cs = x ++ m ∧ SuffixAt x suffix z := by
  generalize left : z ++ m = rest at h
  cases h with
  | opt => exact ⟨'?' :: z, by simp [left], .opt z⟩
  | many => exact ⟨'*' :: z, by simp [left], .many z⟩
  | some => exact ⟨'+' :: z, by simp [left], .some z⟩
  | exact bound =>
    subst left
    obtain ⟨x, rfl, bound'⟩ := BoundAt?.cut_skip bound
    exact ⟨'\x7b' :: x, rfl, .exact bound'⟩
  | between lower upper =>
    subst left
    obtain ⟨x, rfl, upper'⟩ := BoundAt?.cut_skip upper
    obtain ⟨y, rfl, lower'⟩ := BoundAt?.cut_skip lower
    exact ⟨'\x7b' :: y, rfl, .between lower' upper'⟩

theorem Alone.cut {name : String} (h : Alone name (z ++ m)) : Alone name z where
  call head := h.call (head?_append_some head m)
  text same := ⟨fun head => (h.text same).1 (head?_append_some head m),
    fun head => (h.text same).2 (head?_append_some head m)⟩
  pattern same t split := by
    cases measured : filledPatternLength t with
    | none => rfl
    | some n =>
      -- A pattern in front of the cut is one in the whole text.
      obtain ⟨measured, positive⟩ := filledPatternLength_eq_some.1 measured
      obtain ⟨tail, split'⟩ := patternLength_split measured
      have length : (t.take n).length = n := by
        have enclosed := patternLength_eq_some measured tail
        rw [← split', measured] at enclosed
        exact (Option.some.inj enclosed).symm
      have whole : filledPatternLength (t ++ m) = some n := by
        refine filledPatternLength_eq_some.2 ⟨?_, positive⟩
        rw [split', List.append_assoc, List.cons_append, patternLength_eq_some measured, length]
      rw [h.pattern same (t ++ m) (by rw [split]; rfl)] at whole
      cases whole

/-! ### Phrases -/

/-- A rest of a text that stays what it is when the text behind it is cut off. -/
structure Trims (z m : List Char) : Prop where
  letter : z ≠ ['i']
  follow : Follow 6 (z ++ m) → Follow 6 z

theorem Trims.of_blank (h : skip z = []) : Trims z m where
  letter := by
    rintro rfl
    exact absurd h (by decide)
  follow _ := .of_head fun c head => by simp [h] at head

theorem Trims.of_eq_cons {c : Char} {t : List Char} (split : skip z = c :: t)
    (plain : c ∉ ['?', '*', '+', '\x7b', '|', '<', '/', '>', 'w'] ∧ c ≠ 'i') : Trims z m where
  letter := by
    rintro rfl
    exact plain.2 (List.cons.inj split).1.symm
  follow _ := .of_eq_cons split plain.1

theorem Trims.of_keyword {t : List Char} (h : KeywordAt "in" (skip z) t) : Trims z m where
  letter := by
    rintro rfl
    have := h.split
    exact absurd this.symm (by simp [skip, blankLength, isSpace])
  follow _ := .of_eq_cons (t := 'n' :: t) (by rw [h.split]; rfl) (by decide)

theorem Trims.of_operator {op : Phrase.Operator} {t : List Char} (h : OperatorAt (skip z) op t)
    (whole : OperatorAt (skip (z ++ m)) op (t ++ m)) : Trims z m where
  letter := by
    rintro rfl
    obtain ⟨c, head, mem⟩ := h.head
    have letter : skip ['i'] = ['i'] := rfl
    obtain rfl : 'i' = c := by simpa [letter] using head
    simp at mem
  follow next := by
    have := next.operator op _ whole
    cases op <;> simp [Phrase.Operator.level] at this

theorem Trims.of_suffix {s : Phrase.Suffix} {t : List Char} (h : SuffixAt (skip z) s t) :
    Trims z m := by
  obtain ⟨c, u, split, mem⟩ : ∃ c u, skip z = c :: u ∧ c ∈ ['?', '*', '+', '\x7b'] := by
    generalize skip z = x at h
    cases h <;> exact ⟨_, _, rfl, by decide⟩
  refine ⟨?_, fun next => ?_⟩
  · rintro rfl
    obtain rfl : 'i' = c := (List.cons.inj split).1
    simp at mem
  · refine (next.suffix (by omega) c ?_ mem).elim
    rw [skip_append (by rw [split]; simp), split]
    rfl

/-- Operators behind a phrase that stand in front of the cut. -/
theorem Suffixed.cut {suffixes : List Phrase.Suffix} (h : Suffixed cs suffixes (z ++ m))
    (trims : Trims z m) : ∃ x, cs = x ++ m ∧ Suffixed x suffixes z ∧ Trims x m := by
  generalize left : z ++ m = rest at h
  induction h with
  | nil cs => exact ⟨z, left.symm, .nil z, trims⟩
  | @cons cs t rest s suffixes first later ih =>
    obtain ⟨x, rfl, suffixed, -⟩ := ih left
    obtain ⟨y, split, first'⟩ := first.cut
    have filled : y ≠ [] := by
      rintro rfl
      have := first'.consumes.shorter
      simp at this
    obtain ⟨w, rfl, rfl⟩ := skip_eq_append split filled
    exact ⟨w, rfl, .cons first' suffixed, .of_suffix first'⟩

/-- A text that something is taken from is not empty. -/
theorem Consumes.filled {rest : List Char} (h : Consumes cs rest) : cs ≠ [] := by
  rintro rfl
  exact absurd h.shorter (Nat.not_lt_zero _)

/-- Items of a list that stands in front of the cut, given that each item stays what it is. -/
theorem Listed.cut (good : Item → Prop) {close : Char} (closing : close ∈ [')', ']'])
    {items : List Item} (h : Listed close cs items (z ++ m))
    (item : ∀ i ∈ items, ∀ y, i.rest = y ++ m → Trims y m → ∃ i' : Item,
      (i'.label, i'.phrase) = (i.label, i.phrase) ∧ i.start = i'.start ++ m ∧ i'.start ≠ [] ∧
        i'.rest = y ∧ good i') :
    ∃ x items', cs = x ++ m ∧ x ≠ [] ∧ Listed close x items' z ∧
      items'.map (fun i => (i.label, i.phrase)) = items.map (fun i => (i.label, i.phrase)) ∧
      ∀ i ∈ items', good i := by
  generalize left : z ++ m = rest at h
  induction h generalizing z with
  | nil => exact ⟨close :: z, [], by rw [← left]; rfl, by simp, .nil z, rfl, by simp⟩
  | @last cs rest i begins closes =>
    subst left
    obtain ⟨y, split, stop⟩ := skip_eq_append (x := close :: z) closes (by simp)
    have trims : Trims y m := .of_eq_cons stop (by
      simp only [List.mem_cons, List.not_mem_nil, or_false] at closing
      rcases closing with rfl | rfl <;> decide)
    obtain ⟨i', value, start, filled, rfl, ok⟩ := item i (by simp) y split trims
    exact ⟨i'.start, [i'], by rw [← begins, start], filled, .last rfl stop, by simpa using value,
      by simpa using ok⟩
  | @cons cs t rest i items begins comma later ih =>
    obtain ⟨x, items', split, filled, listed, values, ok⟩ :=
      ih (fun i mem => item i (by simp [mem])) left
    obtain ⟨u, rfl, rfl⟩ := skip_eq_append split filled
    obtain ⟨y, split', stop⟩ := skip_eq_append (x := ',' :: u) comma (by simp)
    obtain ⟨i', value, start, filled', rfl, ok'⟩ :=
      item i (by simp) y split' (.of_eq_cons stop (by decide))
    exact ⟨i'.start, i' :: items', by rw [← begins, start], filled', .cons rfl stop listed,
      by simp only [List.map_cons, values, value], by simpa using ⟨ok', ok⟩⟩

/-- Operators with their operands in front of the cut, given that each operand stays what it is. -/
theorem Linked.cut {level n : Nat} {links : List Link} (h : Linked level cs links (z ++ m))
    (operand : ∀ link ∈ links, ∀ y, link.rest = y ++ m → Trims y m →
      ∃ x, link.text = x ++ m ∧ Spells n x y link.phrase) (trims : Trims z m) :
    ∃ x links', cs = x ++ m ∧ Linked level x links' z ∧
      links'.map (fun l => (l.op, l.phrase)) = links.map (fun l => (l.op, l.phrase)) ∧
      (∀ l ∈ links', Spells n l.text l.rest l.phrase) ∧ Trims x m := by
  generalize left : z ++ m = rest at h
  induction h with
  | nil cs => exact ⟨z, [], left.symm, .nil z, rfl, by simp, trims⟩
  | @cons cs t rest link links operator tight begins later ih =>
    obtain ⟨y, links', split, linked, values, spells, trims'⟩ :=
      ih (fun l mem => operand l (by simp [mem])) left
    obtain ⟨x, split', spells'⟩ := operand link (by simp) y split trims'
    obtain ⟨u, rfl, rfl⟩ := skip_eq_append (begins ▸ split') spells'.consumes.filled
    obtain ⟨v, split'', operator'⟩ := operator.cut
    obtain ⟨w, rfl, rfl⟩ := skip_eq_append split'' operator'.consumes.filled
    refine ⟨w, ⟨link.op, skip u, y, link.phrase⟩ :: links', rfl, .cons operator' tight rfl linked,
      by simp [values], ?_, .of_operator operator' operator⟩
    simpa using ⟨spells', spells⟩

theorem Item.Labelled.cut {n : Nat} {i : Item} (h : i.Labelled) {x y : List Char}
    (text : i.text = x ++ m) (spells : Spells n x y i.phrase) : ∃ i' : Item,
      (i'.label, i'.phrase) = (i.label, i.phrase) ∧ i.start = i'.start ++ m ∧ i'.start ≠ [] ∧
        i'.rest = y ∧ i'.Labelled ∧ Spells n i'.text i'.rest i'.phrase := by
  have filled := spells.consumes.filled
  rw [Item.Labelled] at h
  split at h
  · next unlabelled =>
    exact ⟨⟨none, x, x, y, i.phrase⟩, by rw [unlabelled], by rw [← h, text], filled, rfl, rfl,
      spells⟩
  · next name labelled =>
    obtain ⟨r, t, named, equals, begins⟩ := h
    obtain ⟨t', rfl, rfl⟩ := skip_eq_append (begins ▸ text) filled
    obtain ⟨r', rfl, equals'⟩ := skip_eq_append (x := '=' :: t') equals (by simp)
    obtain ⟨s, split, named'⟩ := named.cut
    exact ⟨⟨name, s, skip t', y, i.phrase⟩, by rw [labelled], split, named'.consumes.filled, rfl,
      ⟨r', t', named', equals', rfl⟩, spells⟩

/-- A phrase is spelled in the same way when the text behind it is cut off. -/
theorem Spells.cut {n : Nat} {p : Phrase} (h : Spells n cs (z ++ m) p) (trims : Trims z m) :
    ∃ x, cs = x ++ m ∧ Spells n x z p := by
  generalize left : z ++ m = rest at h
  induction h generalizing z with
  | bound binds named equals value' inside body' greedy ihValue ihBody =>
    subst left
    obtain ⟨x₃, split₃, body''⟩ := ihBody trims rfl
    obtain ⟨t₃, rfl, rfl⟩ := skip_eq_append split₃ body''.consumes.filled
    obtain ⟨y₂, split₂, inside'⟩ := inside.cut
    obtain ⟨r₂, rfl, rfl⟩ := skip_eq_append split₂ (inside'.consumes (by decide)).filled
    obtain ⟨x₂, split, value''⟩ := ihValue (.of_keyword inside') rfl
    obtain ⟨t₂, rfl, rfl⟩ := skip_eq_append split value''.consumes.filled
    obtain ⟨r₁, rfl, equals'⟩ := skip_eq_append (x := '=' :: t₂) equals (by simp)
    obtain ⟨x₁, split₁, named'⟩ := named.cut
    obtain ⟨t₁, rfl, rfl⟩ := skip_eq_append split₁ named'.consumes.filled
    obtain ⟨x, split₀, binds'⟩ := binds.cut
    exact ⟨x, split₀, .bound binds' named' equals' value'' inside' body'' (trims.follow greedy)⟩
  | @call cs t rest callee items named listed labelled args ih =>
    subst left
    obtain ⟨x, items', split, filled, listed', values, ok⟩ :=
      Listed.cut (fun i => i.Labelled ∧ Spells 6 i.text i.rest i.phrase) (by decide) listed
        fun i mem y left trims => by
          obtain ⟨x, text, spells⟩ := ih i mem trims left.symm
          exact (labelled i mem).cut text spells
    obtain ⟨t', rfl, rfl⟩ := skip_eq_append split filled
    obtain ⟨w, split', named'⟩ := NameAt.cut (z := '(' :: t') named
    refine ⟨w, split', ?_⟩
    rw [← values]
    exact .call named' listed' (fun i mem => (ok i mem).1) fun i mem => (ok i mem).2
  | @sequence t rest items listed plain parts ih =>
    subst left
    obtain ⟨x, items', split, filled, listed', values, ok⟩ :=
      Listed.cut (fun i => (i.label = none ∧ i.text = i.start) ∧
          Spells 6 i.text i.rest i.phrase) (by decide) listed
        fun i mem y left trims => by
          obtain ⟨x, text, spells⟩ := ih i mem trims left.symm
          exact ⟨⟨none, x, x, y, i.phrase⟩, by rw [(plain i mem).1], by rw [← (plain i mem).2, text],
            spells.consumes.filled, rfl, ⟨rfl, rfl⟩, spells⟩
    obtain ⟨t', rfl, rfl⟩ := skip_eq_append split filled
    have phrases : items'.map (·.phrase) = items.map (·.phrase) := by
      have := congrArg (List.map Prod.snd) values
      simpa [Function.comp_def] using this
    refine ⟨'[' :: t', rfl, ?_⟩
    rw [← phrases]
    exact .sequence listed' (fun i mem => (ok i mem).1) fun i mem => (ok i mem).2
  | @group t r rest p inner closes ih =>
    subst left
    obtain ⟨r', rfl, closes'⟩ := skip_eq_append (x := ')' :: z) closes (by simp)
    obtain ⟨x, split, inner'⟩ := ih (.of_eq_cons closes' (by decide)) rfl
    obtain ⟨t', rfl, rfl⟩ := skip_eq_append split inner'.consumes.filled
    exact ⟨'(' :: t', rfl, .group inner' closes'⟩
  | str literal =>
    subst left
    obtain ⟨x, split, literal'⟩ := literal.cut trims.letter
    exact ⟨x, split, .str literal'⟩
  | regex literal =>
    subst left
    obtain ⟨x, split, literal'⟩ := literal.cut trims.letter
    exact ⟨x, split, .regex literal'⟩
  | host literal =>
    subst left
    obtain ⟨x, split, literal'⟩ := literal.cut
    exact ⟨x, split, .host literal'⟩
  | int numeral =>
    subst left
    obtain ⟨x, split, numeral'⟩ := numeral.cut
    exact ⟨x, split, .int numeral'⟩
  | ref named alone =>
    subst left
    obtain ⟨x, split, named'⟩ := named.cut
    exact ⟨x, split, .ref named' alone.cut⟩
  | suffixed first later ih =>
    subst left
    obtain ⟨y, rfl, suffixed, trims'⟩ := later.cut trims
    obtain ⟨x, split, first'⟩ := ih trims' rfl
    exact ⟨x, split, .suffixed first' suffixed⟩
  | @chain level cs r rest p links first linked operands ihFirst ihOperands =>
    subst left
    obtain ⟨y, links', rfl, linked', values, spells, trims'⟩ :=
      linked.cut (fun l mem y left trims => ihOperands l mem trims left.symm) trims
    obtain ⟨x, split, first'⟩ := ihFirst trims' rfl
    have same : links.foldl (fun left link => .binary .nowhere link.op left link.phrase) p =
        links'.foldl (fun left link => .binary .nowhere link.op left link.phrase) p := by
      rw [← List.foldl_map (f := fun link : Link => (link.op, link.phrase))
        (g := fun (left : Phrase) x => .binary .nowhere x.1 left x.2), ← values, List.foldl_map]
    refine ⟨x, split, ?_⟩
    rw [same]
    exact .chain first' linked' spells

end Packrat
