import Packrat.Proofs.Notation.Completeness

/-
**What is read is spelled.**

A phrase that the reader of phrases has read is spelled where it was read, provided that the reading
goes on behind it: with an operator, with a character that closes or parts a list, or with what may
follow a whole phrase.  A chain has taken along all that its operators can take, so where it was the
body of a binding no operator follows.

Main definitions:

* `Packrat.readLink` — an operator with its operand;
* `Packrat.StopsAt` — where the span of a phrase stops;
* `Packrat.Ends` — what may follow a whole phrase;
* `Packrat.Halts` — where the reading goes on behind a phrase.

Main results:

* `Packrat.spells_of_run` — a phrase that was read is spelled;
* `Packrat.Begins.wholePhrase` — its span does not begin before it.
-/

set_option autoImplicit false

namespace Packrat

open Scan

/-! ### Where readings end -/

/-- The cursor behind the blanks. -/
def Scan.Cursor.behind (c : Cursor) : Cursor := c.advance (blankLength false c.rest)

@[simp] theorem Scan.Cursor.behind_rest (c : Cursor) : c.behind.rest = skip c.rest := rfl

@[simp] theorem Scan.Cursor.behind_behind (c : Cursor) : c.behind.behind = c.behind := by
  have none : blankLength false (skip c.rest) = 0 := by
    cases h : skip c.rest with
    | nil => rfl
    | cons d t =>
      obtain ⟨space, hash⟩ := skip_solid h
      simp [blankLength, space, hash]
  rw [Cursor.behind, behind_rest, none, Cursor.advance_zero]

theorem Scan.Cursor.before_behind (c : Cursor) : c.Before c.behind := c.before_advance _

theorem run_blanks_seqRight {α : Type} (r : Reader α) (c : Cursor) :
    (blanks *> r).run c = r.run c.behind := by
  rw [run_seqRight, run_blanks]
  rfl

/-- An operator with its operand. -/
def readLink (level : Nat) : Reader (Phrase.Operator × Phrase) := do
  let op ← levelOperator level
  let right ← stage readWholePhrase (level + 1)
  pure (op, right)

theorem Scan.Steady.link (level : Nat) : Steady (readLink level) :=
  (operator level).bind fun _ => (wholePhrase.stage (level + 1)).bind fun _ => pure _

namespace Scan.Shrinks

variable {α β : Type} {r s : Reader α}

theorem bind {f : α → Reader β} (h : Shrinks r) (next : ∀ x, Steady (f x)) : Shrinks (r >>= f) :=
  fun c y c' run => by
    obtain ⟨x, c₁, first, second⟩ := run_bind_some.1 run
    have := h c x c₁ first
    have := (next x c₁ y c' second).suffix.length_le
    omega

theorem seqRight {t : Reader β} (h : Shrinks r) (h' : Steady t) : Shrinks (r *> t) :=
  fun c y c' run => by
    obtain ⟨x, c₁, first, second⟩ := run_seqRight_some.1 run
    have := h c x c₁ first
    have := (h' c₁ y c' second).suffix.length_le
    omega

theorem orElse (h : Shrinks r) (h' : Shrinks s) : Shrinks (r <|> s) := fun c x c' run =>
  (run_orElse_some.1 run).elim (h c x c') fun out => h' c x c' out.2

theorem literal {cs : List Char} (filled : cs ≠ []) : Shrinks (literal cs) := fun c x c' run => by
  have := List.length_pos_iff.2 filled
  rw [(run_literal_some run).1, List.length_append]
  omega

theorem spanned (h : Shrinks r) : Shrinks (spanned r) := fun c x c' run =>
  h c x.2 c' ((run_spanned_some (x := x.2)).1 run).1

theorem behind (h : Shrinks r) : Shrinks (blanks *> r) := fun c x c' run => by
  rw [run_blanks_seqRight] at run
  have := h _ x c' run
  have := skip_length_le c.rest
  rw [Cursor.behind_rest] at *
  omega

theorem suffix : Shrinks readSuffix :=
  .spanned <| .orElse ((literal (by simp)).seqRight (.pure _)) <|
    .orElse ((literal (by simp)).seqRight (.pure _)) <|
    .orElse ((literal (by simp)).seqRight (.pure _)) <|
    (symbol (by simp)).bind fun _ => Steady.bound.attempt.bind fun _ =>
    (Steady.symbol _).attempt.bind fun comma => by
      cases comma with
      | none => exact (Steady.pure _).bind fun _ => (Steady.literal _).bind fun _ => .pure _
      | some _ =>
        exact Steady.bound.attempt.bind fun _ => (Steady.literal _).bind fun _ => .pure _

theorem operator (level : Nat) : Shrinks (levelOperator level) := by
  match level with
  | 0 => exact (keyword (by simp)).seqRight (.pure _)
  | 1 | 2 | 3 =>
    exact ((symbol (by simp)).seqRight (.pure _)).orElse ((symbol (by simp)).seqRight (.pure _))
  | _ + 4 =>
    refine Shrinks.seqRight (fun c x c' run => ?_) (.pure _)
    obtain ⟨_, c₁, look, read⟩ := run_seqRight_some.1 run
    obtain ⟨-, rfl⟩ := run_lookahead_some.1 look
    exact symbol (by simp) c₁ x c' read

theorem link (level : Nat) : Shrinks (readLink level) :=
  (operator level).bind fun _ => (Steady.wholePhrase.stage (level + 1)).bind fun _ => .pure _

end Scan.Shrinks

/-- Readings one after the other end where there is no further one. -/
theorem Scan.run_many_refuses {α : Type} {r : Reader α} (shrinks : Shrinks r) {c c' : Cursor}
    {xs : List α} (h : (many r).run c = some (xs, c')) : r.run c' = none := by
  have upTo : ∀ (fuel : Nat) (c : Cursor) (xs : List α), c.rest.length ≤ fuel →
      (manyUpTo r fuel).run c = some (xs, c') → r.run c' = none := by
    intro fuel
    induction fuel with
    | zero =>
      intro c xs short run
      obtain ⟨rfl, rfl⟩ := run_pure_some.1 run
      cases again : r.run c' with
      | none => rfl
      | some out => have := shrinks c' _ _ again; omega
    | succ fuel ih =>
      intro c xs short run
      obtain ⟨o, c₁, first, second⟩ := run_bind_some.1 run
      rcases run_attempt_some.1 first with ⟨x, rfl, read⟩ | ⟨refused, rfl, rfl⟩
      · obtain ⟨ys, c₂, later, out⟩ := run_bind_some.1 second
        obtain ⟨rfl, rfl⟩ := run_pure_some.1 out
        have := shrinks _ _ _ read
        exact ih c₁ ys (by omega) later
      · obtain ⟨rfl, rfl⟩ := run_pure_some.1 second
        exact refused
  exact upTo c.rest.length c xs (Nat.le_refl _) h

/-- No operator that a stage takes along is read at a cursor. -/
structure Closed (n : Nat) (c : Cursor) : Prop where
  suffix : 1 ≤ n → readSuffix.run c.behind = none
  link : ∀ level, level + 2 ≤ n → (readLink level).run c.behind = none

theorem Closed.behind {n : Nat} {c : Cursor} (h : Closed n c) : Closed n c.behind :=
  ⟨by rw [Cursor.behind_behind]; exact h.suffix, by rw [Cursor.behind_behind]; exact h.link⟩

/-- A reading of a chain, taken apart. -/
theorem run_readChain_some {α β : Type} {first : Reader α} {next : Reader β} {c c' : Cursor} {x : α}
    {ys : List β} (h : (readChain first next).run c = some ((x, ys), c')) :
    ∃ c₁, first.run c = some (x, c₁) ∧ (many (blanks *> next)).run c₁.behind = some (ys, c') := by
  obtain ⟨y, c₁, read, h₁⟩ := run_bind_some.1 h
  obtain ⟨zs, c₂, later, out⟩ := run_bind_some.1 h₁
  obtain ⟨same, rfl⟩ := run_pure_some.1 out
  obtain ⟨rfl, rfl⟩ := Prod.mk.inj same
  obtain ⟨z, d, first', pass⟩ := run_bind_some.1 read
  obtain ⟨_, e, blank, out⟩ := run_bind_some.1 pass
  obtain ⟨rfl, rfl⟩ := run_pure_some.1 out
  rw [run_blanks] at blank
  obtain rfl := (Prod.mk.inj (Option.some.inj blank)).2
  exact ⟨d, first', later⟩

/-- An operator with its operand, taken apart. -/
theorem run_link_some {level : Nat} (le : level ≤ 4) {c c' : Cursor} {op : Phrase.Operator}
    {q : Phrase} (h : (readLink level).run c = some ((op, q), c')) :
    ∃ rest d, OperatorAt c.rest op rest ∧ op.level = level ∧ d.rest = skip rest ∧
      c.Before d ∧ (stage readWholePhrase (level + 1)).run d = some (q, c') := by
  obtain ⟨op', d, found, h₁⟩ := run_bind_some.1 h
  obtain ⟨q', c₂, operand, out⟩ := run_bind_some.1 h₁
  obtain ⟨same, rfl⟩ := run_pure_some.1 out
  obtain ⟨rfl, rfl⟩ := Prod.mk.inj same
  obtain ⟨rest, at', tight, left, -⟩ := run_operator_some le found
  exact ⟨rest, d, at', tight, left, Steady.operator level c op d found, operand⟩

/-- A stage has taken along what its operators can take. -/
theorem closed_of_run (n : Nat) {c c' : Cursor} {p : Phrase}
    (h : (stage readWholePhrase n).run c = some (p, c')) : Closed n c' := by
  induction n using Nat.strongRecOn generalizing c c' p with
  | _ n ih =>
    match n with
    | 0 => exact ⟨nofun, nofun⟩
    | 1 =>
      obtain ⟨⟨first, suffixes⟩, c₁, read, out⟩ := run_bind_some.1 h
      obtain ⟨rfl, rfl⟩ := run_pure_some.1 out
      obtain ⟨c₁, -, later⟩ := run_readChain_some read
      refine ⟨fun _ => ?_, fun level le => by omega⟩
      rw [← run_blanks_seqRight]
      exact run_many_refuses Shrinks.suffix.behind later
    | n + 2 =>
      obtain ⟨⟨first, links⟩, c₁, read, out⟩ := run_bind_some.1 h
      obtain ⟨rfl, rfl⟩ := run_pure_some.1 out
      obtain ⟨c₁, operand, later⟩ := run_readChain_some read
      have last : (readLink n).run c'.behind = none := by
        rw [← run_blanks_seqRight]
        exact run_many_refuses (Shrinks.link n).behind later
      -- The last operand has taken along what tighter operators can take.
      have operands : ∀ {d d' : Cursor} {xs : List (Phrase.Operator × Phrase)},
          Steps (blanks *> readLink n) d xs d' → Closed (n + 1) d → Closed (n + 1) d' := by
        intro d d' xs steps
        induction steps with
        | nil => exact id
        | @cons d d₁ d' x xs step _ ih' =>
          refine fun _ => ih' ?_
          rw [run_blanks_seqRight] at step
          obtain ⟨op, e, -, h₁⟩ := run_bind_some.1 step
          obtain ⟨q, e', operand, out⟩ := run_bind_some.1 h₁
          obtain ⟨-, rfl⟩ := run_pure_some.1 out
          exact ih (n + 1) (by omega) operand
      have tighter := operands (run_many_some later) (ih (n + 1) (by omega) operand).behind
      refine ⟨fun _ => tighter.suffix (by omega), fun level le => ?_⟩
      rcases Nat.lt_or_eq_of_le le with lt | same
      · exact tighter.link level (by omega)
      · obtain rfl : level = n := by omega
        exact last

/-- What may follow a whole phrase: no operator, and nothing that makes a name before it a call or
the letter of a binary literal. -/
structure Ends (cs : List Char) : Prop where
  follow : Follow 6 cs
  alone : ∀ c, (skip cs).head? = some c → c ∉ ['(', '"', '\'']

theorem Ends.of_eq_cons {cs t : List Char} {c : Char} (split : skip cs = c :: t)
    (other : c ∉ ['?', '*', '+', '\x7b', '|', '<', '/', '>', 'w'] ∧ c ∉ ['(', '"', '\'']) : Ends cs :=
  ⟨.of_eq_cons split other.1, fun d head => by
    obtain rfl : c = d := by simpa [split] using head
    exact other.2⟩

/-- The reading goes on at a cursor: with what may follow a whole phrase, or with an operator. -/
inductive Halts (c : Cursor) : Prop where
  | ends (h : Ends c.rest)
  | suffix (x : Span × Phrase.Suffix) (c' : Cursor) (h : readSuffix.run c.behind = some (x, c'))
  | link (level : Nat) (le : level ≤ 4) (x : Phrase.Operator × Phrase) (c' : Cursor)
      (h : (readLink level).run c.behind = some (x, c'))

theorem Halts.of_behind {c : Cursor} (h : Halts c.behind) : Halts c := by
  cases h with
  | ends h =>
    refine .ends ⟨⟨?_, ?_⟩, ?_⟩
    · simpa using h.follow.suffix
    · simpa using h.follow.operator
    · simpa using h.alone
  | suffix x c' h => exact .suffix x c' (by rwa [Cursor.behind_behind] at h)
  | link level le x c' h => exact .link level le x c' (by rwa [Cursor.behind_behind] at h)

/-- Behind a name that the reading goes on after, nothing makes it a call or a literal. -/
theorem Halts.head {c : Cursor} (h : Halts c) {d : Char} (head : (skip c.rest).head? = some d) :
    d ∉ ['(', '"', '\''] := by
  cases h with
  | ends h => exact h.alone d head
  | suffix x c' h =>
    obtain ⟨⟨e, head', mem⟩, -⟩ := run_suffix_some h
    obtain rfl : d = e := by simpa [head] using head'
    simp only [List.mem_cons, List.not_mem_nil, or_false] at mem
    rcases mem with rfl | rfl | rfl | rfl <;> decide
  | link level le x c' h =>
    obtain ⟨rest, e, found, -⟩ := run_link_some le h
    obtain ⟨e, head', mem⟩ := found.head
    obtain rfl : d = e := by simpa [head] using head'
    simp only [List.mem_cons, List.not_mem_nil, or_false] at mem
    rcases mem with rfl | rfl | rfl | rfl | rfl <;> decide

/-- Behind a whole phrase the reading goes on with no operator. -/
theorem Halts.follow {c : Cursor} (h : Halts c) (closed : Closed 6 c) : Follow 6 c.rest := by
  cases h with
  | ends h => exact h.follow
  | suffix x c' h => rw [closed.suffix (by omega)] at h; cases h
  | link level le x c' h => rw [closed.link level (by omega)] at h; cases h

/-! ### Phrases without operators -/

/-- The span of a phrase that begins at a cursor stops where its text does, or before the
parenthesis that closes a group around it. -/
def StopsAt (c : Cursor) (p : Phrase) (rest : List Char) : Prop :=
  ∃ y, p.span.stop + byteLength y = c.offset + byteLength c.rest ∧ y <:+ c.rest ∧ skip rest <:+ y ∧
    (Rests rest y ∨ ∃ t, skip y = ')' :: t)

theorem StopsAt.of_eq {c c' : Cursor} {p : Phrase} {rest : List Char} (before : c.Before c')
    (stop : p.span.stop = c'.offset) (rests : Rests rest c'.rest) : StopsAt c p rest :=
  ⟨c'.rest, by rw [stop, before.offset], before.suffix,
    rests.skip_eq ▸ skip_suffix c'.rest, .inl rests⟩

/-- A text behind what was read before lies behind its span. -/
theorem StopsAt.le {c : Cursor} {p : Phrase} {rest t : List Char} (h : StopsAt c p rest) {n : Nat}
    (behind : t <:+ skip rest) (offset : n + byteLength t = c.offset + byteLength c.rest) :
    p.span.stop ≤ n := by
  obtain ⟨y, stop, -, within, -⟩ := h
  have := byteLength_le_of_suffix (behind.trans within)
  omega

theorem StopsAt.moves {c d : Cursor} {p q : Phrase} {rest : List Char} (h : StopsAt d q rest)
    (before : c.Before d) (stop : p.span.stop = q.span.stop) : StopsAt c p rest := by
  obtain ⟨y, total, inside, within, ends⟩ := h
  exact ⟨y, by rw [stop, total, before.offset], inside.trans before.suffix, within, ends⟩

/-- What a reader reads at a cursor is spelled there, if the reading goes on behind it. -/
def Sound (r : Reader Phrase) (n : Nat) (c : Cursor) : Prop :=
  ∀ p c', r.run c = some (p, c') → c'.misfit? = none → Halts c' →
    ∃ rest, Rests rest c'.rest ∧ Spells n c.rest rest p.bare ∧ StopsAt c p rest

/-- A phrase with a character behind it at which the reading goes on. -/
theorem Sound.token {c c' : Cursor} {q : Phrase} (h : Sound readWholePhrase 6 c)
    (run : (token readWholePhrase).run c = some (q, c')) (fits : c'.misfit? = none)
    (ends : Ends c'.rest) :
    ∃ rest, skip rest = c'.rest ∧ Spells 6 c.rest rest q.bare ∧ StopsAt c q rest := by
  obtain ⟨d, read, left, misfit⟩ := run_token_some run
  obtain ⟨rest, rests, spells, stops⟩ := h q d read (misfit ▸ fits) (.ends (by
    refine ⟨⟨?_, ?_⟩, ?_⟩
    · simpa [left] using ends.follow.suffix
    · simpa [left] using ends.follow.operator
    · simpa [left] using ends.alone))
  exact ⟨rest, by rw [left, rests.skip_eq], spells, stops⟩

/-- Items of a list that have been read, each up to a comma or the character that closes the
list. -/
theorem listed_of_run {α : Type} {r : Reader α} (view : α → Option String × Phrase)
    (good : Item → Prop) {close : Char} {rest : List Char} (steady : Steady r) {c c' : Cursor}
    {xs : List α} (run : (listOf r (symbol ",")).run c = some (xs, c'))
    (closes : c'.rest = close :: rest) (fits : c'.misfit? = none)
    (item : ∀ d x d', d.rest.length ≤ c.rest.length → r.run d = some (x, d') →
      d'.misfit? = none → (∃ e t, d'.rest = e :: t ∧ (e = ',' ∨ e = close)) →
      ∃ i : Item, i.start = d.rest ∧ skip i.rest = d'.rest ∧ view x = (i.label, i.phrase) ∧ good i) :
    ∃ items : List Item, Listed close c.rest items rest ∧
      xs.map view = items.map (fun i => (i.label, i.phrase)) ∧ ∀ i ∈ items, good i := by
  have further : ∀ (ys : List α) (d e : Cursor), Steps (symbol "," *> r) d ys e →
      (∃ o, (attempt (symbol ",")).run e = some (o, c')) → d.rest.length ≤ c.rest.length →
      ∀ (x : α) (d₀ : Cursor), r.run d₀ = some (x, d) → d₀.rest.length ≤ c.rest.length →
      ∃ items : List Item, Listed close d₀.rest items rest ∧
        (x :: ys).map view = items.map (fun i => (i.label, i.phrase)) ∧ ∀ i ∈ items, good i := by
    intro ys d e steps last
    induction steps with
    | nil d =>
      intro _ x d₀ read short
      obtain ⟨o, tried⟩ := last
      rcases run_attempt_some.1 tried with ⟨_, -, comma⟩ | ⟨-, -, rfl⟩
      · obtain ⟨t, split, left, misfit⟩ := run_symbol_some comma
        obtain ⟨i, start, stop, value, ok⟩ := item d₀ x d short read (misfit ▸ fits)
          ⟨',', t, split, .inl rfl⟩
        refine ⟨[i], .cons start (stop.trans split) (t := t) ?_, by simp [value], by simpa using ok⟩
        rw [← left, closes]
        exact .nil rest
      · obtain ⟨i, start, stop, value, ok⟩ := item d₀ x _ short read fits
          ⟨close, rest, closes, .inr rfl⟩
        exact ⟨[i], .last start (stop.trans closes), by simp [value], by simpa using ok⟩
    | @cons d d₂ e y ys step later ih =>
      intro short' x d₀ read short
      obtain ⟨_, d₁, comma, next⟩ := run_seqRight_some.1 step
      obtain ⟨t, split, left, misfit⟩ := run_symbol_some comma
      have before₁ := Steady.symbol "," d _ d₁ comma
      have before₂ := steady d₁ y d₂ next
      obtain ⟨o, tried⟩ := last
      have fits₂ : d₂.misfit? = none :=
        (later.before ((Steady.symbol ",").seqRight steady)).misfit
          (((Steady.symbol ",").attempt e o c' tried).misfit fits)
      obtain ⟨items, listed, values, ok⟩ := ih ⟨o, tried⟩
        (Nat.le_trans (before₂.suffix.trans before₁.suffix).length_le short') y d₁ next
        (Nat.le_trans before₁.suffix.length_le short')
      obtain ⟨i, start, stop, value, ok'⟩ := item d₀ x d short read
        (before₁.misfit (before₂.misfit fits₂)) ⟨',', t, split, .inl rfl⟩
      refine ⟨i :: items, .cons start (stop.trans split) (left ▸ listed), ?_, ?_⟩
      · rw [List.map_cons, values, value, List.map_cons]
      · simpa using ⟨ok', ok⟩
  rcases run_orElse_some.1 run with run | ⟨-, out⟩
  · obtain ⟨ys, e, list, h₁⟩ := run_bind_some.1 run
    obtain ⟨o, e', tried, out⟩ := run_bind_some.1 h₁
    obtain ⟨rfl, rfl⟩ := run_pure_some.1 out
    obtain ⟨x, d, read, h₂⟩ := run_bind_some.1 list
    obtain ⟨zs, e', later, out⟩ := run_bind_some.1 h₂
    obtain ⟨rfl, rfl⟩ := run_pure_some.1 out
    exact further zs d e (run_many_some later) ⟨o, tried⟩ (steady c x d read).suffix.length_le x c
      read (Nat.le_refl _)
  · obtain ⟨rfl, rfl⟩ := run_pure_some.1 out
    exact ⟨[], closes ▸ .nil rest, rfl, by simp⟩

/-- The character behind an item is none that continues a phrase. -/
theorem ends_of_separator {cs t : List Char} {c : Char} (split : cs = c :: t)
    (plain : c ∈ [',', ')', ']', '\x7d', '=', 'i']) : Ends cs := by
  have solid : Solid c := by
    simp only [List.mem_cons, List.not_mem_nil, or_false] at plain
    rcases plain with rfl | rfl | rfl | rfl | rfl | rfl <;> decide
  refine .of_eq_cons (t := t) (by rw [split, skip_cons solid]) ?_
  simp only [List.mem_cons, List.not_mem_nil, or_false] at plain
  rcases plain with rfl | rfl | rfl | rfl | rfl | rfl <;> decide

section Primary

variable {c : Cursor} (ih : ∀ d : Cursor, d.rest.length < c.rest.length → Sound readWholePhrase 6 d)
include ih

theorem sound_binding {p : Phrase} {c' : Cursor}
    (run : (readBinding readWholePhrase).run c = some (p, c')) (fits : c'.misfit? = none)
    (halts : Halts c') :
    ∃ rest, Rests rest c'.rest ∧ Spells 0 c.rest rest p.bare ∧ StopsAt c p rest := by
  have before := Steady.wholePhrase.primary c p c' (run_orElse_some.2 (.inl run))
  obtain ⟨⟨span, name, value, body⟩, c₁, read, out⟩ := run_bind_some.1 run
  obtain ⟨rfl, rfl⟩ := run_pure_some.1 out
  obtain ⟨inner, rfl⟩ := run_spanned_some.1 read
  obtain ⟨_, d₁, binds, h₁⟩ := run_bind_some.1 inner
  obtain ⟨_, d₂, ident, h₂⟩ := run_bind_some.1 h₁
  obtain ⟨_, d₃, equals, h₃⟩ := run_bind_some.1 h₂
  obtain ⟨_, d₄, value', h₄⟩ := run_bind_some.1 h₃
  obtain ⟨_, d₅, inside, h₅⟩ := run_bind_some.1 h₄
  obtain ⟨_, d₆, body', out⟩ := run_bind_some.1 h₅
  obtain ⟨same, rfl⟩ := run_pure_some.1 out
  simp only [Prod.mk.injEq] at same
  obtain ⟨rfl, rfl, rfl⟩ := same
  obtain ⟨t₁, binds', left₁, -⟩ := run_keyword_some binds
  obtain ⟨e, ident', left₂, -⟩ := run_token_some ident
  obtain ⟨named, -⟩ := run_identifier_some ident'
  obtain ⟨t₂, split₃, left₃, -⟩ := run_symbol_some equals
  obtain ⟨t₃, inside', left₅, misfit₅⟩ := run_keyword_some inside
  -- The parts stand behind the keyword, so they are shorter.
  have short : d₃.rest.length < c.rest.length := by
    have := Shrinks.keyword (by decide) c _ d₁ binds
    have := (Steady.identifier d₁ _ d₂ ident).suffix.length_le
    have := (Steady.symbol _ d₂ _ d₃ equals).suffix.length_le
    omega
  have short' : d₅.rest.length < c.rest.length := by
    have := (Steady.wholePhrase.token d₃ _ d₄ value').suffix.length_le
    have := (Steady.keyword _ d₄ _ d₅ inside).suffix.length_le
    omega
  have fits₅ := (Steady.wholePhrase d₅ _ c' body').misfit fits
  obtain ⟨r₂, stop₂, spells₂, -⟩ := (ih d₃ short).token value' (misfit₅ ▸ fits₅)
    (ends_of_separator inside'.split (by decide))
  obtain ⟨rest, rests, spells, -⟩ := ih d₅ short' _ c' body' fits halts
  have greedy : Follow 6 c'.rest := halts.follow (closed_of_run 6 (readWholePhrase_eq ▸ body'))
  refine ⟨rest, rests, .bound binds' (left₁ ▸ named) (left₂ ▸ split₃) (left₃ ▸ spells₂)
    (stop₂ ▸ inside') (left₅ ▸ spells) ⟨?_, ?_⟩, .of_eq before rfl rests⟩
  · simpa [rests.skip_eq] using greedy.suffix
  · simpa [rests.skip_eq] using greedy.operator

theorem sound_argument {d d' : Cursor} {x : Option String × Phrase}
    (shorter : d.rest.length < c.rest.length)
    (run : (readArgument readWholePhrase).run d = some (x, d')) (fits : d'.misfit? = none)
    (ends : Ends d'.rest) :
    ∃ i : Item, i.start = d.rest ∧ skip i.rest = d'.rest ∧ (x.1, x.2.bare) = (i.label, i.phrase) ∧
      i.Labelled ∧ Spells 6 i.text i.rest i.phrase := by
  rcases run_orElse_some.1 run with run | ⟨-, run⟩
  · obtain ⟨name, d₁, ident, h₁⟩ := run_bind_some.1 run
    obtain ⟨_, d₂, equals, h₂⟩ := run_bind_some.1 h₁
    obtain ⟨q, d₃, value, out⟩ := run_bind_some.1 h₂
    obtain ⟨rfl, rfl⟩ := run_pure_some.1 out
    obtain ⟨e, ident', left, -⟩ := run_token_some ident
    obtain ⟨named, -⟩ := run_identifier_some ident'
    obtain ⟨t, split, left', -⟩ := run_symbol_some equals
    have short : d₂.rest.length < c.rest.length := by
      have := (Steady.identifier d _ d₁ ident).suffix.length_le
      have := (Steady.symbol _ d₁ _ d₂ equals).suffix.length_le
      omega
    obtain ⟨rest, stop, spells, -⟩ := (ih d₂ short).token value fits ends
    exact ⟨⟨some name, d.rest, d₂.rest, rest, q.bare⟩, rfl, stop, rfl,
      ⟨e.rest, t, named, left ▸ split, left'⟩, spells⟩
  · obtain ⟨q, d₁, value, out⟩ := run_bind_some.1 run
    obtain ⟨rfl, rfl⟩ := run_pure_some.1 out
    obtain ⟨rest, stop, spells, -⟩ := (ih d shorter).token value fits ends
    exact ⟨⟨none, d.rest, d.rest, rest, q.bare⟩, rfl, stop, rfl, rfl, spells⟩

theorem sound_call {p : Phrase} {c' : Cursor}
    (run : (readCall readWholePhrase).run c = some (p, c')) (fits : c'.misfit? = none) :
    Spells 0 c.rest c'.rest p.bare ∧ p.span.stop = c'.offset := by
  obtain ⟨⟨span, callee, args⟩, c₁, read, out⟩ := run_bind_some.1 run
  obtain ⟨rfl, rfl⟩ := run_pure_some.1 out
  obtain ⟨inner, rfl⟩ := run_spanned_some.1 read
  refine ⟨?_, rfl⟩
  obtain ⟨_, d₁, name, h₁⟩ := run_bind_some.1 inner
  obtain ⟨_, d₂, opened, h₂⟩ := run_bind_some.1 h₁
  obtain ⟨_, d₃, list, h₃⟩ := run_bind_some.1 h₂
  obtain ⟨_, d₄, closed, out⟩ := run_bind_some.1 h₃
  obtain ⟨same, rfl⟩ := run_pure_some.1 out
  obtain ⟨rfl, rfl⟩ := Prod.mk.inj same
  obtain ⟨t, named, left₁, -⟩ := run_callee_some name
  obtain ⟨t', split₂, left₂, -⟩ := run_symbol_some opened
  obtain ⟨split₄, misfit₄⟩ := run_literal_some closed
  obtain rfl : t = t' := (List.cons.inj (left₁.symm.trans split₂)).2
  have short : d₂.rest.length < c.rest.length := by
    have := Shrinks.callee c _ d₁ name
    have := (Steady.symbol _ d₁ _ d₂ opened).suffix.length_le
    omega
  obtain ⟨items, listed, values, good⟩ := listed_of_run (fun x => (x.1, x.2.bare))
    (fun i => i.Labelled ∧ Spells 6 i.text i.rest i.phrase) Steady.wholePhrase.argument list split₄ (misfit₄ ▸ fits)
    (fun d x d' le run fits ⟨e, u, split, ends⟩ => sound_argument ih (by omega) run fits
      (ends_of_separator split (by rcases ends with rfl | rfl <;> decide)))
  rw [Phrase.bare, bareArgs_eq, values]
  exact .call named (left₂ ▸ listed) (fun i mem => (good i mem).1) fun i mem => (good i mem).2

theorem sound_sequence {p : Phrase} {c' : Cursor}
    (run : (readSequence readWholePhrase).run c = some (p, c')) (fits : c'.misfit? = none) :
    Spells 0 c.rest c'.rest p.bare ∧ p.span.stop = c'.offset := by
  obtain ⟨⟨span, items⟩, c₁, read, out⟩ := run_bind_some.1 run
  obtain ⟨rfl, rfl⟩ := run_pure_some.1 out
  obtain ⟨inner, rfl⟩ := run_spanned_some.1 read
  refine ⟨?_, rfl⟩
  obtain ⟨_, d₂, opened, h₂⟩ := run_bind_some.1 inner
  obtain ⟨_, d₃, list, h₃⟩ := run_bind_some.1 h₂
  obtain ⟨_, d₄, closed, out⟩ := run_bind_some.1 h₃
  obtain ⟨rfl, rfl⟩ := run_pure_some.1 out
  obtain ⟨t, split₂, left₂, -⟩ := run_symbol_some opened
  obtain ⟨split₄, misfit₄⟩ := run_literal_some closed
  have short := Shrinks.symbol (by decide) c _ d₂ opened
  obtain ⟨items', listed, values, good⟩ := listed_of_run (fun q : Phrase => (none, q.bare))
    (fun i => (i.label = none ∧ i.text = i.start) ∧ Spells 6 i.text i.rest i.phrase) Steady.wholePhrase.token list split₄
    (misfit₄ ▸ fits) (fun d q d' le run fits ⟨e, u, split, ends⟩ => by
      obtain ⟨rest, stop, spells, -⟩ := (ih d (by omega)).token run fits
        (ends_of_separator split (by rcases ends with rfl | rfl <;> decide))
      exact ⟨⟨none, d.rest, d.rest, rest, q.bare⟩, rfl, stop, rfl, ⟨rfl, rfl⟩, spells⟩)
  have phrases : items.map Phrase.bare = items'.map (·.phrase) := by
    have := congrArg (List.map Prod.snd) values
    simpa [Function.comp_def] using this
  rw [Phrase.bare, barePhrases_eq, phrases, split₂]
  exact .sequence (left₂ ▸ listed) (fun i mem => (good i mem).1) fun i mem => (good i mem).2

theorem sound_group {p : Phrase} {c' : Cursor}
    (run : (readGroup readWholePhrase).run c = some (p, c')) (fits : c'.misfit? = none) :
    Spells 0 c.rest c'.rest p.bare ∧ StopsAt c p c'.rest := by
  obtain ⟨_, d₁, opened, h₁⟩ := run_bind_some.1 run
  obtain ⟨q, d₂, inner, h₂⟩ := run_bind_some.1 h₁
  obtain ⟨_, d₃, closed, out⟩ := run_bind_some.1 h₂
  obtain ⟨rfl, rfl⟩ := run_pure_some.1 out
  obtain ⟨t, split₁, left₁, -⟩ := run_symbol_some opened
  obtain ⟨split₃, misfit₃⟩ := run_literal_some closed
  have short := Shrinks.symbol (by decide) c _ d₁ opened
  obtain ⟨rest, stop, spells, stops⟩ := (ih d₁ short).token inner (misfit₃ ▸ fits)
    (ends_of_separator split₃ (by decide))
  have closes : skip rest = ')' :: c'.rest := stop.trans split₃
  refine ⟨split₁ ▸ .group (left₁ ▸ spells) closes, ?_⟩
  -- The span of the group is that of its content.
  obtain ⟨y, total, inside, within, ends⟩ := stops.moves (Steady.symbol _ c _ d₁ opened) rfl
  refine ⟨y, total, inside, ?_, .inr ?_⟩
  · exact ((skip_suffix _).trans (closes ▸ List.suffix_cons _ _)).trans within
  · rcases ends with rests | paren
    · exact ⟨c'.rest, by rw [rests.skip_eq, closes]⟩
    · exact paren

omit ih in
/-- A name that is read as a reference stands alone. -/
theorem alone_of_refusals {c c' : Cursor} {name : String} (named : NameAt c.rest name c'.rest)
    (pattern : readPatternLiteral.run c = none) (halts : Halts c') : Alone name c'.rest := by
  have head : ∀ d : Char, Solid d → d ∈ ['(', '"', '\''] → c'.rest.head? ≠ some d := by
    intro d solid mem head
    obtain ⟨t, split⟩ := List.head?_eq_some_iff.1 head
    exact halts.head (by rw [split, skip_cons solid]; rfl) mem
  refine ⟨head _ (by decide) (by decide), fun _ => ⟨head _ (by decide) (by decide),
    head _ (by decide) (by decide)⟩, ?_⟩
  rintro rfl t split
  -- A pattern behind the letter would have been read as a binary one.
  cases measured : filledPatternLength t with
  | none => rfl
  | some n =>
    obtain ⟨measured, positive⟩ := filledPatternLength_eq_some.1 measured
    obtain ⟨tail, split'⟩ := patternLength_split measured
    obtain ⟨flag, rest, flagged⟩ := CaseFlagAt.exists tail
    have filled : t.take n ≠ [] := fun none => by
      have all := measured
      rw [split', none] at all
      exact positive (Option.some.inj all).symm
    have literal : PatternLiteral (flagLetter 'b' true ++ '/' :: t.take n ++ '/' :: tail) _ flag
        true rest := .intro (patternLength_eq_some measured) filled flagged
    have begins : c.rest = flagLetter 'b' true ++ '/' :: t.take n ++ '/' :: tail := by
      rw [named.split, split, List.append_assoc, List.cons_append, ← split']
      rfl
    obtain ⟨x, d, run, -⟩ := reads_patternLiteral literal c begins
    rw [pattern] at run
    cases run

theorem sound_primary : Sound (readPrimary readWholePhrase) 0 c := by
  intro p c' run fits halts
  have before := Steady.wholePhrase.primary c p c' run
  have token : Spells 0 c.rest c'.rest p.bare → p.span.stop = c'.offset →
      ∃ rest, Rests rest c'.rest ∧ Spells 0 c.rest rest p.bare ∧ StopsAt c p rest :=
    fun spells stop => ⟨c'.rest, .inl rfl, spells, .of_eq before stop (.inl rfl)⟩
  rcases run_orElse_some.1 run with run | ⟨-, run⟩
  · exact sound_binding ih run fits halts
  rcases run_orElse_some.1 run with run | ⟨-, run⟩
  · obtain ⟨spells, stop⟩ := sound_call ih run fits
    exact token spells stop
  rcases run_orElse_some.1 run with run | ⟨-, run⟩
  · obtain ⟨spells, stop⟩ := sound_sequence ih run fits
    exact token spells stop
  rcases run_orElse_some.1 run with run | ⟨-, run⟩
  · obtain ⟨spells, stops⟩ := sound_group ih run fits
    exact ⟨c'.rest, .inl rfl, spells, stops⟩
  rcases run_orElse_some.1 run with run | ⟨-, run⟩
  · obtain ⟨v, i, b, rfl, literal, -⟩ := run_textLiteral_some run
    exact token (.str literal) rfl
  rcases run_orElse_some.1 run with run | ⟨noPattern, run⟩
  · obtain ⟨v, i, b, rfl, literal, -⟩ := run_patternLiteral_some run
    exact token (.regex literal) rfl
  rcases run_orElse_some.1 run with run | ⟨-, run⟩
  · obtain ⟨⟨span, source⟩, c₁, read, out⟩ := run_bind_some.1 run
    obtain ⟨rfl, rfl⟩ := run_pure_some.1 out
    obtain ⟨inner, rfl⟩ := run_spanned_some.1 read
    exact token (.host (run_hostLiteral_some inner).1) rfl
  rcases run_orElse_some.1 run with run | ⟨-, run⟩
  · obtain ⟨⟨span, n⟩, c₁, read, out⟩ := run_bind_some.1 run
    obtain ⟨rfl, rfl⟩ := run_pure_some.1 out
    obtain ⟨inner, rfl⟩ := run_spanned_some.1 read
    exact token (.int ((run_numeral_some inner).2 fits).1) rfl
  · obtain ⟨⟨span, name⟩, c₁, read, out⟩ := run_bind_some.1 run
    obtain ⟨rfl, rfl⟩ := run_pure_some.1 out
    obtain ⟨inner, rfl⟩ := run_spanned_some.1 read
    have named := (run_identifier_some inner).1
    exact token (.ref named (alone_of_refusals named noPattern halts)) rfl

end Primary

/-! ### Chains -/

/-- A phrase with operators behind it, as its spans are joined. -/
def foldSuffixes (first : Phrase) (suffixes : List (Span × Phrase.Suffix)) : Phrase :=
  suffixes.foldl (fun inner next => .suffixed (inner.span.join next.1) inner next.2) first

/-- Operators behind a phrase that have been read. -/
theorem suffixed_of_run {c d c' : Cursor} {xs : List (Span × Phrase.Suffix)} {q : Phrase}
    (steps : Steps (blanks *> readSuffix) d xs c') (fits : c'.misfit? = none) (before : c.Before d)
    {r : List Char} (left : Rests r d.rest) (stops : StopsAt c q r) :
    ∃ rest, Suffixed r (xs.map (·.2)) rest ∧ Rests rest c'.rest ∧
      StopsAt c (foldSuffixes q xs) rest := by
  induction steps generalizing r q with
  | nil => exact ⟨r, .nil r, left, stops⟩
  | @cons d d₁ c' x xs step later ih =>
    obtain ⟨span, suffix⟩ := x
    have move := (Steady.blanks.seqRight .suffix) d _ d₁ step
    rw [run_blanks_seqRight] at step
    obtain ⟨-, rfl, found⟩ := run_suffix_some step
    have fits₁ := (later.before (Steady.blanks.seqRight .suffix)).misfit fits
    obtain ⟨first, -⟩ := found fits₁
    have inner := first.consumes.suffix
    rw [Cursor.behind_rest, left.skip_eq] at first inner
    have stop : q.span.stop ≤ d₁.offset := stops.le inner (before.trans move).offset.symm
    have stops₁ : StopsAt c (.suffixed (q.span.join ⟨d.behind.offset, d₁.offset⟩) q suffix)
        d₁.rest := .of_eq (before.trans move) (Nat.max_eq_right stop) (.inl rfl)
    obtain ⟨rest, suffixed, rests, stops'⟩ := ih fits (before.trans move) (.inl rfl) stops₁
    exact ⟨rest, .cons first suffixed, rests, stops'⟩

/-- Operators with their operands that have been read. -/
theorem linked_of_run {level : Nat} (le : level ≤ 4) {c d c' : Cursor}
    {xs : List (Phrase.Operator × Phrase)} {q : Phrase}
    (steps : Steps (blanks *> readLink level) d xs c') (fits : c'.misfit? = none) (halts : Halts c')
    (sound : ∀ e : Cursor, e.rest.length ≤ d.rest.length →
      Sound (stage readWholePhrase (level + 1)) (level + 1) e)
    (before : c.Before d) {r : List Char} (left : Rests r d.rest) (stops : StopsAt c q r) :
    ∃ links rest, Linked level r links rest ∧ Rests rest c'.rest ∧
      xs.map (fun x => (x.1, x.2.bare)) = links.map (fun link => (link.op, link.phrase)) ∧
      (∀ link ∈ links, Spells (level + 1) link.text link.rest link.phrase) ∧
      StopsAt c (foldPhrases q xs) rest := by
  induction steps generalizing r q with
  | nil => exact ⟨[], r, .nil r, left, rfl, by simp, stops⟩
  | @cons d d₁ c' x xs step later ih =>
    obtain ⟨op, p⟩ := x
    have steady : Steady (blanks *> readLink level) := Steady.blanks.seqRight (.link level)
    have move := steady d _ d₁ step
    have link := step
    rw [run_blanks_seqRight] at link
    obtain ⟨t, e, found, tight, begins, moved, operand⟩ := run_link_some le link
    have fits₁ := (later.before steady).misfit fits
    -- Behind the operand stands the next operator, or what follows the chain.
    have halts₁ : Halts d₁ := by
      cases later with
      | nil => exact halts
      | @cons _ d₂ _ y _ next _ =>
        rw [run_blanks_seqRight] at next
        exact .link level le y d₂ next
    have before₁ := d.before_behind.trans moved
    obtain ⟨r₁, rests₁, spells, stops₁⟩ :=
      sound e before₁.suffix.length_le p d₁ operand fits₁ halts₁
    -- The operand stops behind what stands before it.
    have joined : StopsAt c (.binary (q.span.join p.span) op q p) r₁ := by
      refine stops₁.moves (before.trans before₁) (Nat.max_eq_right ?_)
      obtain ⟨y, stop, inside, -⟩ := stops₁
      refine stops.le (t := y) ?_ (by rw [stop, (before.trans before₁).offset])
      have operand' : e.rest <:+ d.behind.rest := moved.suffix
      rw [Cursor.behind_rest, left.skip_eq] at operand'
      exact inside.trans operand'
    obtain ⟨links, rest, linked, rests, values, operands, stops'⟩ := ih fits halts
      (fun e short => sound e (Nat.le_trans short move.suffix.length_le)) (before.trans move) rests₁
      joined
    rw [Cursor.behind_rest, left.skip_eq] at found
    refine ⟨⟨op, e.rest, r₁, p.bare⟩ :: links, rest, .cons found tight begins linked, rests, ?_, ?_,
      stops'⟩
    · simp [values]
    · intro link mem
      rcases List.mem_cons.1 mem with rfl | mem
      · exact spells
      · exact operands link mem

/-- Every stage reads what is spelled, if whole phrases do inside of it. -/
theorem sound_stage {length : Nat}
    (ih : ∀ d : Cursor, d.rest.length < length → Sound readWholePhrase 6 d) (n : Nat) (le : n ≤ 6)
    (c : Cursor) (short : c.rest.length ≤ length) : Sound (stage readWholePhrase n) n c := by
  induction n using Nat.strongRecOn generalizing c with
  | _ n ihStage =>
    match n with
    | 0 => exact sound_primary fun d shorter => ih d (by omega)
    | 1 =>
      intro p c' run fits halts
      obtain ⟨⟨first, suffixes⟩, c₁, read, out⟩ := run_bind_some.1 run
      obtain ⟨rfl, rfl⟩ := run_pure_some.1 out
      obtain ⟨c₁, primary, later⟩ := run_readChain_some read
      have steps := run_many_some later
      have fits₁ : c₁.misfit? = none :=
        (steps.before (Steady.blanks.seqRight .suffix)).misfit fits
      have halts₁ : Halts c₁ := by
        cases steps with
        | nil => exact halts.of_behind
        | @cons _ d₂ _ y _ next _ =>
          rw [run_blanks_seqRight, Cursor.behind_behind] at next
          exact .suffix y d₂ next
      have before := (Steady.wholePhrase.primary c _ c₁ primary).trans c₁.before_behind
      obtain ⟨r, rests, spells, stops⟩ := ihStage 0 (by omega) (by omega) c short first c₁ primary
        fits₁ halts₁
      obtain ⟨rest, suffixed, rests', stops'⟩ :=
        suffixed_of_run steps fits before (.inr rests.skip_eq) stops
      rw [bare_foldSuffixes]
      exact ⟨rest, rests', .suffixed spells suffixed, stops'⟩
    | n + 2 =>
      intro p c' run fits halts
      obtain ⟨⟨first, links⟩, c₁, read, out⟩ := run_bind_some.1 run
      obtain ⟨rfl, rfl⟩ := run_pure_some.1 out
      obtain ⟨c₁, operand, later⟩ := run_readChain_some read
      have steps : Steps (blanks *> readLink n) c₁.behind links c' := run_many_some later
      have fits₁ : c₁.misfit? = none :=
        (steps.before (Steady.blanks.seqRight (.link n))).misfit fits
      have halts₁ : Halts c₁ := by
        cases steps with
        | nil => exact halts.of_behind
        | @cons _ d₂ _ y _ next _ =>
          rw [run_blanks_seqRight, Cursor.behind_behind] at next
          exact .link n (by omega) y d₂ next
      have tighter := ihStage (n + 1) (by omega) (by omega)
      have before := ((Steady.wholePhrase.stage (n + 1)) c _ c₁ operand).trans c₁.before_behind
      obtain ⟨r, rests, spells, stops⟩ := tighter c short first c₁ operand fits₁ halts₁
      obtain ⟨links', rest, linked, rests', values, operands, stops'⟩ :=
        linked_of_run (by omega) steps fits halts (fun e shorter => tighter e (by
          have := before.suffix.length_le
          omega)) before (.inr rests.skip_eq) stops
      refine ⟨rest, rests', ?_, stops'⟩
      rw [bare_foldPhrases, values, List.foldl_map]
      exact .chain spells linked operands

/-- A phrase that was read is spelled where it was read. -/
theorem spells_of_run (c : Cursor) : Sound readWholePhrase 6 c := by
  obtain ⟨length, h⟩ : ∃ length, c.rest.length = length := ⟨_, rfl⟩
  induction length using Nat.strongRecOn generalizing c with
  | _ length ih =>
    rw [readWholePhrase_eq]
    exact sound_stage (fun d shorter => ih _ shorter d rfl) 6 (Nat.le_refl 6) c (Nat.le_of_eq h)

/-! ### Where phrases begin -/

theorem Scan.Cursor.Before.offset_le {c c' : Cursor} (h : c.Before c') : c.offset ≤ c'.offset := by
  have := h.offset
  have := byteLength_le_of_suffix h.suffix
  omega

/-- What a reader reads spans nothing that stands before it. -/
def Begins (r : Reader Phrase) : Prop :=
  ∀ c p c', r.run c = some (p, c') → c.offset ≤ p.span.start

namespace Begins

theorem spanned {α : Type} {r : Reader α} {view : Span × α → Phrase}
    (same : ∀ x, (view x).span = x.1) : Begins (spanned r >>= fun x => pure (view x)) :=
  fun c p c' run => by
    obtain ⟨⟨span, x⟩, c₁, read, out⟩ := run_bind_some.1 run
    obtain ⟨rfl, rfl⟩ := run_pure_some.1 out
    obtain ⟨-, rfl⟩ := run_spanned_some.1 read
    exact Nat.le_of_eq (congrArg Span.start (same (⟨c.offset, c'.offset⟩, x))).symm

theorem orElse {r s : Reader Phrase} (h : Begins r) (h' : Begins s) : Begins (r <|> s) :=
  fun c p c' run => (run_orElse_some.1 run).elim (h c p c') fun out => h' c p c' out.2

variable {phrase : Reader Phrase}

theorem primary (h : Begins phrase) : Begins (readPrimary phrase) := by
  have group : Begins (readGroup phrase) := fun c p c' run => by
    obtain ⟨_, d₁, opened, h₁⟩ := run_bind_some.1 run
    obtain ⟨q, d₂, inner, h₂⟩ := run_bind_some.1 h₁
    obtain ⟨_, d₃, closed, out⟩ := run_bind_some.1 h₂
    obtain ⟨rfl, rfl⟩ := run_pure_some.1 out
    obtain ⟨e, inner, -, -⟩ := run_token_some inner
    exact Nat.le_trans (Steady.symbol _ c _ d₁ opened).offset_le (h d₁ _ e inner)
  exact .orElse (.spanned fun _ => rfl) <| .orElse (.spanned fun _ => rfl) <|
    .orElse (.spanned fun _ => rfl) <| .orElse group <| .orElse (.spanned fun _ => rfl) <|
    .orElse (.spanned fun _ => rfl) <| .orElse (.spanned fun _ => rfl) <|
    .orElse (.spanned fun _ => rfl) (.spanned fun _ => rfl)

/-- A chain begins where its first operand does, as the others stand behind it. -/
theorem chain {β : Type} {first : Reader Phrase} {next : Reader β} {fold : Phrase → β → Phrase}
    (start : β → Nat) (h : Begins first) (steady : Steady first) (steady' : Steady next)
    (later : ∀ c y c', next.run c = some (y, c') → c.offset ≤ start y)
    (folds : ∀ q y, (fold q y).span.start = min q.span.start (start y)) :
    Begins (readChain first next >>= fun x => pure (x.2.foldl fold x.1)) := fun c p c' run => by
  obtain ⟨⟨q, ys⟩, c₁, read, out⟩ := run_bind_some.1 run
  obtain ⟨rfl, rfl⟩ := run_pure_some.1 out
  obtain ⟨d, operand, rest⟩ := run_readChain_some read
  have begins := h c q d operand
  have before := ((steady c q d operand).trans d.before_behind).offset_le
  have steps := run_many_some rest
  generalize d.behind = e at steps before
  clear operand read rest run out
  induction steps generalizing q with
  | nil => exact begins
  | @cons e e₁ c' y ys step _ ih =>
    have moved := ((Steady.blanks.seqRight steady') e y e₁ step).offset_le
    rw [run_blanks_seqRight] at step
    have := later _ y e₁ step
    have := e.before_behind.offset_le
    exact ih (fold q y) (by rw [folds]; omega) (by omega)

theorem stage (h : Begins phrase) (steady : Steady phrase) (n : Nat) : Begins (stage phrase n) := by
  induction n using Nat.strongRecOn with
  | _ n ih =>
    match n with
    | 0 => exact h.primary
    | 1 =>
      refine .chain (fun y => y.1.start) h.primary steady.primary .suffix
        (fun c ⟨span, s⟩ c' run => ?_) fun q y => rfl
      obtain ⟨-, rfl⟩ := run_spanned_some.1 run
      exact Nat.le_refl _
    | n + 2 =>
      have tighter := ih (n + 1) (by omega)
      have steady' := steady.stage (n + 1)
      refine .chain (fun y => y.2.span.start) tighter steady'
        ((Steady.operator n).bind fun _ => steady'.bind fun _ => .pure _) (fun c y c' run => ?_)
        fun q y => rfl
      obtain ⟨op, d, found, h₁⟩ := run_bind_some.1 run
      obtain ⟨right, e, operand, out⟩ := run_bind_some.1 h₁
      obtain ⟨rfl, rfl⟩ := run_pure_some.1 out
      exact Nat.le_trans (Steady.operator n c op d found).offset_le (tighter d right _ operand)

theorem nested (depth : Nat) : Begins (readPhrase depth) := by
  induction depth with
  | zero => exact fun _ _ _ run => by cases run
  | succ depth ih => exact ih.stage (.nested depth) 6

theorem wholePhrase : Begins readWholePhrase := fun c p c' run =>
  nested (c.rest.length + 1) c p c' (run_wholePhrase c ▸ run)

end Begins

end Packrat
