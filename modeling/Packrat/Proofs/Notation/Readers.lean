import Packrat.Scan.Lexical
import Packrat.Text.Blank

/-
**What readers read.**

A reader is looked at from two sides.  Where certain characters are to come it reads something and
leaves the rest, or it refuses; and what it has read is a part of the text, so the cursor has moved
over it.  Between tokens only the blanks behind them differ, so rests of a text are compared up to
the blanks and comments they begin with.

Main definitions:

* `Packrat.Scan.skip` — a text without the blanks and comments it begins with;
* `Packrat.Scan.Reads`, `Packrat.Scan.Yields`, `Packrat.Scan.Refuses` — what a reader does where
  characters are to come;
* `Packrat.Scan.ReadsOn` — the same of readings one after the other;
* `Packrat.Scan.Cursor.Before`, `Packrat.Scan.Steady` — what every reader keeps of its cursor;
* `Packrat.Scan.Steps` — readings one after the other, as they have been made.

Main results:

* `Packrat.Scan.skip_skip` — behind blanks there is no more of them;
* `Packrat.Scan.ReadsOn.many` — readings one after the other are those of `many`;
* `Packrat.Scan.run_bind_some`, `Packrat.Scan.run_orElse_some`, `Packrat.Scan.run_many_some` —
  readings taken apart.
-/

set_option autoImplicit false

namespace Packrat.Scan

variable {α β γ : Type}

/-! ### Blanks -/

/-- A text without the blanks and comments it begins with. -/
def skip (cs : List Char) : List Char := cs.drop (blankLength false cs)

/-- A character that begins no blanks. -/
def Solid (c : Char) : Prop := isSpace c = false ∧ c ≠ '#'

instance (c : Char) : Decidable (Solid c) := inferInstanceAs (Decidable (_ ∧ _))

theorem skip_cons {c : Char} {cs : List Char} (h : Solid c) : skip (c :: cs) = c :: cs := by
  obtain ⟨space, hash⟩ := h
  simp [skip, blankLength, space, hash]

theorem skip_space {c : Char} {cs : List Char} (h : isSpace c = true) :
    skip (c :: cs) = skip cs := by
  simp [skip, blankLength, h, Nat.add_comm 1]

@[simp] theorem skip_blank (cs : List Char) : skip (' ' :: cs) = skip cs := skip_space rfl

/-- Behind blanks there is no more of them. -/
theorem drop_blankLength_solid (inComment : Bool) (cs : List Char) :
    ∀ c rest, cs.drop (blankLength inComment cs) = c :: rest → Solid c := by
  induction cs generalizing inComment with
  | nil => cases inComment <;> simp [blankLength]
  | cons d cs ih =>
    intro c rest h
    cases inComment with
    | true =>
      rw [blankLength, Nat.add_comm, List.drop_succ_cons] at h
      exact ih _ c rest h
    | false =>
      rw [blankLength] at h
      split at h
      · rw [Nat.add_comm, List.drop_succ_cons] at h
        exact ih _ c rest h
      · next space =>
        split at h
        · rw [Nat.add_comm, List.drop_succ_cons] at h
          exact ih _ c rest h
        · next hash =>
          obtain ⟨rfl, -⟩ : d = c ∧ cs = rest := by simpa using h
          exact ⟨by simpa using space, by simpa using hash⟩

theorem skip_solid {cs rest : List Char} {c : Char} (h : skip cs = c :: rest) : Solid c :=
  drop_blankLength_solid false cs c rest h

@[simp] theorem skip_skip (cs : List Char) : skip (skip cs) = skip cs := by
  cases h : skip cs with
  | nil => rfl
  | cons c rest => exact skip_cons (skip_solid h)

theorem skip_suffix (cs : List Char) : skip cs <:+ cs := List.drop_suffix _ _

theorem skip_length_le (cs : List Char) : (skip cs).length ≤ cs.length :=
  (skip_suffix cs).length_le

theorem isBlank_of_isWordChar {c : Char} (h : isWordChar c = true) : Text.isBlank c = false := by
  change (decide ('A'.val ≤ c.val ∧ c.val ≤ 'Z'.val) ||
    (decide ('a'.val ≤ c.val) && decide (c.val ≤ 'z'.val)) ||
    (decide ('0'.val ≤ c.val) && decide (c.val ≤ '9'.val)) || c == '_') = true at h
  simp only [Bool.or_eq_true, Bool.and_eq_true, decide_eq_true_eq, beq_iff_eq,
    UInt32.le_iff_toNat_le] at h
  have range : 48 ≤ c.toNat ∧ c.toNat ≤ 122 := by
    rcases h with ((h | h) | h) | rfl
    all_goals first | decide | (simp at h; omega)
  simp only [Text.isBlank, Bool.or_eq_false_iff, Bool.and_eq_false_iff, decide_eq_false_iff_not,
    beq_eq_false_iff_ne]
  omega

/-! ### Readings of a text -/

/-- A reader reads something where certain characters are to come, and no numeral that does not
fit; what it has read and what it leaves are related. -/
def Reads (r : Reader α) (cs : List Char) (P : α → List Char → Prop) : Prop :=
  ∀ c : Cursor, c.rest = cs →
    ∃ x c', r.run c = some (x, c') ∧ P x c'.rest ∧ c'.misfit? = c.misfit?

/-- A reader reads one thing where certain characters are to come, and leaves others. -/
def Yields (r : Reader α) (cs : List Char) (x : α) (rest : List Char) : Prop :=
  Reads r cs fun y t => y = x ∧ t = rest

/-- A reader refuses where certain characters are to come. -/
def Refuses (r : Reader α) (cs : List Char) : Prop := ∀ c : Cursor, c.rest = cs → r.run c = none

theorem run_bind (r : Reader α) (f : α → Reader β) (c : Cursor) :
    (r >>= f).run c = (r.run c).bind fun out => (f out.1).run out.2 := rfl

theorem run_get (c : Cursor) : (get : Reader Cursor).run c = some (c, c) := rfl

theorem run_orElse (r s : Reader α) (c : Cursor) :
    (r <|> s).run c = (r.run c).orElse fun _ => s.run c := by
  change (r.run c <|> s.run c) = _
  cases r.run c <;> rfl

theorem run_seqRight (r : Reader α) (s : Reader β) (c : Cursor) :
    (r *> s).run c = (r.run c).bind fun out => s.run out.2 := by
  change (r.run c).bind _ = _
  cases r.run c with
  | none => rfl
  | some out => rfl

namespace Reads

variable {r s : Reader α} {cs : List Char} {P : α → List Char → Prop}
variable {Q : β → List Char → Prop}

theorem pure {x : α} (h : P x cs) : Reads (Pure.pure x) cs P :=
  fun c hc => ⟨x, c, rfl, hc ▸ h, rfl⟩

theorem mono {P' : α → List Char → Prop} (h : Reads r cs P) (imp : ∀ x rest, P x rest → P' x rest) :
    Reads r cs P' := fun c hc => by
  obtain ⟨x, c', run, hp, misfit⟩ := h c hc
  exact ⟨x, c', run, imp _ _ hp, misfit⟩

theorem bind {f : α → Reader β} (h : Reads r cs P)
    (next : ∀ x rest, P x rest → Reads (f x) rest Q) : Reads (r >>= f) cs Q := fun c hc => by
  obtain ⟨x, c₁, run, hp, misfit⟩ := h c hc
  obtain ⟨y, c₂, run', hq, misfit'⟩ := next x c₁.rest hp c₁ rfl
  exact ⟨y, c₂, by rw [run_bind, run]; exact run', hq, misfit'.trans misfit⟩

theorem seqRight {t : Reader β} (h : Reads r cs P) (next : ∀ x rest, P x rest → Reads t rest Q) :
    Reads (r *> t) cs Q := fun c hc => by
  obtain ⟨x, c₁, run, hp, misfit⟩ := h c hc
  obtain ⟨y, c₂, run', hq, misfit'⟩ := next x c₁.rest hp c₁ rfl
  exact ⟨y, c₂, by rw [run_seqRight, run]; exact run', hq, misfit'.trans misfit⟩

theorem orElse_left (h : Reads r cs P) : Reads (r <|> s) cs P := fun c hc => by
  obtain ⟨x, c', run, rest⟩ := h c hc
  exact ⟨x, c', by rw [run_orElse, run]; rfl, rest⟩

theorem orElse_right (h : Refuses r cs) (h' : Reads s cs P) : Reads (r <|> s) cs P := fun c hc => by
  obtain ⟨x, c', run, rest⟩ := h' c hc
  exact ⟨x, c', by rw [run_orElse, h c hc]; exact run, rest⟩

theorem attempt_some (h : Reads r cs P) :
    Reads (attempt r) cs fun o rest => ∃ x, o = some x ∧ P x rest :=
  .orElse_left fun c hc => by
    obtain ⟨x, c', run, hp, misfit⟩ := h c hc
    refine ⟨some x, c', ?_, ⟨x, rfl, hp⟩, misfit⟩
    change (r.run c).bind _ = _
    rw [run]
    rfl

theorem attempt_none (h : Refuses r cs) :
    Reads (attempt r) cs fun o rest => o = none ∧ rest = cs := by
  refine .orElse_right (fun c hc => ?_) (.pure ⟨rfl, rfl⟩)
  change (r.run c).bind _ = none
  rw [h c hc]
  rfl

end Reads

namespace Yields

variable {r s : Reader α} {cs mid rest : List Char} {x : α}

theorem pure : Yields (Pure.pure x) cs x cs := Reads.pure ⟨rfl, rfl⟩

theorem bind {f : α → Reader β} {Q : β → List Char → Prop} (h : Yields r cs x mid)
    (next : Reads (f x) mid Q) : Reads (r >>= f) cs Q :=
  Reads.bind h fun _ _ ⟨value, left⟩ => value ▸ left ▸ next

theorem seqRight {t : Reader β} {Q : β → List Char → Prop} (h : Yields r cs x mid)
    (next : Reads t mid Q) : Reads (r *> t) cs Q :=
  Reads.seqRight h fun _ _ ⟨_, left⟩ => left ▸ next

theorem attempt (h : Yields r cs x rest) : Yields (attempt r) cs (some x) rest :=
  (Reads.attempt_some h).mono fun _ _ ⟨_, found, value, left⟩ => ⟨value ▸ found, left⟩

theorem attempt_none (h : Refuses r cs) : Yields (Scan.attempt r) cs none cs :=
  Reads.attempt_none h

end Yields

namespace Refuses

variable {r s : Reader α} {cs : List Char}

theorem failure : Refuses (failure : Reader α) cs := fun _ _ => rfl

theorem bind {f : α → Reader β} (h : Refuses r cs) : Refuses (r >>= f) cs := fun c hc => by
  rw [run_bind, h c hc]
  rfl

theorem bind_next {P : α → List Char → Prop} {f : α → Reader β} (h : Reads r cs P)
    (next : ∀ x rest, P x rest → Refuses (f x) rest) : Refuses (r >>= f) cs := fun c hc => by
  obtain ⟨x, c₁, run, hp, -⟩ := h c hc
  rw [run_bind, run]
  exact next x c₁.rest hp c₁ rfl

theorem seqRight {t : Reader β} (h : Refuses r cs) : Refuses (r *> t) cs := fun c hc => by
  rw [run_seqRight, h c hc]
  rfl

theorem seqRight_next {P : α → List Char → Prop} {t : Reader β} (h : Reads r cs P)
    (next : ∀ x rest, P x rest → Refuses t rest) : Refuses (r *> t) cs := fun c hc => by
  obtain ⟨x, c₁, run, hp, -⟩ := h c hc
  rw [run_seqRight, run]
  exact next x c₁.rest hp c₁ rfl

theorem orElse (h : Refuses r cs) (h' : Refuses s cs) : Refuses (r <|> s) cs := fun c hc => by
  rw [run_orElse, h c hc]
  exact h' c hc

/-- A reader refuses where nothing that it may have read is to come. -/
theorem of_run (h : ∀ c x c', c.rest = cs → r.run c = some (x, c') → False) : Refuses r cs :=
  fun c hc => by
    cases run : r.run c with
    | none => rfl
    | some out => exact (h c out.1 out.2 hc run).elim

end Refuses

/-! ### Tokens -/

theorem reads_get {cs : List Char} {P : Cursor → List Char → Prop}
    (h : ∀ c : Cursor, c.rest = cs → P c cs) : Reads (get : Reader Cursor) cs P :=
  fun c hc => ⟨c, c, rfl, hc ▸ h c hc, rfl⟩

theorem Reads.offset {f : Nat → Reader β} {cs : List Char} {Q : β → List Char → Prop}
    (next : ∀ n, Reads (f n) cs Q) : Reads (offset >>= f) cs Q :=
  Reads.bind (P := fun _ t => t = cs) (fun c hc => ⟨c.offset, c, rfl, hc, rfl⟩)
    fun n _ left => left ▸ next n

theorem yields_literal (cs rest : List Char) : Yields (literal cs) (cs ++ rest) () rest :=
  fun c hc => by
    obtain ⟨_, offset, misfit?⟩ := c
    obtain rfl : _ = cs ++ rest := hc
    exact ⟨(), _, literal_append cs rest offset misfit?, ⟨rfl, rfl⟩, rfl⟩

theorem refuses_literal {cs text : List Char} (h : ¬ cs <+: text) : Refuses (literal cs) text :=
  fun c hc => by
    have no : cs.isPrefixOf c.rest = false := by
      rw [hc, Bool.eq_false_iff, ne_eq, List.isPrefixOf_iff_prefix]
      exact h
    change (if cs.isPrefixOf c.rest then discard (take cs.length) else failure : Reader Unit).run c
      = none
    rw [no]
    rfl

theorem run_lexeme (length : List Char → Option Nat) (c : Cursor) :
    (lexeme length).run c =
      (length c.rest).map fun n => (c.rest.take n, c.advance n) := by
  rw [lexeme, run_bind]
  dsimp only [run_get, Option.bind_some]
  cases length c.rest <;> rfl

theorem yields_lexeme {length : List Char → Option Nat} {text rest : List Char}
    (h : length (text ++ rest) = some text.length) :
    Yields (lexeme length) (text ++ rest) text rest := fun c hc => by
  refine ⟨text, c.advance text.length, ?_, ⟨rfl, ?_⟩, rfl⟩
  · rw [run_lexeme, hc, h]
    simp
  · simp [Cursor.advance, hc]

theorem refuses_lexeme {length : List Char → Option Nat} {cs : List Char} (h : length cs = none) :
    Refuses (lexeme length) cs := fun c hc => by
  rw [run_lexeme, hc, h]
  rfl

theorem run_lookahead (test : List Char → Bool) (c : Cursor) :
    (lookahead test).run c = if test c.rest then some ((), c) else none := by
  change (if test c.rest then pure () else failure : Reader Unit).run c = _
  split <;> rfl

theorem yields_lookahead {test : List Char → Bool} {cs : List Char} (h : test cs = true) :
    Yields (lookahead test) cs () cs := fun c hc =>
  ⟨(), c, by rw [run_lookahead, hc, h]; rfl, ⟨rfl, hc⟩, rfl⟩

theorem refuses_lookahead {test : List Char → Bool} {cs : List Char} (h : test cs = false) :
    Refuses (lookahead test) cs := fun c hc => by
  rw [run_lookahead, hc, h]
  rfl

theorem run_blanks (c : Cursor) : blanks.run c = some ((), c.advance (blankLength false c.rest)) :=
  rfl

theorem yields_blanks (cs : List Char) : Yields blanks cs () (skip cs) := fun c hc =>
  ⟨(), _, run_blanks c, ⟨rfl, by subst hc; rfl⟩, rfl⟩

theorem Reads.token {r : Reader α} {cs : List Char} {P : α → List Char → Prop}
    (h : Reads r cs fun x rest => P x (skip rest)) : Reads (token r) cs P :=
  h.bind fun _ _ hp => (yields_blanks _).bind (.pure hp)

theorem Yields.token {r : Reader α} {cs rest : List Char} {x : α} (h : Yields r cs x rest) :
    Yields (token r) cs x (skip rest) :=
  Reads.token (h.mono fun _ _ ⟨value, left⟩ => ⟨value, left ▸ rfl⟩)

theorem Refuses.token {r : Reader α} {cs : List Char} (h : Refuses r cs) : Refuses (token r) cs :=
  h.bind

theorem yields_symbol (text : String) (rest : List Char) :
    Yields (symbol text) (text.toList ++ rest) () (skip rest) := (yields_literal _ _).token

theorem refuses_symbol {text : String} {cs : List Char} (h : ¬ text.toList <+: cs) :
    Refuses (symbol text) cs := (refuses_literal h).token

/-- A reading behind blanks. -/
theorem Reads.behind {r : Reader α} {cs : List Char} {P : α → List Char → Prop}
    (h : Reads r (skip cs) P) : Reads (blanks *> r) cs P := (yields_blanks cs).seqRight h

theorem Refuses.behind {r : Reader α} {cs : List Char} (h : Refuses r (skip cs)) :
    Refuses (blanks *> r) cs := Refuses.seqRight_next (yields_blanks cs) fun _ _ out => out.2 ▸ h

/-! ### Readings one after the other -/

/-- What readings one after the other read, each of which takes a character at least. -/
def ReadsOn (r : Reader α) (cs : List Char) (P : List α → List Char → Prop) : Prop :=
  ∀ fuel, cs.length ≤ fuel → Reads (manyUpTo r fuel) cs P

namespace ReadsOn

variable {r : Reader α} {cs : List Char} {P : List α → List Char → Prop}

theorem nil (h : Refuses r cs) (hp : P [] cs) : ReadsOn r cs P := fun fuel _ => by
  cases fuel with
  | zero => exact .pure hp
  | succ fuel =>
    exact (Yields.attempt_none h).bind (.pure hp)

theorem cons (h : Reads r cs fun x rest =>
    rest.length < cs.length ∧ ReadsOn r rest fun xs rest' => P (x :: xs) rest') :
    ReadsOn r cs P := fun fuel enough => by
  cases fuel with
  | zero =>
    intro c hc
    obtain ⟨x, c', -, ⟨shorter, -⟩, -⟩ := h c hc
    omega
  | succ fuel =>
    refine (Reads.attempt_some h).bind fun o rest out => ?_
    obtain ⟨x, rfl, shorter, later⟩ := out
    exact (later fuel (by omega)).bind fun xs rest' hp => .pure hp

theorem mono {P' : List α → List Char → Prop} (h : ReadsOn r cs P)
    (imp : ∀ xs rest, P xs rest → P' xs rest) : ReadsOn r cs P' :=
  fun fuel enough => (h fuel enough).mono imp

theorem many (h : ReadsOn r cs P) : Reads (many r) cs P :=
  (reads_get (P := fun c rest => c.rest = cs ∧ rest = cs) fun _ hc => ⟨hc, rfl⟩).bind
    fun c _ out => by
      obtain ⟨hc, rfl⟩ := out
      exact h _ (hc ▸ Nat.le_refl _)

end ReadsOn

/-! ### What readers keep of a cursor -/

/-- One cursor comes before another of the same text: characters in between have been read, and a
misfit that was noted stays. -/
structure Cursor.Before (c c' : Cursor) : Prop where
  suffix : c'.rest <:+ c.rest
  offset : c.offset + byteLength c.rest = c'.offset + byteLength c'.rest
  misfit : c'.misfit? = none → c.misfit? = none

theorem Cursor.Before.refl (c : Cursor) : c.Before c := ⟨List.suffix_refl _, rfl, id⟩

theorem Cursor.Before.trans {a b c : Cursor} (h : a.Before b) (h' : b.Before c) : a.Before c :=
  ⟨h'.suffix.trans h.suffix, h.offset.trans h'.offset, h.misfit ∘ h'.misfit⟩

theorem byteLength_append (cs ds : List Char) :
    byteLength (cs ++ ds) = byteLength cs + byteLength ds := by
  induction cs with
  | nil => simp [byteLength]
  | cons c cs ih => simp [byteLength, ih, Nat.add_assoc]

theorem byteLength_le_of_suffix {cs ds : List Char} (h : cs <:+ ds) :
    byteLength cs ≤ byteLength ds := by
  obtain ⟨w, rfl⟩ := h
  rw [byteLength_append]
  omega

theorem Cursor.before_advance (c : Cursor) (n : Nat) : c.Before (c.advance n) where
  suffix := List.drop_suffix _ _
  offset := by
    have split := congrArg byteLength (List.take_append_drop n c.rest)
    rw [byteLength_append] at split
    simp only [Cursor.advance]
    omega
  misfit := id

/-- A reader moves its cursor over the text. -/
def Steady (r : Reader α) : Prop := ∀ c x c', r.run c = some (x, c') → c.Before c'

theorem run_bind_some {r : Reader α} {f : α → Reader β} {c c' : Cursor} {y : β} :
    (r >>= f).run c = some (y, c') ↔
      ∃ x c₁, r.run c = some (x, c₁) ∧ (f x).run c₁ = some (y, c') := by
  rw [run_bind, Option.bind_eq_some_iff]
  simp

theorem run_seqRight_some {r : Reader α} {s : Reader β} {c c' : Cursor} {y : β} :
    (r *> s).run c = some (y, c') ↔ ∃ x c₁, r.run c = some (x, c₁) ∧ s.run c₁ = some (y, c') := by
  rw [run_seqRight, Option.bind_eq_some_iff]
  simp

theorem run_orElse_some {r s : Reader α} {c c' : Cursor} {x : α} :
    (r <|> s).run c = some (x, c') ↔
      r.run c = some (x, c') ∨ r.run c = none ∧ s.run c = some (x, c') := by
  rw [run_orElse]
  cases r.run c with
  | none =>
      change s.run c = some (x, c') ↔ _
      simp
  | some out =>
      change some out = some (x, c') ↔ _
      simp

@[simp] theorem run_pure_some {c c' : Cursor} {x y : α} :
    (pure x : Reader α).run c = some (y, c') ↔ y = x ∧ c' = c := by
  change some (x, c) = some (y, c') ↔ _
  grind

@[simp] theorem run_offset_some {c c' : Cursor} {n : Nat} :
    offset.run c = some (n, c') ↔ n = c.offset ∧ c' = c := by
  change some (c.offset, c) = some (n, c') ↔ _
  grind

theorem run_attempt_some {r : Reader α} {c c' : Cursor} {o : Option α} :
    (attempt r).run c = some (o, c') ↔
      (∃ x, o = some x ∧ r.run c = some (x, c')) ∨ r.run c = none ∧ o = none ∧ c' = c := by
  rw [attempt, run_orElse_some]
  have run : (some <$> r : Reader (Option α)).run c = (r.run c).map fun out => (some out.1, out.2) := by
    change (r.run c).bind _ = _
    cases r.run c <;> rfl
  rw [run]
  cases r.run c with
  | none => simp; grind
  | some out => obtain ⟨x, d⟩ := out; simp; grind

/-- Readings one after the other, as they have been made. -/
inductive Steps (r : Reader α) : Cursor → List α → Cursor → Prop where
  | nil (c : Cursor) : Steps r c [] c
  | cons {c c₁ c' : Cursor} {x : α} {xs : List α} (first : r.run c = some (x, c₁))
      (later : Steps r c₁ xs c') : Steps r c (x :: xs) c'

theorem run_manyUpTo_some {r : Reader α} {fuel : Nat} {c c' : Cursor} {xs : List α}
    (h : (manyUpTo r fuel).run c = some (xs, c')) : Steps r c xs c' := by
  induction fuel generalizing c xs with
  | zero =>
    obtain ⟨rfl, rfl⟩ := run_pure_some.1 h
    exact .nil _
  | succ fuel ih =>
    obtain ⟨o, c₁, first, second⟩ := run_bind_some.1 h
    rcases run_attempt_some.1 first with ⟨x, rfl, read⟩ | ⟨-, rfl, rfl⟩
    · obtain ⟨ys, c₂, later, out⟩ := run_bind_some.1 second
      obtain ⟨rfl, rfl⟩ := run_pure_some.1 out
      exact .cons read (ih later)
    · obtain ⟨rfl, rfl⟩ := run_pure_some.1 second
      exact .nil _

theorem run_many_some {r : Reader α} {c c' : Cursor} {xs : List α}
    (h : (many r).run c = some (xs, c')) : Steps r c xs c' := by
  obtain ⟨d, c₁, got, h⟩ := run_bind_some.1 h
  obtain ⟨rfl, rfl⟩ : d = c ∧ c₁ = c := by
    change some (c, c) = some (d, c₁) at got
    grind
  exact run_manyUpTo_some h

theorem run_lexeme_some {length : List Char → Option Nat} {c c' : Cursor} {text : List Char}
    (h : (lexeme length).run c = some (text, c')) :
    c.rest = text ++ c'.rest ∧ c'.misfit? = c.misfit? ∧
      ∃ n, length c.rest = some n ∧ text = c.rest.take n := by
  rw [run_lexeme, Option.map_eq_some_iff] at h
  obtain ⟨n, found, out⟩ := h
  obtain ⟨rfl, rfl⟩ := Prod.mk.inj out
  exact ⟨(List.take_append_drop n c.rest).symm, rfl, n, found, rfl⟩

theorem run_literal_some {cs : List Char} {c c' : Cursor} {u : Unit}
    (h : (literal cs).run c = some (u, c')) : c.rest = cs ++ c'.rest ∧ c'.misfit? = c.misfit? := by
  by_cases starts : cs <+: c.rest
  · obtain ⟨rest, split⟩ := starts
    obtain ⟨x, c₁, run, ⟨-, rfl⟩, misfit⟩ := yields_literal cs rest c split.symm
    rw [run] at h
    obtain ⟨-, rfl⟩ := Prod.mk.inj (Option.some.inj h)
    exact ⟨split.symm, misfit⟩
  · rw [refuses_literal starts c rfl] at h
    cases h

theorem run_lookahead_some {test : List Char → Bool} {c c' : Cursor} {u : Unit} :
    (lookahead test).run c = some (u, c') ↔ test c.rest = true ∧ c' = c := by
  rw [run_lookahead]
  split
  · next seen => simp [seen, eq_comm]
  · next unseen => simp [unseen]

theorem run_token_some {r : Reader α} {c c' : Cursor} {x : α}
    (h : (token r).run c = some (x, c')) :
    ∃ c₁, r.run c = some (x, c₁) ∧ c'.rest = skip c₁.rest ∧ c'.misfit? = c₁.misfit? := by
  obtain ⟨y, c₁, read, h⟩ := run_bind_some.1 h
  obtain ⟨u, c₂, pass, h⟩ := run_bind_some.1 h
  obtain ⟨rfl, rfl⟩ := run_pure_some.1 h
  rw [run_blanks] at pass
  obtain ⟨-, rfl⟩ := Prod.mk.inj (Option.some.inj pass)
  exact ⟨c₁, read, rfl, rfl⟩

theorem run_symbol_some {text : String} {c c' : Cursor} {u : Unit}
    (h : (symbol text).run c = some (u, c')) :
    ∃ rest, c.rest = text.toList ++ rest ∧ c'.rest = skip rest ∧ c'.misfit? = c.misfit? := by
  obtain ⟨c₁, read, rest, misfit⟩ := run_token_some h
  obtain ⟨split, misfit'⟩ := run_literal_some read
  exact ⟨c₁.rest, split, rest, misfit.trans misfit'⟩

theorem Steps.before {r : Reader α} (h : Steady r) {c c' : Cursor} {xs : List α}
    (steps : Steps r c xs c') : c.Before c' := by
  induction steps with
  | nil c => exact .refl c
  | cons first later ih => exact (h _ _ _ first).trans ih

namespace Steady

theorem pure (x : α) : Steady (Pure.pure x : Reader α) := fun c y c' h => by
  obtain ⟨-, rfl⟩ := run_pure_some.1 h
  exact .refl _

theorem failure : Steady (failure : Reader α) := fun _ _ _ h => by cases h

theorem bind {r : Reader α} {f : α → Reader β} (h : Steady r) (next : ∀ x, Steady (f x)) :
    Steady (r >>= f) := fun c y c' run => by
  obtain ⟨x, c₁, first, second⟩ := run_bind_some.1 run
  exact (h c x c₁ first).trans (next x c₁ y c' second)

theorem seqRight {r : Reader α} {s : Reader β} (h : Steady r) (h' : Steady s) :
    Steady (r *> s) := fun c y c' run => by
  obtain ⟨x, c₁, first, second⟩ := run_seqRight_some.1 run
  exact (h c x c₁ first).trans (h' c₁ y c' second)

theorem orElse {r s : Reader α} (h : Steady r) (h' : Steady s) : Steady (r <|> s) :=
  fun c x c' run => (run_orElse_some.1 run).elim (h c x c') fun out => h' c x c' out.2

theorem attempt {r : Reader α} (h : Steady r) : Steady (attempt r) := fun c o c' run => by
  rcases run_attempt_some.1 run with ⟨x, -, read⟩ | ⟨-, -, rfl⟩
  · exact h c x c' read
  · exact .refl _

theorem offset : Steady offset := fun c n c' run => by
  obtain ⟨-, rfl⟩ := run_offset_some.1 run
  exact .refl _

theorem lexeme (length : List Char → Option Nat) : Steady (lexeme length) := fun c x c' run => by
  rw [run_lexeme, Option.map_eq_some_iff] at run
  obtain ⟨n, -, out⟩ := run
  obtain ⟨-, rfl⟩ := Prod.mk.inj out
  exact c.before_advance n

theorem literal (cs : List Char) : Steady (literal cs) := fun c u c' run => by
  change (if cs.isPrefixOf c.rest then discard (Scan.take cs.length) else Alternative.failure :
    Reader Unit).run c = some (u, c') at run
  split at run
  · obtain ⟨-, rfl⟩ := Prod.mk.inj (Option.some.inj run)
    exact c.before_advance _
  · cases run

theorem lookahead (test : List Char → Bool) : Steady (lookahead test) := fun c u c' run => by
  obtain ⟨-, rfl⟩ := run_lookahead_some.1 run
  exact .refl _

theorem blanks : Steady blanks := fun c u c' run => by
  rw [run_blanks] at run
  obtain ⟨-, rfl⟩ := Prod.mk.inj (Option.some.inj run)
  exact c.before_advance _

theorem token {r : Reader α} (h : Steady r) : Steady (token r) :=
  h.bind fun _ => blanks.bind fun _ => pure _

theorem symbol (text : String) : Steady (symbol text) := (literal _).token

theorem keyword (word : String) : Steady (keyword word) :=
  ((lookahead _).bind fun _ => literal _).token

theorem many {r : Reader α} (h : Steady r) : Steady (many r) :=
  fun _ _ _ run => (run_many_some run).before h

theorem sepBy {r : Reader α} {separator : Reader β} (h : Steady r) (h' : Steady separator) :
    Steady (sepBy r separator) := h.bind fun _ => (h'.seqRight h).many.bind fun _ => pure _

theorem listOf {r : Reader α} {separator : Reader β} (h : Steady r) (h' : Steady separator) :
    Steady (listOf r separator) :=
  .orElse ((h.sepBy h').bind fun _ => h'.attempt.bind fun _ => pure _) (pure _)

end Steady

end Packrat.Scan
