import Packrat.Proofs.Meaning.Onward

/-
**Items with separators between them.**

What a list with separators reads behind its first item are links, each a separator and an item
behind it.  They end where a separator is missed, behind an item that is missed, or behind a link
that has read nothing.  What counts as nothing depends on whether a trailer is allowed: a separator
that was read is then kept, and the link has read nothing if its item has.

Main definitions:

* `Packrat.ListLink` — a separator and an item behind it;
* `Packrat.Alternates` — **the links from a place, and the separator left over behind them**;
* `Packrat.ListLink.values` — the values of links, with or without the separators.

Main results:

* `Packrat.Scene.repeatFrom_anotherPair` — the rounds of a list read its links;
* `Packrat.Alternates.with_trailer` — what becomes of the links of a list when a trailer is allowed.
-/

set_option autoImplicit false

namespace Packrat

/-- A separator and an item behind it, with the places where they begin and end. -/
structure ListLink where
  start : Nat
  separator : Value
  between : Nat
  item : Value
  stop : Nat

namespace ListLink

/-- The values of links, with their separators or without. -/
def values (discard : Bool) (links : List ListLink) : List Value :=
  links.flatMap fun l => if discard then [l.item] else [l.separator, l.item]

@[simp] theorem values_nil (discard : Bool) : values discard [] = [] := rfl

@[simp] theorem values_cons (discard : Bool) (l : ListLink) (links : List ListLink) :
    values discard (l :: links) =
      (if discard then [l.item] else [l.separator, l.item]) ++ values discard links := rfl

theorem values_append (discard : Bool) (links links' : List ListLink) :
    values discard (links ++ links') = values discard links ++ values discard links' :=
  List.flatMap_append

/-- The separator behind the last link, if it is kept. -/
def trailer (flags : SepFlags) (loose? : Option (Value × Nat)) : List Value :=
  if flags.allowTrailer && !flags.discardSeparators then loose?.toList.map (·.1) else []

@[simp] theorem trailer_none (flags : SepFlags) : trailer flags none = [] := by
  rw [trailer]
  split <;> rfl

/-- A separator that no item follows is only kept as a trailer. -/
theorem append_trailer (flags : SepFlags) (items : List Value) (x : Value) (between : Nat) :
    (if flags.allowTrailer then if flags.discardSeparators then items else items ++ [x]
      else items) = items ++ trailer flags (some (x, between)) := by
  obtain ⟨discard, allowed, _⟩ := flags
  cases discard <;> cases allowed <;> simp [trailer]

end ListLink

/-- The links from a place in so many rounds at most. Behind them there may be a separator that is
left over, with the place behind it: no item was found there. -/
inductive Alternates (trailer : Bool) (item separator : Nat → Reading (Verdict Value)) :
    Nat → Nat → Store → List ListLink → Option (Value × Nat) → Nat → Store → Prop
  /-- No separator is found. -/
  | ends {rounds pos : Nat} {s s' : Store} (missed : Reading.Misses separator pos s s') :
      Alternates trailer item separator (rounds + 1) pos s [] none pos s'
  /-- No item is found behind a separator. -/
  | loose {rounds pos between : Nat} {x : Value} {s s₁ s' : Store}
      (first : Reading.Finds separator pos s x between s₁)
      (missed : Reading.Misses item between s₁ s') :
      Alternates trailer item separator (rounds + 1) pos s [] (some (x, between))
        (if trailer then between else pos) s'
  /-- Nothing has been read by a link. -/
  | last {rounds pos between stop : Nat} {x v : Value} {s s₁ s' : Store}
      (first : Reading.Finds separator pos s x between s₁)
      (second : Reading.Finds item between s₁ v stop s')
      (stops : stop = if trailer then between else pos) :
      Alternates trailer item separator (rounds + 1) pos s [⟨pos, x, between, v, stop⟩] none stop s'
  | more {rounds pos between stop behind : Nat} {x v : Value} {s s₁ s₂ s' : Store}
      {links : List ListLink} {loose? : Option (Value × Nat)}
      (first : Reading.Finds separator pos s x between s₁)
      (second : Reading.Finds item between s₁ v stop s₂)
      (goes : ¬stop = if trailer then between else pos)
      (rest : Alternates trailer item separator rounds stop s₂ links loose? behind s') :
      Alternates trailer item separator (rounds + 1) pos s (⟨pos, x, between, v, stop⟩ :: links)
        loose? behind s'

/-- The links of a run have been read from the places where they begin. -/
theorem Alternates.reads {trailer : Bool} {item separator : Nat → Reading (Verdict Value)}
    {rounds pos stop : Nat} {s s' : Store} {links : List ListLink} {loose? : Option (Value × Nat)}
    (h : Alternates trailer item separator rounds pos s links loose? stop s') :
    ∀ l ∈ links, ∃ s₁ s₂ s₃, Reading.Finds separator l.start s₁ l.separator l.between s₂ ∧
      Reading.Finds item l.between s₂ l.item l.stop s₃ := by
  induction h with
  | ends | loose => simp
  | last first second =>
      intro l mem
      obtain rfl := List.mem_singleton.1 mem
      exact ⟨_, _, _, first, second⟩
  | more first second _ _ ih =>
      intro l mem
      rcases List.mem_cons.1 mem with rfl | mem
      · exact ⟨_, _, _, first, second⟩
      · exact ih l mem

/-- The links of a list where no trailer is allowed are also those where one is; then the separator
left over is not given back. Otherwise they are cut behind the first item that is empty while the
separator before it is not. -/
theorem Alternates.with_trailer {item separator : Nat → Reading (Verdict Value)}
    (items : ∀ p, (item p).Advances p) (separators : ∀ p, (separator p).Advances p)
    {rounds pos stop : Nat} {s s' : Store} {links : List ListLink} {loose? : Option (Value × Nat)}
    (h : Alternates false item separator rounds pos s links loose? stop s') (sound : s.Sound) :
    Alternates true item separator rounds pos s links loose? (loose?.elim stop (·.2)) s' ∨
      ∃ before l behind s'', links = before ++ l :: behind ∧
        l.start < l.between ∧ l.stop = l.between ∧
        Alternates true item separator rounds pos s (before ++ [l]) none l.stop s'' := by
  induction h with
  | ends missed => exact .inl (.ends missed)
  | loose first missed => exact .inl (.loose first missed)
  | @last rounds pos between stop x v s s₁ s' first second stops =>
      obtain ⟨-, sound₁, ahead⟩ := separators pos s _ s₁ sound first
      obtain ⟨-, -, behind⟩ := items between s₁ _ s' sound₁ second
      -- Nothing goes back, so a link that ends where it begins has an empty separator, too.
      have empty : stop = between := by
        change pos ≤ between at ahead
        change between ≤ stop at behind
        simp at stops
        omega
      exact .inl (.last first second empty)
  | @more rounds pos between stop behind x v s s₁ s₂ s' links loose? first second goes rest ih =>
      obtain ⟨-, sound₁, ahead⟩ := separators pos s _ s₁ sound first
      obtain ⟨-, sound₂, -⟩ := items between s₁ _ s₂ sound₁ second
      by_cases empty : stop = between
      · refine .inr ⟨[], _, links, s₂, rfl, ?_, empty, .last first second empty⟩
        change pos ≤ between at ahead
        change pos < between
        simp at goes
        omega
      · rcases ih sound₂ with whole | ⟨before, l, behind', s'', rfl, reads, nothing, cut⟩
        · exact .inl (.more first second empty whole)
        · exact .inr ⟨_ :: before, l, behind', s'', rfl, reads, nothing,
            .more first second empty cut⟩

namespace Scene

variable {flags : SepFlags} {item separator : Nat → Reading (Verdict Value)}

/-- A round reads the separator and the item of a link. -/
theorem anotherPair_eq_ok {items : List Value} {pos : Nat} {s s' : Store}
    {out : (List Value × Nat) ⊕ (List Value × Nat)} :
    anotherPair flags item separator (items, pos) s = some (.ok (out, s')) ↔
      (out = .inr (items, pos) ∧ Reading.Misses separator pos s s') ∨
      ∃ x between s₁, Reading.Finds separator pos s x between s₁ ∧
        let kept := if flags.discardSeparators then items else items ++ [x]
        let back := if flags.allowTrailer then between else pos
        (out = .inr (if flags.allowTrailer then kept else items, back) ∧
            Reading.Misses item between s₁ s') ∨
          ∃ v stop, Reading.Finds item between s₁ v stop s' ∧
            out = if stop = back then .inr (kept ++ [v], stop) else .inl (kept ++ [v], stop) := by
  rw [anotherPair, Reading.bind_eq_ok]
  constructor
  · rintro ⟨⟨x, between⟩ | ⟨entry, place⟩, s₁, first, rest⟩
    · obtain ⟨⟨v, stop⟩ | ⟨entry, place⟩, s₂, second, rest⟩ := Reading.bind_eq_ok.1 rest
      · obtain ⟨rfl, rfl⟩ := Reading.turn_eq_ok.1 rest
        exact .inr ⟨x, between, s₁, first, .inr ⟨v, stop, second, rfl⟩⟩
      · obtain ⟨rfl, rfl⟩ := Reading.pure_eq_ok.1 rest
        exact .inr ⟨x, between, s₁, first, .inl ⟨rfl, _, _, second⟩⟩
    · obtain ⟨rfl, rfl⟩ := Reading.pure_eq_ok.1 rest
      exact .inl ⟨rfl, _, _, first⟩
  · rintro (⟨rfl, entry, place, missed⟩ | ⟨x, between, s₁, first, h⟩)
    · exact ⟨_, _, missed, rfl⟩
    · refine ⟨_, s₁, first, Reading.bind_eq_ok.2 ?_⟩
      rcases h with ⟨rfl, entry, place, missed⟩ | ⟨v, stop, second, rfl⟩
      · exact ⟨_, _, missed, rfl⟩
      · exact ⟨_, _, second, Reading.turn_eq_ok.2 ⟨rfl, rfl⟩⟩

/-- The rounds of a list read its links; the values are those of the links, and the trailer. -/
theorem repeatFrom_anotherPair {rounds pos stop : Nat} {items values : List Value} {s s' : Store} :
    Reading.repeatFrom (anotherPair flags item separator) rounds (items, pos) s =
        some (.ok ((values, stop), s')) ↔
      ∃ links loose?, Alternates flags.allowTrailer item separator rounds pos s links loose? stop s' ∧
        values = items ++ ListLink.values flags.discardSeparators links ++ ListLink.trailer flags loose? := by
  induction rounds generalizing items pos s with
  | zero =>
      constructor
      · intro found
        cases found
      · rintro ⟨_, _, alternates, -⟩
        cases alternates
  | succ rounds ih =>
      rw [Reading.repeatFrom, Reading.bind_eq_ok]
      constructor
      · rintro ⟨out, s₁, round, rest⟩
        rcases anotherPair_eq_ok.1 round with
          ⟨rfl, missed⟩ | ⟨x, between, s₂, first, ⟨rfl, missed⟩ | ⟨v, stop', second, rfl⟩⟩
        · obtain ⟨⟨⟩, rfl⟩ := Reading.pure_eq_ok.1 rest
          exact ⟨[], none, .ends missed, by simp⟩
        · obtain ⟨⟨⟩, rfl⟩ := Reading.pure_eq_ok.1 rest
          refine ⟨[], some (x, between), .loose first missed, ?_⟩
          rw [ListLink.append_trailer flags items x between, ListLink.values_nil, List.append_nil]
        · by_cases stops : stop' = if flags.allowTrailer then between else pos
          · rw [if_pos stops] at rest
            obtain ⟨⟨⟩, rfl⟩ := Reading.pure_eq_ok.1 rest
            refine ⟨_, none, .last first second stops, ?_⟩
            cases flags.discardSeparators <;> simp [ListLink.trailer]
          · rw [if_neg stops] at rest
            obtain ⟨links, loose?, alternates, rfl⟩ := ih.1 rest
            refine ⟨_, loose?, .more first second stops alternates, ?_⟩
            cases flags.discardSeparators <;> simp
      · rintro ⟨links, loose?, alternates, rfl⟩
        cases alternates with
        | ends missed =>
            refine ⟨_, _, anotherPair_eq_ok.2 (.inl ⟨rfl, missed⟩), ?_⟩
            simp only [ListLink.values_nil, ListLink.trailer_none, List.append_nil]
            rfl
        | loose first missed =>
            refine ⟨_, _, anotherPair_eq_ok.2 (.inr ⟨_, _, _, first, .inl ⟨rfl, missed⟩⟩), ?_⟩
            rw [ListLink.append_trailer, ListLink.values_nil, List.append_nil]
            rfl
        | last first second stops =>
            refine ⟨_, _, anotherPair_eq_ok.2 (.inr ⟨_, _, _, first, .inr ⟨_, _, second, rfl⟩⟩), ?_⟩
            rw [if_pos stops]
            cases flags.discardSeparators <;> simp [ListLink.trailer]
        | more first second goes rest =>
            refine ⟨_, _, anotherPair_eq_ok.2 (.inr ⟨_, _, _, first, .inr ⟨_, _, second, rfl⟩⟩), ?_⟩
            rw [if_neg goes]
            refine ih.2 ⟨_, _, rest, ?_⟩
            cases flags.discardSeparators <;> simp

end Scene

end Packrat
