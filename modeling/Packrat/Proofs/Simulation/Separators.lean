import Packrat.Proofs.Meaning.Separated
import Packrat.Proofs.Simulation.Bounds

/-
**Lists with separators, kept or discarded, with a trailer or without.**

Two lists of the same items and separators read the same parts in the same order as long as they
agree on where to stop.  Whether separators are kept has no say in that: the list of items is what
is left of the other one at even indexes.  Whether a trailer is allowed has: behind a separator that
was read an item that is empty stops a list where a trailer is allowed, and only there.

Main definitions:

* `Packrat.evens` — what stands at even indexes;
* `Packrat.Verdict.Filtered` — verdicts of lists that differ in their separators;
* `Packrat.Prolonged` — what becomes of a list when a trailer is allowed.

Main results:

* `Packrat.Expr.meaning_sep_eq_success` — a list succeeds with the values of its links;
* `Packrat.Expr.separators_filter` — **discarding separators only filters**;
* `Packrat.Expr.trailer_prolongs` — **a trailer is added, or the list is cut behind an empty item**.
-/

set_option autoImplicit false

namespace Packrat

/-! ### Even indexes -/

/-- What stands at even indexes. -/
def evens {α : Type} : List α → List α
  | [] => []
  | [x] => [x]
  | x :: _ :: xs => x :: evens xs

example : evens ["a", ",", "b", ","] = ["a", "b"] := rfl

/-- Behind a list of odd length the even indexes are those of the rest without its head. -/
theorem evens_append {α : Type} {xs : List α} (odd : xs.length % 2 = 1) (ys : List α) :
    evens (xs ++ ys) = evens xs ++ evens ys.tail := by
  induction xs using evens.induct with
  | case1 => simp at odd
  | case2 x => cases ys <;> simp [evens]
  | case3 x y xs ih =>
      simp only [List.length_cons] at odd
      simp only [List.cons_append, evens, ih (by omega)]

/-! ### The meaning of a list with separators -/

namespace Expr

variable {tag : Tag} {item separator : Expr} {flags : SepFlags}

/-- A list, told by what its parts are read as. -/
theorem meaning_sep [Regex.Engine] (scene : Scene) (env : Env) (l : Layout) (pos : Nat) :
    (Expr.sep tag item separator flags).meaning scene env l pos = (do
      let id ← Reading.host fresh
      match ← item.reads scene env (l.part 0) pos with
      | .failure entry place =>
        if flags.allowEmpty then pure (.success (.list l.shared []) pos)
        else pure (.failure entry place)
      | .success v stop => do
        let (items, stop) ← Reading.repeatFrom (Scene.anotherPair flags
          (item.reads scene env (l.part 2)) (separator.reads scene env (l.part 1))) scene.rounds
          ([v], stop)
        pure (.success (.list id items) stop)) := by
  unfold Expr.meaning
  rfl

/-- A list succeeds with its first item and the values of the links behind it. Where there is no
first item it may still be empty. -/
theorem meaning_sep_eq_success [Regex.Engine] {scene : Scene} {env : Env} {l : Layout}
    {pos stop : Nat} {s s' : Store} {v : Value} :
    (Expr.sep tag item separator flags).meaning scene env l pos s =
        some (.ok (.success v stop, s')) ↔
      (Reading.Misses (item.reads scene env (l.part 0)) pos (s.drawn 1) s' ∧
        flags.allowEmpty = true ∧ v = .list l.shared [] ∧ stop = pos) ∨
      ∃ first behind s₁ links loose?,
        Reading.Finds (item.reads scene env (l.part 0)) pos (s.drawn 1) first behind s₁ ∧
        Alternates flags.allowTrailer (item.reads scene env (l.part 2))
          (separator.reads scene env (l.part 1)) scene.rounds behind s₁ links loose? stop s' ∧
        v = .list s.identity
          (first :: ListLink.values flags.discardSeparators links ++ ListLink.trailer flags loose?) := by
  rw [meaning_sep, Reading.fresh_bind, Reading.bind_eq_ok]
  constructor
  · rintro ⟨⟨first, behind⟩ | ⟨entry, place⟩, s₁, read, rest⟩
    · obtain ⟨⟨items, place⟩, s₂, repeats, rest⟩ := Reading.bind_eq_ok.1 rest
      obtain ⟨⟨⟩, rfl⟩ := Reading.pure_eq_ok.1 rest
      obtain ⟨links, loose?, alternates, rfl⟩ := Scene.repeatFrom_anotherPair.1 repeats
      exact .inr ⟨first, behind, s₁, links, loose?, read, alternates, rfl⟩
    · cases empty : flags.allowEmpty with
      | false =>
          simp only [empty] at rest
          cases (Reading.pure_eq_ok.1 rest).1
      | true =>
          simp only [empty] at rest
          obtain ⟨⟨⟩, rfl⟩ := Reading.pure_eq_ok.1 rest
          exact .inl ⟨⟨entry, place, read⟩, rfl, rfl, rfl⟩
  · rintro (⟨⟨entry, place, read⟩, empty, rfl, rfl⟩ |
      ⟨first, behind, s₁, links, loose?, read, alternates, rfl⟩)
    · refine ⟨_, _, read, ?_⟩
      simp only [empty]
      rfl
    · exact ⟨_, _, read, Reading.bind_eq_ok.2
        ⟨_, _, Scene.repeatFrom_anotherPair.2 ⟨links, loose?, alternates, rfl⟩, rfl⟩⟩

/-- Two lists whose parts are read alike. -/
structure ReadAlike [Regex.Engine] (item separator : Expr) (scene : Scene) (env : Env) (l : Layout)
    (scene' : Scene) (env' : Env) (l' : Layout) : Prop where
  rounds : scene.rounds = scene'.rounds
  first : ∀ pos t, item.reads scene env (l.part 0) pos t = item.reads scene' env' (l'.part 0) pos t
  between : ∀ pos t,
    separator.reads scene env (l.part 1) pos t = separator.reads scene' env' (l'.part 1) pos t
  later : ∀ pos t, item.reads scene env (l.part 2) pos t = item.reads scene' env' (l'.part 2) pos t

/-- With the same numbers the parts are read alike where everything else is the same. -/
theorem ReadAlike.refl [Regex.Engine] (item separator : Expr) (scene : Scene) (env : Env)
    (l : Layout) : ReadAlike item separator scene env l scene env l :=
  ⟨rfl, fun _ _ => rfl, fun _ _ => rfl, fun _ _ => rfl⟩

end Expr

/-! ### Separators discarded -/

/-- Verdicts of a list with its separators and of one without. -/
inductive Verdict.Filtered (trailer : Bool) : Verdict Value → Verdict Value → Prop
  | success (id id' : Nat) {kept items : List Value} (stop : Nat) (even : evens kept = items)
      (odd : trailer = false → kept = [] ∨ kept.length % 2 = 1) :
      Filtered trailer (.success (.list id kept) stop) (.success (.list id' items) stop)
  | failure (entry : FailureEntry) (place : Nat) :
      Filtered trailer (.failure entry place) (.failure entry place)

namespace Scene

/-- Two lists between two rounds, one with its separators and one without. -/
structure Halves (kept items : List Value × Nat) : Prop where
  even : evens kept.1 = items.1
  odd : kept.1.length % 2 = 1
  pos : kept.2 = items.2

/-- Two lists behind their last rounds. A trailer may be left. -/
structure Halved (trailer : Bool) (kept items : List Value × Nat) : Prop where
  even : evens kept.1 = items.1
  odd : trailer = false → kept.1.length % 2 = 1
  pos : kept.2 = items.2

variable {item item' separator separator' : Nat → Reading (Verdict Value)} {trailer empty : Bool}

theorem Halves.halved {a b : List Value × Nat} (h : Halves a b) : Halved trailer a b :=
  ⟨h.even, fun _ => h.odd, h.pos⟩

/-- A round of two lists whose parts are read alike. -/
theorem anotherPair_twins (items : ∀ pos t, item pos t = item' pos t)
    (separators : ∀ pos t, separator pos t = separator' pos t) (a b : List Value × Nat) (s : Store)
    (h : Halves a b) :
    Reading.Twins (Sum.LiftRel Halves (Halved trailer))
      (anotherPair ⟨false, trailer, empty⟩ item separator a s)
      (anotherPair ⟨true, trailer, empty⟩ item' separator' b s) := by
  obtain ⟨kept, pos⟩ := a
  obtain ⟨_, _⟩ := b
  obtain ⟨rfl, odd, rfl⟩ := h
  change kept.length % 2 = 1 at odd
  refine .bind (.of_eq (separators pos s)) ?_
  rintro (⟨x, between⟩ | ⟨entry, place⟩) _ s₁ rfl
  · refine .bind (.of_eq (items between s₁)) ?_
    rintro (⟨v, stop⟩ | ⟨entry, place⟩) _ s₂ rfl
    · have grown : Halves (kept ++ [x] ++ [v], stop) (evens kept ++ [v], stop) := by
        refine ⟨?_, ?_, rfl⟩
        · rw [List.append_assoc, evens_append odd]
          rfl
        · simp only [List.length_append, List.length_singleton]
          omega
      by_cases stops : stop = if trailer then between else pos
      · dsimp only
        rw [if_pos stops, if_pos stops]
        exact ⟨.inr grown.halved, rfl⟩
      · dsimp only
        rw [if_neg stops, if_neg stops]
        exact ⟨.inl grown, rfl⟩
    · -- Only where a trailer is allowed is the separator kept that was read last.
      cases trailer with
      | false => exact ⟨.inr ⟨rfl, fun _ => odd, rfl⟩, rfl⟩
      | true =>
          refine ⟨.inr ⟨?_, nofun, rfl⟩, rfl⟩
          change evens (kept ++ [x]) = evens kept
          rw [evens_append odd, List.tail_cons, evens, List.append_nil]
  · exact ⟨.inr ⟨rfl, fun _ => odd, rfl⟩, rfl⟩

end Scene

/-- Two lists whose parts are read alike, one with its separators and one without. -/
theorem Expr.meaning_sep_twins [Regex.Engine] {tag tag' : Tag} {item separator : Expr}
    {trailer empty : Bool} {scene scene' : Scene} {env env' : Env} {l l' : Layout}
    (alike : ReadAlike item separator scene env l scene' env' l') (pos : Nat) (s : Store) :
    Reading.Twins (Verdict.Filtered trailer)
      ((Expr.sep tag item separator ⟨false, trailer, empty⟩).meaning scene env l pos s)
      ((Expr.sep tag' item separator ⟨true, trailer, empty⟩).meaning scene' env' l' pos s) := by
  rw [meaning_sep, meaning_sep, Reading.fresh_bind, Reading.fresh_bind]
  refine .bind (.of_eq (alike.first pos _)) ?_
  rintro (⟨v, stop⟩ | ⟨entry, place⟩) _ s₁ rfl
  · have begun : Scene.Halves ([v], stop) ([v], stop) := ⟨rfl, rfl, rfl⟩
    rw [← alike.rounds]
    refine .bind (.repeatFrom (Scene.anotherPair_twins alike.later alike.between)
      scene.rounds s₁ begun) ?_
    rintro ⟨kept, stop⟩ ⟨items, _⟩ s₂ ⟨even, odd, rfl⟩
    exact ⟨.success _ _ stop even fun closed => .inr (odd closed), rfl⟩
  · cases empty with
    | false => exact ⟨.failure entry place, rfl⟩
    | true => exact ⟨.success _ _ pos rfl fun _ => .inl rfl, rfl⟩

/-- **Discarding separators only filters.** The code of a list with its separators and that of the
list of its items alone follow readings that come to the same end: the same status and place, and
the items are what stands at even indexes of the other list. That list is empty, or an item with the
links behind it, a separator and an item each; a separator is only left over if a trailer is
allowed. The parts are read alike where the two pieces of code have chosen the same numbers for
their functions, as they do where they are written at the same stage. -/
theorem Expr.separators_filter [Regex.Engine] {tag tag' : Tag} {item separator : Expr}
    {trailer empty : Bool} {d e d' e' : Draft} {p q p' q' : Pools}
    (w : (Expr.sep tag item separator ⟨false, trailer, empty⟩).emit.Writes d p () d' p')
    (w' : (Expr.sep tag' item separator ⟨true, trailer, empty⟩).emit.Writes e q () e' q') :
    ∃ l l' : Layout, (d.stage p = e.stage q → l = l') ∧
      ∀ (site site' : Site) (scene scene' : Scene) (env env' : Env) (σ σ' : Moment) (s : Store),
      site.Sets scene env d d' p p' σ s →
      site'.Sets scene' env' e e' q q' σ' s →
      let r := (Expr.sep tag item separator ⟨false, trailer, empty⟩).meaning scene env l σ.pos s
      let r' := (Expr.sep tag' item separator ⟨true, trailer, empty⟩).meaning scene' env' l' σ'.pos s
      site.Follows scene.rounds d.code.size σ r (site.Done d.slots d'.code.size σ.slots) ∧
      site'.Follows scene'.rounds e.code.size σ' r' (site'.Done e.slots e'.code.size σ'.slots) ∧
      (σ.pos = σ'.pos → ReadAlike item separator scene env l scene' env' l' →
        Reading.Twins (Verdict.Filtered trailer) r r') ∧
      ∀ v stop t, r = some (.ok (.success v stop, t)) → v = .list l.shared [] ∨
        ∃ first behind s₁ links loose?,
          Reading.Finds (item.reads scene env (l.part 0)) σ.pos (s.drawn 1) first behind s₁ ∧
          Alternates trailer (item.reads scene env (l.part 2))
            (separator.reads scene env (l.part 1)) scene.rounds behind s₁ links loose? stop t ∧
          v = .list s.identity (first :: ListLink.values false links ++
            if trailer then loose?.toList.map (·.1) else []) := by
  have realizes := Expr.compiles _ _ _ _ _ w none
  have realizes' := Expr.compiles _ _ _ _ _ w' none
  refine ⟨(Expr.sep tag item separator ⟨false, trailer, empty⟩).layout none (d.stage p),
    (Expr.sep tag' item separator ⟨true, trailer, empty⟩).layout none (e.stage q), fun same => ?_,
    fun site site' scene scene' env env' σ σ' s sets sets' => ⟨?_, ?_, fun place alike => ?_,
      fun v stop t found => ?_⟩⟩
  · rw [same, Expr.layout, Expr.layout]
  · exact realizes.performs site scene env sets.code sets.pools sets.fits σ s sets.ready
  · exact realizes'.performs site' scene' env' sets'.code sets'.pools sets'.fits σ' s
      sets'.ready
  · rw [← place]
    exact meaning_sep_twins alike σ.pos s
  · rcases meaning_sep_eq_success.1 found with ⟨-, -, rfl, -⟩ |
      ⟨first, behind, s₁, links, loose?, read, alternates, rfl⟩
    · exact .inl rfl
    · refine .inr ⟨first, behind, s₁, links, loose?, read, alternates, ?_⟩
      cases trailer <;> rfl

/-- Letters with commas between them. -/
def Expr.letters (discard trailer : Bool) : Expr :=
  .sep ⟨1, .nowhere⟩ .letter (.str ⟨3, .nowhere⟩ [44] ⟨false, false, false⟩)
    ⟨discard, trailer, false⟩

/-- Two letters with a comma behind each. The last comma is read if a trailer is allowed. -/
theorem Expr.meaning_letters (l : Layout) (trailer : Bool) :
    (Expr.letters false trailer).meaning (.bare ⟨#[97, 44, 97, 44]⟩ 5) [] l 0 ⟨0, fun _ => none⟩ =
      some (.ok (.success
        (.list 0 ([.str "a", .str ",", .str "a"] ++ if trailer then [.str ","] else []))
        (if trailer then 4 else 3), ⟨1, fun _ => none⟩)) := by
  have item (i : Nat) : Expr.letter.reads (.bare ⟨#[97, 44, 97, 44]⟩ 5) [] (l.part i) = _ :=
    funext fun pos => Expr.reads_literal rfl _ _ _ _ _ pos
  have separator := funext fun pos => Expr.reads_literal
    (rfl : (Scene.bare ⟨#[97, 44, 97, 44]⟩ 5).memoize = false) ⟨3, .nowhere⟩ [44] false []
    (l.part 1) pos
  rw [letters, meaning_sep, item, item, separator]
  cases trailer <;> rfl

/-- The commas are left out, and nothing else. -/
theorem Expr.separators_filter_letters :
    ∃ (d' e' : Draft) (p' q' : Pools) (l : Layout) (id : Nat),
      (Expr.letters false true).emit.Writes (.begin "start" [] 4) (.initial 4 0) () d' p' ∧
      (Expr.letters true true).emit.Writes (.begin "start" [] 4) (.initial 4 0) () e' q' ∧
      (Expr.letters false true).meaning (.bare ⟨#[97, 44, 97, 44]⟩ 5) [] l 0 ⟨0, fun _ => none⟩ =
        some (.ok (.success (.list 0 [.str "a", .str ",", .str "a", .str ","]) 4,
          ⟨1, fun _ => none⟩)) ∧
      (Expr.letters true true).meaning (.bare ⟨#[97, 44, 97, 44]⟩ 5) [] l 0 ⟨0, fun _ => none⟩ =
        some (.ok (.success (.list id [.str "a", .str "a"]) 4, ⟨1, fun _ => none⟩)) := by
  obtain ⟨d', p', w, plain⟩ := (Expr.letters false true).emits_alone (by decide +kernel)
  obtain ⟨e', q', w', plain'⟩ := (Expr.letters true true).emits_alone (by decide +kernel)
  obtain ⟨l, l', same, filter⟩ := Expr.separators_filter w w'
  obtain rfl := same rfl
  have small : (⟨#[97, 44, 97, 44]⟩ : ByteArray).size < 2 ^ 63 := by decide
  have twins := (filter _ _ _ _ _ _ _ _ _ (Expr.sets_alone w plain small 5)
    (Expr.sets_alone w' plain' small 5)).2.2.1 rfl (.refl _ _ _ _ _)
  obtain ⟨_, found, ⟨_, id, _, even, -⟩ | _⟩ := twins.exists_ok (Expr.meaning_letters l true)
  subst even
  exact ⟨d', e', p', q', l, id, w, w', Expr.meaning_letters l true, found⟩

/-! ### Trailers -/

/-- What becomes of a list when a trailer is allowed: its values and the place behind them, and
those of the other list. -/
inductive Prolonged (discard : Bool) (item separator : Nat → Reading (Verdict Value)) :
    List Value → Nat → List Value → Nat → Prop
  | same (values : List Value) (stop : Nat) :
      Prolonged discard item separator values stop values stop
  /-- The separator that is read behind the last item is not given back. -/
  | trailer {values : List Value} {stop behind : Nat} {x : Value} {s s' : Store}
      (read : Reading.Finds separator stop s x behind s') :
      Prolonged discard item separator values stop (values ++ if discard then [] else [x]) behind
  /-- An item is empty behind a separator that is not, and only this list stops there. -/
  | cut {before behind : List Value} {start between stop : Nat} {x v : Value} {s s₁ s₂ : Store}
      (first : Reading.Finds separator start s x between s₁) (moves : start < between)
      (second : Reading.Finds item between s₁ v between s₂) :
      Prolonged discard item separator
        (before ++ (if discard then [v] else [x, v]) ++ behind) stop
        (before ++ if discard then [v] else [x, v]) between

/-- A separator is left over where the last item ends. -/
theorem Alternates.reads_loose {item separator : Nat → Reading (Verdict Value)}
    {rounds pos stop behind : Nat} {x : Value} {s s' : Store} {links : List ListLink}
    (h : Alternates false item separator rounds pos s links (some (x, behind)) stop s') :
    ∃ s₁ s₂, Reading.Finds separator stop s₁ x behind s₂ := by
  induction links generalizing rounds pos s with
  | nil =>
      cases h with
      | loose first missed => exact ⟨_, _, first⟩
  | cons l links ih =>
      cases h with
      | more first second goes rest => exact ih rest

/-- The values of a list and what becomes of them when a trailer is allowed. -/
theorem Alternates.prolonged (discard empty : Bool) {item separator : Nat → Reading (Verdict Value)}
    (items : ∀ p, (item p).Advances p) (separators : ∀ p, (separator p).Advances p)
    {rounds pos stop : Nat} {s s' : Store} {links : List ListLink} {loose? : Option (Value × Nat)}
    (h : Alternates false item separator rounds pos s links loose? stop s') (sound : s.Sound)
    (first : Value) :
    ∃ links' loose?' stop' s'', Alternates true item separator rounds pos s links' loose?' stop' s'' ∧
      Prolonged discard item separator (first :: ListLink.values discard links) stop
        (first :: ListLink.values discard links' ++ ListLink.trailer ⟨discard, true, empty⟩ loose?') stop' := by
  rcases h.with_trailer items separators sound with whole | ⟨before, l, behind, s'', rfl, moves, none, cut⟩
  · refine ⟨links, loose?, _, s', whole, ?_⟩
    match loose? with
    | none =>
        rw [ListLink.trailer_none, List.append_nil]
        exact .same _ stop
    | some (x, place) =>
        obtain ⟨s₁, s₂, read⟩ := h.reads_loose
        have kept : ListLink.trailer ⟨discard, true, empty⟩ (some (x, place)) =
            if discard then [] else [x] := by cases discard <;> rfl
        rw [kept]
        exact .trailer read
  · obtain ⟨s₁, s₂, s₃, read, read'⟩ := cut.reads l (by simp)
    rw [none] at read'
    refine ⟨before ++ [l], _, _, s'', cut, ?_⟩
    rw [none, ListLink.trailer_none, List.append_nil, ListLink.values_append, ListLink.values_append,
      ListLink.values_cons, ListLink.values_cons, ListLink.values_nil, List.append_nil]
    have cut : Prolonged discard item separator
        (first :: ListLink.values discard before ++ (if discard then [l.item] else
          [l.separator, l.item]) ++ ListLink.values discard behind) stop
        (first :: ListLink.values discard before ++ if discard then [l.item] else
          [l.separator, l.item]) l.between := .cut read moves read'
    simpa using cut

namespace Expr

variable {tag tag' : Tag} {item separator : Expr} {discard empty : Bool}

theorem reads_advances [Regex.Engine] {scene : Scene} (calls : scene.Advances) (e : Expr)
    (env : Env) (l : Layout) (pos : Nat) : (e.reads scene env l pos).Advances pos :=
  Layout.read_advances (e.onward calls env l pos)

/-- Two lists whose parts are read alike, one without a trailer and one with. -/
theorem meaning_sep_prolonged [Regex.Engine] {scene scene' : Scene} {env env' : Env} {l l' : Layout}
    (alike : ReadAlike item separator scene env l scene' env' l') (calls : scene.Advances)
    {pos stop : Nat} {s t : Store} (sound : s.Sound) {v : Value}
    (found : (Expr.sep tag item separator ⟨discard, false, empty⟩).meaning scene env l pos s =
      some (.ok (.success v stop, t))) :
    ∃ id id' values values' stop' t', v = .list id values ∧
      (Expr.sep tag' item separator ⟨discard, true, empty⟩).meaning scene' env' l' pos s =
        some (.ok (.success (.list id' values') stop', t')) ∧
      Prolonged discard (item.reads scene env (l.part 2)) (separator.reads scene env (l.part 1))
        values stop values' stop' := by
  have first := funext fun p => funext (alike.first p)
  have between := funext fun p => funext (alike.between p)
  have later := funext fun p => funext (alike.later p)
  rcases meaning_sep_eq_success.1 found with ⟨missed, given, rfl, rfl⟩ |
    ⟨head, behind, s₁, links, loose?, read, alternates, rfl⟩
  · refine ⟨_, l'.shared, _, [], stop, t, rfl, ?_, .same [] stop⟩
    exact meaning_sep_eq_success.2 (.inl ⟨first ▸ missed, given, rfl, rfl⟩)
  · obtain ⟨-, sound₁, -⟩ := reads_advances calls item env (l.part 0) pos (s.drawn 1) _ s₁ sound read
    obtain ⟨links', loose?', stop', t', prolonged, values⟩ :=
      alternates.prolonged discard empty (reads_advances calls item env (l.part 2))
        (reads_advances calls separator env (l.part 1)) sound₁ head
    refine ⟨_, s.identity, _, head :: ListLink.values discard links' ++
      ListLink.trailer ⟨discard, true, empty⟩ loose?', stop', t', rfl, ?_, ?_⟩
    · rw [alike.rounds, later, between] at prolonged
      exact meaning_sep_eq_success.2 (.inr ⟨head, behind, s₁, links', loose?', first ▸ read,
        prolonged, rfl⟩)
    · have dropped : ListLink.trailer ⟨discard, false, empty⟩ loose? = [] := rfl
      rw [dropped, List.append_nil]
      exact values

end Expr

/-- **What a trailer adds.** The code of a list without a trailer and that of the same list with one
follow readings of which the second succeeds where the first does. Its values are the same, or there
is one more separator behind them, and it ends behind that separator; or else an item that is empty
behind a separator that is not has stopped it, though the other list goes on behind that item.
Written at the same stage, the two have chosen the same numbers. -/
theorem Expr.trailer_prolongs [Regex.Engine] {tag tag' : Tag} {item separator : Expr}
    {discard empty : Bool} {d e d' e' : Draft} {p q p' q' : Pools}
    (w : (Expr.sep tag item separator ⟨discard, false, empty⟩).emit.Writes d p () d' p')
    (w' : (Expr.sep tag' item separator ⟨discard, true, empty⟩).emit.Writes e q () e' q') :
    ∃ l l' : Layout, (d.stage p = e.stage q → l = l') ∧
      ∀ (site site' : Site) (world world' : World) (rounds : Nat) (env env' : Env) (σ σ' : Moment)
        (s : Store),
      let scene := world.scene p.rule rounds
      let scene' := world'.scene q.rule rounds
      site.Sets scene env d d' p p' σ s → site'.Sets scene' env' e e' q q' σ' s →
      let r := (Expr.sep tag item separator ⟨discard, false, empty⟩).meaning scene env l σ.pos s
      let r' := (Expr.sep tag' item separator ⟨discard, true, empty⟩).meaning scene' env' l' σ'.pos s
      site.Follows rounds d.code.size σ r (site.Done d.slots d'.code.size σ.slots) ∧
      site'.Follows rounds e.code.size σ' r' (site'.Done e.slots e'.code.size σ'.slots) ∧
      (σ.pos = σ'.pos → s.Sound → ReadAlike item separator scene env l scene' env' l' →
        ∀ v stop t, r = some (.ok (.success v stop, t)) →
          ∃ id id' values values' stop' t', v = .list id values ∧
            r' = some (.ok (.success (.list id' values') stop', t')) ∧
            Prolonged discard (item.reads scene env (l.part 2)) (separator.reads scene env (l.part 1))
              values stop values' stop') := by
  have realizes := Expr.compiles _ _ _ _ _ w none
  have realizes' := Expr.compiles _ _ _ _ _ w' none
  refine ⟨(Expr.sep tag item separator ⟨discard, false, empty⟩).layout none (d.stage p),
    (Expr.sep tag' item separator ⟨discard, true, empty⟩).layout none (e.stage q), fun same => ?_,
    fun site site' world world' rounds env env' σ σ' s => ?_⟩
  · rw [same, Expr.layout, Expr.layout]
  intro scene scene' sets sets'
  refine ⟨?_, ?_, fun place sound alike v stop t found => ?_⟩
  · exact realizes.performs site scene env sets.code sets.pools sets.fits σ s sets.ready
  · exact realizes'.performs site' scene' env' sets'.code sets'.pools sets'.fits σ' s
      sets'.ready
  · rw [← place]
    exact meaning_sep_prolonged alike (world.call_advances rounds) sound found

/-- The last comma is not given back. -/
theorem Expr.trailer_prolongs_letters :
    ∃ (d' e' : Draft) (p' q' : Pools) (l : Layout),
      (Expr.letters false false).emit.Writes (.begin "start" [] 4) (.initial 4 0) () d' p' ∧
      (Expr.letters false true).emit.Writes (.begin "start" [] 4) (.initial 4 0) () e' q' ∧
      (Expr.letters false false).meaning (.bare ⟨#[97, 44, 97, 44]⟩ 5) [] l 0 ⟨0, fun _ => none⟩ =
        some (.ok (.success (.list 0 [.str "a", .str ",", .str "a"]) 3, ⟨1, fun _ => none⟩)) ∧
      (Expr.letters false true).meaning (.bare ⟨#[97, 44, 97, 44]⟩ 5) [] l 0 ⟨0, fun _ => none⟩ =
        some (.ok (.success (.list 0 [.str "a", .str ",", .str "a", .str ","]) 4,
          ⟨1, fun _ => none⟩)) ∧
      Prolonged false (Expr.letter.reads (.bare ⟨#[97, 44, 97, 44]⟩ 5) [] (l.part 2))
        ((Expr.str ⟨3, .nowhere⟩ [44] ⟨false, false, false⟩).reads
          (.bare ⟨#[97, 44, 97, 44]⟩ 5) [] (l.part 1))
        [.str "a", .str ",", .str "a"] 3 [.str "a", .str ",", .str "a", .str ","] 4 := by
  obtain ⟨d', p', w, plain⟩ := (Expr.letters false false).emits_alone (by decide +kernel)
  obtain ⟨e', q', w', plain'⟩ := (Expr.letters false true).emits_alone (by decide +kernel)
  obtain ⟨l, l', same, prolongs⟩ := Expr.trailer_prolongs w w'
  obtain rfl := same rfl
  have small : (⟨#[97, 44, 97, 44]⟩ : ByteArray).size < 2 ^ 63 := by decide
  have read := Expr.meaning_letters l false
  have longer := Expr.meaning_letters l true
  obtain ⟨id, id', values, values', stop', t', same, found, prolonged⟩ :=
    (prolongs _ _ (.bare ⟨#[97, 44, 97, 44]⟩) (.bare ⟨#[97, 44, 97, 44]⟩) 5 _ _ _ _ _
      (Expr.sets_alone w plain small 5) (Expr.sets_alone w' plain' small 5)).2.2 rfl
      (Store.sound_of_forgetful fun _ => rfl) (.refl _ _ _ _ _) _ _ _ read
  cases same
  cases longer.symm.trans found
  exact ⟨d', e', p', q', l, w, w', read, longer, prolonged⟩

end Packrat
