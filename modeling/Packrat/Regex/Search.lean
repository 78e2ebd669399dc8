import Packrat.Regex.Program
import Packrat.Text.Utf8
import Std.Data.HashSet

/-
**Matching.**

The automaton of a pattern is run at one place of the input: the states to visit are kept on a
stack with the preferred one on top, and no state is visited twice at the same place.  The first
acceptance is the match, so every fork takes its preferred way as far as that leads to a match.

Main definitions:

* `Packrat.Regex.Look.holds` — whether a place satisfies a condition;
* `Packrat.Regex.advance` — the places to visit after one;
* `Packrat.Regex.Automaton.matchEnd?` — where the match that begins at a place ends.

Main results:

* `Packrat.Regex.Automaton.le_of_matchEnd?`, `Packrat.Regex.Automaton.matchEnd?_le_size` — a match
  ends behind its beginning, inside of the input.
-/

set_option autoImplicit false

namespace Packrat.Regex

/-- Whether the byte at an offset is the given one. -/
def byteIs (bytes : ByteArray) (offset : Nat) (b : UInt8) : Bool := bytes[offset]? == some b

/-- Whether the byte before an offset is the given one. -/
def byteBeforeIs (bytes : ByteArray) (offset : Nat) (b : UInt8) : Bool :=
  offset != 0 && byteIs bytes (offset - 1) b

/-- The character before an offset, or the byte where words are those of ASCII. -/
def codeBefore? (bytes : ByteArray) (unicode : Bool) (offset : Nat) : Option Nat :=
  if unicode then Text.Utf8.charBefore? bytes offset
  else if offset == 0 then none
  else bytes[offset - 1]?.map UInt8.toNat

/-- The character at an offset, or the byte where words are those of ASCII. -/
def codeAt? (bytes : ByteArray) (unicode : Bool) (offset : Nat) : Option Nat :=
  if unicode then (Text.Utf8.charAt? bytes offset).map (·.1) else bytes[offset]?.map UInt8.toNat

/-- Whether a code is that of a word character. -/
def isWord (unicode : Bool) (code : Nat) : Bool :=
  if unicode then isWordCode code else code < 128 && isWordCode code

/-- Whether a place lies to words as described. Some descriptions only fit where the bytes on the
sides they look at are well formed. -/
def WordPlace.holds (bytes : ByteArray) (unicode : Bool) (offset : Nat) (place : WordPlace) :
    Bool :=
  let codeBefore? := codeBefore? bytes unicode offset
  let codeAt? := codeAt? bytes unicode offset
  let before := codeBefore?.any (isWord unicode)
  let behind := codeAt?.any (isWord unicode)
  let soundBefore := offset == 0 || codeBefore?.isSome
  let soundBehind := offset == bytes.size || codeAt?.isSome
  match place with
  | .edge => before != behind
  | .notEdge => soundBefore && soundBehind && before == behind
  | .start => !before && behind
  | .stop => before && !behind
  | .startHalf => soundBefore && !before
  | .stopHalf => soundBehind && !behind

/-- Whether a place satisfies a condition. -/
def Look.holds (bytes : ByteArray) (offset : Nat) : Look → Bool
  | .start => offset == 0
  | .stop => offset == bytes.size
  | .lineStart false => offset == 0 || byteBeforeIs bytes offset 10
  | .lineStop false => offset == bytes.size || byteIs bytes offset 10
  | .lineStart true =>
    offset == 0 || byteBeforeIs bytes offset 10
      || (byteBeforeIs bytes offset 13 && !byteIs bytes offset 10)
  | .lineStop true =>
    offset == bytes.size || byteIs bytes offset 13
      || (byteIs bytes offset 10 && !byteBeforeIs bytes offset 13)
  | .word place unicode => place.holds bytes unicode offset

/-- A place of a run: a state of the automaton, and an offset of the input. -/
abbrev Place := Nat × Nat

/-- The places to visit after a place, the preferred one first. -/
def advance (bytes : ByteArray) (offset : Nat) : State → List Place
  | .byte set after =>
    if h : offset < bytes.size then
      if set.contains bytes[offset].toNat then [(after, offset + 1)] else []
    else []
  | .char set after =>
    match Text.Utf8.charAt? bytes offset with
    | some (code, stop) => if set.contains code then [(after, stop)] else []
    | none => []
  | .look l after => if l.holds bytes offset then [(after, offset)] else []
  | .fork first second => [(first, offset), (second, offset)]
  | .accept => []

/-- The offset at which a run accepts first, if any; `todo` are the places to visit. -/
def search (states : Array State) (bytes : ByteArray) :
    Nat → Std.HashSet Nat → List Place → Option Nat
  | 0, _, _ => none
  | _ + 1, _, [] => none
  | fuel + 1, seen, (state, offset) :: todo =>
    let key := offset * states.size + state
    -- A place that was visited has failed already, or is still preferred to this one.
    if seen.contains key then search states bytes fuel seen todo
    else
      match states[state]? with
      | some .accept => some offset
      | some s => search states bytes fuel (seen.insert key) (advance bytes offset s ++ todo)
      | none => search states bytes fuel (seen.insert key) todo

/-- How many places a run may visit: each state at each offset adds at most two to those to
visit. -/
def searchFuel (states : Array State) (bytes : ByteArray) (start : Nat) : Nat :=
  2 * states.size * (bytes.size + 1 - start) + 2

/-- Where the match that begins at an offset ends. A pattern that may read nothing does not match
up to the inside of a character. -/
def Automaton.matchEnd? (a : Automaton) (bytes : ByteArray) (start : Nat) : Option Nat :=
  match search a.states bytes (searchFuel a.states bytes start) ∅ [(a.start, start)] with
  | some stop => if a.nullable && !Text.Utf8.isBoundary bytes stop then none else some stop
  | none => none

theorem advance_bounds {bytes : ByteArray} {offset : Nat} {s : State} {p : Place}
    (h : p ∈ advance bytes offset s) (inside : offset ≤ bytes.size) :
    offset ≤ p.2 ∧ p.2 ≤ bytes.size := by
  cases s with
  | byte set after =>
    simp only [advance] at h
    split at h
    · split at h
      · simp only [List.mem_singleton] at h; subst h; simp; omega
      · simp at h
    · simp at h
  | char set after =>
    simp only [advance] at h
    split at h
    · next code stop hc =>
      have := Text.Utf8.charAt?_bounds hc
      split at h
      · simp only [List.mem_singleton] at h; subst h; simp; omega
      · simp at h
    · simp at h
  | look l after =>
    simp only [advance] at h
    split at h
    · simp only [List.mem_singleton] at h; subst h; simp; omega
    · simp at h
  | fork first second =>
    simp only [advance, List.mem_cons, List.not_mem_nil, or_false] at h
    rcases h with h | h <;> subst h <;> simp <;> omega
  | accept => simp [advance] at h

theorem search_bounds {states : Array State} {bytes : ByteArray} {fuel start stop : Nat}
    {seen : Std.HashSet Nat} {todo : List Place}
    (h : search states bytes fuel seen todo = some stop)
    (inside : ∀ p ∈ todo, start ≤ p.2 ∧ p.2 ≤ bytes.size) : start ≤ stop ∧ stop ≤ bytes.size := by
  induction fuel generalizing seen todo with
  | zero => simp [search] at h
  | succ fuel ih =>
    cases todo with
    | nil => simp [search] at h
    | cons p todo =>
      obtain ⟨state, offset⟩ := p
      have here := inside (state, offset) (by simp)
      have rest : ∀ p ∈ todo, start ≤ p.2 ∧ p.2 ≤ bytes.size :=
        fun p hp => inside p (by simp [hp])
      simp only [search] at h
      split at h
      · exact ih h rest
      · split at h
        · simp only [Option.some.injEq] at h; subst h; exact here
        · refine ih h fun p hp => ?_
          rcases List.mem_append.1 hp with hp | hp
          · have := advance_bounds hp here.2
            exact ⟨by omega, this.2⟩
          · exact rest p hp
        · exact ih h rest

/-- A match that begins inside of the input ends there. -/
theorem Automaton.matchEnd?_le_size {a : Automaton} {bytes : ByteArray} {start stop : Nat}
    (h : a.matchEnd? bytes start = some stop) (inside : start ≤ bytes.size) :
    stop ≤ bytes.size := by
  simp only [matchEnd?] at h
  split at h
  · next found hs =>
    split at h
    · simp at h
    · simp only [Option.some.injEq] at h
      subst h
      have begins : ∀ p ∈ [(a.start, start)], start ≤ p.2 ∧ p.2 ≤ bytes.size := by simpa using inside
      exact (search_bounds hs begins).2
  · simp at h

theorem le_of_mem_advance {bytes : ByteArray} {offset : Nat} {s : State} {p : Place}
    (h : p ∈ advance bytes offset s) : offset ≤ p.2 := by
  by_cases inside : offset ≤ bytes.size
  · exact (advance_bounds h inside).1
  · -- Behind the input only conditions and forks lead on, and these read nothing.
    cases s with
    | byte set after => simp [advance, show ¬offset < bytes.size by omega] at h
    | char set after =>
      simp only [advance] at h
      split at h
      · next code stop hc =>
        have := Text.Utf8.charAt?_bounds hc
        omega
      · simp at h
    | look l after =>
      simp only [advance] at h
      split at h
      · simp only [List.mem_singleton] at h; subst h; exact Nat.le_refl _
      · simp at h
    | fork first second =>
      simp only [advance, List.mem_cons, List.not_mem_nil, or_false] at h
      rcases h with h | h <;> subst h <;> exact Nat.le_refl _
    | accept => simp [advance] at h

theorem search_le {states : Array State} {bytes : ByteArray} {fuel start stop : Nat}
    {seen : Std.HashSet Nat} {todo : List Place}
    (h : search states bytes fuel seen todo = some stop) (behind : ∀ p ∈ todo, start ≤ p.2) :
    start ≤ stop := by
  induction fuel generalizing seen todo with
  | zero => simp [search] at h
  | succ fuel ih =>
    cases todo with
    | nil => simp [search] at h
    | cons p todo =>
      obtain ⟨state, offset⟩ := p
      have here : start ≤ offset := behind (state, offset) (by simp)
      have rest : ∀ p ∈ todo, start ≤ p.2 := fun p hp => behind p (by simp [hp])
      simp only [search] at h
      split at h
      · exact ih h rest
      · split at h
        · simp only [Option.some.injEq] at h; subst h; exact here
        · refine ih h fun p hp => ?_
          rcases List.mem_append.1 hp with hp | hp
          · exact Nat.le_trans here (le_of_mem_advance hp)
          · exact rest p hp
        · exact ih h rest

/-- A match does not end before its beginning, wherever that is. -/
theorem Automaton.le_of_matchEnd? {a : Automaton} {bytes : ByteArray} {start stop : Nat}
    (h : a.matchEnd? bytes start = some stop) : start ≤ stop := by
  simp only [matchEnd?] at h
  split at h
  · next found hs =>
    split at h
    · simp at h
    · simp only [Option.some.injEq] at h
      subst h
      exact search_le hs (by simp)
  · simp at h

/-- The engine that runs automata. It knows no classes by their properties in Unicode, such as
letters of one script, and refuses patterns with one. -/
instance : Engine where
  compile text ignoreCase binary := do
    let a ← Automaton.ofText text ignoreCase binary
    pure ⟨a.matchEnd?, Automaton.le_of_matchEnd?, Automaton.matchEnd?_le_size⟩

end Packrat.Regex
