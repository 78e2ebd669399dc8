import Packrat.Span

/-
**Cursors and readers.**

A reader takes a cursor into the text still to be read and either fails or returns what it read
together with the cursor behind it.  Alternatives are ordered and a failed reader leaves the
cursor where it was.  A numeral that does not fit its type does not stop the reading: the first
one is kept with the cursor, so that a mistake in the form of a text is found before it.

Main definitions:

* `Packrat.Scan.Cursor` — the characters to come, their offset, the first misfit numeral;
* `Packrat.Scan.Reader` — readers, with the ordered choice `<|>`;
* `Packrat.Scan.take`, `Packrat.Scan.literal`, `Packrat.Scan.many`, `Packrat.Scan.sepBy` — basic
  readers;
* `Packrat.Scan.readAll` — a reader applied to a whole text.

Main results:

* `Packrat.Scan.Cursor.advance_zero` — moving by nothing stays in place;
* `Packrat.Scan.literal_append` — a literal reads itself.
-/

set_option autoImplicit false

namespace Packrat.Scan

/-- A numeral whose value does not fit: an integer literal or the bound of a repetition. -/
structure Misfit where
  text : String
  span : Span
  isBound : Bool
deriving DecidableEq, Repr

/-- A place in a text. -/
structure Cursor where
  rest : List Char
  /-- How many bytes precede the rest. -/
  offset : Nat
  /-- The first numeral before the rest that does not fit its type. -/
  misfit? : Option Misfit
deriving DecidableEq, Repr

/-- How many bytes characters take. -/
def byteLength : List Char → Nat
  | [] => 0
  | c :: cs => c.utf8Size + byteLength cs

/-- The cursor after the next `n` characters. -/
def Cursor.advance (c : Cursor) (n : Nat) : Cursor :=
  { c with rest := c.rest.drop n, offset := c.offset + byteLength (c.rest.take n) }

@[simp] theorem Cursor.advance_zero (c : Cursor) : c.advance 0 = c := by
  simp [Cursor.advance, byteLength]

/-- What reads a value at a cursor. -/
abbrev Reader (α : Type) := StateT Cursor Option α

/-- The offset of the cursor. -/
def offset : Reader Nat := do
  let c ← get
  pure c.offset

/-- The next `n` characters. -/
def take (n : Nat) : Reader (List Char) := do
  let c ← get
  set (c.advance n)
  pure (c.rest.take n)

/-- The characters measured by `length`, which counts how many of those to come belong to the
token, if any. -/
def lexeme (length : List Char → Option Nat) : Reader (List Char) := do
  let c ← get
  match length c.rest with
  | some n => take n
  | none => failure

/-- Exactly the given characters. -/
def literal (cs : List Char) : Reader Unit := do
  let c ← get
  if cs.isPrefixOf c.rest then discard (take cs.length) else failure

theorem literal_append (cs rest : List Char) (offset : Nat) (misfit? : Option Misfit) :
    (literal cs).run ⟨cs ++ rest, offset, misfit?⟩ =
      some ((), ⟨rest, offset + byteLength cs, misfit?⟩) := by
  simp [literal, take, Cursor.advance, Functor.discard, map_const]

/-- Succeeds, without reading, where the characters to come satisfy a test. -/
def lookahead (test : List Char → Bool) : Reader Unit := do
  let c ← get
  if test c.rest then pure () else failure

/-- Notes a numeral that does not fit; only the first one is kept. -/
def noteMisfit (misfit : Misfit) : Reader Unit :=
  modify fun c => { c with misfit? := c.misfit?.or (some misfit) }

/-- What a reader reads, or nothing where it fails. -/
def attempt {α : Type} (r : Reader α) : Reader (Option α) := (some <$> r) <|> pure none

/-- As many readings as succeed one after the other. Each takes a character at least, so the
length of the text bounds their number. -/
def manyUpTo {α : Type} (r : Reader α) : Nat → Reader (List α)
  | 0 => pure []
  | fuel + 1 => do
    match ← attempt r with
    | some x => do
      let xs ← manyUpTo r fuel
      pure (x :: xs)
    | none => pure []

/-- As many readings as succeed one after the other. -/
def many {α : Type} (r : Reader α) : Reader (List α) := do
  let c ← get
  manyUpTo r c.rest.length

/-- At least one reading, and as many more as succeed. -/
def atLeastOne {α : Type} (r : Reader α) : Reader (List α) := do
  let x ← r
  let xs ← many r
  pure (x :: xs)

/-- Readings with separators between them, at least one. -/
def sepBy {α β : Type} (r : Reader α) (separator : Reader β) : Reader (List α) := do
  let x ← r
  let xs ← many (separator *> r)
  pure (x :: xs)

/-- Readings with operators between them, at least one, and each operator with what follows. -/
def chain {α β : Type} (r : Reader α) (operator : Reader β) : Reader (α × List (β × α)) := do
  let x ← r
  let xs ← many do
    let op ← operator
    let y ← r
    pure (op, y)
  pure (x, xs)

/-- Readings with separators between them, possibly none, and possibly one more separator after
the last. -/
def listOf {α β : Type} (r : Reader α) (separator : Reader β) : Reader (List α) :=
  (do
    let xs ← sepBy r separator
    let _ ← attempt separator
    pure xs) <|> pure []

/-- What a reader reads from a whole text, and the first numeral that does not fit. -/
def readAll {α : Type} (r : Reader α) (text : String) : Option (α × Option Misfit) :=
  match r.run ⟨text.toList, 0, none⟩ with
  | some (x, c) => if c.rest.isEmpty then some (x, c.misfit?) else none
  | none => none

end Packrat.Scan
