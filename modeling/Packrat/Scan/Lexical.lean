import Packrat.Scan.Cursor
import Packrat.Text.Escape

/-
**Tokens that descriptions and host expressions share.**

Both languages have the same blanks, comments, words, quoted literals and digits.  Every token
reader passes over the blanks behind its token.

Main definitions:

* `Packrat.Scan.blankLength` — how many blanks and comments come first;
* `Packrat.Scan.wordLength` — how many letters, digits and underscores come first;
* `Packrat.Scan.quotedLength` — the length of a quoted literal's body;
* `Packrat.Scan.symbol`, `Packrat.Scan.keyword`, `Packrat.Scan.identifier` — tokens.

Main results:

* `Packrat.Scan.blankLength_le` — blanks are part of the text.
-/

set_option autoImplicit false

namespace Packrat.Scan

/-- The blanks of both languages. -/
def isSpace (c : Char) : Bool := c == ' ' || c == '\t' || c == '\r' || c == '\n'

/-- How many characters of blanks and comments come first; the flag says whether a comment, which
runs to the end of its line, has begun. -/
def blankLength : Bool → List Char → Nat
  | _, [] => 0
  | true, c :: cs => 1 + blankLength (c != '\n') cs
  | false, c :: cs =>
    if isSpace c then 1 + blankLength false cs
    else if c == '#' then 1 + blankLength true cs
    else 0

theorem blankLength_le (inComment : Bool) (cs : List Char) :
    blankLength inComment cs ≤ cs.length := by
  induction cs generalizing inComment with
  | nil => cases inComment <;> simp [blankLength]
  | cons c cs ih =>
    cases inComment with
    | true => simp only [blankLength, List.length_cons]; have := ih (c != '\n'); omega
    | false =>
      simp only [blankLength, List.length_cons]
      split
      · have := ih false; omega
      · split
        · have := ih true; omega
        · omega

/-- Passes over blanks and comments. -/
def blanks : Reader Unit := do
  let c ← get
  discard (take (blankLength false c.rest))

/-- Whether a character may stand in a word. -/
def isWordChar (c : Char) : Bool := c.isAlphanum || c == '_'

/-- How many word characters come first. -/
def wordLength (cs : List Char) : Nat := (cs.takeWhile isWordChar).length

/-- How many digits come first. -/
def digitLength (cs : List Char) : Nat := (cs.takeWhile Char.isDigit).length

/-- The length of the body of a literal, up to the quote that closes it; a backslash takes the
character after it along. -/
def quotedLength (quote : Char) : List Char → Option Nat
  | [] => none
  | '\\' :: _ :: cs => (quotedLength quote cs).map (· + 2)
  | c :: cs =>
    if c == quote then some 0
    else if c == '\\' then none
    else (quotedLength quote cs).map (· + 1)

/-- A token, and the blanks behind it. -/
def token {α : Type} (r : Reader α) : Reader α := do
  let x ← r
  blanks
  pure x

/-- Exactly the given characters, and the blanks behind them. -/
def symbol (text : String) : Reader Unit := token (literal text.toList)

/-- Whether the next word is exactly the given one. -/
def atWord (word : String) (cs : List Char) : Bool := cs.take (wordLength cs) == word.toList

/-- A keyword: the given word and no more word characters. -/
def keyword (word : String) : Reader Unit := token do
  lookahead (atWord word)
  literal word.toList

/-- A word that does not begin with a digit and is not reserved. -/
def bareIdentifier (reserved : List String) : Reader String := do
  let word ← lexeme fun cs =>
    let n := wordLength cs
    match cs.head? with
    | some c =>
      if n == 0 || c.isDigit || reserved.contains (String.ofList (cs.take n)) then none else n
    | none => none
  pure (String.ofList word)

/-- The body of a literal between two quotes, as it is written. -/
def quotedBody (quote : Char) : Reader (List Char) := do
  literal [quote]
  let body ← lexeme (quotedLength quote)
  literal [quote]
  pure body

/-- The text of a literal in quotes of either kind. -/
def bareQuoted : Reader String := do
  let body ← quotedBody '"' <|> quotedBody '\''
  pure (String.ofList (Text.unescape body))

/-- A run of digits. -/
def bareDigits : Reader (List Char) :=
  lexeme fun cs => if digitLength cs == 0 then none else some (digitLength cs)

end Packrat.Scan
