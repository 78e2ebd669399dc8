import Packrat.Decimal.Float
import Packrat.Description.Basic
import Packrat.Failure
import Packrat.Scan.Lexical
import Packrat.Text.Blank
import Packrat.Text.Find

/-
**Reading grammar descriptions.**

Operators bind, from the loosest: `|`, then `|>` and `<|`, then `//` and `/?`, then `<<` and
`>>`, then `where`, then the operators behind a phrase; all of them group to the left.  Blanks
behind the first operand of a chain belong to the chain, whether or not an operator follows;
blanks behind a later one belong to it only where they belong to that operand.  So a phrase
extends over the blanks behind it unless it ends in an operator of every level.

Main definitions:

* `Packrat.readPhrase` — a phrase nested at most so deep;
* `Packrat.readStatement`, `Packrat.Description.read?` — statements and whole descriptions;
* `Packrat.Description.parse` — a description, or why it is refused.
-/

set_option autoImplicit false

namespace Packrat

open Scan

/-- Words that name nothing. -/
def descriptionKeywords : List String := ["class", "ignored", "let", "in", "where"]

/-- A name. -/
def readIdentifier : Reader String := token (bareIdentifier descriptionKeywords)

/-- A name that an opening parenthesis follows at once. -/
def readCallee : Reader String := do
  let name ← bareIdentifier descriptionKeywords
  lookahead fun cs => cs.head? == some '('
  pure name

/-- What a reader reads, with the span it takes. -/
def spanned {α : Type} (r : Reader α) : Reader (Span × α) := do
  let start ← offset
  let x ← r
  let stop ← offset
  pure (⟨start, stop⟩, x)

/-- A first reading with the blanks behind it, and as many more as follow. Blanks between readings
are passed over; those behind the last one are not, unless it is the first. -/
def readChain {α β : Type} (first : Reader α) (next : Reader β) : Reader (α × List β) := do
  let x ← token first
  let xs ← many (blanks *> next)
  pure (x, xs)

/-! ### Literals -/

/-- The letter that makes a literal binary. -/
def readBinaryFlag : Reader Bool := do
  let flag ← attempt (literal ['b'])
  pure flag.isSome

/-- The letter that makes a literal ignore case; it must not begin a word. -/
def readCaseFlag : Reader Bool := do
  let flag ← attempt do
    lookahead (atWord "i")
    literal ['i']
  pure flag.isSome

/-- A text in quotes with its flags. -/
def readTextLiteral : Reader Phrase := do
  let (span, value, ignoreCase, binary) ← spanned do
    let binary ← readBinaryFlag
    let value ← bareQuoted
    let ignoreCase ← readCaseFlag
    pure (value, ignoreCase, binary)
  pure (.str span value ignoreCase binary)

/-- The length of a pattern, up to the slash that closes it; a backslash takes the character after
it along. -/
def patternLength : List Char → Option Nat
  | [] => none
  | '\\' :: _ :: cs => (patternLength cs).map (· + 2)
  | c :: cs =>
    -- A pattern stays on its line, and a backslash must have a partner.
    if c == '/' then some 0
    else if c == '\\' || c == '\n' then none
    else (patternLength cs).map (· + 1)

/-- The length of a pattern that is not empty. -/
def filledPatternLength (cs : List Char) : Option Nat :=
  match patternLength cs with
  | some 0 => none
  | length => length

/-- A pattern with its flags. Slashes in it are written with a backslash. -/
def readPatternLiteral : Reader Phrase := do
  let (span, pattern, ignoreCase, binary) ← spanned do
    let binary ← readBinaryFlag
    literal ['/']
    let body ← lexeme filledPatternLength
    literal ['/']
    let ignoreCase ← readCaseFlag
    pure (Text.replaceAll ['\\', '/'] ['/'] body, ignoreCase, binary)
  pure (.regex span (String.ofList pattern) ignoreCase binary)

/-- The mark around host code. -/
def backtick : Char := '\x60'

/-- Host code between two marks, as it is written. -/
def bareHost : Reader String := do
  literal [backtick]
  let body ← lexeme fun cs => some (cs.takeWhile (· != backtick)).length
  literal [backtick]
  pure (String.ofList body)

/-- A run of digits that must stay below a limit. -/
def bareNumeral (limit : Nat) (isBound : Bool) : Reader Nat := do
  let start ← offset
  let digits ← bareDigits
  let stop ← offset
  let n := Decimal.ofDigits digits
  if n < limit then pure n
  else do
    noteMisfit ⟨String.ofList digits, ⟨start, stop⟩, isBound⟩
    pure 0

/-! ### Phrases -/

/-- Phrases with operators between them, grouped to the left. -/
def foldPhrases (first : Phrase) (rest : List (Phrase.Operator × Phrase)) : Phrase :=
  rest.foldl (fun left next => .binary (left.span.join next.2.span) next.1 left next.2) first

/-- A level of operators over a tighter one. -/
def readLevel (operand : Reader Phrase) (operator : Reader Phrase.Operator) : Reader Phrase := do
  let (first, rest) ← readChain operand do
    let op ← operator
    let right ← operand
    pure (op, right)
  pure (foldPhrases first rest)

/-- A bound of a repetition. -/
def readBound : Reader Phrase.Bound := token do
  (do
    let n ← bareNumeral 0x10000000000000000 true
    pure (.int n)) <|> (do
    let source ← bareHost
    pure (.host source))

/-- The bounds of a repetition. A single bound is both the least and the most. -/
def bareRepetition : Reader Phrase.Suffix := do
  symbol "\x7b"
  let least ← attempt readBound
  let comma ← attempt (symbol ",")
  let most ← match comma with
    | some _ => attempt readBound
    | none => pure least
  literal ['\x7d']
  pure (.repeated least most)

/-- An operator behind a phrase. -/
def readSuffix : Reader (Span × Phrase.Suffix) := spanned <|
  (literal ['?'] *> pure .opt) <|> (literal ['*'] *> pure .many)
    <|> (literal ['+'] *> pure .some) <|> bareRepetition

/-- An argument of a call. -/
def readArgument (phrase : Reader Phrase) : Reader (Option String × Phrase) :=
  (do
    let name ← readIdentifier
    symbol "="
    let value ← token phrase
    pure (some name, value)) <|> (do
    let value ← token phrase
    pure (none, value))

/-- A binding of a name inside a phrase. -/
def readBinding (phrase : Reader Phrase) : Reader Phrase := do
  let (span, name, value, body) ← spanned do
    keyword "let"
    let name ← readIdentifier
    symbol "="
    let value ← token phrase
    keyword "in"
    let body ← phrase
    pure (name, value, body)
  pure (.bound span name value body)

/-- A call of a rule or of a builtin form. -/
def readCall (phrase : Reader Phrase) : Reader Phrase := do
  let (span, callee, args) ← spanned do
    let callee ← readCallee
    symbol "("
    let args ← listOf (readArgument phrase) (symbol ",")
    literal [')']
    pure (callee, args)
  pure (.call span callee args)

/-- Phrases in brackets. -/
def readSequence (phrase : Reader Phrase) : Reader Phrase := do
  let (span, items) ← spanned do
    symbol "["
    let items ← listOf (token phrase) (symbol ",")
    literal [']']
    pure items
  pure (.sequence span items)

/-- A phrase in parentheses, which leave no trace. -/
def readGroup (phrase : Reader Phrase) : Reader Phrase := do
  symbol "("
  let inner ← token phrase
  literal [')']
  pure inner

/-- A phrase without operators. -/
def readPrimary (phrase : Reader Phrase) : Reader Phrase :=
  readBinding phrase <|> readCall phrase <|> readSequence phrase <|> readGroup phrase
    <|> readTextLiteral <|> readPatternLiteral
    <|> (do
      let (span, source) ← spanned bareHost
      pure (.host span source))
    <|> (do
      let (span, n) ← spanned (bareNumeral 0x8000000000000000 false)
      pure (.int span n))
    <|> (do
      let (span, name) ← spanned (bareIdentifier descriptionKeywords)
      pure (.ref span name))

/-- A phrase with the operators behind it. -/
def readSuffixed (phrase : Reader Phrase) : Reader Phrase := do
  let (first, suffixes) ← readChain (readPrimary phrase) readSuffix
  pure (suffixes.foldl (fun inner next => .suffixed (inner.span.join next.1) inner next.2) first)

/-- The operators between phrases, from the tightest. -/
def readOperators (phrase : Reader Phrase) : Reader Phrase :=
  let filtered := readLevel (readSuffixed phrase) (keyword "where" *> pure .satisfying)
  let kept := readLevel filtered
    ((symbol "<<" *> pure .keepLeft) <|> (symbol ">>" *> pure .keepRight))
  let separated := readLevel kept
    ((symbol "//" *> pure .sep) <|> (symbol "/?" *> pure .sepTrailer))
  let applied := readLevel separated
    ((symbol "|>" *> pure .applyRight) <|> (symbol "<|" *> pure .applyLeft))
  -- A bar that begins the other operator is no choice.
  readLevel applied
    ((lookahead fun cs => !(['|', '>'].isPrefixOf cs)) *> symbol "|" *> pure .choice)

/-- A phrase nested at most so deep. -/
def readPhrase : Nat → Reader Phrase
  | 0 => failure
  | depth + 1 => readOperators (readPhrase depth)

/-- A phrase. Nested phrases are shorter, so the length of the text bounds their depth. -/
def readWholePhrase : Reader Phrase := do
  let c ← get
  readPhrase (c.rest.length + 1)

/-! ### Statements -/

/-- Parameters in parentheses. -/
def readParams : Reader (List String) := do
  symbol "("
  let params ← listOf readIdentifier (symbol ",")
  symbol ")"
  pure params

/-- The word that marks a rule or class as ignored. -/
def readIgnored : Reader Bool := do
  let flag ← attempt (keyword "ignored")
  pure flag.isSome

/-- The name of a rule with its parameters, if it has any. -/
def readRuleHead : Reader (String × Option (List String)) :=
  (do
    let name ← readCallee
    let params ← readParams
    pure (name, some params)) <|> (do
    let name ← readIdentifier
    pure (name, none))

/-- The definition of a rule. -/
def readRule : Reader Statement := do
  let (span, ignored, (name, params), body) ← spanned do
    let ignored ← readIgnored
    let head ← readRuleHead
    symbol "="
    let body ← readWholePhrase
    pure (ignored, head, body)
  pure (.rule ⟨name, params, body, ignored, span⟩)

/-- A field of a class. -/
def readField : Reader FieldStatement := do
  let (span, name, phrase) ← spanned do
    let name ← readIdentifier
    symbol ":"
    let phrase ← readWholePhrase
    pure (name, phrase)
  pure ⟨name, phrase, span⟩

/-- The definition of a class. -/
def readClass : Reader Statement := do
  let (span, ignored, name, params, fields) ← spanned do
    let ignored ← readIgnored
    keyword "class"
    let name ← readIdentifier
    let params ← attempt readParams
    symbol "\x7b"
    let fields ← many (token readField)
    literal ['\x7d']
    pure (ignored, name, params, fields)
  pure (.cls ⟨name, params, fields, ignored, span⟩)

/-- The mark around a host section. -/
def fence : List Char := List.replicate 3 backtick

/-- How many characters precede the next fence; all of them if there is none. -/
def fenceDistance : List Char → Nat
  | [] => 0
  | c :: cs => if fence.isPrefixOf (c :: cs) then 0 else 1 + fenceDistance cs

/-- A host section. -/
def readHostSection : Reader Statement := do
  let (span, body) ← spanned do
    literal fence
    let body ← lexeme fun cs => some (fenceDistance cs)
    literal fence
    pure body
  pure (.hostSection (String.ofList body) span)

/-- A statement. -/
def readStatement : Reader Statement := readHostSection <|> readClass <|> readRule

namespace Description

/-- The description that a whole text stands for, and the first numeral that does not fit. -/
def read? (text : String) : Option (Description × Option Misfit) :=
  readAll (blanks *> ((do
    let statements ← atLeastOne (token readStatement)
    pure (.statements statements)) <|> (do
    let body ← token readWholePhrase
    pure (.phrase body)))) text

/-- The refusal of a numeral that does not fit. -/
def misfitError (misfit : Misfit) : Failure :=
  .grammar (if misfit.isBound then .boundRange misfit.text else .integerRange misfit.text)
    misfit.span

/-- The description that a text stands for. The form of the whole text is checked before the
range of its numerals. -/
def parse (text : String) : Except Failure Description :=
  if (Text.trim text).isEmpty then .error (.grammar .emptyDescription (some ⟨0, text.utf8ByteSize⟩))
  else
    match read? text with
    | some (description, none) => .ok description
    | some (_, some misfit) => .error (misfitError misfit)
    | none => .error (.grammar .description (some ⟨0, text.utf8ByteSize⟩))

end Description

end Packrat
