import Packrat.Regex.Pattern
import Packrat.Text.Escape

/-
**Reading patterns.**

Patterns are read together with their switches, which hold from where they stand to the end of
their group.  What a pattern may not hold (assertions with a body, back references, classes that
do not exist) makes the whole of it unreadable.

Main definitions:

* `Packrat.Regex.Switches`, `Packrat.Regex.PatternReader` — the switches, and what reads parts of
  a pattern under them;
* `Packrat.Regex.readEscape`, `Packrat.Regex.readBracket`, `Packrat.Regex.readCount` — the parts;
* `Packrat.Regex.Pattern.parse?` — the pattern of a text.
-/

set_option autoImplicit false

namespace Packrat.Regex

/-- What letters in a group may switch. -/
structure Switches where
  ignoreCase : Bool
  multiLine : Bool
  dotAll : Bool
  swapGreed : Bool
  unicode : Bool
  crlf : Bool
  /-- Blanks and comments are passed over. -/
  verbose : Bool
deriving DecidableEq, Repr

/-- Where a reader of patterns stands. -/
structure PatternState where
  rest : List Char
  switches : Switches
  /-- The names of the groups so far. -/
  names : List String
  /-- Whether only whole characters may be matched. -/
  wholeChars : Bool

/-- What reads a part of a pattern. -/
abbrev PatternReader := StateT PatternState Option

/-! ### Characters -/

/-- What follows blanks and comments; the flag says whether a comment has begun. -/
def dropBlanks : Bool → List Char → List Char
  | _, [] => []
  | true, c :: cs => dropBlanks (c != '\n') cs
  | false, c :: cs =>
    if Text.isBlank c then dropBlanks false cs
    else if c == '#' then dropBlanks true cs
    else c :: cs

/-- The characters to come. -/
def upcoming : PatternReader (List Char) := do
  let s ← get
  pure s.rest

/-- Goes on at the given characters. -/
def continueAt (rest : List Char) : PatternReader Unit := modify fun s => { s with rest }

/-- Passes over blanks and comments, where that is switched on. -/
def passBlanks : PatternReader Unit := do
  let s ← get
  if s.switches.verbose then continueAt (dropBlanks false s.rest) else pure ()

/-- The next character. -/
def next : PatternReader Char := do
  match ← upcoming with
  | [] => failure
  | c :: cs => do
    continueAt cs
    pure c

/-- Whether the next characters are the given ones, which are then passed over. -/
def eat (cs : List Char) : PatternReader Bool := do
  let rest ← upcoming
  if cs.isPrefixOf rest then do
    continueAt (rest.drop cs.length)
    pure true
  else pure false

/-! ### Escapes -/

/-- What an escape stands for. -/
inductive Primitive where
  /-- A character, or a byte if it was written by two hexadecimal digits. -/
  | char (c : Char) (isByte : Bool)
  | perl (k : Perl) (negated : Bool)
  | look (l : Look)

/-- The given number of hexadecimal digits. -/
def readHexDigits : Nat → Nat → PatternReader Nat
  | 0, n => pure n
  | count + 1, n => do
    let c ← next
    passBlanks
    match Text.digitValue? c with
    | some d => if d < 16 then readHexDigits count (n * 16 + d) else failure
    | none => failure

/-- The digits up to a closing brace. -/
def bracedDigits : List Char → Option (List Char × List Char)
  | [] => none
  | '\x7d' :: cs => some ([], cs)
  | c :: cs => (bracedDigits cs).map fun (ds, rest) => (c :: ds, rest)

/-- The code in an escape with hexadecimal digits: a fixed number of them, or any in braces. -/
def readHex (count : Nat) : PatternReader Nat := do
  passBlanks
  if ← eat ['\x7b'] then
    match bracedDigits (← upcoming) with
    | some (digits, rest) => do
      let verbose := (← get).switches.verbose
      continueAt rest
      passBlanks
      match Text.readDigits? 16 (if verbose then dropBlanksWithin digits else digits) with
      | some n => pure n
      | none => failure
    | none => failure
  else readHexDigits count 0
where
  dropBlanksWithin (cs : List Char) : List Char := cs.filter fun c => !Text.isBlank c

/-- The character with a hexadecimal code. -/
def readHexChar (count : Nat) (mayBeByte : Bool) : PatternReader Primitive := do
  let isByte := mayBeByte && (← upcoming).head? != some '\x7b'
  let n ← readHex count
  match Text.scalar? n with
  | some c => pure (.char c isByte)
  | none => failure

/-- Whether a backslash may stand before a character that needs none. -/
def isEscapable (c : Char) : Bool := c.toNat < 128 && !c.isAlphanum && c != '<' && c != '>'

/-- A place at words, by the classes in force. -/
def wordLook (place : WordPlace) : PatternReader Primitive := do
  let s ← get
  pure (.look (.word place s.switches.unicode))

/-- The place at words with a name in braces. -/
def wordPlace? : String → Option WordPlace
  | "start" => some .start
  | "end" => some .stop
  | "start-half" => some .startHalf
  | "end-half" => some .stopHalf
  | _ => none

/-- Whether a character may stand in the name of a place at words. -/
def isPlaceChar (c : Char) : Bool := c.isAlpha || c == '-'

/-- What follows the escape for the edge of a word: nothing, or the name of a place in braces. -/
def readWordPlace : PatternReader WordPlace := do
  match ← upcoming with
  | '\x7b' :: cs => do
    let s ← get
    let strip (cs : List Char) := if s.switches.verbose then dropBlanks false cs else cs
    match strip cs with
    | [] => failure
    | inner@(c :: _) =>
      if isPlaceChar c then
        match bracedDigits inner, wordPlace? (placeName s.switches.verbose inner) with
        | some (_, rest), some place => do
          continueAt rest
          pure place
        | _, _ => failure
      else pure .edge
  | _ => pure .edge
where
  placeName (verbose : Bool) (cs : List Char) : String :=
    let written := cs.takeWhile (· != '\x7d')
    String.ofList (if verbose then written.filter fun c => !Text.isBlank c else written)

/-- What follows a backslash. -/
def readEscape : PatternReader Primitive := do
  let c ← next
  match c with
  | 'x' => readHexChar 2 true
  | 'u' => readHexChar 4 false
  | 'U' => readHexChar 8 false
  | 'd' => pure (.perl .digit false)
  | 'D' => pure (.perl .digit true)
  | 's' => pure (.perl .blank false)
  | 'S' => pure (.perl .blank true)
  | 'w' => pure (.perl .word false)
  | 'W' => pure (.perl .word true)
  | 'a' => pure (.char '\x07' false)
  | 'f' => pure (.char '\x0c' false)
  | 't' => pure (.char '\t' false)
  | 'n' => pure (.char '\n' false)
  | 'r' => pure (.char '\r' false)
  | 'v' => pure (.char '\x0b' false)
  | 'A' => pure (.look .start)
  | 'z' => pure (.look .stop)
  | 'b' => do
    let place ← readWordPlace
    wordLook place
  | 'B' => wordLook .notEdge
  | '<' => wordLook .start
  | '>' => wordLook .stop
  | c => if isEscapable c then pure (.char c false) else failure

/-! ### Sets -/

/-- A set as the switches have it: codes that differ in case are added, and then the complement is
taken. Bytes beyond ASCII are refused where only whole characters may be matched. -/
def settle (negated : Bool) (set : CharSet) : PatternReader CharSet := do
  let s ← get
  let set := if s.switches.ignoreCase then .folded s.switches.unicode set else set
  let set := if negated then .complement set else set
  if s.wholeChars && !s.switches.unicode && !set.isAscii then failure else pure set

/-- A class with a letter of its own. Case does not matter to it. -/
def perlSet (k : Perl) (negated : Bool) : PatternReader CharSet := do
  let s ← get
  let set := k.set s.switches.unicode
  let set := if negated then .complement set else set
  if s.wholeChars && !s.switches.unicode && !set.isAscii then failure else pure set

/-- The code of a character in a set: a code point, or a byte. -/
def setCode (c : Char) (isByte : Bool) : PatternReader Nat := do
  let s ← get
  let n := c.toNat
  if s.switches.unicode || n < 128 || (isByte && !s.wholeChars) then pure n else failure

/-- An item of a set. -/
def readSetItem : PatternReader Primitive := do
  let c ← next
  if c == '\\' then readEscape else pure (.char c false)

/-- The set of a single item. -/
def itemSet : Primitive → PatternReader CharSet
  | .char c isByte => do
    let n ← setCode c isByte
    pure (.single n)
  | .perl k negated => perlSet k negated
  | .look _ => failure

/-- The set between two items, in order. -/
def rangeSet : Primitive → Primitive → PatternReader CharSet
  | .char a aIsByte, .char b bIsByte => do
    if a.toNat ≤ b.toNat then do
      let m ← setCode a aIsByte
      let n ← setCode b bIsByte
      pure (.ranges [(m, n)])
    else failure
  | _, _ => failure

/-- An item of a set, or a range between two. -/
def readRange : PatternReader CharSet := do
  let first ← readSetItem
  passBlanks
  match ← upcoming with
  | '-' :: cs => do
    let s ← get
    let behind := if s.switches.verbose then dropBlanks false cs else cs
    if behind.head? == some ']' || behind.head? == some '-' then itemSet first
    else do
      continueAt behind
      let second ← readSetItem
      rangeSet first second
  | _ => itemSet first

/-- A class named between colons, and what follows it. -/
def posixClass? (cs : List Char) : Option (Bool × List (Nat × Nat) × List Char) :=
  match cs with
  | '[' :: ':' :: cs =>
    let (negated, cs) := match cs with
      | '^' :: cs => (true, cs)
      | cs => (false, cs)
    let name := cs.takeWhile (· != ':')
    match cs.drop name.length, posixRanges? (String.ofList name) with
    | ':' :: ']' :: rest, some ranges => some (negated, ranges, rest)
    | _, _ => none
  | _ => none

/-- An operation between sets. -/
inductive SetOp where
  | inter
  | diff
  | symmDiff

/-- The operation at the beginning of the given characters. -/
def setOp? : List Char → Option SetOp
  | '&' :: '&' :: _ => some .inter
  | '-' :: '-' :: _ => some .diff
  | '~' :: '~' :: _ => some .symmDiff
  | _ => none

/-- The result of an operation. -/
def SetOp.apply : SetOp → CharSet → CharSet → CharSet
  | .inter, a, b => .inter a b
  | .diff, a, b => .diff a b
  | .symmDiff, a, b => .symmDiff a b

/-- A set together with the operation that waits for it. -/
def combine (pending : Option (CharSet × SetOp)) (set : CharSet) : PatternReader CharSet := do
  match pending with
  | none => pure set
  | some (lhs, op) => do
    let s ← get
    let fold (a : CharSet) : CharSet :=
      if s.switches.ignoreCase then .folded s.switches.unicode a else a
    pure (op.apply (fold lhs) (fold set))

/-- The hyphens that come first in a set. -/
def readHyphens : Nat → PatternReader Bool
  | 0 => pure false
  | fuel + 1 => do
    if ← eat ['-'] then do
      passBlanks
      let _ ← readHyphens fuel
      pure true
    else pure false

/-- What stands at the beginning of a set for itself: hyphens, or else a closing bracket. -/
def readSetStart : PatternReader CharSet := do
  let rest ← upcoming
  if ← readHyphens rest.length then pure (.single '-'.toNat)
  else if ← eat [']'] then do
    passBlanks
    pure (.single ']'.toNat)
  else pure .empty

mutual

/-- A set, behind its opening bracket. -/
def readBracket : Nat → PatternReader CharSet
  | 0 => failure
  | fuel + 1 => do
    passBlanks
    let negated ← eat ['^']
    passBlanks
    let start ← readSetStart
    let set ← readSetItems fuel none start
    settle negated set

/-- The rest of a set; `set` holds the items since the operation that is pending. -/
def readSetItems : Nat → Option (CharSet × SetOp) → CharSet → PatternReader CharSet
  | 0, _, _ => failure
  | fuel + 1, pending, set => do
    passBlanks
    let rest ← upcoming
    match posixClass? rest with
    | some (negated, ranges, rest) => do
      continueAt rest
      let item ← settle negated (.ranges ranges)
      readSetItems fuel pending (.union set item)
    | none =>
    match setOp? rest with
    | some op => do
      continueAt (rest.drop 2)
      let lhs ← combine pending set
      readSetItems fuel (some (lhs, op)) .empty
    | none =>
    if ← eat [']'] then combine pending set
    else if ← eat ['['] then do
      let item ← readBracket fuel
      readSetItems fuel pending (.union set item)
    else do
      let item ← readRange
      readSetItems fuel pending (.union set item)

end

/-! ### Repetitions -/

/-- The greatest bound of a repetition. -/
def maxCount : Nat := 4294967295

/-- A bound, with blanks around it. -/
def readCount : PatternReader Nat := do
  let cs := (← upcoming).dropWhile Text.isBlank
  let digits := cs.takeWhile Char.isDigit
  continueAt ((cs.drop digits.length).dropWhile Text.isBlank)
  match Text.readDigits? 10 digits with
  | some n => if n ≤ maxCount then pure n else failure
  | none => failure

/-- The bounds of a repetition, behind its opening brace. -/
def readCounts : PatternReader (Nat × Option Nat) := do
  passBlanks
  let least ← readCount
  if ← eat [','] then do
    passBlanks
    if ← eat ['\x7d'] then pure (least, none)
    else do
      let most ← readCount
      if (← eat ['\x7d']) && least ≤ most then pure (least, some most) else failure
  else if ← eat ['\x7d'] then pure (least, some least)
  else failure

/-- Whether a repetition is greedy: a question mark behind it turns what the switches say. -/
def readGreed : PatternReader Bool := do
  let lazy ← eat ['?']
  let s ← get
  pure (lazy == s.switches.swapGreed)

/-- A pattern with all repetitions behind it. -/
def readRepetitions : Nat → Pattern → PatternReader Pattern
  | 0, _ => failure
  | fuel + 1, p => do
    passBlanks
    match (← upcoming).head? with
    | some '*' => do
      let _ ← next
      let greedy ← readGreed
      readRepetitions fuel (.rep p 0 none greedy)
    | some '+' => do
      let _ ← next
      let greedy ← readGreed
      readRepetitions fuel (.rep p 1 none greedy)
    | some '?' => do
      let _ ← next
      let greedy ← readGreed
      readRepetitions fuel (.rep p 0 (some 1) greedy)
    | some '\x7b' => do
      let _ ← next
      let (least, most?) ← readCounts
      passBlanks
      let greedy ← readGreed
      readRepetitions fuel (.rep p least most? greedy)
    | _ => pure p

/-! ### Groups -/

/-- The switches with one of them changed. -/
def Switches.change? (s : Switches) (letter : Char) (on : Bool) : Option Switches :=
  match letter with
  | 'i' => some { s with ignoreCase := on }
  | 'm' => some { s with multiLine := on }
  | 's' => some { s with dotAll := on }
  | 'U' => some { s with swapGreed := on }
  | 'u' => some { s with unicode := on }
  | 'R' => some { s with crlf := on }
  | 'x' => some { s with verbose := on }
  | _ => none

/-- The switches that letters leave, the character that ends the letters, and what follows it.
`seen` holds the letters so far, last first; none may be repeated, nor may the hyphen that
negates the letters behind it, and it may not come last. -/
def parseSwitches (s : Switches) (seen : List Char) :
    List Char → Option (Switches × Char × List Char)
  | [] => none
  | c :: cs =>
    if c == ':' || c == ')' then
      if seen.head? == some '-' then none else some (s, c, cs)
    else if seen.contains c then none
    else if c == '-' then parseSwitches s (c :: seen) cs
    else
      match s.change? c !(seen.contains '-') with
      | some s => parseSwitches s (c :: seen) cs
      | none => none

/-- Whether a character may stand in the name of a group. -/
def isNameChar (isFirst : Bool) (c : Char) : Bool :=
  if isFirst then c == '_' || (isWordCode c.toNat && !Text.inRanges Text.digitRanges c.toNat)
  else isWordCode c.toNat || c == '.' || c == '[' || c == ']'

/-- The name of a group, up to the bracket that closes it. No name may be given twice. -/
def readGroupName : PatternReader Unit := do
  let cs ← upcoming
  let name := cs.takeWhile (· != '>')
  let s ← get
  let named := String.ofList name
  match name, cs.drop name.length with
  | c :: more, _ :: rest =>
    if isNameChar true c && more.all (isNameChar false) && !s.names.contains named then
      set { s with rest, names := named :: s.names }
    else failure
  | _, _ => failure

/-- What a dot stands for. -/
def dotSet (s : Switches) : CharSet :=
  if s.dotAll then .complement .empty
  else if s.crlf then .complement (.ranges [(10, 10), (13, 13)])
  else .complement (.single 10)

/-- The place that begins a line, or the whole. -/
def startLook (s : Switches) : Look := if s.multiLine then .lineStart s.crlf else .start

/-- The place that ends a line, or the whole. -/
def stopLook (s : Switches) : Look := if s.multiLine then .lineStop s.crlf else .stop

/-- A set as a pattern, of characters or of bytes. -/
def setPattern (set : CharSet) : PatternReader Pattern := do
  let s ← get
  pure (if s.switches.unicode then .char set else .byte set)

/-- The pattern of an item outside of sets. -/
def itemPattern : Primitive → PatternReader Pattern
  | .char c isByte => do
    let s ← get
    if isByte && !s.switches.unicode && 128 ≤ c.toNat then
      if s.wholeChars then failure else pure (.byte (.single c.toNat))
    else if s.switches.ignoreCase then
      pure (.char (.folded s.switches.unicode (.single c.toNat)))
    else pure (.char (.single c.toNat))
  | .perl k negated => do
    let set ← perlSet k negated
    setPattern set
  | .look l => pure (.look l)

mutual

/-- Alternatives, at least one. -/
def readAlternatives : Nat → PatternReader Pattern
  | 0 => failure
  | fuel + 1 => do
    let first ← readSequence fuel
    if ← eat ['|'] then do
      let second ← readAlternatives fuel
      pure (.alt first second)
    else pure first

/-- Pieces one after the other, up to the end of the alternative. -/
def readSequence : Nat → PatternReader Pattern
  | 0 => failure
  | fuel + 1 => do
    passBlanks
    match (← upcoming).head? with
    | none | some '|' | some ')' => pure .empty
    | some c => do
      let _ ← next
      match ← readPiece fuel c with
      | none => readSequence fuel
      | some p => do
        let p ← readRepetitions fuel p
        let rest ← readSequence fuel
        pure (.seq p rest)

/-- What begins with the given character. Switches alone are no piece. -/
def readPiece : Nat → Char → PatternReader (Option Pattern)
  | 0, _ => failure
  | fuel + 1, c => do
    let s ← get
    match c with
    | '*' | '+' | '?' | '\x7b' => failure
    | '.' =>
      if s.wholeChars && !s.switches.unicode then failure
      else some <$> setPattern (dotSet s.switches)
    | '^' => pure (some (.look (startLook s.switches)))
    | '$' => pure (some (.look (stopLook s.switches)))
    | '\\' => do
      let item ← readEscape
      some <$> itemPattern item
    | '[' => do
      let set ← readBracket fuel
      some <$> setPattern set
    | '(' => readGroup fuel
    | c => some <$> itemPattern (.char c false)

/-- A group, behind its opening parenthesis. -/
def readGroup : Nat → PatternReader (Option Pattern)
  | 0 => failure
  | fuel + 1 => do
    passBlanks
    let s ← get
    match s.rest with
    | '?' :: '=' :: _ | '?' :: '!' :: _ | '?' :: '<' :: '=' :: _ | '?' :: '<' :: '!' :: _ =>
      failure
    | '?' :: 'P' :: '<' :: cs => do
      continueAt cs
      readGroupName
      some <$> readGroupBody fuel s.switches
    | '?' :: '<' :: cs => do
      continueAt cs
      readGroupName
      some <$> readGroupBody fuel s.switches
    | '?' :: ')' :: _ => failure
    | '?' :: cs =>
      match parseSwitches s.switches [] cs with
      | some (switches, stop, rest) => do
        set { s with rest, switches }
        if stop == ')' then pure none else some <$> readGroupBody fuel s.switches
      | none => failure
    | _ => some <$> readGroupBody fuel s.switches

/-- The rest of a group; the switches of before hold again behind it. -/
def readGroupBody : Nat → Switches → PatternReader Pattern
  | 0, _ => failure
  | fuel + 1, before => do
    let p ← readAlternatives fuel
    if ← eat [')'] then do
      modify fun s => { s with switches := before }
      pure p
    else failure

end

/-- The pattern of a text. A pattern for bytes knows ASCII only and may match parts of
characters. -/
def Pattern.parse? (text : String) (ignoreCase binary : Bool) : Option Pattern :=
  let switches : Switches := ⟨ignoreCase, false, false, false, !binary, false, false⟩
  let fuel := 8 * (text.length + 1)
  match (readAlternatives fuel).run ⟨text.toList, switches, [], !binary⟩ with
  | some (p, s) => if s.rest.isEmpty then some p else none
  | none => none

end Packrat.Regex
