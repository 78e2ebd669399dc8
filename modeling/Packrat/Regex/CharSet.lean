import Packrat.Text.Blank
import Packrat.Text.Case

/-
**Sets of characters.**

What a class in a pattern stands for, as a set of codes: code points where a pattern matches
characters, and numbers below 256 where it matches bytes.

Main definitions:

* `Packrat.Regex.CharSet` — sets, built from ranges and the classes of the Unicode standard;
* `Packrat.Regex.CharSet.contains` — membership;
* `Packrat.Regex.Perl`, `Packrat.Regex.posixRanges?` — the classes that have names.

Main results:

* `Packrat.Regex.CharSet.contains_complement` — a code is in a set or in its complement.
-/

set_option autoImplicit false

namespace Packrat.Regex

/-- The classes with a letter of their own. -/
inductive Perl where
  | digit
  | blank
  | word
deriving DecidableEq, Repr

/-- A set of codes. -/
inductive CharSet where
  /-- Closed ranges. -/
  | ranges (rs : List (Nat × Nat))
  /-- A class of the Unicode standard. -/
  | named (k : Perl)
  | union (a b : CharSet)
  | inter (a b : CharSet)
  | diff (a b : CharSet)
  | symmDiff (a b : CharSet)
  | complement (a : CharSet)
  /-- With all codes that differ in case only, by the Unicode standard or among ASCII letters. -/
  | folded (unicode : Bool) (a : CharSet)
deriving Repr

/-- Whether a code point is a word character of the Unicode standard. -/
def isWordCode (code : Nat) : Bool :=
  if code < 128 then (Char.ofNat code).isAlphanum || code == '_'.toNat
  else Text.inRanges Text.wordRanges code

/-- Whether a code point belongs to a class of the Unicode standard. -/
def Perl.contains (code : Nat) : Perl → Bool
  | .digit => Text.inRanges Text.digitRanges code
  | .blank => Text.isBlank (Char.ofNat code)
  | .word => isWordCode code

/-- The code and those that differ from it in case only. -/
def codeVariants (unicode : Bool) (code : Nat) : List Nat :=
  if unicode then (Text.caseVariants (Char.ofNat code)).map Char.toNat
  else if code < 128 then
    [code, (Char.ofNat code).toLower.toNat, (Char.ofNat code).toUpper.toNat]
  else [code]

namespace CharSet

/-- Membership of a code. -/
def contains : CharSet → Nat → Bool
  | .ranges rs, code => rs.any fun r => r.1 ≤ code && code ≤ r.2
  | .named k, code => k.contains code
  | .union a b, code => a.contains code || b.contains code
  | .inter a b, code => a.contains code && b.contains code
  | .diff a b, code => a.contains code && !b.contains code
  | .symmDiff a b, code => a.contains code != b.contains code
  | .complement a, code => !a.contains code
  | .folded unicode a, code => (codeVariants unicode code).any a.contains

@[simp] theorem contains_complement (a : CharSet) (code : Nat) :
    (complement a).contains code = !a.contains code := by
  simp [contains]

/-- The set without elements. -/
def empty : CharSet := .ranges []

/-- The set of one code. -/
def single (code : Nat) : CharSet := .ranges [(code, code)]

/-- Whether a set of bytes holds ASCII only. -/
def isAscii (a : CharSet) : Bool := (List.range 128).all fun n => !a.contains (128 + n)

end CharSet

/-- The ASCII part of a class. -/
def Perl.asciiRanges : Perl → List (Nat × Nat)
  | .digit => [(48, 57)]
  | .blank => [(9, 13), (32, 32)]
  | .word => [(48, 57), (65, 90), (95, 95), (97, 122)]

/-- A class, as code points or as bytes. -/
def Perl.set (unicode : Bool) (k : Perl) : CharSet :=
  if unicode then .named k else .ranges k.asciiRanges

/-- The ASCII ranges of a class that is named between colons. -/
def posixRanges? : String → Option (List (Nat × Nat))
  | "alnum" => some [(48, 57), (65, 90), (97, 122)]
  | "alpha" => some [(65, 90), (97, 122)]
  | "ascii" => some [(0, 127)]
  | "blank" => some [(9, 9), (32, 32)]
  | "cntrl" => some [(0, 31), (127, 127)]
  | "digit" => some [(48, 57)]
  | "graph" => some [(33, 126)]
  | "lower" => some [(97, 122)]
  | "print" => some [(32, 126)]
  | "punct" => some [(33, 47), (58, 64), (91, 96), (123, 126)]
  | "space" => some [(9, 13), (32, 32)]
  | "upper" => some [(65, 90)]
  | "word" => some [(48, 57), (65, 90), (95, 95), (97, 122)]
  | "xdigit" => some [(48, 57), (65, 70), (97, 102)]
  | _ => none

end Packrat.Regex
