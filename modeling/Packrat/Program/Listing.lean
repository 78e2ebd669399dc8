import Packrat.Program.Basic
import Packrat.Text.Blank
import Packrat.Value.Show

/-
**Listings of programs.**

A program as text: its rules and host sections, its pools, and the instructions of its functions
with their labels.

Main definitions:

* `Packrat.Expectation.message` — the wording of an expectation;
* `Packrat.Instr.text` — an instruction;
* `Packrat.Program.listing` — a whole program.
-/

set_option autoImplicit false

namespace Packrat

/-- What is said about an expression that failed. -/
def Expectation.message : Expectation → String
  | .literal text => "Expected to match the string " ++ Text.quoteText text
  | .regex pattern => s!"Expected to match the regular expression /{pattern}/"
  | .unexpected => "Unexpected input"
  | .notExpected expr => s!"Did not expect to match: {expr}"
  | .predicate source => s!"Expected to satisfy the predicate: {source}"
  | .custom text => text
  | .leftRecursion => "Left recursion is not supported"

/-- The name of a slot. -/
def slotText (v : Nat) : String := s!"v{v}"

/-- The names of slots. -/
def slotsText (vs : List Nat) : String := ", ".intercalate (vs.map slotText)

/-- The name of a label. -/
def labelText (label : Nat) : String := s!"L{label}"

/-- The name of a function in calls. -/
def functionText (f : Nat) : String := s!"fn{f}"

/-- The name of a failure. -/
def entryText (entry : Nat) : String := s!"err{entry}"

/-- The name of a class of the program. -/
def clsText (cls : Nat) : String := s!"class{cls}"

/-- The name of a host snippet. -/
def hostText (host : Nat) : String := s!"host{host}"

/-- An operand as text. -/
def Operand.text : Operand → String
  | .result => "RESULT"
  | .position => "POS"
  | .slot v => slotText v
  | .const value => value.repr

/-- A bound as text. -/
def Limit.text : Limit → String
  | .const n => toString n
  | .slot v => slotText v

/-- A condition as text. -/
def Condition.text : Condition → String
  | .status => "STATUS"
  | .notStatus => "not STATUS"
  | .posEq v => "POS == " ++ slotText v
  | .posNe v => "POS != " ++ slotText v
  | .posGe v => "POS >= " ++ slotText v
  | .posGt v => "POS > " ++ slotText v
  | .posLt v => "POS < " ++ slotText v
  | .posLe v => "POS <= " ++ slotText v
  | .lenLt v limit => "len(" ++ slotText v ++ ") < " ++ limit.text
  | .lenGe v limit => "len(" ++ slotText v ++ ") >= " ++ limit.text

/-- What is called, as text. -/
def Callee.text : Callee → String
  | .function f => functionText f
  | .slot v => slotText v

/-- An instruction as text. -/
def Instr.text : Instr → String
  | .matchLiteral literal entry => s!"match lit{literal} else " ++ entryText entry
  | .matchRegex regex entry => s!"match re{regex} else " ++ entryText entry
  | .setStatus b => "STATUS = " ++ (if b then "True" else "False")
  | .load value => "RESULT = " ++ value.text
  | .store v value => slotText v ++ " = " ++ value.text
  | .restore v => "POS = " ++ slotText v
  | .fail entry => "fail " ++ entryText entry
  | .jump label => "goto " ++ labelText label
  | .branch condition label => "if " ++ condition.text ++ ": goto " ++ labelText label
  | .newList v => slotText v ++ " = []"
  | .push v value => slotText v ++ ".append(" ++ value.text ++ ")"
  | .pop v => slotText v ++ ".pop()"
  | .call callee args => "yield CALL " ++ callee.text ++ "(" ++ slotsText args ++ ")"
  | .eval host captures =>
    "RESULT = eval " ++ hostText host ++ "(" ++ slotsText captures ++ ")"
  | .apply func arg => "RESULT = " ++ slotText func ++ "(" ++ slotText arg ++ ")"
  | .test func arg entry =>
    "test " ++ slotText func ++ "(" ++ slotText arg ++ ") else " ++ entryText entry
  | .makeList items => "RESULT = [" ++ slotsText items ++ "]"
  | .makeNode cls fields start =>
    "RESULT = " ++ clsText cls ++ "(" ++ slotsText fields ++ ") from " ++ slotText start
  | .makeInfix left operator =>
    "RESULT = Infix(" ++ slotText left ++ ", " ++ slotText operator ++ ", RESULT)"
  | .makePostfix left => "RESULT = Postfix(" ++ slotText left ++ ", RESULT)"
  | .foldPrefix ops => "RESULT = fold_prefix(" ++ slotText ops ++ ", RESULT)"
  | .foldRight spine => "RESULT = fold_right(" ++ slotText spine ++ ")"
  | .makeParser function captures =>
    "RESULT = parser " ++ functionText function ++ "(" ++ slotsText captures ++ ")"
  | .ret => "return"

/-- Lines, each with its end. -/
def linesText (lines : List String) : String := String.join (lines.map (· ++ "\n"))

/-- The entries of a pool with their numbers. -/
def poolText {α : Type} (line : Nat → α → String) (pool : Array α) : String :=
  linesText (pool.toList.zipIdx.map fun (x, n) => line n x)

/-- The labels that stand before an instruction, and the instruction. -/
def instrLines (labels : Array Nat) (i : Instr) (index : Nat) : List String :=
  let here := labels.toList.zipIdx.filterMap fun (place, label) =>
    if place == index then some ("  " ++ labelText label ++ ":") else none
  here ++ ["    " ++ i.text]

/-- A function as text. -/
def Function.text (n : Nat) (f : Function) : String :=
  linesText
    (("\ndef " ++ f.name ++ "(" ++ ", ".intercalate f.params ++ "):  # " ++ functionText n) ::
      f.code.toList.zipIdx.flatMap fun (i, index) => instrLines f.labels i index)

/-- The lines of the rules. -/
def rulesText (rules : List RuleEntry) : String :=
  linesText ("# rules" :: rules.map fun r =>
    "#   " ++ r.name ++ " -> " ++ functionText r.function ++ ": " ++ Text.trim r.definition)

/-- A host section as text. -/
def sectionText (s : HostSection) : String :=
  "\n\x60\x60\x60" ++ s.source ++ "\x60\x60\x60\n"

/-- A program as text. -/
def Program.listing (p : Program) : String :=
  rulesText p.rules
    ++ String.join (p.sections.map sectionText)
    ++ "\n"
    ++ poolText (fun n bytes => s!"lit{n} = " ++ String.ofList (Text.quoteBytes bytes)) p.literals
    ++ poolText (fun n e => s!"re{n} = /" ++ e.pattern ++ "/") p.regexes
    ++ poolText (fun n s =>
        hostText n ++ " = \x60" ++ s.source ++ "\x60 (" ++ ", ".intercalate s.locals ++ ")") p.hosts
    ++ poolText (fun n c =>
        clsText n ++ " = " ++ c.name ++ "(" ++ ", ".intercalate c.fields ++ ")") p.classes
    ++ poolText (fun n e =>
        entryText n ++ " = [" ++ e.rule ++ "] " ++ e.expr ++ " : " ++ e.expectation.message)
        p.failures
    ++ String.join (p.functions.toList.zipIdx.map fun (f, n) => f.text n)

end Packrat
