import Packrat.Input.Excerpt
import Packrat.Machine.Run
import Packrat.Parser.Load
import Packrat.Regex.Search
import Packrat.Tree.Places

/-
**Parsing.**

A rule is run at a place of the input.  If it fails, the failure it left is reported at the place
where it happened; if it succeeds and input is left over, that is reported too, unless a part of
the input is enough.

Main definitions:

* `Packrat.Parser.failureReport`, `Packrat.Parser.incompleteReport` — the two reports;
* `Packrat.Parser.conclude` — what an outcome comes to;
* `Packrat.Parser.parse` — a parse with a rule and its arguments.

Main results:

* `Packrat.Parser.conclude_failed` — a failed outcome is a failed parse.
-/

set_option autoImplicit false

namespace Packrat

/-- What a rule was after, in the message of its failure. The failure of a rule that begins with
itself belongs to no expression. -/
def FailureEntry.explanation (e : FailureEntry) : String :=
  if e.rule.isEmpty then e.expectation.message
  else
    "Failed to parse the '" ++ e.rule ++ "' rule, at the expression:\n    " ++ e.expr ++ "\n\n"
      ++ e.expectation.message

namespace Parser

variable [Text.Display]

/-- The report of a failure at a place. -/
def failureReport (p : Parser) (input : Input) (table : LineTable) (entry : FailureEntry)
    (pos : Nat) : ParseFailure :=
  let position := table.position input pos
  let shown := excerpt input table position p.excerptWidth
  { message := s!"Error on line {position.line}, column {position.column}:\n{shown}\n"
      ++ entry.explanation
    position
    rule := entry.rule
    excerpt := shown
    ofText := !input.isBinary }

/-- The report of input left over behind a result. -/
def incompleteReport (p : Parser) (input : Input) (table : LineTable) (result : Value)
    (pos : Nat) : PartialParse :=
  let position := table.position input pos
  let shown := excerpt input table position p.excerptWidth
  { message := "Incomplete parse. Unexpected input on line " ++ toString position.line
      ++ ", column " ++ toString position.column ++ ":\n" ++ shown
    result
    position
    excerpt := shown
    ofText := !input.isBinary }

/-- The entry of the failure that a value marks. -/
def failureEntry (p : Parser) : Value → Except Failure FailureEntry
  | .failure entry => poolEntry "failures" p.program.failures entry
  | _ => fault .noFailureMark

/-- What an outcome comes to: the result with the places of its nodes, or a report. -/
def conclude (p : Parser) (input : Input) (full : Bool) (o : Outcome) : Exec Value := do
  let table := LineTable.ofInput input
  if o.status then do
    let result ← (fun n => pure ((o.result.resolvePlaces table input).run n))
    -- What was parsed is part of the report, with its places.
    if full && o.pos < input.size then
      throw (.incomplete (p.incompleteReport input table result o.pos))
    else pure result
  else do
    let entry ← p.failureEntry o.result
    throw (.parse (p.failureReport input table entry o.pos))

theorem conclude_failed {p : Parser} {input : Input} {full : Bool} {entry pos : Nat}
    {e : FailureEntry} (h : p.program.failures[entry]? = some e) (n : Nat) :
    (p.conclude input full ⟨false, .failure entry, pos⟩).run n =
      .error (.parse (p.failureReport input (LineTable.ofInput input) e pos)) := by
  simp [conclude, failureEntry, poolEntry, h, liftM, monadLift, MonadLift.monadLift, StateT.lift,
    StateT.run, bind, StateT.bind, Except.bind, pure, Except.pure, throw, throwThe,
    MonadExceptOf.throw]

/-- The setting of a parse. -/
def setting (p : Parser) (input : Input) : Setting :=
  ⟨p.program, ⟨p.natives, Host.compareOp⟩, p.globals, input.bytes, input.isBinary⟩

/-- A parse with a function of the program. -/
def runFunction (p : Parser) (function : Nat) (args : List Value) (input : Input) (pos : Nat)
    (full : Bool) : Exec Value := do
  if input.size < pos then throw (.host (.startBeyondEnd pos input.size))
  else do
    let o ← (p.setting input).run true function args pos
    p.conclude input full o

/-- A parse with a rule that takes no arguments. -/
def parse (p : Parser) (rule : RuleEntry) (input : Input) (pos : Nat) (full : Bool) :
    Exec Value :=
  match rule.params.getD [] with
  | [] => p.runFunction rule.function [] input pos full
  | params => throw (.host (.unboundArguments rule.name params))

/-- A parse with a rule and its arguments. -/
def parseBound (p : Parser) (rule : RuleEntry) (args : List Value) (input : Input) (pos : Nat)
    (full : Bool) : Exec Value :=
  let expected := (rule.params.getD []).length
  if args.length == expected then p.runFunction rule.function args input pos full
  else throw (.host (.ruleArity rule.name expected args.length))

/-- The rule that parses where none is named. -/
def defaultRule (p : Parser) : Except Failure RuleEntry :=
  match p.defaultRule? with
  | some rule => .ok rule
  | none => .error (.grammar (.noRules p.name) none)

end Parser

end Packrat
