import Packrat.Description.Reader
import Packrat.Grammar.Analysis
import Packrat.Grammar.Lower
import Packrat.Host.Eval
import Packrat.Program.Compile
import Packrat.Program.Listing

/-
**Loading of grammars.**

A description is read, lowered, analyzed and compiled; then its host sections are evaluated, one
assignment after the other, into the globals of the parser.

Main definitions:

* `Packrat.Parser` — a loaded grammar;
* `Packrat.Parser.globalsOf` — the globals that a program starts with;
* `Packrat.Parser.build` — the parser of a description.
-/

set_option autoImplicit false

namespace Packrat

/-- A grammar that is ready to parse. -/
structure Parser where
  name : String
  program : Program
  natives : Host.Natives
  globals : Env
  /-- The listing of the program, if it was asked for. -/
  source? : Option String
  excerptWidth : Nat
  defaultRule? : Option RuleEntry

namespace Parser

/-- The functions that a program starts with, by their names: those registered from outside,
builtins, and constructors of classes. Later ones win. -/
def initialFunctions (natives : Host.Natives) (program : Program) :
    List (String × Callable Value) :=
  let classes := program.classes.toList ++ [.infixOp, .prefixOp, .postfixOp]
  natives.reverse.map (fun (name, _) => (name, .native name))
    ++ Builtin.all.map (fun b => (b.name, .builtin b))
    ++ classes.map (fun cls => (cls.name, .constructor cls))

/-- The globals that a program starts with. -/
def globalsOf (natives : Host.Natives) (program : Program) : StateT Nat (Except Failure) Env :=
  (initialFunctions natives program).foldlM (fun env (name, f) => do
    let func ← Value.newFunc f
    pure ((name, func) :: env)) []

/-- A failure of an assignment. -/
def loadingError (name : String) : Host.Error → Host.Error
  | .trap t => .trap t
  | e => .whileLoading name e.message

/-- The globals with one more assignment. -/
def assign (natives : Host.Natives) (env : Env) (a : Host.Assignment) :
    StateT Nat (Except Failure) Env := fun n =>
  match (a.value.eval natives env).run n with
  | .ok (v, n) => .ok ((a.name, v) :: env, n)
  | .error e => .error (.host (loadingError a.name e))

/-- The rule that parses where none is named: one named `start`, or else the first that is not
ignored. -/
def startRule? (rules : List RuleEntry) : Option RuleEntry :=
  (rules.find? fun r => !r.synthetic && isStart r.name).or
    (rules.find? fun r => !r.synthetic && !r.ignored)

/-- A program with its globals. -/
def load (options : Options) (natives : Host.Natives) (program : Program) :
    StateT Nat (Except Failure) Parser := do
  let env ← globalsOf natives program
  let globals ← (program.sections.flatMap (·.assignments)).foldlM (assign natives) env
  pure
    { name := options.name
      program
      natives
      globals
      source? := if options.includeSource then some program.listing else none
      excerptWidth := options.excerptWidth
      defaultRule? := startRule? program.rules }

/-- The analyzed grammar of a description. -/
def grammarOf (natives : Host.Natives) (description : String) : Except Failure Grammar := do
  let d ← Description.parse description
  let g ← d.lower description
  g.analyze (natives.map (·.1))

/-- The parser of a description; the state is the next identity of a shared value. -/
def build [Regex.Engine] (options : Options) (natives : Host.Natives) (description : String) :
    StateT Nat (Except Failure) Parser := do
  match options.check with
  | .ok () => pure ()
  | .error e => throw (.grammar e none)
  let g ← grammarOf natives description
  let program ← g.compile options.maxBlocks
  load options natives program

/-! ### Reflection -/

/-- The rules of the description. -/
def rules (p : Parser) : List RuleEntry := p.program.rules.filter fun r => !r.synthetic

/-- The rule with a name. -/
def rule? (p : Parser) (name : String) : Option RuleEntry := p.rules.find? (·.name == name)

/-- A global. -/
def global? (p : Parser) (name : String) : Option Value := p.globals.lookup name

/-- The parser in the notation for diagnostics. -/
def debug (p : Parser) : String :=
  "ParserModule \x7b name: " ++ Text.debugText p.name ++ ", rules: ["
    ++ ", ".intercalate (p.rules.map fun r => Text.debugText r.name) ++ "] \x7d"

end Parser

/-- A rule in the notation for diagnostics. -/
def RuleEntry.debug (r : RuleEntry) : String :=
  "Rule(" ++ Text.debugText (Text.trim r.definition) ++ ")"

/-- A rule as a value. -/
def RuleEntry.parser {m : Type → Type} [Monad m] (r : RuleEntry) : StateT Nat m Value := do
  let id ← fresh
  pure (.parser id r.function [] r.name)

end Packrat
