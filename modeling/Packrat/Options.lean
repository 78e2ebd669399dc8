import Packrat.Failure
import Packrat.Json.Reader

/-
**Options of a grammar.**

Options are written as a JSON object in which every member may be left out, or as an array of
the members in order, of which the last ones may be left out.

Main definitions:

* `Packrat.Options` — the options with their defaults;
* `Packrat.Options.check` — limits that options must keep;
* `Packrat.Options.read` — options from the text of a JSON document.

Main results:

* `Packrat.Options.check_default` — the defaults keep the limits.
-/

set_option autoImplicit false

namespace Packrat

structure Options where
  /-- The name of the grammar in diagnostics. -/
  name : String := "grammar"
  /-- Whether the listing of the program is kept. -/
  includeSource : Bool := false
  /-- How deep blocks may nest before an expression gets a function of its own. -/
  maxBlocks : Nat := 20
  /-- The widest line that an excerpt shows whole. -/
  excerptWidth : Nat := 96
deriving DecidableEq, Repr

namespace Options

/-- The least budget of blocks. -/
def leastBlocks : Nat := 2

/-- The least width of an excerpt. -/
def leastWidth : Nat := 16

/-- Refuses options outside of their limits. -/
def check (o : Options) : Except GrammarError Unit :=
  if o.maxBlocks < leastBlocks then .error (.blockBudget leastBlocks o.maxBlocks)
  else if o.excerptWidth < leastWidth then .error (.excerptWidth leastWidth)
  else .ok ()

theorem check_default : check {} = .ok () := rfl

/-- A number of 64 bits without sign. -/
def word? : Json → Option Nat
  | .int n => if 0 ≤ n ∧ n < 0x10000000000000000 then some n.toNat else none
  | _ => none

/-- Options with one member set; members with unknown names or unfit values are refused. -/
def setMember? (o : Options) : String × Json → Option Options
  | ("name", .str s) => some { o with name := s }
  | ("include_source", .bool b) => some { o with includeSource := b }
  | ("max_blocks", v) => (word? v).map fun n => { o with maxBlocks := n }
  | ("excerpt_width", v) => (word? v).map fun n => { o with excerptWidth := n }
  | _ => none

/-- The names of the members in order. -/
def memberNames : List String := ["name", "include_source", "max_blocks", "excerpt_width"]

/-- Whether each name occurs once only. -/
def distinct : List String → Bool
  | [] => true
  | n :: ns => !ns.contains n && distinct ns

/-- The options that a document stands for. -/
def ofJson? : Json → Option Options
  | .object members =>
    if distinct (members.map (·.1)) then members.foldlM setMember? {} else none
  | .array items =>
    if items.length ≤ memberNames.length then (memberNames.zip items).foldlM setMember? {} else none
  | _ => none

/-- The options that a text stands for. -/
def read (text : String) : Except GrammarError Options := do
  match (Json.read? text).bind ofJson? with
  | some o => do
    o.check
    pure o
  | none => throw .options

end Options

end Packrat
