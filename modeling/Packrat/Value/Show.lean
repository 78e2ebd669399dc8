import Packrat.Decimal.Float
import Packrat.Text.Quoted
import Packrat.Value.Basic

/-
**Values as text.**

Main definitions:

* `Packrat.Value.repr` — the form in which texts are quoted;
* `Packrat.Value.display` — the form in which a text stands for itself.

Main results:

* `Packrat.Value.repr_list` — a list is shown by its items between brackets.
-/

set_option autoImplicit false

namespace Packrat.Value

mutual

/-- A value as text, texts and bytes in quotes. -/
def repr : Value → String
  | .none => "None"
  | .bool b => if b then "True" else "False"
  | .int n => toString n.toInt
  | .float x => Decimal.showFloat x
  | .str s => Text.quoteText s
  | .bytes bs => String.ofList (Text.quoteBytes bs)
  | .list _ items => "[" ++ ", ".intercalate (reprAll items) ++ "]"
  | .node _ cls values _ =>
    cls.name ++ "(" ++ ", ".intercalate (reprFields cls.fields values) ++ ")"
  | .func _ f => "<function " ++ f.name ++ ">"
  | .parser _ _ _ name => "<parser " ++ name ++ ">"
  | .failure entry => "<error " ++ toString entry ++ ">"

def reprAll : List Value → List String
  | [] => []
  | v :: vs => v.repr :: reprAll vs

/-- Fields with their values; a name or a value without its counterpart is left out. -/
def reprFields : List String → List Value → List String
  | n :: ns, v :: vs => (n ++ "=" ++ v.repr) :: reprFields ns vs
  | _, _ => []

end

theorem repr_list (id : Nat) (items : List Value) :
    (Value.list id items).repr = "[" ++ ", ".intercalate (reprAll items) ++ "]" := by
  rw [Value.repr]

/-- A value as text, in which a text stands for itself. -/
def display : Value → String
  | .str s => s
  | v => v.repr

end Packrat.Value
