import Packrat.Json.Basic
import Packrat.Value.Show

/-
**Values as JSON documents.**

A node becomes an object with its class under `type` and its fields under their own names.
Functions and parsers become the text that shows them, and numbers that JSON cannot write become
`null`.

Main definitions:

* `Packrat.Value.toJson` — the document of a value.
-/

set_option autoImplicit false

namespace Packrat.Value

mutual

/-- The document of a value. -/
def toJson : Value → Json
  | .none => .null
  | .bool b => .bool b
  | .int n => .int n.toInt
  | .float x => if x.isFinite then .float x else .null
  | .str s => .str s
  | .bytes bs => .array (bs.map fun b => .int b.toNat)
  | .list _ items => .array (toJsonAll items)
  | .node _ cls values _ =>
    .object (exportFields cls.fields values [("type", .str cls.name)])
  | .func id f => .str (Value.func id f).repr
  | .parser id function captures name => .str (Value.parser id function captures name).repr
  | .failure _ => .null

def toJsonAll : List Value → List Json
  | [] => []
  | v :: vs => v.toJson :: toJsonAll vs

/-- The members of an object after the fields of a node have been added in order. -/
def exportFields : List String → List Value → List (String × Json) → List (String × Json)
  | n :: ns, v :: vs, members => exportFields ns vs (Json.setField n v.toJson members)
  | _, _, members => members

end

end Packrat.Value
