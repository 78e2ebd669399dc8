import Packrat.Host.Order
import Packrat.Text.Find
import Packrat.Text.Utf8

/-
**Sequences: items, indices, slices and membership.**

Lists, texts, bytes and the values of nodes are sequences: of their items, of characters, of
numbers.  An index or bound below zero counts from the end.  An index must lie in the sequence,
while bounds of a slice are moved to its ends.  Offsets are words, and elements are taken where the
machine takes them: a word that does not fit, or an element that is not there, ends the program.

Main definitions:

* `Packrat.Host.resolveIndex`, `Packrat.Host.resolveBound` — an index and a bound as offsets;
* `Packrat.Host.slice` — the items between two offsets;
* `Packrat.Host.subscript`, `Packrat.Host.sliceValue`, `Packrat.Host.contains` — the operations
  on values.

Main results:

* `Packrat.Host.subset_of_slice` — a slice is made of items of the sequence.
-/

set_option autoImplicit false

namespace Packrat.Host

/-- The items of a value, for a caller of the given name. -/
def iterate (callee : String) : Value → Except Error (List Value)
  | .list _ items => .ok items
  | .str s => .ok (s.toList.map fun c => .str (String.singleton c))
  | .bytes bs => .ok (bs.map fun b => .int (Int64.ofNat b.toNat))
  | .node _ _ values _ => .ok values
  | v => .error (.wrongType callee "an iterable" v.typeName)

/-- An offset as one from the beginning of a sequence. To one that counts from the end the length is
added as a word; where the sum does not fit the program ends. -/
def fromStart (offset : Int64) (length : Nat) : Except Error Int64 :=
  if offset < 0 then
    match fit? ((Int64.ofNat length).toInt + offset.toInt) with
    | some n => .ok n
    | none => .error (.trap .offset)
  else .ok offset

/-- The offset that an index means in a sequence of the given length. -/
def resolveIndex (index : Value) (length : Nat) : Except Error Nat :=
  match index.asInt? with
  | none => .error (.indexType index.typeName)
  | some i => do
    let n ← fromStart i length
    if n < 0 ∨ length ≤ n.toNatClampNeg then .error (.indexRange i) else .ok n.toNatClampNeg

/-- The offset that a number means as a bound of a slice. -/
def resolveBound (bound : Int64) (length : Nat) : Except Error Nat := do
  let n ← fromStart bound length
  pure (min n.toNatClampNeg length)

/-- The offset that a bound means; a bound left out, or `None`, is the given end. -/
def boundOr (default : Nat) (bound : Option Value) (length : Nat) : Except Error Nat :=
  match bound with
  | none | some .none => .ok default
  | some v =>
    match v.asInt? with
    | some i => resolveBound i length
    | none => .error .sliceIndexType

/-- The items between two offsets. Where these are not in order or not in the sequence the program
ends. -/
def slice {α : Type} (start stop : Nat) (xs : List α) : Except Error (List α) :=
  if start ≤ stop ∧ stop ≤ xs.length then .ok ((xs.take stop).drop start)
  else .error (.trap .range)

theorem subset_of_slice {α : Type} {start stop : Nat} {xs ys : List α}
    (h : slice start stop xs = .ok ys) : ys ⊆ xs := by
  rw [slice] at h
  split at h
  · obtain rfl := Except.ok.inj h
    exact fun _ mem => List.mem_of_mem_take (List.mem_of_mem_drop mem)
  · cases h

/-- The items of a list between two bounds; there are none where the bounds cross. -/
def sliceList {α : Type} (lower upper : Option Value) (xs : List α) : Except Error (List α) := do
  let start ← boundOr 0 lower xs.length
  let stop ← boundOr xs.length upper xs.length
  slice start (max stop start) xs

/-- A slice of a value. -/
def sliceValue (object : Value) (lower upper : Option Value) : Eval Value :=
  match object with
  | .list _ items => do
    let items ← sliceList lower upper items
    Value.newList items
  | .str s => do
    let cs ← sliceList lower upper s.toList
    pure (.str (String.ofList cs))
  | .bytes bs => do
    let bs ← sliceList lower upper bs
    pure (.bytes bs)
  | v => throw (.notSliceable v.typeName)

/-- The item of a list at an index. -/
def itemAt {α : Type} (xs : List α) (index : Value) : Except Error α := do
  let i ← resolveIndex index xs.length
  match xs[i]? with
  | some x => pure x
  | none => throw (.trap .range)

/-- Whether an item occurs in a container. -/
def contains (container item : Value) : Except Error Bool :=
  match container, item with
  | .str s, .str piece => .ok (Text.occurs piece.toList s.toList)
  | .bytes bs, .bytes piece => .ok (Text.occurs piece bs)
  | .list _ _, _ | .bytes _, _ | .node _ _ _ _, _ => do
    let items ← iterate "in" container
    pure (items.any fun v => v.eq item)
  | v, _ => .error (.membership v.typeName)

/-- A place in the input as a node. -/
def positionNode (p : Position) : Eval Value :=
  Value.newNode .position
    [.int (Int64.ofNat p.index), .int (Int64.ofNat p.line), .int (Int64.ofNat p.column)]

/-- What a value offers under a name: fields of a node, methods of a text, decoding of bytes. -/
def memberOf (object : Value) (name : String) : Eval Value :=
  match object with
  | .node _ cls values extent? =>
    if name == "_fields" then Value.newList (cls.fields.map .str)
    else if name == "_position_info" then
      match extent? with
      | none => pure .none
      | some extent => do
        let start ← positionNode extent.start
        let stop ← positionNode extent.stop
        Value.newNode .extent [start, stop]
    else
      match Value.field? cls values name with
      | some v => pure v
      | none => throw (.noAttribute cls.name name)
  | .str s =>
    match TextMethod.all.find? (·.name == name) with
    | some m => Value.newFunc (.method s m)
    | none => throw (.noAttribute "str" name)
  | .bytes bs =>
    if name == "decode" then Value.newFunc (.decoder (Text.Utf8.decodeText bs))
    else throw (.noAttribute "bytes" name)
  | v => throw (.noAttribute v.typeName name)

/-- The part of a value at an index; a node may be asked for a field by its name. -/
def subscript (object index : Value) : Eval Value :=
  match object with
  | .list _ items => itemAt items index
  | .str s => do
    let c ← itemAt s.toList index
    pure (.str (String.singleton c))
  | .bytes bs => do
    let b ← itemAt bs index
    pure (.int (Int64.ofNat b.toNat))
  | .node _ _ values _ =>
    match index with
    | .str field => memberOf object field
    | _ => itemAt values index
  | v => throw (.notSubscriptable v.typeName)

end Packrat.Host
