import Packrat.Text.Utf8
import Packrat.Value.Basic

/-
**Inputs of parsers.**

A parser reads a text or raw bytes; offsets count bytes either way.

Main definitions:

* `Packrat.Input` — inputs, with `Input.bytes` and `Input.size`;
* `Packrat.Input.excise` — the value of the input between two offsets.

Main results:

* `Packrat.Input.size_text` — the size of a text is its length in bytes.
-/

set_option autoImplicit false

namespace Packrat

inductive Input where
  | text (s : String)
  | binary (bs : ByteArray)

namespace Input

/-- The bytes of an input. -/
def bytes : Input → ByteArray
  | .text s => s.toUTF8
  | .binary bs => bs

/-- The number of bytes. -/
def size (input : Input) : Nat := input.bytes.size

@[simp] theorem size_text (s : String) : (Input.text s).size = s.utf8ByteSize := by
  simp [size, bytes]

/-- Whether an input is raw bytes. -/
def isBinary : Input → Bool
  | .text _ => false
  | .binary _ => true

/-- The bytes between two offsets. -/
def between (bytes : ByteArray) (start stop : Nat) : List UInt8 :=
  (bytes.extract start stop).data.toList

/-- What a match between two offsets is worth: the text there, or the bytes. A text that is cut
inside a character shows a replacement in its place. -/
def excise (isBinary : Bool) (bytes : ByteArray) (start stop : Nat) : Value :=
  if isBinary then .bytes (between bytes start stop)
  else .str (Text.Utf8.decodeText (between bytes start stop))

end Input

end Packrat
