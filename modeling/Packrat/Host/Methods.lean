import Packrat.Host.Builtins
import Packrat.Text.Case

/-
**The methods of texts.**

Main definitions:

* `Packrat.Host.callMethod` — a method applied to its receiver and arguments.
-/

set_option autoImplicit false

namespace Packrat.Host

/-- The text of an argument of the named method. -/
def textArgument (method : String) (v : Value) : Except Error String :=
  match v with
  | .str s => .ok s
  | v => .error (.wrongType method "a string" v.typeName)

/-- The pieces of a text: between separators, or between blanks. -/
def split (receiver : String) (args : List Value) : Except Error (List String) :=
  match args with
  | [] | .none :: _ => .ok (Text.words receiver)
  | v :: _ => do
    let separator ← textArgument "split" v
    if separator.isEmpty then throw .emptySeparator
    else pure ((Text.splitAtPieces separator.toList receiver.toList).map String.ofList)

/-- A text without the blanks, or without the given characters, at its ends. -/
def strip (receiver : String) (args : List Value) : Except Error Value :=
  match args with
  | [] => .ok (.str (Text.trim receiver))
  | v :: _ => do
    let chars ← textArgument "strip" v
    let cs := Text.trimBoth chars.toList.contains receiver.toList
    pure (.str (String.ofList cs))

/-- A method applied to its receiver and arguments. -/
def callMethod (m : TextMethod) (receiver : String) (args : List Value) : Eval Value :=
  match m with
  | .join => do
    checkArity "join" 1 1 args
    let items ← iterate "join" (args.headD .none)
    let parts ← (items.mapM (textArgument "join") : Except Error (List String))
    pure (.str (receiver.intercalate parts))
  | .lower => do
    checkArity "lower" 0 0 args
    pure (.str (Text.lowercase receiver))
  | .upper => do
    checkArity "upper" 0 0 args
    pure (.str (Text.uppercase receiver))
  | .strip => do
    checkArity "strip" 0 1 args
    strip receiver args
  | .split => do
    checkArity "split" 0 1 args
    let parts ← split receiver args
    Value.newList (parts.map .str)
  | .startsWith => do
    checkArity "startswith" 1 1 args
    let piece ← textArgument "startswith" (args.headD .none)
    pure (.bool (piece.toList.isPrefixOf receiver.toList))
  | .endsWith => do
    checkArity "endswith" 1 1 args
    let piece ← textArgument "endswith" (args.headD .none)
    pure (.bool (piece.toList.isSuffixOf receiver.toList))
  | .replace => do
    checkArity "replace" 2 2 args
    let old ← textArgument "replace" (args.headD .none)
    let new ← textArgument "replace" (args[1]?.getD .none)
    pure (.str (String.ofList (Text.replaceAll old.toList new.toList receiver.toList)))

end Packrat.Host
