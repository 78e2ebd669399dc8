import Packrat.Decimal.Float
import Packrat.Host.Term
import Packrat.Scan.Lexical

/-
**Reading host expressions and host sections.**

Operators bind, from the loosest: the conditional and the function, `or`, `and`, `not`,
comparisons, addition, multiplication, signs, powers, and what follows an atom.  Each level reads
the next tighter one; only an expression in brackets or behind a keyword starts again at the top,
and it is shorter than the text around it.

Main definitions:

* `Packrat.Host.readTerm` — an expression at the loosest level, nested at most so deep;
* `Packrat.Host.Term.read?` — the term that a whole text stands for;
* `Packrat.Host.readSection?` — the assignments that a whole text stands for.
-/

set_option autoImplicit false

namespace Packrat.Host

open Packrat.Scan

/-- Words that name nothing. -/
def keywords : List String :=
  ["lambda", "if", "else", "and", "or", "not", "in", "is", "None", "True", "False"]

/-- A name. -/
def readName : Reader String := token (bareIdentifier keywords)

/-! ### Literals -/

/-- The length of an exponent, if one comes first. -/
def exponentLength : List Char → Option Nat
  | [] => none
  | c :: cs =>
    if c == 'e' || c == 'E' then
      let sign := if cs.head? == some '+' || cs.head? == some '-' then 1 else 0
      let digits := digitLength (cs.drop sign)
      if digits == 0 then none else some (1 + sign + digits)
    else none

/-- The length of a float literal, if one comes first: digits on one side of a point at least, or
an exponent. -/
def floatLength (cs : List Char) : Option Nat :=
  let whole := digitLength cs
  let rest := cs.drop whole
  match rest with
  | '.' :: places =>
    let n := digitLength places
    if whole == 0 && n == 0 then none
    else
      let length := whole + 1 + n
      some (length + (exponentLength (cs.drop length)).getD 0)
  | _ => if whole == 0 then none else (exponentLength rest).map (whole + ·)

/-- An integer literal. -/
def readInteger : Reader Term := do
  let start ← offset
  let digits ← bareDigits
  let stop ← offset
  let n := Decimal.ofDigits digits
  if n < 0x8000000000000000 then pure ()
  else noteMisfit ⟨String.ofList digits, ⟨start, stop⟩, false⟩
  blanks
  pure (.literal (.int (Int64.ofNat n)))

/-- A float literal. -/
def readFloatLiteral : Reader Term := do
  let text ← token (lexeme floatLength)
  match Decimal.readFloat? (String.ofList text) with
  | some x => pure (.literal (.float x))
  | none => failure

/-- A literal of any kind. -/
def readLiteral : Reader Term :=
  readFloatLiteral <|> readInteger
    <|> (do
      let s ← token bareQuoted
      pure (.literal (.str s)))
    <|> (keyword "None" *> pure (.literal .none))
    <|> (keyword "True" *> pure (.literal (.bool true)))
    <|> (keyword "False" *> pure (.literal (.bool false)))

/-! ### Operators -/

/-- The length of two keywords with blanks between them, if they come first. -/
def twoWords (first second : String) (cs : List Char) : Option Nat :=
  let afterFirst := cs.drop first.length
  let gap := (afterFirst.takeWhile isSpace).length
  if atWord first cs && gap != 0 && atWord second (afterFirst.drop gap) then
    some (first.length + gap + second.length)
  else none

/-- A comparison. -/
def readComparison : Reader Comparison :=
  (symbol "==" *> pure .eq) <|> (symbol "!=" *> pure .ne) <|> (symbol "<=" *> pure .le)
    <|> (symbol ">=" *> pure .ge) <|> (symbol "<" *> pure .lt) <|> (symbol ">" *> pure .gt)
    <|> (token (lexeme (twoWords "not" "in")) *> pure .notIn)
    <|> (keyword "in" *> pure .isIn)
    <|> (token (lexeme (twoWords "is" "not")) *> pure .notSame)
    <|> (keyword "is" *> pure .same)

/-- An additive operator. -/
def readAdditive : Reader BinaryOp :=
  (symbol "+" *> pure .add) <|> (symbol "-" *> pure .sub)

/-- A multiplicative operator; two stars are a power. -/
def readMultiplicative : Reader BinaryOp :=
  (symbol "//" *> pure .floorDiv)
    <|> ((lookahead fun cs => !"**".toList.isPrefixOf cs) *> symbol "*" *> pure .mul)
    <|> (symbol "/" *> pure .div) <|> (symbol "%" *> pure .mod)

/-- A sign. -/
def readSign : Reader UnaryOp :=
  (symbol "-" *> pure .neg) <|> (symbol "+" *> pure .pos)

/-- Signs before an operand; the nearest applies first. -/
def applySigns (signs : List UnaryOp) (operand : Term) : Term :=
  signs.foldr .unary operand

/-- A chain of powers, each with its signs: the exponent reaches to the right, and a sign applies
to the power behind it. -/
def foldPowers : List UnaryOp × Term → List (List UnaryOp × Term) → Term
  | (signs, base), [] => applySigns signs base
  | (signs, base), next :: rest => applySigns signs (.binary .pow base (foldPowers next rest))

/-- Operands with operators between them, grouped to the left. -/
def foldBinary (first : Term) (rest : List (BinaryOp × Term)) : Term :=
  rest.foldl (fun left next => .binary next.1 left next.2) first

/-! ### Expressions -/

/-- What may follow an atom: arguments, an attribute or a subscript. -/
def readTrailer (expr : Reader Term) : Reader (Term → Term) :=
  (do
    symbol "("
    let args ← listOf expr (symbol ",")
    symbol ")"
    pure (Term.call · args))
  <|> (do
    symbol "."
    let field ← readName
    pure (Term.member · field))
  <|> (do
    symbol "["
    let lower ← attempt expr
    let colon ← attempt (symbol ":")
    match colon, lower with
    | some _, lower => do
      let upper ← attempt expr
      symbol "]"
      pure (Term.slice · lower upper)
    | none, some i => do
      symbol "]"
      pure (Term.index · i)
    | none, none => failure)

/-- Items between parentheses. A single item without a comma is only grouped. -/
def readParenthesized (expr : Reader Term) : Reader Term := do
  symbol "("
  let items ← (do
    let xs ← sepBy expr (symbol ",")
    let comma ← attempt (symbol ",")
    pure (xs, comma.isSome)) <|> pure ([], false)
  symbol ")"
  match items with
  | ([x], false) => pure x
  | (xs, _) => pure (.list xs)

/-- An atom. -/
def readAtom (expr : Reader Term) : Reader Term :=
  readLiteral
    <|> (do
      symbol "["
      let items ← listOf expr (symbol ",")
      symbol "]"
      pure (.list items))
    <|> readParenthesized expr
    <|> (do
      let n ← readName
      pure (.name n))

/-- An atom and what follows it. -/
def readSuffixed (expr : Reader Term) : Reader Term := do
  let atom ← readAtom expr
  let trailers ← many (readTrailer expr)
  pure (trailers.foldl (fun t trailer => trailer t) atom)

/-- Signs and powers. -/
def readSigned (expr : Reader Term) : Reader Term := do
  let (first, rest) ← chain
    (do
      let signs ← many readSign
      let base ← readSuffixed expr
      pure (signs, base))
    (symbol "**")
  pure (foldPowers first (rest.map (·.2)))

/-- Products. -/
def readProduct (expr : Reader Term) : Reader Term := do
  let (first, rest) ← chain (readSigned expr) readMultiplicative
  pure (foldBinary first rest)

/-- Sums. -/
def readSum (expr : Reader Term) : Reader Term := do
  let (first, rest) ← chain (readProduct expr) readAdditive
  pure (foldBinary first rest)

/-- Comparisons and negations of them. -/
def readNegated (expr : Reader Term) : Reader Term := do
  let nots ← many (keyword "not")
  let (first, rest) ← chain (readSum expr) readComparison
  let comparison := if rest.isEmpty then first else .compare first rest
  pure (nots.foldr (fun _ t => .unary .not t) comparison)

/-- Conjunctions. -/
def readConjunction (expr : Reader Term) : Reader Term := do
  let (first, rest) ← chain (readNegated expr) (keyword "and")
  pure (rest.foldl (fun left next => .and left next.2) first)

/-- Disjunctions. -/
def readDisjunction (expr : Reader Term) : Reader Term := do
  let (first, rest) ← chain (readConjunction expr) (keyword "or")
  pure (rest.foldl (fun left next => .or left next.2) first)

/-- A function of named parameters. -/
def readLambda (expr : Reader Term) : Reader Term := do
  keyword "lambda"
  let params ← sepBy readName (symbol ",") <|> pure []
  symbol ":"
  let body ← expr
  pure (.lambda params body)

/-- A disjunction, or a choice between two values. -/
def readConditional (expr : Reader Term) : Reader Term := do
  let value ← readDisjunction expr
  (do
    keyword "if"
    let test ← readDisjunction expr
    keyword "else"
    let alternative ← expr
    pure (.conditional test value alternative)) <|> pure value

/-- An expression whose nesting is at most so deep. -/
def readTerm : Nat → Reader Term
  | 0 => failure
  | depth + 1 => readLambda (readTerm depth) <|> readConditional (readTerm depth)

/-- An expression. Nested expressions are shorter, so the length of the text bounds their depth. -/
def readExpression : Reader Term := do
  let c ← get
  readTerm (c.rest.length + 1)

/-- The term that a whole text stands for, and the first numeral that does not fit. -/
def Term.read? (text : String) : Option (Term × Option Misfit) :=
  readAll (blanks *> readExpression) text

/-- A line of a section. -/
def readAssignment : Reader Assignment := do
  let name ← readName
  symbol "="
  lookahead fun cs => cs.head? != some '='
  let value ← readExpression
  pure ⟨name, value⟩

/-- The assignments that a whole text stands for, and the first numeral that does not fit. -/
def readSection? (text : String) : Option (List Assignment × Option Misfit) :=
  readAll (blanks *> many readAssignment) text

end Packrat.Host
