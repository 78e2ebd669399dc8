import Packrat.Proofs.Meaning.Expr

/-
**Chains of operators, and the trees built from them.**

A level of operators reads the longest chain that there is and groups it by its kind.  What counts
as longest: a chain ends where the next operator or the operand behind it fails, and then neither of
them is read; behind a step that reads nothing; and behind the first step where operators do not
associate.  A tree keeps apart the nodes that a level has added from the operands they stand around,
which may be trees of the levels below.

Main definitions:

* `Packrat.Grouping` — operands and operators with the nodes put around them;
* `Packrat.Chain` — a longest chain;
* `Packrat.Fixity.Reads` — **what a level reads, and the tree it makes of it**.

Main results:

* `Packrat.Fixity.Reads.inOrder` — a tree read from left to right is what the level has read;
* `Packrat.Scene.levelOf_eq_success` — a level succeeds exactly with the tree of its chain.
-/

set_option autoImplicit false

namespace Packrat

/-! ### Trees -/

/-- Operands and operators with the nodes that a level has put around them, and the identities of
these nodes. -/
inductive Grouping where
  | operand (v : Value)
  | prefixed (id : Nat) (op : Value) (right : Grouping)
  | postfixed (id : Nat) (left : Grouping) (op : Value)
  | infixed (id : Nat) (left : Grouping) (op : Value) (right : Grouping)

namespace Grouping

/-- The tree as a value. -/
def value : Grouping → Value
  | operand v => v
  | prefixed id op right => .node id .prefixOp [op, right.value] none
  | postfixed id left op => .node id .postfixOp [left.value, op] none
  | infixed id left op right => .node id .infixOp [left.value, op, right.value] none

/-- The operands and operators of a tree from left to right. -/
def inOrder : Grouping → List Value
  | operand v => [v]
  | prefixed _ op right => op :: right.inOrder
  | postfixed _ left op => left.inOrder ++ [op]
  | infixed _ left op right => left.inOrder ++ op :: right.inOrder

/-- Operators before an operand, the first outermost. The innermost node is made first. -/
def nestPrefix (v : Value) (identity : Nat) : List (Value × Nat) → Grouping
  | [] => .operand v
  | (op, _) :: ops => .prefixed (identity + ops.length) op (nestPrefix v identity ops)

/-- Operators behind an operand, the first innermost. -/
def nestPostfix (t : Grouping) (op : Value) (identity : Nat) : Grouping := .postfixed identity t op

/-- Operators with operands behind them, the first innermost. -/
def nestLeft (t : Grouping) (pair : Value × Value) (identity : Nat) : Grouping :=
  .infixed identity t pair.1 (.operand pair.2)

/-- Operators with operands behind them, the first outermost. The innermost node is made first. -/
def nestRight (v : Value) (identity : Nat) : List ((Value × Value) × Nat) → Grouping
  | [] => .operand v
  | ((op, right), _) :: pairs =>
    .infixed (identity + pairs.length) (.operand v) op (nestRight right identity pairs)

/-- The operators and operands of pairs from left to right. -/
def flat (pairs : List ((Value × Value) × Nat)) : List Value :=
  pairs.flatMap fun pair => [pair.1.1, pair.1.2]

variable (t : Grouping) (v : Value) (identity : Nat)

theorem inOrder_nestPrefix (ops : List (Value × Nat)) :
    (nestPrefix v identity ops).inOrder = ops.map (·.1) ++ [v] := by
  induction ops with
  | nil => rfl
  | cons op ops ih => simp [nestPrefix, inOrder, ih]

theorem inOrder_nestPostfix (ops : List (Value × Nat)) :
    (ops.foldl (fun t op => nestPostfix t op.1 op.2) t).inOrder = t.inOrder ++ ops.map (·.1) := by
  induction ops generalizing t with
  | nil => simp
  | cons op ops ih =>
      rw [List.foldl_cons, ih]
      simp [nestPostfix, inOrder]

theorem inOrder_nestLeft (pairs : List ((Value × Value) × Nat)) :
    (pairs.foldl (fun t pair => nestLeft t pair.1 pair.2) t).inOrder = t.inOrder ++ flat pairs := by
  induction pairs generalizing t with
  | nil => simp [flat]
  | cons pair pairs ih =>
      rw [List.foldl_cons, ih]
      simp [nestLeft, inOrder, flat]

theorem inOrder_nestRight (pairs : List ((Value × Value) × Nat)) :
    (nestRight v identity pairs).inOrder = v :: flat pairs := by
  induction pairs generalizing v with
  | nil => rfl
  | cons pair pairs ih =>
      obtain ⟨⟨op, right⟩, _⟩ := pair
      simp [nestRight, inOrder, ih, flat]

end Grouping

/-! ### Chains -/

/-- The store behind a new node. -/
def Store.drawn (s : Store) (nodes : Nat) : Store := { s with identity := s.identity + nodes }

/-- A reading ends with a success. -/
def Reading.Finds (r : Nat → Reading (Verdict Value)) (pos : Nat) (s : Store) (v : Value)
    (stop : Nat) (s' : Store) : Prop := r pos s = some (.ok (.success v stop, s'))

/-- A reading ends with a failure. -/
def Reading.Misses (r : Nat → Reading (Verdict Value)) (pos : Nat) (s s' : Store) : Prop :=
  ∃ entry place, r pos s = some (.ok (.failure entry place, s'))

section

variable [Regex.Engine] {scene : Scene} {tag : Tag} {value : List UInt8} {binary : Bool} {env : Env}
variable {l : Layout} {pos : Nat}

/-- A literal finds the bytes that it stands for. -/
theorem Expr.finds_literal (plain : scene.memoize = false)
    (here : bytesAt scene.bytes pos value = true) {v : Value}
    (cut : Input.excise scene.isBinary scene.bytes pos (pos + value.length) = v) (s : Store) :
    Reading.Finds ((Expr.str tag value ⟨false, binary, false⟩).reads scene env l) pos s v
      (pos + value.length) s := by
  rw [Reading.Finds, reads_literal plain, if_pos here, ← cut]
  rfl

/-- A literal misses any other bytes. -/
theorem Expr.misses_literal (plain : scene.memoize = false)
    (other : bytesAt scene.bytes pos value = false) (s : Store) :
    Reading.Misses ((Expr.str tag value ⟨false, binary, false⟩).reads scene env l) pos s s := by
  rw [Reading.Misses, reads_literal plain, if_neg (by simp [other])]
  exact ⟨_, _, rfl⟩

end

/-- An attempt to read an operator. -/
inductive TriesOperator (operator : Nat → Reading (Verdict Value)) (pos : Nat) (s : Store) :
    Option (Value × Nat) → Store → Prop
  | found {op : Value} {stop : Nat} {s' : Store} (finds : Reading.Finds operator pos s op stop s') :
      TriesOperator operator pos s (some (op, stop)) s'
  | missed {s' : Store} (misses : Reading.Misses operator pos s s') :
      TriesOperator operator pos s none s'

@[simp] theorem triesOperator_some {operator : Nat → Reading (Verdict Value)} {pos stop : Nat}
    {s s' : Store} {op : Value} :
    TriesOperator operator pos s (some (op, stop)) s' ↔ Reading.Finds operator pos s op stop s' :=
  ⟨fun | .found finds => finds, .found⟩

@[simp] theorem triesOperator_none {operator : Nat → Reading (Verdict Value)} {pos : Nat}
    {s s' : Store} : TriesOperator operator pos s none s' ↔ Reading.Misses operator pos s s' :=
  ⟨fun | .missed misses => misses, .missed⟩

/-- An attempt to read an operator and an operand behind it; neither is read where one fails. -/
inductive TriesPair (operator operand : Nat → Reading (Verdict Value)) (pos : Nat) (s : Store) :
    Option ((Value × Value) × Nat) → Store → Prop
  | found {op right : Value} {between stop : Nat} {s₁ s' : Store}
      (first : Reading.Finds operator pos s op between s₁)
      (second : Reading.Finds operand between s₁ right stop s') :
      TriesPair operator operand pos s (some ((op, right), stop)) s'
  | noOperator {s' : Store} (misses : Reading.Misses operator pos s s') :
      TriesPair operator operand pos s none s'
  | noOperand {op : Value} {between : Nat} {s₁ s' : Store}
      (first : Reading.Finds operator pos s op between s₁)
      (misses : Reading.Misses operand between s₁ s') :
      TriesPair operator operand pos s none s'

/-- The longest chain from a place, found in so many rounds at most; with each part goes the
identity behind it, which the node around it takes where nodes are made at once. -/
inductive Chain {α : Type} (tries : Nat → Store → Option (α × Nat) → Store → Prop) (once : Bool)
    (nodes : Nat) : Nat → Nat → Store → List (α × Nat) → Nat → Store → Prop
  /-- Nothing more is found. -/
  | ends {rounds pos : Nat} {s s' : Store} (missed : tries pos s none s') :
      Chain tries once nodes (rounds + 1) pos s [] pos s'
  /-- The chain stops behind a part that is empty, or is all there may be. -/
  | last {rounds pos stop : Nat} {s s' : Store} {x : α} (found : tries pos s (some (x, stop)) s')
      (stops : once = true ∨ stop = pos) :
      Chain tries once nodes (rounds + 1) pos s [(x, s'.identity)] stop (s'.drawn nodes)
  /-- The chain goes on behind a part. -/
  | more {rounds pos between stop : Nat} {s s₁ s' : Store} {x : α} {parts : List (α × Nat)}
      (found : tries pos s (some (x, between)) s₁) (goes : ¬(once = true ∨ between = pos))
      (rest : Chain tries once nodes rounds between (s₁.drawn nodes) parts stop s') :
      Chain tries once nodes (rounds + 1) pos s ((x, s₁.identity) :: parts) stop s'

/-- Operators that do not associate make no chain of more than one part. -/
theorem Chain.length_le_one {α : Type} {tries : Nat → Store → Option (α × Nat) → Store → Prop}
    {nodes rounds pos stop : Nat} {s s' : Store} {parts : List (α × Nat)}
    (h : Chain tries true nodes rounds pos s parts stop s') : parts.length ≤ 1 := by
  cases h with
  | ends => exact Nat.zero_le _
  | last => exact Nat.le_refl _
  | more _ goes => exact absurd (.inl rfl) goes

/-! ### Levels -/

/-- What a level reads from a place: its tree, and the operands and operators in the order in which
they were read. -/
inductive Fixity.Reads (operator operand : Nat → Reading (Verdict Value)) (rounds pos : Nat)
    (s : Store) : Fixity → Grouping → List Value → Nat → Store → Prop
  /-- All operators before an operand; their list takes an identity. -/
  | before {ops : List (Value × Nat)} {v : Value} {between stop : Nat} {s₁ s₂ : Store}
      (chain : Chain (TriesOperator operator) false 0 rounds pos (s.drawn 1) ops between s₁)
      (innermost : Reading.Finds operand between s₁ v stop s₂) :
      Fixity.Reads operator operand rounds pos s .prefixOp (.nestPrefix v s₂.identity ops)
        (ops.map (·.1) ++ [v]) stop (s₂.drawn ops.length)
  /-- All operators behind an operand. -/
  | behind {ops : List (Value × Nat)} {v : Value} {between stop : Nat} {s₁ s₂ : Store}
      (first : Reading.Finds operand pos s v between s₁)
      (chain : Chain (TriesOperator operator) false 1 rounds between s₁ ops stop s₂) :
      Fixity.Reads operator operand rounds pos s .postfixOp
        (ops.foldl (fun t op => .nestPostfix t op.1 op.2) (.operand v)) (v :: ops.map (·.1)) stop s₂
  | left {pairs : List ((Value × Value) × Nat)} {v : Value} {between stop : Nat} {s₁ s₂ : Store}
      (first : Reading.Finds operand pos s v between s₁)
      (chain : Chain (TriesPair operator operand) false 1 rounds between s₁ pairs stop s₂) :
      Fixity.Reads operator operand rounds pos s .leftAssoc
        (pairs.foldl (fun t pair => .nestLeft t pair.1 pair.2) (.operand v)) (v :: Grouping.flat pairs)
        stop s₂
  /-- An operator and an operand behind the first one at most. -/
  | once {pairs : List ((Value × Value) × Nat)} {v : Value} {between stop : Nat} {s₁ s₂ : Store}
      (first : Reading.Finds operand pos s v between s₁)
      (chain : Chain (TriesPair operator operand) true 1 rounds between s₁ pairs stop s₂) :
      Fixity.Reads operator operand rounds pos s .nonAssoc
        (pairs.foldl (fun t pair => .nestLeft t pair.1 pair.2) (.operand v)) (v :: Grouping.flat pairs)
        stop s₂
  /-- The list of what is to be grouped takes an identity. -/
  | right {pairs : List ((Value × Value) × Nat)} {v : Value} {between stop : Nat} {s₁ s₂ : Store}
      (first : Reading.Finds operand pos (s.drawn 1) v between s₁)
      (chain : Chain (TriesPair operator operand) false 0 rounds between s₁ pairs stop s₂) :
      Fixity.Reads operator operand rounds pos s .rightAssoc (.nestRight v s₂.identity pairs)
        (v :: Grouping.flat pairs) stop (s₂.drawn pairs.length)

/-- A tree read from left to right is what the level has read: nothing is lost, repeated or
exchanged. -/
theorem Fixity.Reads.inOrder {operator operand : Nat → Reading (Verdict Value)}
    {rounds pos stop : Nat} {s s' : Store} {fixity : Fixity} {t : Grouping} {read : List Value}
    (h : fixity.Reads operator operand rounds pos s t read stop s') : t.inOrder = read := by
  cases h with
  | before => exact Grouping.inOrder_nestPrefix _ _ _
  | behind => exact Grouping.inOrder_nestPostfix _ _
  | left => exact Grouping.inOrder_nestLeft _ _
  | once => exact Grouping.inOrder_nestLeft _ _
  | right => exact Grouping.inOrder_nestRight _ _ _

/-! ### Readings in parts -/

namespace Reading

variable {α β : Type}

theorem bind_eq_ok {r : Reading α} {k : α → Reading β} {s : Store} {out : β × Store} :
    (r >>= k) s = some (.ok out) ↔ ∃ a s₁, r s = some (.ok (a, s₁)) ∧ k a s₁ = some (.ok out) := by
  rw [bind_apply]
  constructor
  · intro h
    split at h
    · exact nomatch h
    · exact nomatch h
    · next a s₁ found => exact ⟨a, s₁, found, h⟩
  · rintro ⟨a, s₁, found, h⟩
    rw [found]
    exact h

theorem pure_eq_ok {a b : α} {s s' : Store} :
    (pure a : Reading α) s = some (.ok (b, s')) ↔ b = a ∧ s' = s :=
  ⟨fun h => by cases h; exact ⟨rfl, rfl⟩, fun ⟨h, h'⟩ => by rw [h, h']; rfl⟩

/-- Another round, or the end of all. -/
theorem turn_eq_ok {c : Prop} [Decidable c] {a b : α} {out : α} {s s' : Store} :
    (if c then pure a else pure b : Reading α) s = some (.ok (out, s')) ↔
      out = (if c then a else b) ∧ s' = s := by
  split <;> exact pure_eq_ok

end Reading

/-! ### Rounds of a level -/

/-- Rounds that read the parts of a chain and add them to what they have. -/
def Prolongs {α β : Type} (tries : Nat → Store → Option (α × Nat) → Store → Prop) (once : Bool)
    (nodes : Nat) (add : β → α → Nat → β) (part : β × Nat → Reading ((β × Nat) ⊕ (β × Nat))) :
    Prop :=
  ∀ b pos s out s', part (b, pos) s = some (.ok (out, s')) ↔
    (out = .inr (b, pos) ∧ tries pos s none s') ∨
    ∃ x stop s₁, tries pos s (some (x, stop)) s₁ ∧ s' = s₁.drawn nodes ∧
      out = if once = true ∨ stop = pos then .inr (add b x s₁.identity, stop)
        else .inl (add b x s₁.identity, stop)

/-- The rounds of a level read a longest chain. -/
theorem Prolongs.repeatFrom {α β : Type} {tries : Nat → Store → Option (α × Nat) → Store → Prop}
    {once : Bool} {nodes : Nat} {add : β → α → Nat → β}
    {part : β × Nat → Reading ((β × Nat) ⊕ (β × Nat))} (h : Prolongs tries once nodes add part)
    {rounds : Nat} {b : β} {pos : Nat} {s : Store} {c : β} {stop : Nat} {s' : Store} :
    Reading.repeatFrom part rounds (b, pos) s = some (.ok ((c, stop), s')) ↔
      ∃ parts, Chain tries once nodes rounds pos s parts stop s' ∧
        c = parts.foldl (fun b x => add b x.1 x.2) b := by
  induction rounds generalizing b pos s with
  | zero =>
      refine ⟨fun found => by simp [Reading.repeatFrom, Reading.exhausted] at found, ?_⟩
      rintro ⟨_, chain, -⟩
      cases chain
  | succ rounds ih =>
      rw [Reading.repeatFrom, Reading.bind_eq_ok]
      constructor
      · rintro ⟨out, s₁, round, found⟩
        rcases (h b pos s out s₁).1 round with ⟨rfl, missed⟩ | ⟨x, place, s₂, tried, rfl, rfl⟩
        · obtain ⟨⟨⟩, rfl⟩ := Reading.pure_eq_ok.1 found
          exact ⟨[], .ends missed, rfl⟩
        · by_cases stops : once = true ∨ place = pos
          · rw [if_pos stops] at found
            obtain ⟨⟨⟩, rfl⟩ := Reading.pure_eq_ok.1 found
            exact ⟨_, .last tried stops, rfl⟩
          · rw [if_neg stops] at found
            obtain ⟨parts, rest, rfl⟩ := ih.1 found
            exact ⟨_, .more tried stops rest, rfl⟩
      · rintro ⟨parts, chain, rfl⟩
        cases chain with
        | ends missed => exact ⟨_, _, (h _ _ _ _ _).2 (.inl ⟨rfl, missed⟩), rfl⟩
        | last tried stops =>
            refine ⟨_, _, (h _ _ _ _ _).2 (.inr ⟨_, _, _, tried, rfl, rfl⟩), ?_⟩
            rw [if_pos stops]
            rfl
        | more tried goes rest =>
            refine ⟨_, _, (h _ _ _ _ _).2 (.inr ⟨_, _, _, tried, rfl, rfl⟩), ?_⟩
            rw [if_neg goes]
            exact ih.2 ⟨_, rest, rfl⟩

namespace Scene

variable {operator operand : Nat → Reading (Verdict Value)} {pos : Nat} {s s' : Store}

theorem prolongs_operators : Prolongs (TriesOperator operator) false 0
    (fun (ops : List Value) op _ => ops ++ [op]) (anotherPrefix operator) := by
  intro ops pos s out s'
  simp only [anotherPrefix, Reading.bind_eq_ok, Bool.false_eq_true, false_or]
  constructor
  · rintro ⟨verdict | verdict, s₁, first, rest⟩
    · exact .inr ⟨_, _, s₁, .found first, (Reading.turn_eq_ok.1 rest).symm⟩
    · obtain ⟨rfl, rfl⟩ := Reading.pure_eq_ok.1 rest
      exact .inl ⟨rfl, .missed ⟨_, _, first⟩⟩
  · rintro (⟨rfl, tried⟩ | ⟨op, stop, s₁, tried, rfl, rfl⟩)
    · obtain ⟨_, _, misses⟩ := triesOperator_none.1 tried
      exact ⟨_, _, misses, rfl⟩
    · exact ⟨_, _, triesOperator_some.1 tried, Reading.turn_eq_ok.2 ⟨rfl, rfl⟩⟩

theorem prolongs_postfix : Prolongs (TriesOperator operator) false 1
    (fun acc op id => .node id .postfixOp [acc, op] none) (anotherPostfix operator) := by
  intro acc pos s out s'
  simp only [anotherPostfix, Reading.bind_eq_ok, Bool.false_eq_true, false_or]
  constructor
  · rintro ⟨verdict | verdict, s₁, first, rest⟩
    · obtain ⟨_, _, ⟨⟩, rest⟩ := Reading.bind_eq_ok.1 rest
      exact .inr ⟨_, _, s₁, .found first, (Reading.turn_eq_ok.1 rest).symm⟩
    · obtain ⟨rfl, rfl⟩ := Reading.pure_eq_ok.1 rest
      exact .inl ⟨rfl, .missed ⟨_, _, first⟩⟩
  · rintro (⟨rfl, tried⟩ | ⟨op, stop, s₁, tried, rfl, rfl⟩)
    · obtain ⟨_, _, misses⟩ := triesOperator_none.1 tried
      exact ⟨_, _, misses, rfl⟩
    · exact ⟨_, _, triesOperator_some.1 tried,
        Reading.bind_eq_ok.2 ⟨_, _, rfl, Reading.turn_eq_ok.2 ⟨rfl, rfl⟩⟩⟩

/-- A pair is read whole or not at all. -/
theorem operatorPair_eq_ok {out : Option (Value × Value × Nat)} :
    operatorPair operator operand pos s = some (.ok (out, s')) ↔
      TriesPair operator operand pos s (out.map fun found => ((found.1, found.2.1), found.2.2)) s' := by
  rw [operatorPair, Reading.bind_eq_ok]
  constructor
  · rintro ⟨verdict | verdict, s₁, first, rest⟩
    · obtain ⟨verdict | verdict, s₂, second, rest⟩ := Reading.bind_eq_ok.1 rest
      · obtain ⟨rfl, rfl⟩ := Reading.pure_eq_ok.1 rest
        exact .found first second
      · obtain ⟨rfl, rfl⟩ := Reading.pure_eq_ok.1 rest
        exact .noOperand first ⟨_, _, second⟩
    · obtain ⟨rfl, rfl⟩ := Reading.pure_eq_ok.1 rest
      exact .noOperator ⟨_, _, first⟩
  · cases out with
    | none =>
        rintro (_ | ⟨_, _, misses⟩ | ⟨first, _, _, misses⟩)
        · exact ⟨_, _, misses, rfl⟩
        · exact ⟨_, _, first, Reading.bind_eq_ok.2 ⟨_, _, misses, rfl⟩⟩
    | some found =>
        rintro (⟨first, second⟩ | _ | _)
        exact ⟨_, _, first, Reading.bind_eq_ok.2 ⟨_, _, second, rfl⟩⟩

theorem prolongs_pairs (once : Bool) : Prolongs (TriesPair operator operand) once 1
    (fun acc pair id => .node id .infixOp [acc, pair.1, pair.2] none)
    (anotherInfix once operator operand) := by
  intro acc pos s out s'
  simp only [anotherInfix, Reading.bind_eq_ok, operatorPair_eq_ok, Bool.or_eq_true, decide_eq_true_eq]
  constructor
  · rintro ⟨_ | ⟨op, right, stop⟩, s₁, tried, rest⟩
    · obtain ⟨rfl, rfl⟩ := Reading.pure_eq_ok.1 rest
      exact .inl ⟨rfl, tried⟩
    · obtain ⟨_, _, ⟨⟩, rest⟩ := Reading.bind_eq_ok.1 rest
      exact .inr ⟨_, _, s₁, tried, (Reading.turn_eq_ok.1 rest).symm⟩
  · rintro (⟨rfl, tried⟩ | ⟨⟨op, right⟩, stop, s₁, tried, rfl, rfl⟩)
    · exact ⟨none, _, tried, rfl⟩
    · exact ⟨some (op, right, stop), _, tried,
        Reading.bind_eq_ok.2 ⟨_, _, rfl, Reading.turn_eq_ok.2 ⟨rfl, rfl⟩⟩⟩

theorem prolongs_link : Prolongs (TriesPair operator operand) false 0
    (fun (chain : List (Value × Value) × Value) pair _ =>
      (chain.1 ++ [(chain.2, pair.1)], pair.2)) (anotherLink operator operand) := by
  rintro ⟨links, last⟩ pos s out s'
  simp only [anotherLink, Reading.bind_eq_ok, operatorPair_eq_ok, Bool.false_eq_true, false_or]
  constructor
  · rintro ⟨_ | ⟨op, right, stop⟩, s₁, tried, rest⟩
    · obtain ⟨rfl, rfl⟩ := Reading.pure_eq_ok.1 rest
      exact .inl ⟨rfl, tried⟩
    · exact .inr ⟨_, _, s₁, tried, (Reading.turn_eq_ok.1 rest).symm⟩
  · rintro (⟨rfl, tried⟩ | ⟨⟨op, right⟩, stop, s₁, tried, rfl, rfl⟩)
    · exact ⟨none, _, tried, rfl⟩
    · exact ⟨some (op, right, stop), _, tried, Reading.turn_eq_ok.2 ⟨rfl, rfl⟩⟩

/-! ### Folds -/

theorem prefixes_run (v : Value) (ops : List (Value × Nat)) (n : Nat) :
    (prefixes v (ops.map (·.1))).run n =
      .ok ((Grouping.nestPrefix v n ops).value, n + ops.length) := by
  induction ops with
  | nil => rfl
  | cons op ops ih =>
      change (prefixes v (ops.map (·.1)) n >>= fun r =>
        (Value.newNode .prefixOp [op.1, r.1] : Host.Eval Value) r.2) = _
      rw [show prefixes v (ops.map (·.1)) n = _ from ih]
      rfl

theorem foldl_append (ops : List (Value × Nat)) (before : List Value) :
    ops.foldl (fun ops op => ops ++ [op.1]) before = before ++ ops.map (·.1) := by
  induction ops generalizing before with
  | nil => simp
  | cons op ops ih =>
      rw [List.foldl_cons, ih]
      simp

theorem foldl_operators (t : Grouping) (ops : List (Value × Nat)) :
    ops.foldl (fun acc op => .node op.2 .postfixOp [acc, op.1] none) t.value =
      (ops.foldl (fun t op => Grouping.nestPostfix t op.1 op.2) t).value := by
  induction ops generalizing t with
  | nil => rfl
  | cons op ops ih => exact ih (Grouping.nestPostfix t op.1 op.2)

theorem foldl_pairs (t : Grouping) (pairs : List ((Value × Value) × Nat)) :
    pairs.foldl (fun acc pair => .node pair.2 .infixOp [acc, pair.1.1, pair.1.2] none) t.value =
      (pairs.foldl (fun t pair => Grouping.nestLeft t pair.1 pair.2) t).value := by
  induction pairs generalizing t with
  | nil => rfl
  | cons pair pairs ih => exact ih (Grouping.nestLeft t pair.1 pair.2)

/-- Operands with the operators behind them, and the last operand. -/
def linked (v : Value) : List ((Value × Value) × Nat) → List (Value × Value) × Value
  | [] => ([], v)
  | ((op, right), _) :: pairs => ((v, op) :: (linked right pairs).1, (linked right pairs).2)

theorem foldl_link (links : List (Value × Value)) (v : Value)
    (pairs : List ((Value × Value) × Nat)) :
    pairs.foldl (fun (chain : List (Value × Value) × Value) pair =>
        (chain.1 ++ [(chain.2, pair.1.1)], pair.1.2)) (links, v) =
      (links ++ (linked v pairs).1, (linked v pairs).2) := by
  induction pairs generalizing links v with
  | nil => simp [linked]
  | cons pair pairs ih =>
      rw [List.foldl_cons, ih]
      simp [linked]

theorem spine_run (v : Value) (pairs : List ((Value × Value) × Nat)) (n : Nat) :
    (spine (linked v pairs).2 (linked v pairs).1).run n =
      .ok ((Grouping.nestRight v n pairs).value, n + pairs.length) := by
  induction pairs generalizing v with
  | nil => rfl
  | cons pair pairs ih =>
      obtain ⟨⟨op, right⟩, id⟩ := pair
      change (spine (linked right pairs).2 (linked right pairs).1 n >>= fun r =>
        (Value.newNode .infixOp [v, op, r.1] : Host.Eval Value) r.2) = _
      rw [show spine _ _ n = _ from ih right]
      rfl

/-! ### Levels succeed with their trees -/

theorem andThen_eq_success {α β : Type} {r : Reading (Verdict α)} {k : α → Nat → Reading (Verdict β)}
    {v : β} {stop : Nat} :
    Reading.andThen r k s = some (.ok (.success v stop, s')) ↔
      ∃ x place s₁, r s = some (.ok (.success x place, s₁)) ∧
        k x place s₁ = some (.ok (.success v stop, s')) := by
  rw [Reading.andThen, Reading.bind_eq_ok]
  constructor
  · rintro ⟨verdict | verdict, s₁, first, rest⟩
    · exact ⟨_, _, s₁, first, rest⟩
    · exact nomatch (Reading.pure_eq_ok.1 rest).1
  · rintro ⟨x, place, s₁, first, rest⟩
    exact ⟨_, s₁, first, rest⟩

variable {scene : Scene} {v : Value} {stop : Nat}

theorem levelOf_prefix : scene.levelOf .prefixOp operator operand pos s =
      some (.ok (.success v stop, s')) ↔
    ∃ t read, Fixity.Reads operator operand scene.rounds pos s .prefixOp t read stop s' ∧
      t.value = v := by
  rw [levelOf, Reading.fresh_bind, Reading.bind_eq_ok]
  constructor
  · rintro ⟨⟨_, between⟩, s₁, repeats, rest⟩
    obtain ⟨ops, chain, rfl⟩ := prolongs_operators.repeatFrom.1 repeats
    obtain ⟨x, place, s₂, innermost, rest⟩ := andThen_eq_success.1 rest
    rw [foldl_append, List.nil_append, Reading.host_bind (prefixes_run x ops s₂.identity)] at rest
    obtain ⟨⟨⟩, rfl⟩ := Reading.pure_eq_ok.1 rest
    exact ⟨_, _, .before chain innermost, rfl⟩
  · rintro ⟨_, _, reads, rfl⟩
    obtain ⟨chain, innermost⟩ := reads
    refine ⟨_, _, prolongs_operators.repeatFrom.2 ⟨_, chain, rfl⟩, ?_⟩
    refine andThen_eq_success.2 ⟨_, _, _, innermost, ?_⟩
    rw [foldl_append, List.nil_append, Reading.host_bind (prefixes_run _ _ _)]
    rfl

theorem levelOf_postfix : scene.levelOf .postfixOp operator operand pos s =
      some (.ok (.success v stop, s')) ↔
    ∃ t read, Fixity.Reads operator operand scene.rounds pos s .postfixOp t read stop s' ∧
      t.value = v := by
  rw [levelOf, andThen_eq_success]
  constructor
  · rintro ⟨x, between, s₁, first, rest⟩
    obtain ⟨⟨_, place⟩, s₂, repeats, rest⟩ := Reading.bind_eq_ok.1 rest
    obtain ⟨⟨⟩, rfl⟩ := Reading.pure_eq_ok.1 rest
    obtain ⟨ops, chain, rfl⟩ := prolongs_postfix.repeatFrom.1 repeats
    exact ⟨_, _, .behind first chain, (foldl_operators (.operand x) ops).symm⟩
  · rintro ⟨_, _, reads, rfl⟩
    cases reads with | behind first chain => ?_
    refine ⟨_, _, _, first, Reading.bind_eq_ok.2 ⟨_, _, prolongs_postfix.repeatFrom.2
      ⟨_, chain, rfl⟩, ?_⟩⟩
    rw [← foldl_operators]
    rfl

/-- An operand with the operators and operands behind it, grouped to the left. -/
theorem levelOf_left (once : Bool) : levelOf.left scene operator operand pos once s =
      some (.ok (.success v stop, s')) ↔
    ∃ x between s₁ pairs, Reading.Finds operand pos s x between s₁ ∧
      Chain (TriesPair operator operand) once 1 scene.rounds between s₁ pairs stop s' ∧
      (pairs.foldl (fun t pair => Grouping.nestLeft t pair.1 pair.2) (.operand x)).value = v := by
  rw [levelOf.left, andThen_eq_success]
  constructor
  · rintro ⟨x, between, s₁, first, rest⟩
    obtain ⟨⟨_, place⟩, s₂, repeats, rest⟩ := Reading.bind_eq_ok.1 rest
    obtain ⟨⟨⟩, rfl⟩ := Reading.pure_eq_ok.1 rest
    obtain ⟨pairs, chain, rfl⟩ := (prolongs_pairs once).repeatFrom.1 repeats
    exact ⟨x, between, s₁, pairs, first, chain, (foldl_pairs (.operand x) pairs).symm⟩
  · rintro ⟨x, between, s₁, pairs, first, chain, rfl⟩
    refine ⟨_, _, _, first, Reading.bind_eq_ok.2 ⟨_, _, (prolongs_pairs once).repeatFrom.2
      ⟨_, chain, rfl⟩, ?_⟩⟩
    rw [← foldl_pairs]
    rfl

theorem levelOf_right : scene.levelOf .rightAssoc operator operand pos s =
      some (.ok (.success v stop, s')) ↔
    ∃ t read, Fixity.Reads operator operand scene.rounds pos s .rightAssoc t read stop s' ∧
      t.value = v := by
  rw [levelOf, Reading.fresh_bind, andThen_eq_success]
  constructor
  · rintro ⟨x, between, s₁, first, rest⟩
    obtain ⟨⟨chain, place⟩, s₂, repeats, rest⟩ := Reading.bind_eq_ok.1 rest
    obtain ⟨pairs, chain, rfl⟩ := prolongs_link.repeatFrom.1 repeats
    rw [foldl_link, List.nil_append] at rest
    dsimp only at rest
    rw [Reading.host_bind (spine_run x pairs s₂.identity)] at rest
    obtain ⟨⟨⟩, rfl⟩ := Reading.pure_eq_ok.1 rest
    exact ⟨_, _, .right first chain, rfl⟩
  · rintro ⟨_, _, reads, rfl⟩
    cases reads with | right first chain => ?_
    refine ⟨_, _, _, first, Reading.bind_eq_ok.2 ⟨_, _, prolongs_link.repeatFrom.2
      ⟨_, chain, rfl⟩, ?_⟩⟩
    rw [foldl_link, List.nil_append]
    dsimp only
    rw [Reading.host_bind (spine_run _ _ _)]
    rfl

/-- A level succeeds exactly with the tree of its longest chain. -/
theorem levelOf_eq_success {fixity : Fixity} :
    scene.levelOf fixity operator operand pos s = some (.ok (.success v stop, s')) ↔
      ∃ t read, fixity.Reads operator operand scene.rounds pos s t read stop s' ∧ t.value = v := by
  cases fixity with
  | prefixOp => exact levelOf_prefix
  | postfixOp => exact levelOf_postfix
  | rightAssoc => exact levelOf_right
  | leftAssoc =>
      rw [levelOf, levelOf_left]
      constructor
      · rintro ⟨_, _, _, _, first, chain, rfl⟩
        exact ⟨_, _, .left first chain, rfl⟩
      · rintro ⟨_, _, reads, rfl⟩
        cases reads with
        | left first chain => exact ⟨_, _, _, _, first, chain, rfl⟩
  | nonAssoc =>
      rw [levelOf, levelOf_left]
      constructor
      · rintro ⟨_, _, _, _, first, chain, rfl⟩
        exact ⟨_, _, .once first chain, rfl⟩
      · rintro ⟨_, _, reads, rfl⟩
        cases reads with
        | once first chain => exact ⟨_, _, _, _, first, chain, rfl⟩

end Scene

end Packrat
