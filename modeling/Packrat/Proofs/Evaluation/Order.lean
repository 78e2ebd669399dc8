import Packrat.Host.Eval

/-
**The order of values and their equality.**

Two values that have an order have the opposite order when they change places.  They are equal if
neither comes before the other, with one exception: where the order counts a truth value as a number,
equality tells the two apart.  So `True <= 1` and `1 <= True` both hold, and `True == 1` does not.

Main definitions:

* `Packrat.Value.Coexist` — values in which a list of one identity is one list;
* `Packrat.Value.aligned` — values in which truth values stand against truth values only;
* `Packrat.Host.Term.neither` — the term `x <= y and y <= x`.

Main results:

* `Packrat.Host.compareFloats?_eq` — floats are ordered as the numbers that they stand for;
* `Packrat.Host.compareValues?_swap` — the order of two values that change places;
* `Packrat.Host.eq_of_compareValues?` — equality of values that have an order;
* `Packrat.Host.comparison_agrees` — **the order of two values agrees with their equality, but for
  truth values that are compared with numbers**.
-/

set_option autoImplicit false

namespace Packrat

open Host

/-! ### Floats, texts and bytes -/

namespace Host

open Float.Model in
theorem compare_swap_unpacked (a b : UnpackedFloat) :
    b.compare a = (a.compare b).map Ordering.swap := by
  cases a with
  | notANumber => cases b <;> rfl
  | infinity s =>
      cases b with
      | infinity t => cases s <;> cases t <;> rfl
      | finite t => cases s <;> cases t <;> rfl
      | _ => cases s <;> rfl
  | zero s =>
      cases b with
      | infinity t => cases t <;> rfl
      | finite t => cases t <;> rfl
      | _ => rfl
  | finite s m e pos =>
      cases b with
      | infinity t => cases s <;> cases t <;> rfl
      | finite t n f pos' =>
          have size : (compare f e).then (compare n m) = ((compare e f).then (compare m n)).swap := by
            rw [Ordering.swap_then, Int.compare_swap, Nat.compare_swap]
          cases s with
          | positive =>
              cases t with
              | positive => exact congrArg some size
              | negative => rfl
          | negative =>
              cases t with
              | positive => rfl
              | negative => exact congrArg (fun o => some o.swap) size
      | _ => cases s <;> rfl

/-- Floats are ordered as the numbers that they stand for. -/
theorem compareFloats?_eq (a b : Float) : compareFloats? a b = a.toModel.compare b.toModel := by
  have less (x y : Float) : (x < y) = (x.toModel.compare y.toModel = some .lt) := by
    show (decide (x.toModel < y.toModel) = true) = _
    rw [decide_eq_true_iff]
    show ((x.toModel.unpack.compare y.toModel.unpack == some .lt) = true) = _
    rw [beq_iff_eq]
    rfl
  have same : (a == b) = (a.toModel.compare b.toModel == some .eq) := rfl
  have swap : b.toModel.compare a.toModel = (a.toModel.compare b.toModel).map Ordering.swap :=
    compare_swap_unpacked _ _
  simp only [compareFloats?, less, same, swap]
  cases a.toModel.compare b.toModel with
  | none => rfl
  | some o => cases o <;> rfl

theorem compareFloats?_swap (a b : Float) :
    compareFloats? b a = (compareFloats? a b).map Ordering.swap := by
  rw [compareFloats?_eq, compareFloats?_eq]
  exact compare_swap_unpacked _ _

theorem float_beq_of_compare {a b : Float} {o : Ordering} (h : compareFloats? a b = some o) :
    (a == b) = (o == .eq) := by
  have same : (a == b) = (a.toModel.compare b.toModel == some .eq) := rfl
  rw [same, ← compareFloats?_eq, h]
  rfl

/-- In a lawful order equality is what the order says. -/
theorem beq_eq_compare {α : Type} [Ord α] [BEq α] [LawfulBEq α] [Std.LawfulEqOrd α] (a b : α) :
    (a == b) = (compare a b == .eq) := by
  rw [Bool.eq_iff_iff, beq_iff_eq, beq_iff_eq, Std.LawfulEqOrd.compare_eq_iff_eq]

theorem compareBytes_swap (as bs : List UInt8) : compareBytes bs as = (compareBytes as bs).swap := by
  induction as generalizing bs with
  | nil => cases bs <;> rfl
  | cons a as ih =>
      cases bs with
      | nil => rfl
      | cons b bs => rw [compareBytes, compareBytes, ih, Ordering.swap_then, Nat.compare_swap]

theorem bytes_beq_eq_compare (as bs : List UInt8) : (as == bs) = (compareBytes as bs == .eq) := by
  induction as generalizing bs with
  | nil => cases bs <;> rfl
  | cons a as ih =>
      cases bs with
      | nil => rfl
      | cons b bs =>
          have head : (a == b) = (compare a.toNat b.toNat == .eq) := by
            rw [← beq_eq_compare, Bool.eq_iff_iff, beq_iff_eq, beq_iff_eq, UInt8.toNat_inj]
          rw [List.cons_beq_cons, head, compareBytes, ih]
          cases compare a.toNat b.toNat <;> rfl

/-! ### The order the other way round -/

mutual

/-- Values that change places have the opposite order. -/
theorem compareValues?_swap (a b : Value) :
    compareValues? b a = (compareValues? a b).map Ordering.swap := by
  cases a with
  | list i xs =>
      cases b with
      | list j ys => rw [compareValues?, compareValues?, compareLists?_swap xs ys]
      | _ => simp only [compareValues?, toFloat?, Option.map_none]
  | int m =>
      cases b with
      | int n => rw [compareValues?, compareValues?, Option.map_some, Int.compare_swap]
      | _ => simp only [compareValues?, toFloat?, Option.map_none, compareFloats?_swap m.toFloat]
  | float x => cases b <;> simp only [compareValues?, toFloat?, Option.map_none, compareFloats?_swap x]
  | bool p =>
      cases b <;> simp only [compareValues?, toFloat?, Option.map_none,
        compareFloats?_swap (if p then 1.0 else 0.0)]
  | str s =>
      cases b with
      | str t => rw [compareValues?, compareValues?, Option.map_some, ← Std.OrientedOrd.eq_swap]
      | _ => simp only [compareValues?, toFloat?, Option.map_none]
  | bytes bs =>
      cases b with
      | bytes cs => rw [compareValues?, compareValues?, Option.map_some, compareBytes_swap]
      | _ => simp only [compareValues?, toFloat?, Option.map_none]
  | _ => cases b <;> simp only [compareValues?, toFloat?, Option.map_none]

theorem compareLists?_swap (xs ys : List Value) :
    compareLists? ys xs = (compareLists? xs ys).map Ordering.swap := by
  match xs, ys with
  | [], [] => rw [compareLists?]; rfl
  | [], _ :: _ => rw [compareLists?, compareLists?]; rfl
  | _ :: _, [] => rw [compareLists?, compareLists?]; rfl
  | x :: xs, y :: ys =>
      rw [compareLists?, compareLists?, compareValues?_swap x y, compareLists?_swap xs ys]
      -- The same items decide on both sides, or none of them does.
      match compareValues? x y with
      | none => rfl
      | some .lt => rfl
      | some .eq => rfl
      | some .gt => rfl

end

end Host

/-! ### Truth values and numbers -/

namespace Value

mutual

/-- No truth value stands against a number where two values are compared. -/
def aligned : Value → Value → Bool
  | .bool _, .int _ | .bool _, .float _ | .int _, .bool _ | .float _, .bool _ => false
  | .list _ xs, .list _ ys => alignedAll xs ys
  | _, _ => true

def alignedAll : List Value → List Value → Bool
  | x :: xs, y :: ys => aligned x y && alignedAll xs ys
  | _, _ => true

end

-- The order counts a truth value as a number, and equality does not.
example : compareValues? (.bool true) (.float 1.0) = some .eq ∧
    (Value.bool true).eq (.float 1.0) = false := by decide

mutual

theorem aligned_self : (v : Value) → v.aligned v = true
  | .list _ items => by rw [aligned, alignedAll_self items]
  | .none | .bool _ | .int _ | .float _ | .str _ | .bytes _ | .node _ _ _ _ | .func _ _
  | .parser _ _ _ _ | .failure _ => rfl

theorem alignedAll_self : (vs : List Value) → alignedAll vs vs = true
  | [] => rfl
  | v :: vs => by rw [alignedAll, aligned_self v, alignedAll_self vs]; rfl

end

/-! ### Lists and their identities -/

mutual

/-- The lists that a value is made of, each with its identity. -/
def lists : Value → List (Nat × List Value)
  | .list id items => (id, items) :: listsAll items
  | _ => []

def listsAll : List Value → List (Nat × List Value)
  | [] => []
  | v :: vs => lists v ++ listsAll vs

end

/-- Lists of one identity are one list, in whichever of two values they are. -/
def Coexist (a b : Value) : Prop := ∀ p ∈ a.lists, ∀ q ∈ b.lists, p.1 = q.1 → p.2 = q.2

/-- The same of the items of two lists. -/
def CoexistAll (xs ys : List Value) : Prop :=
  ∀ p ∈ listsAll xs, ∀ q ∈ listsAll ys, p.1 = q.1 → p.2 = q.2

section

variable {i j : Nat} {x y : Value} {xs ys : List Value}

theorem Coexist.items (h : Coexist (.list i xs) (.list j ys)) : CoexistAll xs ys :=
  fun p hp q hq => h p (by rw [lists]; exact .tail _ hp) q (by rw [lists]; exact .tail _ hq)

/-- A list that is found under one identity on both sides is the same list. -/
theorem Coexist.eq_of_id (h : Coexist (.list i xs) (.list i ys)) : xs = ys :=
  h (i, xs) (by rw [lists]; exact .head _) (i, ys) (by rw [lists]; exact .head _) rfl

theorem CoexistAll.head (h : CoexistAll (x :: xs) (y :: ys)) : Coexist x y :=
  fun p hp q hq => h p (by rw [listsAll]; exact List.mem_append_left _ hp) q
    (by rw [listsAll]; exact List.mem_append_left _ hq)

theorem CoexistAll.tail (h : CoexistAll (x :: xs) (y :: ys)) : CoexistAll xs ys :=
  fun p hp q hq => h p (by rw [listsAll]; exact List.mem_append_right _ hp) q
    (by rw [listsAll]; exact List.mem_append_right _ hq)

end

end Value

/-! ### Equality -/

namespace Host

open Value

/-- A list has no other order to itself than that of equals. -/
theorem eq_of_compareLists?_self {xs : List Value} {o : Ordering}
    (h : compareLists? xs xs = some o) : o = .eq := by
  have swap := compareLists?_swap xs xs
  rw [h, Option.map_some, Option.some_inj] at swap
  cases o with
  | eq => rfl
  | lt | gt => cases swap

mutual

/-- Values that have an order are equal if neither comes first, and no truth value stands against a
number. -/
theorem eq_of_compareValues? {a b : Value} {o : Ordering} (coexist : Coexist a b)
    (h : compareValues? a b = some o) : a.eq b = (o == .eq && a.aligned b) := by
  cases a with
  | list i xs =>
      cases b with
      | list j ys =>
          rw [compareValues?] at h
          rw [Value.eq, aligned]
          by_cases same : i = j
          · -- One list: it is equal to itself whatever it holds.
            subst same
            obtain rfl := coexist.eq_of_id
            rw [eq_of_compareLists?_self h, alignedAll_self]
            simp
          · rw [beq_eq_false_iff_ne.2 same, Bool.false_or]
            exact eqAll_of_compareLists? coexist.items h
      | _ => simp only [compareValues?, toFloat?, reduceCtorEq] at h
  | int m =>
      cases b with
      | int n =>
          obtain rfl : compare m.toInt n.toInt = o := by rwa [compareValues?, Option.some_inj] at h
          have same : (m == n) = (m.toInt == n.toInt) := by
            rw [Bool.eq_iff_iff, beq_iff_eq, beq_iff_eq, Int64.toInt_inj]
          simp only [Value.eq, same, beq_eq_compare, aligned, Bool.and_true]
      | float y =>
          simp only [compareValues?, toFloat?] at h
          simp only [Value.eq, float_beq_of_compare h, aligned, Bool.and_true]
      | bool q => simp only [Value.eq, aligned, Bool.and_false]
      | _ => simp only [compareValues?, toFloat?, reduceCtorEq] at h
  | float x =>
      cases b with
      | int n =>
          simp only [compareValues?, toFloat?] at h
          -- Equality asks with the integer on the left, wherever it stands.
          have swap : compareFloats? n.toFloat x = some o.swap := by
            rw [compareFloats?_swap, h, Option.map_some]
          simp only [Value.eq, float_beq_of_compare swap, aligned, Bool.and_true]
          cases o <;> rfl
      | float y =>
          simp only [compareValues?, toFloat?] at h
          simp only [Value.eq, float_beq_of_compare h, aligned, Bool.and_true]
      | bool q => simp only [Value.eq, aligned, Bool.and_false]
      | _ => simp only [compareValues?, toFloat?, reduceCtorEq] at h
  | bool p =>
      cases b with
      | int n => simp only [Value.eq, aligned, Bool.and_false]
      | float y => simp only [Value.eq, aligned, Bool.and_false]
      | bool q =>
          -- Two truth values are compared as floats, and there are four cases.
          simp only [compareValues?, toFloat?] at h
          simp only [Value.eq, ← float_beq_of_compare h, aligned, Bool.and_true]
          cases p <;> cases q <;> decide
      | _ => simp only [compareValues?, toFloat?, reduceCtorEq] at h
  | str s =>
      cases b with
      | str t =>
          obtain rfl : compare s t = o := by rwa [compareValues?, Option.some_inj] at h
          simp only [Value.eq, beq_eq_compare, aligned, Bool.and_true]
      | _ => simp only [compareValues?, toFloat?, reduceCtorEq] at h
  | bytes bs =>
      cases b with
      | bytes cs =>
          obtain rfl : compareBytes bs cs = o := by rwa [compareValues?, Option.some_inj] at h
          simp only [Value.eq, bytes_beq_eq_compare, aligned, Bool.and_true]
      | _ => simp only [compareValues?, toFloat?, reduceCtorEq] at h
  | _ => cases b <;> simp only [compareValues?, toFloat?, reduceCtorEq] at h

theorem eqAll_of_compareLists? {xs ys : List Value} {o : Ordering} (coexist : CoexistAll xs ys)
    (h : compareLists? xs ys = some o) : eqAll xs ys = (o == .eq && alignedAll xs ys) := by
  match xs, ys with
  | [], [] =>
      obtain rfl : .eq = o := by rwa [compareLists?, Option.some_inj] at h
      rfl
  | [], _ :: _ =>
      obtain rfl : .lt = o := by rwa [compareLists?, Option.some_inj] at h
      rfl
  | _ :: _, [] =>
      obtain rfl : .gt = o := by rwa [compareLists?, Option.some_inj] at h
      rfl
  | x :: xs, y :: ys =>
      rw [compareLists?] at h
      rw [eqAll, alignedAll]
      cases first : compareValues? x y with
      | none => rw [first] at h; cases h
      | some p =>
          have head := eq_of_compareValues? coexist.head first
          rw [first] at h
          cases p with
          | eq =>
              have tail := eqAll_of_compareLists? coexist.tail h
              rw [head, tail]
              cases o <;> simp
          | lt | gt =>
              -- The first items that differ decide, whatever is behind them.
              obtain rfl := Option.some.inj h
              rw [head]
              rfl

end

/-! ### Comparisons of host code -/

/-- The term `x <= y and y <= x`. -/
def Term.neither (x y : String) : Term :=
  .and (.compare (.name x) [(.le, .name y)]) (.compare (.name y) [(.le, .name x)])

/-- The term `x == y`. -/
def Term.equal (x y : String) : Term := .compare (.name x) [(.eq, .name y)]

section

variable (natives : Natives) {env : Env} {x y : String} {a b : Value} {o : Ordering}

theorem Term.run_compare (op : Comparison) (left : env.lookup x = some a)
    (right : env.lookup y = some b) (n : Nat) :
    ((Term.compare (.name x) [(op, .name y)]).eval natives env).run n =
      (compareOp op a b).map fun holds => (.bool holds, n) := by
  rw [Term.eval, Term.evalIn, Term.evalWith, Term.evalWith_name _ _ _ _ _ left, pure_bind,
    evalComparisons, Term.evalWith_name _ _ _ _ _ right, pure_bind]
  dsimp only
  cases compareOp op a b with
  | error e => rfl
  | ok holds => cases holds <;> rfl

/-- `x <= y` holds unless the first value comes behind the second. -/
theorem Term.run_le (left : env.lookup x = some a) (right : env.lookup y = some b)
    (ordered : compareValues? a b = some o) (n : Nat) :
    ((Term.compare (.name x) [(.le, .name y)]).eval natives env).run n =
      .ok (.bool o.isLE, n) := by
  rw [Term.run_compare natives _ left right, compareOp, ordered]
  rfl

theorem Term.run_neither (left : env.lookup x = some a) (right : env.lookup y = some b)
    (ordered : compareValues? a b = some o) (n : Nat) :
    ((Term.neither x y).eval natives env).run n = .ok (.bool (o == .eq), n) := by
  have swapped : compareValues? b a = some o.swap := by
    rw [compareValues?_swap, ordered, Option.map_some]
  have first := Term.run_le natives left right ordered n
  have second := Term.run_le natives right left swapped n
  rw [Term.eval, Term.evalIn] at first second
  rw [Term.neither, Term.eval, Term.evalIn, Term.evalWith, StateT.run_bind, first]
  show StateT.run (if o.isLE then _ else _) n = _
  -- Where the first comparison fails the second one is not evaluated.
  cases o with
  | lt => exact second
  | eq => exact second
  | gt => rfl

/-- **The order of two values agrees with their equality**, but for truth values that are compared with
numbers: in the other direction it is the opposite order, values are equal exactly if neither comes
first and no truth value stands against a number, and `x <= y and y <= x` holds exactly if neither comes
first. -/
theorem comparison_agrees (left : env.lookup x = some a)
    (right : env.lookup y = some b) (coexist : a.Coexist b)
    (ordered : compareValues? a b = some o) (n : Nat) :
    compareValues? b a = some o.swap ∧ a.eq b = (o == .eq && a.aligned b) ∧
      ((Term.neither x y).eval natives env).run n = .ok (.bool (o == .eq), n) ∧
      ((Term.equal x y).eval natives env).run n = .ok (.bool (o == .eq && a.aligned b), n) := by
  have same := eq_of_compareValues? coexist ordered
  refine ⟨by rw [compareValues?_swap, ordered, Option.map_some], same,
    Term.run_neither natives left right ordered n, ?_⟩
  rw [Term.equal, Term.run_compare natives _ left right, compareOp, same]
  rfl

end

/-- Two lists with the same contents: a number, and a list with a truth value and a text. -/
def twinEnv : Env :=
  [("x", .list 0 [.int 7, .list 1 [.bool true, .str "é"]]),
    ("y", .list 2 [.int 7, .list 3 [.bool true, .str "é"]])]

/-- The two lists coexist, neither comes first, and they are equal. -/
theorem comparison_agrees_twins : ∃ a b, twinEnv.lookup "x" = some a ∧
    twinEnv.lookup "y" = some b ∧ a.Coexist b ∧ compareValues? a b = some .eq ∧
    compareValues? b a = some .eq ∧ a.eq b = true ∧
    ((Term.neither "x" "y").eval [] twinEnv).run 4 = .ok (.bool true, 4) ∧
    ((Term.equal "x" "y").eval [] twinEnv).run 4 = .ok (.bool true, 4) := by
  have left : twinEnv.lookup "x" = some (.list 0 [.int 7, .list 1 [.bool true, .str "é"]]) := rfl
  have right : twinEnv.lookup "y" = some (.list 2 [.int 7, .list 3 [.bool true, .str "é"]]) := rfl
  have coexist : Value.Coexist (.list 0 [.int 7, .list 1 [.bool true, .str "é"]])
      (.list 2 [.int 7, .list 3 [.bool true, .str "é"]]) := by
    simp [Value.Coexist, Value.lists, Value.listsAll]
  have ordered : compareValues? (.list 0 [.int 7, .list 1 [.bool true, .str "é"]])
      (.list 2 [.int 7, .list 3 [.bool true, .str "é"]]) = some .eq := by
    decide
  exact ⟨_, _, left, right, coexist, ordered, comparison_agrees [] left right coexist ordered 4⟩

end Host

end Packrat
