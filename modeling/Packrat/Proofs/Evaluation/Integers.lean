import Mathlib.Algebra.Order.Floor.Ring
import Mathlib.Data.Rat.Floor
import Mathlib.Tactic.FieldSimp
import Mathlib.Tactic.Linarith
import Packrat.Proofs.Evaluation.Names

/-
**Integers of host code.**

Integers are words of 64 bits and no operation on them wraps: what does not fit is an error.  Machine
division rounds towards zero, so the quotient is too large by one where something is left over and the
signs differ, and what is left over then misses the divisor.  The least word by minus one has no
quotient in 64 bits: `//` fails there, and `%` ends the program though nothing is left over.

A term of integers is built from literals and names by sums, differences, products, powers, signs and
absolute values.  It comes to its exact value if the values of all of its parts fit, and else to an
error.  There is one exception: exponents have 32 bits, and with a longer one even the powers of zero
and of units are refused.

Main definitions:

* `Packrat.Host.Fits` — numbers of 64 bits;
* `Packrat.Host.IsRemainder` — what division to the floor leaves over;
* `Packrat.Host.Truncates` — division as a machine does it;
* `Packrat.Host.Floors` — what `//` and `%` come to;
* `Packrat.Host.Term.Worth` — terms of integers and their values;
* `Packrat.Host.Term.Representable` — terms whose parts all have values that fit.

Main results:

* `Packrat.Host.floor_eq` — a quotient that leaves over a remainder is the floor;
* `Packrat.Host.division_floors` — **`//` and `%` divide to the floor**;
* `Packrat.Host.Term.Worth.representable_iff` — a term is representable if its parts are and its own
  value is;
* `Packrat.Host.arithmetic_exact` — **a term of integers comes to its exact value or to an error**.
-/

set_option autoImplicit false

namespace Packrat.Host

/-! ### Numbers that fit -/

/-- A number of 64 bits. -/
def Fits (x : Int) : Prop := -0x8000000000000000 ≤ x ∧ x < 0x8000000000000000

instance (x : Int) : Decidable (Fits x) := inferInstanceAs (Decidable (_ ∧ _))

theorem fits_toInt (a : Int64) : Fits a.toInt := ⟨a.le_toInt, a.toInt_lt⟩

/-- A word that was computed with a result that fits is that result. -/
theorem bmod_of_fits {x : Int} (h : Fits x) : x.bmod (2 ^ 64) = x :=
  Int.bmod_eq_of_le (by simpa using h.1) (by simpa using h.2)

theorem exactly_of_fits {x : Int} (h : Fits x) :
    exactly x = .ok (.int (Int64.ofInt x)) ∧ (Int64.ofInt x).toInt = x := by
  have fit : fit? x = some (Int64.ofInt x) := if_pos h
  exact ⟨by rw [exactly, fit], toInt_of_fit? fit⟩

theorem exactly_of_not_fits {x : Int} (h : ¬ Fits x) : exactly x = .error .overflow := by
  have unfit : fit? x = none := if_neg h
  rw [exactly, unfit]

/-! ### Division to the floor -/

/-- What division to the floor may leave over: nothing, or what has the sign of the divisor and is less
than it. -/
structure IsRemainder (y r : Int) : Prop where
  sign : r = 0 ∨ r.sign = y.sign
  less : |r| < |y|

theorem isRemainder_iff {y r : Int} (h : y ≠ 0) :
    IsRemainder y r ↔ (0 < y ∧ 0 ≤ r ∧ r < y) ∨ (y < 0 ∧ y < r ∧ r ≤ 0) := by
  have sign : (r = 0 ∨ r.sign = y.sign) ↔ (0 < y ∧ 0 ≤ r) ∨ (y < 0 ∧ r ≤ 0) := by
    rcases lt_or_gt_of_ne h with neg | pos
    · rw [Int.sign_eq_neg_one_of_neg neg, Int.sign_eq_neg_one_iff_neg]
      omega
    · rw [Int.sign_eq_one_of_pos pos, Int.sign_eq_one_iff_pos]
      omega
  constructor
  · rintro ⟨sign', less⟩
    rw [Int.abs_eq_natAbs, Int.abs_eq_natAbs] at less
    have := sign.1 sign'
    omega
  · intro within
    refine ⟨sign.2 (by omega), ?_⟩
    rw [Int.abs_eq_natAbs, Int.abs_eq_natAbs]
    omega

/-- A quotient that leaves over a remainder is the floor. -/
theorem floor_eq {x y q r : Int} (h : y ≠ 0) (split : x = y * q + r) (rest : IsRemainder y r) :
    ⌊(x / y : Rat)⌋ = q := by
  have whole : (x / y : Rat) = q + r / y := by
    have : (y : Rat) ≠ 0 := by exact_mod_cast h
    rw [split]
    push_cast
    field_simp
  have part : 0 ≤ (r / y : Rat) ∧ (r / y : Rat) < 1 := by
    rcases (isRemainder_iff h).1 rest with ⟨pos, low, high⟩ | ⟨neg, low, high⟩
    · have pos' : (0 : Rat) < y := by exact_mod_cast pos
      exact ⟨div_nonneg (by exact_mod_cast low) pos'.le,
        (div_lt_one pos').2 (by exact_mod_cast high)⟩
    · have neg' : (y : Rat) < 0 := by exact_mod_cast neg
      exact ⟨div_nonneg_of_nonpos (by exact_mod_cast high) neg'.le,
        (div_lt_one_of_neg neg').2 (by exact_mod_cast low)⟩
  rw [Int.floor_eq_iff, whole]
  exact ⟨by linarith [part.1], by linarith [part.2]⟩

/-- Division as a machine does it: rounded towards zero. -/
structure Truncates (x y q r : Int) : Prop where
  split : x = y * q + r
  less : r.natAbs < y.natAbs
  side : (0 ≤ x → 0 ≤ r) ∧ (x ≤ 0 → r ≤ 0)

theorem truncates_tdiv {x y : Int} (h : y ≠ 0) : Truncates x y (x.tdiv y) (x.tmod y) where
  split := (Int.mul_tdiv_add_tmod x y).symm
  less := by
    rw [Int.natAbs_tmod]
    exact Nat.mod_lt _ (Int.natAbs_pos.2 h)
  side := by
    refine ⟨Int.tmod_nonneg y, fun neg => ?_⟩
    have := Int.tmod_nonneg y (Int.neg_nonneg_of_nonpos neg)
    rw [Int.neg_tmod] at this
    omega

/-- Something is left over, and the signs differ: the quotient was rounded up. -/
def Rounded (x y r : Int) : Prop := r ≠ 0 ∧ ¬ (x < 0 ↔ y < 0)

section

variable {x y q r : Int}

theorem Truncates.isRemainder (h : Truncates x y q r) (exact' : ¬ Rounded x y r) :
    IsRemainder y r := by
  obtain ⟨-, less, side⟩ := h
  refine (isRemainder_iff (by omega)).2 ?_
  rw [Rounded] at exact'
  omega

theorem Truncates.lowered (h : Truncates x y q r) (rounded : Rounded x y r) :
    x = y * (q - 1) + (r + y) ∧ IsRemainder y (r + y) := by
  obtain ⟨split, less, side⟩ := h
  refine ⟨by rw [split]; ring, (isRemainder_iff (by omega)).2 ?_⟩
  rw [Rounded] at rounded
  omega

/-- There is room below a quotient that is not the floor. -/
theorem Truncates.fits_lowered (h : Truncates x y q r) (rounded : Rounded x y r) (hx : Fits x)
    (hq : Fits q) : Fits (q - 1) := by
  obtain ⟨split, less, side⟩ := h
  obtain ⟨left, signs⟩ := rounded
  refine ⟨?_, by have := hq.2; omega⟩
  by_contra low
  obtain rfl : q = -0x8000000000000000 := by have := hq.1; omega
  rw [Fits] at hx
  omega

end

section

variable {a b : Int64}

theorem toInt_ne_zero (h : b ≠ 0) : b.toInt ≠ 0 := fun zero => h (Int64.toInt_inj.1 zero)

/-- Except for the least word and minus one, words are divided as integers. -/
theorem truncates_words (h : b ≠ 0) (plain : ¬ (a = Int64.minValue ∧ b = -1)) :
    quotient? a b = some (a / b) ∧ leftOver a b = .ok (a % b) ∧
      Truncates a.toInt b.toInt (a / b).toInt (a % b).toInt := by
  have test : (a == Int64.minValue && b == -1) = false := by simpa using plain
  refine ⟨by rw [quotient?, test]; rfl, by rw [leftOver, test]; rfl, ?_⟩
  have quotient : (a / b).toInt = a.toInt.tdiv b.toInt := by
    by_cases least : a = Int64.minValue
    · exact Int64.toInt_div_of_ne_right a b fun one => plain ⟨least, one⟩
    · exact Int64.toInt_div_of_ne_left a b least
  rw [quotient, Int64.toInt_mod]
  exact truncates_tdiv (toInt_ne_zero h)

theorem rounded_iff {r : Int64} : (r != 0 && decide (a < 0) != decide (b < 0)) = true ↔
    Rounded a.toInt b.toInt r.toInt := by
  have zero : r ≠ 0 ↔ r.toInt ≠ 0 := not_congr Int64.toInt_inj.symm
  simp only [Rounded, Bool.and_eq_true, bne_iff_ne, zero, ne_eq, decide_eq_decide,
    Int64.lt_iff_toInt_lt, Int64.toInt_zero]

/-- The quotient that host code computes is the floor. -/
theorem floorQuotient_eq (h : b ≠ 0) (plain : ¬ (a = Int64.minValue ∧ b = -1)) :
    ∃ w, floorQuotient a b = .ok (.int w) ∧ w.toInt = ⌊(a.toInt / b.toInt : Rat)⌋ := by
  obtain ⟨quotient, left, truncates⟩ := truncates_words h plain
  refine ⟨_, by rw [floorQuotient, quotient, left]; rfl, ?_⟩
  by_cases rounded : Rounded a.toInt b.toInt (a % b).toInt
  · rw [if_pos (rounded_iff.2 rounded)]
    obtain ⟨split, rest⟩ := truncates.lowered rounded
    rw [floor_eq (toInt_ne_zero h) split rest, Int64.toInt_sub, Int64.toInt_one]
    exact bmod_of_fits (truncates.fits_lowered rounded (fits_toInt a) (fits_toInt _))
  · rw [if_neg (mt rounded_iff.1 rounded)]
    exact (floor_eq (toInt_ne_zero h) truncates.split (truncates.isRemainder rounded)).symm

/-- The remainder that host code computes is that of the floor. -/
theorem floorRemainder_eq (h : b ≠ 0) (plain : ¬ (a = Int64.minValue ∧ b = -1)) :
    ∃ w, floorRemainder a b = .ok (.int w) ∧
      a.toInt = b.toInt * ⌊(a.toInt / b.toInt : Rat)⌋ + w.toInt ∧
      IsRemainder b.toInt w.toInt := by
  obtain ⟨-, left, truncates⟩ := truncates_words h plain
  refine ⟨_, by rw [floorRemainder, left]; rfl, ?_⟩
  have same : Rounded (a % b).toInt b.toInt (a % b).toInt ↔
      Rounded a.toInt b.toInt (a % b).toInt := by
    have := truncates.side
    simp only [Rounded]
    omega
  by_cases rounded : Rounded a.toInt b.toInt (a % b).toInt
  · rw [if_pos (rounded_iff.2 (same.2 rounded))]
    obtain ⟨split, rest⟩ := truncates.lowered rounded
    have fits : Fits ((a % b).toInt + b.toInt) := by
      have := (isRemainder_iff (toInt_ne_zero h)).1 rest
      have := fits_toInt b
      simp only [Fits] at this ⊢
      omega
    rw [Int64.toInt_add, bmod_of_fits fits, floor_eq (toInt_ne_zero h) split rest]
    exact ⟨split, rest⟩
  · rw [if_neg (mt (rounded_iff.1 ·) (mt same.1 rounded))]
    have rest := truncates.isRemainder rounded
    rw [floor_eq (toInt_ne_zero h) truncates.split rest]
    exact ⟨truncates.split, rest⟩


end

/-! ### Division in host code -/

/-- What `//` and `%` come to on two integers. -/
structure Floors (a b : Int64) (quotient remainder : Except Error Value) : Prop where
  zero : b = 0 → quotient = .error .divisionByZero ∧ remainder = .error .divisionByZero
  floor : b ≠ 0 → Fits ⌊(a.toInt / b.toInt : Rat)⌋ →
    ∃ q, quotient = .ok (.int q) ∧ q.toInt = ⌊(a.toInt / b.toInt : Rat)⌋
  overflow : b ≠ 0 → ¬ Fits ⌊(a.toInt / b.toInt : Rat)⌋ → quotient = .error .overflow
  rest : b ≠ 0 → ¬ (a = Int64.minValue ∧ b = -1) → ∃ r, remainder = .ok (.int r) ∧
    a.toInt = b.toInt * ⌊(a.toInt / b.toInt : Rat)⌋ + r.toInt ∧ IsRemainder b.toInt r.toInt
  trap : a = Int64.minValue → b = -1 → remainder = .error (.trap .remainder)

/-- The quotient of the least word by minus one is the only one that does not fit. -/
theorem fits_floor_iff {a b : Int64} (h : b ≠ 0) :
    Fits ⌊(a.toInt / b.toInt : Rat)⌋ ↔ ¬ (a = Int64.minValue ∧ b = -1) := by
  constructor
  · rintro fits ⟨rfl, rfl⟩
    have : (⌊((Int64.minValue : Int64).toInt / (-1 : Int64).toInt : Rat)⌋ : Int) =
        0x8000000000000000 := by
      have one : (-1 : Int64).toInt = -1 := by decide
      rw [Int64.toInt_minValue, one]
      norm_num
    rw [this] at fits
    exact absurd fits (by decide)
  · intro plain
    obtain ⟨w, -, value⟩ := floorQuotient_eq h plain
    exact value ▸ fits_toInt w

theorem floors_integerOp (a b : Int64) :
    Floors a b (integerOp .floorDiv a b) (integerOp .mod a b) := by
  have zero : (b.toInt == 0) = true ↔ b = 0 := by
    rw [beq_iff_eq, ← Int64.toInt_zero, Int64.toInt_inj]
  have plain (h : b ≠ 0) : integerOp .floorDiv a b = floorQuotient a b ∧
      integerOp .mod a b = floorRemainder a b :=
    ⟨if_neg (mt zero.1 h), if_neg (mt zero.1 h)⟩
  refine ⟨fun h => ⟨if_pos (zero.2 h), if_pos (zero.2 h)⟩, fun h fits => ?_, fun h unfit => ?_,
    fun h inside => ?_, ?_⟩
  · rw [(plain h).1]
    exact floorQuotient_eq h ((fits_floor_iff h).1 fits)
  · obtain ⟨rfl, rfl⟩ := not_not.1 (mt (fits_floor_iff h).2 unfit)
    rfl
  · rw [(plain h).2]
    exact floorRemainder_eq h inside
  · rintro rfl rfl
    rfl

/-- Operators on integers and truth values are those on words. -/
theorem binaryOp_of_asInt? (op : BinaryOp) {u v : Value} {a b : Int64} (hu : u.asInt? = some a)
    (hv : v.asInt? = some b) (n : Nat) :
    (binaryOp op u v).run n = (integerOp op a b).map (·, n) := by
  have numbers : binaryOp op u v = liftM (numberOp op u v) := by
    cases u <;> cases v <;> simp [Value.asInt?] at hu hv <;> cases op <;> rfl
  have words : numberOp op u v = integerOp op a b := by rw [numberOp, hu, hv]
  rw [numbers, words]
  cases integerOp op a b <;> rfl

/-- Operands are evaluated from left to right. -/
theorem Term.run_binary (lib : Library) (env : Env) (op : BinaryOp) (left right : Term) (n : Nat) :
    ((Term.binary op left right).evalIn lib env).run n =
      (left.evalIn lib env).run n >>= fun p => (right.evalIn lib env).run p.2 >>= fun q =>
        (binaryOp op p.1 q.1).run q.2 := by
  rw [Term.evalIn, Term.evalWith]
  rfl

/-- An operator on terms that come to integers. -/
theorem Term.evalIn_binary (lib : Library) (env : Env) (op : BinaryOp) {left right : Term}
    {u v : Value} {a b : Int64} {n₀ n₁ n₂ : Nat}
    (first : (left.evalIn lib env).run n₀ = .ok (u, n₁))
    (second : (right.evalIn lib env).run n₁ = .ok (v, n₂))
    (hu : u.asInt? = some a) (hv : v.asInt? = some b) :
    ((Term.binary op left right).evalIn lib env).run n₀ = (integerOp op a b).map (·, n₂) := by
  rw [Term.run_binary, first]
  change ((right.evalIn lib env).run n₁ >>= _) = _
  rw [second]
  exact binaryOp_of_asInt? op hu hv n₂

/-- **Division of integers goes to the floor**: `//` comes to the floor of the quotient, or to an error
if that does not fit, and `%` to what it leaves over. Truth values count as zero and one. Division by
zero is an error of both. The remainder of the least word by minus one, which is zero, is not computed:
there the program ends. -/
theorem division_floors (lib : Library) (env : Env) {left right : Term} {u v : Value}
    {a b : Int64} {n₀ n₁ n₂ : Nat} (first : (left.evalIn lib env).run n₀ = .ok (u, n₁))
    (second : (right.evalIn lib env).run n₁ = .ok (v, n₂)) (hu : u.asInt? = some a)
    (hv : v.asInt? = some b) : ∃ quotient remainder, Floors a b quotient remainder ∧
      ((Term.binary .floorDiv left right).evalIn lib env).run n₀ = quotient.map (·, n₂) ∧
      ((Term.binary .mod left right).evalIn lib env).run n₀ = remainder.map (·, n₂) :=
  ⟨_, _, floors_integerOp a b, Term.evalIn_binary lib env _ first second hu hv,
    Term.evalIn_binary lib env _ first second hu hv⟩


/-- A number below zero. -/
def belowZero : Term := .unary .neg (.literal (.int 7))

theorem evalIn_belowZero (lib : Library) (env : Env) (n : Nat) :
    (belowZero.evalIn lib env).run n = .ok (.int (-7), n) := by
  rw [belowZero, Term.evalIn, Term.evalWith, Term.evalWith]
  rfl

/-- Division goes to the floor below zero. -/
theorem division_floors_belowZero :
    (belowZero.evalIn ⟨[], compareOp⟩ []).run 0 = .ok (.int (-7), 0) ∧
      ((Term.literal (.int 2)).evalIn ⟨[], compareOp⟩ []).run 0 = .ok (.int 2, 0) ∧
      Value.asInt? (.int (-7)) = some (-7) ∧ Value.asInt? (.int 2) = some 2 ∧
      ∃ q r, ((Term.binary .floorDiv belowZero (.literal (.int 2))).evalIn ⟨[], compareOp⟩ []).run 0 =
          .ok (.int q, 0) ∧ q.toInt = -4 ∧
        ((Term.binary .mod belowZero (.literal (.int 2))).evalIn ⟨[], compareOp⟩ []).run 0 =
          .ok (.int r, 0) ∧ r.toInt = 1 := by
  have two (n : Nat) : ((Term.literal (.int 2)).evalIn ⟨[], compareOp⟩ []).run n =
      .ok (.int 2, n) := by
    rw [Term.evalIn, Term.evalWith]
    rfl
  refine ⟨evalIn_belowZero _ _ _, two 0, rfl, rfl, ?_⟩
  obtain ⟨_, _, floors, quotient, remainder⟩ := division_floors ⟨[], compareOp⟩ []
    (evalIn_belowZero _ _ 0) (two 0) rfl rfl
  have floor : ⌊((-7 : Int64).toInt / (2 : Int64).toInt : Rat)⌋ = -4 := by
    rw [show (-7 : Int64).toInt = -7 by decide, show (2 : Int64).toInt = 2 by decide]
    norm_num
  have fits := floors.floor (by decide)
  have rest := floors.rest (by decide) (by decide)
  rw [floor] at fits rest
  obtain ⟨q, rfl, hq⟩ := fits (by decide)
  obtain ⟨r, rfl, hr, -⟩ := rest
  have : (-7 : Int64).toInt = -7 ∧ (2 : Int64).toInt = 2 := by decide
  exact ⟨q, r, quotient, hq, remainder, by omega⟩

/-! ### Powers -/

/-- A power of a number that is neither zero nor a unit has more than 64 bits beyond the exponent 63. -/
theorem not_fits_pow {x : Int} {e : Nat} (large : 2 ≤ x.natAbs) (far : 63 < e) : ¬ Fits (x ^ e) := by
  intro fits
  have size : 2 ^ 64 ≤ (x ^ e).natAbs := by
    rw [Int.natAbs_pow]
    calc 2 ^ 64 ≤ 2 ^ e := Nat.pow_le_pow_right (by decide) far
      _ ≤ x.natAbs ^ e := Nat.pow_le_pow_left large e
  have := fits.1
  have := fits.2
  omega

/-- Powers of zero and of units. -/
theorem pow_of_natAbs_le {x : Int} (small : x.natAbs ≤ 1) (e : Nat) :
    x ^ e = if e == 0 then 1 else if e % 2 == 0 then x * x else x := by
  obtain rfl | rfl | rfl : x = 0 ∨ x = 1 ∨ x = -1 := by omega
  · rcases e with _ | e
    · rfl
    · simp
  · simp
  · rcases Nat.even_or_odd e with even | odd
    · simp [even.neg_one_pow, Nat.even_iff.1 even]
    · have := Nat.odd_iff.1 odd
      rcases e with _ | e
      · omega
      · simp [odd.neg_one_pow, this]

/-- A power fits if the number does, unless the exponent is too long for it. -/
theorem integerPow_of_fits {x : Int} {e : Nat} (fits : Fits (x ^ e))
    (short : x.natAbs ≤ 1 → e < 0x100000000) : integerPow x e = exactly (x ^ e) := by
  rw [integerPow]
  by_cases small : x.natAbs ≤ 1
  · rw [if_neg (Nat.not_le.2 (short small)), if_pos small, pow_of_natAbs_le small]
  · have near : ¬ 63 < e := fun far => not_fits_pow (by omega) far fits
    rw [if_neg (by omega), if_neg small, if_neg near]
    rfl

theorem integerPow_of_not_fits {x : Int} {e : Nat}
    (unfit : ¬ (Fits (x ^ e) ∧ (x.natAbs ≤ 1 → e < 0x100000000))) :
    integerPow x e = .error .overflow := by
  rw [integerPow]
  by_cases long : 0x100000000 ≤ e
  · rw [if_pos long]
  · have large : ¬ Fits (x ^ e) := fun fits => unfit ⟨fits, fun _ => Nat.not_le.1 long⟩
    rw [if_neg long]
    split
    · next small =>
      rw [← pow_of_natAbs_le small]
      exact exactly_of_not_fits large
    · split
      · rfl
      · exact exactly_of_not_fits large

/-! ### Arithmetic terms -/

/-- Terms of integers, and the numbers that they stand for. -/
inductive Term.Worth (env : Env) : Term → Int → Prop
  | literal (a : Int64) : Worth env (.literal (.int a)) a.toInt
  | name {n : String} {a : Int64} (bound : env.lookup n = some (.int a)) :
      Worth env (.name n) a.toInt
  | add {s t : Term} {x y : Int} (hs : Worth env s x) (ht : Worth env t y) :
      Worth env (.binary .add s t) (x + y)
  | sub {s t : Term} {x y : Int} (hs : Worth env s x) (ht : Worth env t y) :
      Worth env (.binary .sub s t) (x - y)
  | mul {s t : Term} {x y : Int} (hs : Worth env s x) (ht : Worth env t y) :
      Worth env (.binary .mul s t) (x * y)
  | pow {s t : Term} {x y : Int} (hs : Worth env s x) (ht : Worth env t y) (natural : 0 ≤ y) :
      Worth env (.binary .pow s t) (x ^ y.toNat)
  | neg {t : Term} {x : Int} (ht : Worth env t x) : Worth env (.unary .neg t) (-x)
  | abs {f : String} {id : Nat} {t : Term} {x : Int}
      (builtin : env.lookup f = some (.func id (.builtin .abs))) (ht : Worth env t x) :
      Worth env (.call (.name f) [t]) |x|

variable {env : Env} {s t : Term} {x y : Int}

theorem Term.Worth.unique (h : t.Worth env x) (h' : t.Worth env y) : x = y := by
  induction h generalizing y with
  | literal a => cases h'; rfl
  | name bound =>
    cases h' with
    | name bound' =>
      obtain rfl := Value.int.inj (Option.some.inj (bound.symm.trans bound'))
      rfl
  | add _ _ first second => cases h' with | add hs ht => rw [first hs, second ht]
  | sub _ _ first second => cases h' with | sub hs ht => rw [first hs, second ht]
  | mul _ _ first second => cases h' with | mul hs ht => rw [first hs, second ht]
  | pow _ _ _ first second => cases h' with | pow hs ht _ => rw [first hs, second ht]
  | neg _ ih => cases h' with | neg ht => rw [ih ht]
  | abs _ _ ih => cases h' with | abs _ ht => rw [ih ht]

/-- All parts of a term stand for numbers that fit, and no power of zero or of a unit has an exponent
of more than 32 bits. -/
structure Term.Representable (env : Env) (t : Term) : Prop where
  fits : ∀ s x, t.Within env s env → s.Worth env x → Fits x
  short : ∀ s e x y, t.Within env (.binary .pow s e) env → s.Worth env x → e.Worth env y →
    x.natAbs ≤ 1 → y < 0x100000000

theorem Term.Within.trans {u v : Term} {scope scope' : Env} (h : t.Within env u scope)
    (h' : u.Within scope v scope') : t.Within env v scope' := by
  induction h' with
  | here => exact h
  | part _ mem ih => exact .part ih mem
  | body _ args length ih => exact .body ih args length

/-- What is evaluated within a term is the term or within one of its parts, or belongs to a function. -/
theorem Term.Within.descend {u : Term} {scope : Env} (h : t.Within env u scope)
    (plain : ∀ params body, t ≠ .lambda params body) :
    u = t ∧ scope = env ∨ ∃ c ∈ t.parts, c.Within env u scope := by
  induction h with
  | here => exact .inl ⟨rfl, rfl⟩
  | part _ mem ih =>
    rcases ih with ⟨rfl, rfl⟩ | ⟨c, mem', within⟩
    · exact .inr ⟨_, mem, .here⟩
    · exact .inr ⟨c, mem', .part within mem⟩
  | body _ args length ih =>
    rcases ih with ⟨same, -⟩ | ⟨c, mem', within⟩
    · exact absurd same.symm (plain _ _)
    · exact .inr ⟨c, mem', .body within args length⟩

/-- A term is representable if its parts are, and its own value is. -/
theorem Term.Worth.representable_iff (h : t.Worth env x) : t.Representable env ↔
    (∀ c ∈ t.parts, c.Representable env) ∧ Fits x ∧
      ∀ s e a b, t = .binary .pow s e → s.Worth env a → e.Worth env b → a.natAbs ≤ 1 →
        b < 0x100000000 := by
  have plain : ∀ params body, t ≠ .lambda params body := by
    rintro params body rfl
    cases h
  constructor
  · intro whole
    refine ⟨fun c mem => ⟨fun s y within => whole.fits s y ?_, fun s e a b within =>
      whole.short s e a b ?_⟩, whole.fits t x .here h, ?_⟩
    · exact .trans (.part .here mem) within
    · exact .trans (.part .here mem) within
    · rintro s e a b rfl
      exact whole.short s e a b .here
  · rintro ⟨parts, fits, short⟩
    refine ⟨fun s y within worth => ?_, fun s e a b within => ?_⟩
    · rcases within.descend plain with ⟨rfl, -⟩ | ⟨c, mem, within⟩
      · exact h.unique worth ▸ fits
      · exact (parts c mem).fits s y within worth
    · rcases within.descend plain with ⟨same, -⟩ | ⟨c, mem, within⟩
      · exact short s e a b same.symm
      · exact (parts c mem).short s e a b within

/-- A term without parts is representable if its value fits, should it have one. -/
theorem Term.representable_of_parts_eq_nil (none : t.parts = [])
    (plain : ∀ params body, t ≠ .lambda params body) (fits : ∀ x, t.Worth env x → Fits x) :
    t.Representable env := by
  have only {u : Term} {scope : Env} (within : t.Within env u scope) : u = t := by
    rcases within.descend plain with ⟨same, -⟩ | ⟨c, mem, -⟩
    · exact same
    · exact absurd (none ▸ mem) List.not_mem_nil
  refine ⟨fun s x within worth => fits x (only within ▸ worth), fun s e x y within => ?_⟩
  rw [← only within] at none
  cases none

theorem Term.representable_literal (a : Int64) :
    (Term.literal (.int a)).Representable env := by
  refine representable_of_parts_eq_nil rfl nofun fun x worth => ?_
  cases worth
  exact fits_toInt a

theorem Term.representable_name (n : String) : (Term.name n).Representable env := by
  refine representable_of_parts_eq_nil rfl nofun fun x worth => ?_
  cases worth
  exact fits_toInt _

/-- Only powers have conditions of their own. -/
theorem fits_and_iff {op : BinaryOp} {z : Int} (other : op ≠ .pow) :
    (Fits z ∧ ∀ s' e a b, Term.binary op s t = .binary .pow s' e → s'.Worth env a →
      e.Worth env b → a.natAbs ≤ 1 → b < 0x100000000) ↔ Fits z :=
  ⟨And.left, fun fits => ⟨fits, fun _ _ _ _ same => absurd (Term.binary.inj same).1 other⟩⟩

theorem Term.Worth.representable_binary {op : BinaryOp} {z : Int} {own : Prop}
    (h : (Term.binary op s t).Worth env z)
    (rest : (Fits z ∧ ∀ s' e a b, Term.binary op s t = .binary .pow s' e → s'.Worth env a →
      e.Worth env b → a.natAbs ≤ 1 → b < 0x100000000) ↔ own) :
    (Term.binary op s t).Representable env ↔
      s.Representable env ∧ t.Representable env ∧ own := by
  rw [h.representable_iff, rest]
  simp [parts, and_assoc]

theorem Term.Worth.representable_pow (hs : s.Worth env x) (ht : t.Worth env y) (natural : 0 ≤ y) :
    (Term.binary .pow s t).Representable env ↔ s.Representable env ∧ t.Representable env ∧
      Fits (x ^ y.toNat) ∧ (x.natAbs ≤ 1 → y.toNat < 0x100000000) := by
  refine (Term.Worth.pow hs ht natural).representable_binary (and_congr Iff.rfl
    ⟨fun short small => ?_, fun short s' e a b same ha hb small => ?_⟩)
  · have := short s t x y rfl hs ht small
    omega
  · obtain ⟨-, rfl, rfl⟩ := Term.binary.inj same
    rw [ha.unique hs] at small
    rw [hb.unique ht]
    have := short small
    omega

theorem Term.Worth.representable_neg (ht : t.Worth env x) :
    (Term.unary .neg t).Representable env ↔ t.Representable env ∧ Fits (-x) := by
  rw [(Term.Worth.neg ht).representable_iff]
  simp [parts]

theorem Term.Worth.representable_abs {f : String} {id : Nat}
    (builtin : env.lookup f = some (.func id (.builtin .abs))) (ht : t.Worth env x) :
    (Term.call (.name f) [t]).Representable env ↔ t.Representable env ∧ Fits |x| := by
  rw [(Term.Worth.abs builtin ht).representable_iff]
  simp [parts, Term.representable_name]

/-! ### Evaluation -/

/-- The errors of integers that do not fit. -/
def Error.IsOverflow (e : Error) : Prop := e = .overflow ∨ e = .overflowIn "abs"

/-- What evaluation comes to where a number is expected: the number if a condition holds, and else an
error of numbers that do not fit. -/
structure Exact (good : Prop) (x : Int) (n : Nat) (out : Except Error (Value × Nat)) : Prop where
  value : good → ∃ w, out = .ok (.int w, n) ∧ w.toInt = x
  error : ¬ good → ∃ e, out = .error e ∧ e.IsOverflow

theorem exact_exactly {good : Prop} (h : good ↔ Fits x) (n : Nat) :
    Exact good x n ((exactly x).map (·, n)) where
  value fits := by
    obtain ⟨same, value⟩ := exactly_of_fits (h.1 fits)
    exact ⟨_, by rw [same]; rfl, value⟩
  error unfit := ⟨.overflow, by rw [exactly_of_not_fits (mt h.2 unfit)]; rfl, .inl rfl⟩

theorem exact_integerPow {e : Nat} (n : Nat) :
    Exact (Fits (x ^ e) ∧ (x.natAbs ≤ 1 → e < 0x100000000)) (x ^ e) n
      ((integerPow x e).map (·, n)) where
  value := by
    rintro ⟨fits, short⟩
    rw [integerPow_of_fits fits short]
    exact (exact_exactly Iff.rfl n).value fits
  error unfit := ⟨.overflow, by rw [integerPow_of_not_fits unfit]; rfl, .inl rfl⟩

theorem Exact.congr {good good' : Prop} {n : Nat} {out : Except Error (Value × Nat)}
    (same : good ↔ good') (h : Exact good x n out) : Exact good' x n out :=
  ⟨fun g => h.value (same.2 g), fun g => h.error (mt same.1 g)⟩

/-- What goes on from a number goes on from an error as that error. -/
theorem Exact.bind {good own : Prop} {z : Int} {n : Nat} {out : Except Error (Value × Nat)}
    {next : Value × Nat → Except Error (Value × Nat)} (h : Exact good x n out)
    (step : ∀ a : Int64, a.toInt = x → Exact own z n (next (.int a, n))) :
    Exact (good ∧ own) z n (out >>= next) := by
  by_cases g : good
  · obtain ⟨a, rfl, value⟩ := h.value g
    exact (step a value).congr (by simp [g])
  · obtain ⟨e, rfl, overflow⟩ := h.error g
    exact ⟨fun both => absurd both.1 g, fun _ => ⟨e, rfl, overflow⟩⟩

/-- An operator on two terms that come to their numbers. -/
theorem Exact.binary {lib : Library} {op : BinaryOp} {z : Int} {own : Prop} {n : Nat}
    (first : Exact (s.Representable env) x n ((s.evalIn lib env).run n))
    (second : Exact (t.Representable env) y n ((t.evalIn lib env).run n))
    (all : (Term.binary op s t).Representable env ↔
      s.Representable env ∧ t.Representable env ∧ own)
    (step : ∀ a b : Int64, a.toInt = x → b.toInt = y →
      Exact own z n ((integerOp op a b).map (·, n))) :
    Exact ((Term.binary op s t).Representable env) z n
      (((Term.binary op s t).evalIn lib env).run n) := by
  rw [Term.run_binary]
  refine .congr all.symm (first.bind fun a ha => second.bind fun b hb => ?_)
  rw [binaryOp_of_asInt? op rfl rfl]
  exact step a b ha hb

theorem Term.run_unary (lib : Library) (env : Env) (op : UnaryOp) (operand : Term) (n : Nat) :
    ((Term.unary op operand).evalIn lib env).run n =
      (operand.evalIn lib env).run n >>= fun p => (unaryOp op p.1).map (·, p.2) := by
  rw [Term.evalIn, Term.evalWith]
  rfl

theorem apply_builtin (lib : Library) (b : Builtin) (args : List Value) :
    apply lib callDepth (.builtin b) args = callBuiltin b args := by
  rw [callDepth, apply]

/-- A builtin called by a name that stands for it. -/
theorem Term.run_call (lib : Library) {f : String} {id : Nat} {b : Builtin}
    (builtin : env.lookup f = some (.func id (.builtin b))) (t : Term) (n : Nat) :
    ((Term.call (.name f) [t]).evalIn lib env).run n =
      (t.evalIn lib env).run n >>= fun p => (callBuiltin b [p.1]).run p.2 := by
  rw [Term.evalIn, Term.evalWith, Term.evalWith_name _ _ _ _ _ builtin, pure_bind]
  simp only [evalAll, pure_bind, bind_assoc, callWith, apply_builtin]
  rfl

theorem magnitude_int (a : Int64) : magnitude [.int a] =
    match fit? |a.toInt| with
    | some m => .ok (.int m)
    | none => .error (.overflowIn "abs") := by
  -- The bounds of the range are too far apart for `fit?` to be unfolded.
  obtain ⟨fit, same⟩ : ∃ fit, fit = fit? := ⟨_, rfl⟩
  rw [magnitude, Int.abs_eq_natAbs, ← same, List.headD_cons]
  dsimp only
  cases fit a.toInt.natAbs <;> rfl

theorem exact_magnitude (a : Int64) (n : Nat) :
    Exact (Fits |a.toInt|) |a.toInt| n ((callBuiltin .abs [.int a]).run n) := by
  have run : (callBuiltin .abs [.int a]).run n = (magnitude [.int a]).map (·, n) := by
    rw [callBuiltin]
    cases magnitude [.int a] <;> rfl
  rw [run, magnitude_int]
  refine ⟨fun fits => ?_, fun unfit => ⟨.overflowIn "abs", ?_, .inr rfl⟩⟩
  · have fit : fit? |a.toInt| = some (Int64.ofInt |a.toInt|) := if_pos fits
    exact ⟨_, by rw [fit]; rfl, toInt_of_fit? fit⟩
  · have none : fit? |a.toInt| = none := if_neg unfit
    rw [none]
    rfl

/-- A term of integers comes to its exact value, or to an error where a part of it does not fit. -/
theorem Term.Worth.exact (lib : Library) (h : t.Worth env x) (n : Nat) :
    Exact (t.Representable env) x n ((t.evalIn lib env).run n) := by
  induction h with
  | literal a =>
    refine ⟨fun _ => ⟨a, ?_, rfl⟩, fun unfit => absurd (Term.representable_literal a) unfit⟩
    rw [Term.evalIn, Term.evalWith]
    rfl
  | @name m a bound =>
    refine ⟨fun _ => ⟨a, ?_, rfl⟩, fun unfit => absurd (Term.representable_name m) unfit⟩
    rw [Term.evalIn, Term.evalWith_name _ _ _ _ _ bound]
    rfl
  | add hs ht first second =>
    refine first.binary second ((Term.Worth.add hs ht).representable_binary (fits_and_iff nofun)) ?_
    rintro a b rfl rfl
    exact exact_exactly Iff.rfl n
  | sub hs ht first second =>
    refine first.binary second ((Term.Worth.sub hs ht).representable_binary (fits_and_iff nofun)) ?_
    rintro a b rfl rfl
    exact exact_exactly Iff.rfl n
  | mul hs ht first second =>
    refine first.binary second ((Term.Worth.mul hs ht).representable_binary (fits_and_iff nofun)) ?_
    rintro a b rfl rfl
    exact exact_exactly Iff.rfl n
  | pow hs ht natural first second =>
    refine first.binary second (hs.representable_pow ht natural) ?_
    rintro a b rfl rfl
    rw [integerOp]
    simp only [natural, if_true]
    exact exact_integerPow n
  | neg ht ih =>
    rw [Term.run_unary]
    refine .congr ht.representable_neg.symm (ih.bind ?_)
    rintro a rfl
    exact exact_exactly Iff.rfl n
  | abs builtin ht ih =>
    rw [Term.run_call lib builtin]
    refine .congr (ht.representable_abs builtin).symm (ih.bind ?_)
    rintro a rfl
    exact exact_magnitude a n

/-- **A term of integers comes to its exact value** if the values of all of its parts fit and no power of
zero or of a unit has an exponent of more than 32 bits, and else to an error. -/
theorem arithmetic_exact (lib : Library) (h : t.Worth env x) (n : Nat) :
    (t.Representable env → ∃ w, (t.evalIn lib env).run n = .ok (.int w, n) ∧ w.toInt = x) ∧
      (¬ t.Representable env → ∃ e, (t.evalIn lib env).run n = .error e ∧ e.IsOverflow) :=
  ⟨(h.exact lib n).value, (h.exact lib n).error⟩

/-- The square of the absolute value of a name, less one. -/
def squareLess : Term :=
  .binary .sub (.binary .pow (.call (.name "abs") [.name "x"]) (.literal (.int 2)))
    (.literal (.int 1))

/-- The name is bound to a number, and `abs` to the builtin. -/
def squareEnv : Env := [("x", .int (-3)), ("abs", .func 0 (.builtin .abs))]

theorem worth_squareLess : squareLess.Worth squareEnv
    (|(-3 : Int64).toInt| ^ (2 : Int64).toInt.toNat - (1 : Int64).toInt) :=
  .sub (.pow (.abs rfl (.name rfl)) (.literal 2) (by decide)) (.literal 1)

/-- The term has parts that fit and comes to its value. -/
theorem arithmetic_exact_squareLess :
    squareLess.Worth squareEnv
        (|(-3 : Int64).toInt| ^ (2 : Int64).toInt.toNat - (1 : Int64).toInt) ∧
      ∃ w, (squareLess.evalIn ⟨[], compareOp⟩ squareEnv).run 1 = .ok (.int w, 1) ∧
        w.toInt = 8 := by
  have x : (Term.name "x").Worth squareEnv (-3 : Int64).toInt := .name rfl
  have abs : squareEnv.lookup "abs" = some (.func 0 (.builtin .abs)) := rfl
  have square := Term.Worth.abs abs x
  have representable : squareLess.Representable squareEnv :=
    (worth_squareLess.representable_binary (fits_and_iff nofun)).2
      ⟨(square.representable_pow (.literal 2) (by decide)).2
        ⟨(x.representable_abs rfl).2 ⟨Term.representable_name _, by decide⟩,
          Term.representable_literal 2, by decide⟩,
        Term.representable_literal 1, by decide⟩
  obtain ⟨w, run, value⟩ :=
    (arithmetic_exact ⟨[], compareOp⟩ worth_squareLess 1).1 representable
  exact ⟨worth_squareLess, w, run, value.trans (by decide)⟩

end Packrat.Host
