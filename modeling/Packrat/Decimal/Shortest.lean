/-
**The shortest decimal that reads back.**

A finite binary number `mantissa · 2 ^ exponent` is read back from every decimal in the interval
of reals that round to it.  The shortest decimal in that interval is found by trying one digit,
two digits, and so on: on each grid only the two neighbours of the number can be the nearest.

Main definitions:

* `Packrat.Decimal.Binary` — a finite positive number by mantissa and exponent;
* `Packrat.Decimal.Binary.ofFloat?` — the number held by a float, sign aside;
* `Packrat.Decimal.Scaled` — the number and its interval over one denominator;
* `Packrat.Decimal.Scaled.holds` — whether a decimal lies in the interval;
* `Packrat.Decimal.shortest` — digits and exponent of the shortest decimal;
* `Packrat.Decimal.positional` — digits and exponent written without an exponent.

Main results:

* `Packrat.Decimal.Scaled.holds_of_nearest?` — what a grid offers lies in the interval.
-/

set_option autoImplicit false

namespace Packrat.Decimal

/-- The number `mantissa · 2 ^ exponent`. -/
structure Binary where
  mantissa : Nat
  exponent : Int
deriving DecidableEq, Repr

/-- The bit above the fraction of a float. -/
def hiddenBit : Nat := 0x10000000000000

/-- The magnitude of a finite float; infinities and NaN have none. -/
def Binary.ofFloat? (x : Float) : Option Binary :=
  let bits := x.toBits.toNat
  let fraction : Nat := bits % hiddenBit
  let field : Nat := bits / hiddenBit % 2048
  if field == 2047 then none
  else if field == 0 then some ⟨fraction, -1074⟩
  else some ⟨hiddenBit + fraction, (field : Int) - 1075⟩

/-- A number, the ends of the interval that rounds to it, and a common denominator. -/
structure Scaled where
  low : Nat
  value : Nat
  high : Nat
  denominator : Nat
  /-- Whether the ends belong to the interval. -/
  closed : Bool
deriving Repr

/-- The interval of a number: half a unit of its last place to either side, but only a quarter
below a power of two, where the places are finer. -/
def Binary.scaled (b : Binary) : Scaled :=
  -- The ends of the interval are multiples of a quarter of the last place.
  let shift := b.exponent - 2
  let up := Nat.pow 2 shift.toNat
  let below := if b.mantissa == hiddenBit && b.exponent != -1074 then 1 else 2
  { low := (4 * b.mantissa - below) * up
    value := 4 * b.mantissa * up
    high := (4 * b.mantissa + 2) * up
    denominator := Nat.pow 2 (-shift).toNat
    closed := b.mantissa % 2 == 0 }

/-- A decimal `digits · 10 ^ exponent` as a fraction. -/
def fraction (digits : Nat) (exponent : Int) : Nat × Nat :=
  (digits * Nat.pow 10 exponent.toNat, Nat.pow 10 (-exponent).toNat)

/-- Whether the decimal lies in the interval. -/
def Scaled.holds (s : Scaled) (digits : Nat) (exponent : Int) : Bool :=
  let (n, d) := fraction digits exponent
  let low := s.low * d
  let mid := n * s.denominator
  let high := s.high * d
  if s.closed then low ≤ mid && mid ≤ high else low < mid && mid < high

/-- The greatest multiple of `10 ^ exponent` that is at most the number, in units of that power. -/
def Scaled.floor (s : Scaled) (exponent : Int) : Nat :=
  s.value * Nat.pow 10 (-exponent).toNat / (s.denominator * Nat.pow 10 exponent.toNat)

/-- Whether the number lies at least half way from `digits` to `digits + 1` on the grid. -/
def Scaled.roundsUp (s : Scaled) (digits : Nat) (exponent : Int) : Bool :=
  let (n, d) := fraction (2 * digits + 1) exponent
  n * s.denominator ≤ 2 * s.value * d

/-- The nearest decimal on the grid of `10 ^ exponent` that lies in the interval. -/
def Scaled.nearest? (s : Scaled) (exponent : Int) : Option Nat :=
  let below := s.floor exponent
  match s.holds below exponent, s.holds (below + 1) exponent with
  | true, true => some (if s.roundsUp below exponent then below + 1 else below)
  | true, false => some below
  | false, true => some (below + 1)
  | false, false => none

theorem Scaled.holds_of_nearest? {s : Scaled} {exponent : Int} {digits : Nat}
    (h : s.nearest? exponent = some digits) : s.holds digits exponent = true := by
  simp only [Scaled.nearest?] at h
  split at h
  · next h1 h2 =>
    split at h
    · simp only [Option.some.injEq] at h; exact h ▸ h2
    · simp only [Option.some.injEq] at h; exact h ▸ h1
  · next h1 _ => simp only [Option.some.injEq] at h; exact h ▸ h1
  · next _ h2 => simp only [Option.some.injEq] at h; exact h ▸ h2
  · simp at h

/-- The decimal exponent of the leading digit, found upwards from `exponent`. -/
def Scaled.leading (s : Scaled) : Nat → Int → Int
  | 0, exponent => exponent
  | fuel + 1, exponent =>
    if s.floor (exponent + 1) == 0 then exponent else s.leading fuel (exponent + 1)

/-- Tries grids with one more digit each. Seventeen digits always suffice. -/
def Scaled.search (s : Scaled) : Nat → Int → Nat × Int
  | 0, exponent => (s.floor exponent, exponent)
  | fuel + 1, exponent =>
    match s.nearest? exponent with
    | some digits => (digits, exponent)
    | none => s.search fuel (exponent - 1)

/-- The same decimal without trailing zeros among its digits. The upper neighbour of a number may
be a power of ten, so a grid of one digit can offer ten. -/
def trimZeros : Nat → Nat → Int → Nat × Int
  | 0, digits, exponent => (digits, exponent)
  | fuel + 1, digits, exponent =>
    if digits != 0 && digits % 10 == 0 then trimZeros fuel (digits / 10) (exponent + 1)
    else (digits, exponent)

/-- Digits and exponent of the shortest decimal that reads back as the number. -/
def shortest (b : Binary) : Nat × Int :=
  let s := b.scaled
  -- Leading digits of floats stand between the places -324 and 308.
  let (digits, exponent) := s.search 17 (s.leading 700 (-330))
  trimZeros 20 digits exponent

/-- A decimal written without an exponent and without trailing zeros after the point. -/
def positional (digits : Nat) (exponent : Int) : String :=
  let text := (toString digits).toList
  if 0 ≤ exponent then String.ofList (text ++ List.replicate exponent.toNat '0')
  else
    let places := (-exponent).toNat
    let padded := List.replicate (places + 1 - text.length) '0' ++ text
    let whole := padded.take (padded.length - places)
    String.ofList (whole ++ '.' :: padded.drop (padded.length - places))

end Packrat.Decimal
