import EntityStore.Binary64
import EntityStore.Decimal.Digits

/-!
# The shortest decimal of a binary value

A finite binary value is the nearest one to every number of an interval around
it, ends included when its significand is even. Its shortest decimal is the
number of that interval with the fewest digits, and of several with as few the
nearest to the value; of two equally near the one with the even last digit.

The multiples of a power of ten lie on a grid, and a coarser grid is part of a
finer one. So the fewest digits belong to the coarsest grid with a point in the
interval, and if it has one, then one of the two grid points beside the value
is in the interval too.
-/

namespace EntityStore.Decimal

/-- A decimal number: a natural number times a power of ten. -/
structure Scaled where
  significand : Nat
  exponent : Int
deriving DecidableEq

/-- The numbers that round to a binary value, and the value, in quarters of a unit of two to the
minus 1074. -/
structure RoundingInterval where
  low : Nat
  middle : Nat
  high : Nat
  closed : Bool

/-- The interval of numbers that round to a finite value. The step below a power of two is half
as long. -/
def RoundingInterval.of (x : Binary64) : RoundingInterval :=
  let middle := 4 * x.units
  let halfStep := 2 * Nat.pow 2 x.shift
  let below :=
    if x.significand = Binary64.leadingBit ∧ 0 < x.shift then Nat.pow 2 x.shift else halfStep
  { low := middle - below
    middle
    high := middle + halfStep
    closed := x.significand % 2 == 0 }

/-- The interval with its ends multiplied, and the multiple of it that a step of the grid of the
given power of ten is. -/
def RoundingInterval.onGrid (r : RoundingInterval) (exponent : Int) : RoundingInterval × Nat :=
  match exponent with
  | .ofNat e => (r, Nat.pow 2 1076 * Nat.pow 10 e)
  | .negSucc e =>
    let m := Nat.pow 10 (e + 1)
    ({ r with low := r.low * m, middle := r.middle * m, high := r.high * m }, Nat.pow 2 1076)

/-- Whether a number of quarter units is in the interval. -/
def RoundingInterval.holds (r : RoundingInterval) (n : Nat) : Bool :=
  if r.closed then r.low ≤ n && n ≤ r.high else r.low < n && n < r.high

/-- The point of a grid that is in the interval and nearest to its value. -/
def RoundingInterval.gridPoint? (r : RoundingInterval) (exponent : Int) : Option Scaled :=
  let (s, step) := r.onGrid exponent
  let n := s.middle / step
  let below := s.holds (n * step)
  let above := s.holds ((n + 1) * step)
  let toBelow := s.middle - n * step
  let toAbove := (n + 1) * step - s.middle
  if below && above then
    if toBelow < toAbove then some ⟨n, exponent⟩
    else if toAbove < toBelow then some ⟨n + 1, exponent⟩
    else some ⟨n + n % 2, exponent⟩
  else if below then some ⟨n, exponent⟩
  else if above then some ⟨n + 1, exponent⟩
  else none

/-- The exponents of the grids, the coarsest first. -/
def gridExponents : List Int := (List.range 634).map fun (n : Nat) => (309 : Int) - n

/-- The shortest decimal of the absolute value of a finite value. -/
def shortest (x : Binary64) : Scaled :=
  if x.magnitude = 0 then ⟨0, 0⟩
  else ((gridExponents.findSome? (RoundingInterval.of x).gridPoint?).getD ⟨0, 0⟩)

end EntityStore.Decimal
