import EntityStore.Json.Basic
import EntityStore.Binary64

/-!
# The value of a written number

Digits are gathered into 64 bits for as long as they fit. A number without
fraction and exponent whose digits all fit is a whole number; every other is a
floating-point value: what was gathered, times or divided by one power of ten.
Of a whole part the digits that no longer fit count as zeros, of a fraction
they count for nothing.

One multiplication or division rounds once more than the nearest value does, so
the result may be its neighbour. A power of ten past 308 is divided out in
steps; a result beyond the largest value, or an exponent beyond 31 bits, is no
value, unless the digits are all zeros.
-/

namespace EntityStore.Json

open Decimal (Digit)

/-- What a number stands for. -/
inductive NumberValue where
  | natural (n : UInt64)
  | negative (n : Int64)
  | real (x : Binary64)

/-- Gathers digits while the result fits 64 bits; the rest of the digits is handed on. -/
def gather (n : Nat) : List Digit → Nat × List Digit
  | [] => (n, [])
  | d :: ds => if n * 10 + d.val < UInt64.size then gather (n * 10 + d.val) ds else (n, d :: ds)

/-- Divides by a power of ten, in steps of 308 at most. -/
def scaleDown : Nat → Nat → Binary64 → Binary64
  | 0, _, x => x
  | bound + 1, n, x =>
    if n ≤ 308 then x.div (.powerOfTen n)
    else if x.magnitude = 0 then x
    else scaleDown bound (n - 308) (x.div (.powerOfTen 308))

/-- A gathered number times a power of ten. -/
def scale? (negative : Bool) (gathered : Nat) (exponent : Int) : Option Binary64 :=
  let x := Binary64.ofNat gathered
  let signed (x : Binary64) := if negative then x.neg else x
  if exponent < 0 then some (signed (scaleDown exponent.natAbs exponent.natAbs x))
  else if exponent ≤ 308 then
    let y := x.mul (.powerOfTen exponent.natAbs)
    if y.isFinite then some (signed y) else none
  else if gathered = 0 then some (signed x)
  else none

def exponentLimit : Nat := 0x7FFFFFFF

/-- Two exponents added, kept to 31 bits. -/
def addExponents (a b : Int) : Int := max (-0x80000000) (min (exponentLimit : Int) (a + b))

/-- The value of a number that is not whole, or too large to be. -/
def Number.real? (n : Number) : Option Binary64 :=
  let (gathered, dropped) := gather 0 n.whole
  let (gathered, ignored) := gather gathered n.fraction
  let exponent : Int := (dropped.length : Int) - ((n.fraction.length - ignored.length : Nat) : Int)
  match n.exponent with
  | none => scale? n.negative gathered exponent
  | some e =>
    let given := Decimal.value e.digits
    if exponentLimit < given then
      if gathered = 0 || e.negative then some (Binary64.zero n.negative) else none
    else scale? n.negative gathered (addExponents exponent (if e.negative then -given else given))

def Number.value? (n : Number) : Option NumberValue :=
  match gather 0 n.whole, n.fraction, n.exponent with
  | (gathered, []), [], none =>
    if !n.negative then some (.natural gathered.toUInt64)
    else if 0 < gathered ∧ gathered ≤ 0x8000000000000000 then
      some (.negative (Int64.ofInt (-gathered)))
    else some (.real (Binary64.ofNat gathered).neg)
  | _, _, _ => n.real?.map .real

end EntityStore.Json
