import EntityStore.Ranked

/-!
# Binary floating point of 64 bits

A `Binary64` is its bit pattern. A finite one stands for a whole number of
units of two to the minus 1074, so every question about its value is a question
about natural numbers: rounding a fraction to the nearest value, multiplying,
dividing, and the order that puts every pattern in one line.

Rounding goes to the nearest value and, half way, to the even one. Patterns of
one sign are in the order of their values, so a rounded significand that runs
over into the next power of two gives the right pattern without a case of its
own.
-/

namespace EntityStore

/-- A 64-bit binary floating-point value, as its bit pattern. -/
structure Binary64 where
  bits : UInt64
deriving DecidableEq

namespace Binary64

/-! ## Parts of a pattern -/

/-- The sign bit, the first number that is no magnitude. -/
def signBit : Nat := 0x8000000000000000

/-- The bit that a significand of full length begins with and that a pattern leaves out. -/
def leadingBit : Nat := 0x10000000000000

/-- The bit that tells a quiet value that is no number. -/
def quietBit : Nat := 0x8000000000000

/-- The number of units in one. -/
def one : Nat := Nat.pow 2 1074

/-- Whether the sign bit is set. -/
def negative (x : Binary64) : Bool := signBit ≤ x.bits.toNat

/-- The pattern without its sign. -/
def magnitude (x : Binary64) : Nat := x.bits.toNat % signBit

/-- The magnitude of infinity, the first that is no number. -/
def infinityMagnitude : Nat := 2047 * leadingBit

def isFinite (x : Binary64) : Bool := x.magnitude < infinityMagnitude

/-- The power of two, in units, that the significand is multiplied by. -/
def shift (x : Binary64) : Nat := x.magnitude / leadingBit - 1

/-- The significand with its leading bit. -/
def significand (x : Binary64) : Nat :=
  if x.magnitude < leadingBit then x.magnitude else leadingBit + x.magnitude % leadingBit

/-- The absolute value of a finite value in units of two to the minus 1074. -/
def units (x : Binary64) : Nat := x.significand * Nat.pow 2 x.shift

/-- The pattern of a sign and a magnitude. -/
def ofMagnitude (negative : Bool) (magnitude : Nat) : Binary64 :=
  ⟨(magnitude + if negative then signBit else 0).toUInt64⟩

def zero (negative : Bool) : Binary64 := ofMagnitude negative 0

def infinity (negative : Bool) : Binary64 := ofMagnitude negative infinityMagnitude

/-- The quiet value that is no number, of either sign. -/
def notANumber (negative : Bool) : Binary64 := ofMagnitude negative (infinityMagnitude + quietBit)

/-! ## Rounding -/

/-- A fraction rounded to the nearest whole number, half way to the even one. -/
def roundHalfEven (numerator denominator : Nat) : Nat :=
  let quotient := numerator / denominator
  let twice := 2 * (numerator % denominator)
  if twice < denominator then quotient
  else if denominator < twice then quotient + 1
  else quotient + quotient % 2

def nearestMagnitude (numerator denominator : Nat) : Nat :=
  let scaled := numerator * one
  let whole := scaled / denominator
  if whole < 2 * leadingBit then roundHalfEven scaled denominator
  else
    let shift := whole.log2 - 52
    min (shift * leadingBit + roundHalfEven scaled (denominator * Nat.pow 2 shift))
      infinityMagnitude

/-- The value nearest to a fraction; too large a one is infinite. -/
def ofRatio (negative : Bool) (numerator denominator : Nat) : Binary64 :=
  ofMagnitude negative (nearestMagnitude numerator denominator)

def ofNat (n : Nat) : Binary64 := ofRatio false n 1

def ofInt (n : Int) : Binary64 := ofRatio (n < 0) n.natAbs 1

def neg (x : Binary64) : Binary64 := ofMagnitude (!x.negative) x.magnitude

def mul (x y : Binary64) : Binary64 :=
  ofRatio (x.negative != y.negative) (x.units * y.units) (one * one)

/-- The quotient of finite values, rounded; the divisor is not zero. -/
def div (x y : Binary64) : Binary64 :=
  ofRatio (x.negative != y.negative) x.units y.units

def powerOfTen (n : Nat) : Binary64 := ofNat (Nat.pow 10 n)

/-- The value of a 32-bit pattern: a sign bit, 8 bits of exponent and 23 of fraction. -/
def ofBinary32 (bits : UInt32) : Binary64 :=
  let sign := decide (0x80000000 ≤ bits.toNat)
  let exponent := bits.toNat / 0x800000 % 0x100
  let fraction := bits.toNat % 0x800000
  let scale := Nat.pow 2 149
  if exponent = 255 then
    if fraction = 0 then infinity sign
    else ofMagnitude sign (infinityMagnitude + quietBit + fraction % 0x400000 * 0x20000000)
  else if exponent = 0 then ofRatio sign fraction scale
  else ofRatio sign ((0x800000 + fraction) * Nat.pow 2 (exponent - 1)) scale

/-! ## Order -/

/-- The place of a pattern in the order of all patterns: negative ones before positive ones, the
larger magnitude of the negative ones first. -/
def place (x : Binary64) : Int :=
  if x.negative then -(x.magnitude : Int) - 1 else x.magnitude

theorem negative_iff (x : Binary64) : x.negative = true ↔ signBit ≤ x.bits.toNat :=
  decide_eq_true_iff

theorem place_inj {x y : Binary64} (h : x.place = y.place) : x = y := by
  cases x with
  | mk a =>
    cases y with
    | mk b =>
      have ha : a.toNat < 0x10000000000000000 := a.toNat_lt
      have hb : b.toNat < 0x10000000000000000 := b.toNat_lt
      have : a.toNat = b.toNat := by
        simp only [place, negative_iff, magnitude, signBit] at h
        split at h <;> split at h <;> omega
      rw [UInt64.toNat_inj.1 this]

instance : Ranked Binary64 := Ranked.comap place fun _ _ => place_inj

end Binary64

end EntityStore
