import EntityStore.Binary64
import EntityStore.Decimal.Digits

/-!
# Numerals

Which texts are numbers, and which binary value each stands for. A numeral is
an optional sign and then either a word for infinity or for no number, in
letters of either case, or decimal digits with an optional point among, before
or after them and an optional exponent. Blanks and separators make no numeral.
The value is the nearest one to the decimal.
-/

namespace EntityStore.Decimal

/-- The binary value nearest to digits times a power of ten. A decimal far outside the range of
binary values is settled by its size alone. -/
def nearest (negative : Bool) (ds : List Digit) (exponent : Int) : Binary64 :=
  let significand := value ds
  let size := ((digits significand).length : Int) + exponent
  if significand = 0 ∨ size < -330 then Binary64.zero negative
  else if 310 < size then Binary64.infinity negative
  else
    match exponent with
    | .ofNat e => Binary64.ofRatio negative (significand * Nat.pow 10 e) 1
    | .negSucc e => Binary64.ofRatio negative significand (Nat.pow 10 (e + 1))

/-- A sign in front of code points, and the rest. -/
def leadingSign : List Nat → Bool × List Nat
  | 0x2B :: rest => (false, rest)
  | 0x2D :: rest => (true, rest)
  | rest => (false, rest)

/-- The exponent that ends a numeral, zero where there is none. -/
def exponentPart? : List Nat → Option Int
  | [] => some 0
  | c :: rest =>
    if c = 0x65 ∨ c = 0x45 then
      let (negative, rest) := leadingSign rest
      match leadingDigits id rest with
      | (d :: ds, []) =>
        let n := value (d :: ds)
        some (if negative then -(n : Int) else n)
      | _ => none
    else none

def decimalNumeral? (negative : Bool) (codes : List Nat) : Option Binary64 :=
  let (whole, rest) := leadingDigits id codes
  let (fraction, rest) :=
    match rest with
    | 0x2E :: rest => leadingDigits id rest
    | rest => ([], rest)
  if whole.isEmpty && fraction.isEmpty then none
  else (exponentPart? rest).map fun e => nearest negative (whole ++ fraction) (e - fraction.length)

/-- A code point with the small letter in place of an ASCII capital. -/
def foldAscii (n : Nat) : Nat := if 65 ≤ n ∧ n ≤ 90 then n + 32 else n

def codes (s : String) : List Nat := s.toList.map Char.toNat

def numeral? (s : String) : Option Binary64 :=
  let (negative, rest) := leadingSign (codes s)
  let word := rest.map foldAscii
  if word = codes "inf" ∨ word = codes "infinity" then some (Binary64.infinity negative)
  else if word = codes "nan" then some (Binary64.notANumber negative)
  else decimalNumeral? negative rest

end EntityStore.Decimal
