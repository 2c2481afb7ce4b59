import EntityStore.Decimal.Numeral
import EntityStore.Toml.Basic
import EntityStore.Toml.Text

/-!
# Numbers and moments in TOML

Digits may be grouped by underscores, each between two digits. A whole number
has no leading zero; without a sign it may also be hexadecimal, octal or binary.
A number with a fraction or an exponent is a floating-point value, which must
not be too large, and the words for infinity and for no number are others.

A date stands as year, month and day, a time as hour, minute and second with an
optional fraction, and a date with a time may carry its offset.
-/

namespace EntityStore.Toml

open Decimal (Digit)

/-! ## Numbers -/

/-- The digits that go on after a first one, without the underscores between them. -/
def moreDigits? (isDigit : Char → Bool) : Reader (List Char)
  | [] => some ([], [])
  | '_' :: rest =>
    match rest with
    | c :: rest => if isDigit c then andThen c (moreDigits? isDigit rest) else none
    | [] => none
  | c :: rest =>
    if isDigit c then andThen c (moreDigits? isDigit rest) else some ([], c :: rest)

/-- Digits, at least one, without the underscores between them. -/
def digits? (isDigit : Char → Bool) : Reader (List Char)
  | [] => none
  | c :: rest => if isDigit c then andThen c (moreDigits? isDigit rest) else none

def isDecimal (c : Char) : Bool := (Digit.ofCode? c.toNat).isSome

/-- Whether a character is a digit to the given base. -/
def isDigitTo (base : Nat) (c : Char) : Bool := (Hex.digit? c).any (· < base)

/-- The decimal digits that characters show. -/
def decimals (cs : List Char) : List Digit := cs.filterMap fun c => Digit.ofCode? c.toNat

/-- A sign, and whether it is that of negative numbers. -/
def sign : List Char → Bool × List Char
  | '+' :: rest => (false, rest)
  | '-' :: rest => (true, rest)
  | cs => (false, cs)

/-- The digits of a whole number: a zero, or digits that begin with no zero. -/
def wholeDigits? : Reader (List Char)
  | '0' :: rest => some (['0'], rest)
  | cs => digits? isDecimal cs

/-- The whole number, if it fits into 64 bits. -/
def integer? (n : Int) : Option Toml :=
  if -0x8000000000000000 ≤ n ∧ n < 0x8000000000000000 then some (.integer (Int64.ofInt n))
  else none

/-- The number that digits to a base stand for. -/
def valueTo (base : Nat) (cs : List Char) : Nat :=
  cs.foldl (fun n c => n * base + (Hex.digit? c).getD 0) 0

/-- A whole number to a base, after its mark. -/
def integerTo? (base : Nat) (cs : List Char) : Option (Toml × List Char) := do
  let (ds, rest) ← digits? (isDigitTo base) cs
  return (← integer? (valueTo base ds), rest)

/-- The digits after a point. -/
def fraction? : Reader (List Digit)
  | '.' :: rest => (digits? isDecimal rest).map fun p => (decimals p.1, p.2)
  | _ => none

def exponent? : Reader Int
  | c :: rest =>
    if c = 'e' ∨ c = 'E' then do
      let (negative, rest) := sign rest
      let (ds, rest) ← digits? isDecimal rest
      let n := Decimal.value (decimals ds)
      return (if negative then -(n : Int) else n, rest)
    else none
  | [] => none

/-- The floating-point value nearest to a decimal; no positive one may be too large. -/
def float? (negative : Bool) (ds : List Digit) (exponent : Int) : Option Toml :=
  let x := Decimal.nearest negative ds exponent
  if x = .infinity false then none else some (.float x)

/-- A decimal number, after its sign. -/
def decimalNumber? (negative : Bool) (cs : List Char) : Option (Toml × List Char) := do
  let (whole, rest) ← wholeDigits? cs
  let whole := decimals whole
  match rest with
  | '.' :: _ =>
    let (fraction, rest) ← fraction? rest
    let (exponent, rest) := (exponent? rest).getD (0, rest)
    return (← float? negative (whole ++ fraction) (exponent - fraction.length), rest)
  | _ =>
    match exponent? rest with
    | some (exponent, rest) => return (← float? negative whole exponent, rest)
    | none =>
      let n := Decimal.value whole
      return (← integer? (if negative then -(n : Int) else n), rest)

def number? : Reader Toml
  | '0' :: 'x' :: rest => integerTo? 16 rest
  | '0' :: 'o' :: rest => integerTo? 8 rest
  | '0' :: 'b' :: rest => integerTo? 2 rest
  | cs =>
    match sign cs with
    | (negative, 'i' :: 'n' :: 'f' :: rest) => some (.float (.infinity negative), rest)
    | (negative, 'n' :: 'a' :: 'n' :: rest) => some (.float (.notANumber negative), rest)
    | (negative, rest) => decimalNumber? negative rest

/-! ## Moments -/

/-- The number that the given count of digits stands for, if it is in the range. -/
def fixed? (count low high : Nat) (cs : List Char) : Option (Nat × List Char) :=
  let ds := cs.take count
  let n := Decimal.value (decimals ds)
  if ds.length = count ∧ ds.all isDecimal ∧ low ≤ n ∧ n ≤ high then some (n, cs.drop count)
  else none

/-- The rest after a character. -/
def mark? (c : Char) : List Char → Option (List Char)
  | d :: rest => if d = c then some rest else none
  | [] => none

/-- The number of days of a month. -/
def daysOfMonth (year month : Nat) : Nat :=
  if month = 2 then if year % 4 = 0 ∧ (year % 100 ≠ 0 ∨ year % 400 = 0) then 29 else 28
  else if month = 4 ∨ month = 6 ∨ month = 9 ∨ month = 11 then 30
  else 31

/-- The rest after a date. -/
def afterDate? (cs : List Char) : Option (List Char) := do
  let (year, rest) ← fixed? 4 0 9999 cs
  let (month, rest) ← fixed? 2 1 12 (← mark? '-' rest)
  let (_, rest) ← fixed? 2 1 (daysOfMonth year month) (← mark? '-' rest)
  return rest

/-- The rest after the fraction of a second, if there is one. -/
def afterFraction (cs : List Char) : List Char :=
  match cs with
  | '.' :: c :: rest => if isDecimal c then rest.dropWhile isDecimal else cs
  | _ => cs

/-- The rest after a time. -/
def afterTime? (cs : List Char) : Option (List Char) := do
  let (_, rest) ← fixed? 2 0 23 cs
  let (_, rest) ← fixed? 2 0 59 (← mark? ':' rest)
  let (_, rest) ← fixed? 2 0 60 (← mark? ':' rest)
  return afterFraction rest

/-- The rest after an offset. -/
def afterOffset? : List Char → Option (List Char)
  | [] => none
  | c :: rest =>
    if c = 'Z' ∨ c = 'z' then some rest
    else if c = '+' ∨ c = '-' then do
      let (_, rest) ← fixed? 2 0 23 rest
      let (_, rest) ← fixed? 2 0 59 (← mark? ':' rest)
      return rest
    else none

/-- The rest after the time that may follow a date, with its offset. -/
def afterTimeOfDay (cs : List Char) : List Char :=
  match cs with
  | c :: rest =>
    if c = 'T' ∨ c = 't' ∨ c = ' ' then
      match afterTime? rest with
      | some rest => (afterOffset? rest).getD rest
      | none => cs
    else cs
  | [] => cs

/-- The rest after a date, a time or both. -/
def afterMoment? (cs : List Char) : Option (List Char) :=
  match afterDate? cs with
  | some rest => some (afterTimeOfDay rest)
  | none => afterTime? cs

/-- A number or a moment. -/
def scalar? (cs : List Char) : Option (Toml × List Char) :=
  match afterMoment? cs with
  | some rest => some (.moment (String.ofList (cs.take (cs.length - rest.length))), rest)
  | none => number? cs

end EntityStore.Toml
