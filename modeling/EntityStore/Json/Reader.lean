import EntityStore.Json.Basic
import EntityStore.Text.Hex

/-!
# Reading JSON

A value is read from the front of the bytes and the rest is handed on. Every
read takes a bound on the number of steps, and twice the number of bytes is
always enough, so `parse?` hides it.

Blanks are the space, the tab and the two line ends. A text holds no raw
control character, a number no leading zero, and after the last element of an
array or an object no comma stands.
-/

namespace EntityStore.Json

open Decimal (Digit)

def isBlank (b : UInt8) : Bool := b == 0x20 || b == 0x0A || b == 0x0D || b == 0x09

def skipBlanks (bytes : Bytes) : Bytes := bytes.dropWhile isBlank

/-- The rest after a literal word. -/
def literal? (word : Bytes) (bytes : Bytes) : Option Bytes :=
  if word.isPrefixOf bytes then some (bytes.drop word.length) else none

/-- The value of a hexadecimal digit. -/
def hexValue? (b : UInt8) : Option Nat := Hex.digit? (Char.ofNat b.toNat)

/-- The unit that four hexadecimal digits stand for. -/
def unit? (a b c d : UInt8) : Option UInt16 := do
  let a ← hexValue? a
  let b ← hexValue? b
  let c ← hexValue? c
  let d ← hexValue? d
  return (a * 0x1000 + b * 0x100 + c * 0x10 + d).toUInt16

/-- The byte that a short escape stands for. -/
def shortEscape? (b : UInt8) : Option UInt8 :=
  if b == 0x22 || b == 0x5C || b == 0x2F then some b
  else if b == 0x62 then some 0x08
  else if b == 0x66 then some 0x0C
  else if b == 0x6E then some 0x0A
  else if b == 0x72 then some 0x0D
  else if b == 0x74 then some 0x09
  else none

/-- The pieces of a text up to its closing quote, and the rest. -/
def rawText? : Bytes → Option (RawText × Bytes)
  | [] => none
  | a :: rest =>
    if a == 0x22 then some ([], rest)
    else if a == 0x5C then
      match rest with
      | 0x75 :: b :: c :: d :: e :: rest => do
        let u ← unit? b c d e
        let (pieces, rest) ← rawText? rest
        return (.unit u :: pieces, rest)
      | b :: rest => do
        let escaped ← shortEscape? b
        let (pieces, rest) ← rawText? rest
        return (.byte escaped :: pieces, rest)
      | [] => none
    else if a < 0x20 then none
    else do
      let (pieces, rest) ← rawText? rest
      return (.byte a :: pieces, rest)

/-- The digits that bytes begin with, and the rest. -/
def leadingDigits (bytes : Bytes) : List Digit × Bytes :=
  Decimal.leadingDigits UInt8.toNat bytes

/-- The whole part of a number: a zero, or digits that begin with no zero. -/
def wholePart? (bytes : Bytes) : Option (List Digit × Bytes) :=
  match bytes with
  | 0x30 :: rest => some (Decimal.digits 0, rest)
  | _ =>
    match leadingDigits bytes with
    | ([], _) => none
    | (ds, rest) => some (ds, rest)

/-- The fraction of a number, empty where there is no point. -/
def fractionPart? (bytes : Bytes) : Option (List Digit × Bytes) :=
  match bytes with
  | 0x2E :: rest =>
    match leadingDigits rest with
    | ([], _) => none
    | (ds, rest) => some (ds, rest)
  | _ => some ([], bytes)

/-- The digits of an exponent, of which there is at least one. -/
def exponentDigits? (negative : Bool) (bytes : Bytes) : Option (Option Exponent × Bytes) :=
  match leadingDigits bytes with
  | ([], _) => none
  | (ds, rest) => some (some ⟨negative, ds⟩, rest)

/-- The exponent of a number, if it has one. -/
def exponentPart? (bytes : Bytes) : Option (Option Exponent × Bytes) :=
  match bytes with
  | a :: rest =>
    if a == 0x65 || a == 0x45 then
      match rest with
      | 0x2B :: rest => exponentDigits? false rest
      | 0x2D :: rest => exponentDigits? true rest
      | rest => exponentDigits? false rest
    else some (none, bytes)
  | [] => some (none, [])

/-- The number after its sign. -/
def unsigned? (negative : Bool) (bytes : Bytes) : Option (Number × Bytes) := do
  let (whole, rest) ← wholePart? bytes
  let (fraction, rest) ← fractionPart? rest
  let (exponent, rest) ← exponentPart? rest
  return (⟨negative, whole, fraction, exponent⟩, rest)

def number? (bytes : Bytes) : Option (Number × Bytes) :=
  match bytes with
  | 0x2D :: rest => unsigned? true rest
  | _ => unsigned? false bytes

mutual

/-- The value that bytes begin with, after blanks. -/
def value? : Nat → Bytes → Option (Json × Bytes)
  | 0, _ => none
  | bound + 1, bytes =>
    match skipBlanks bytes with
    | [] => none
    | a :: rest =>
      if a == 0x22 then (rawText? rest).map fun (t, rest) => (.text t, rest)
      else if a == 0x5B then
        match skipBlanks rest with
        | 0x5D :: rest => some (.array [], rest)
        | _ => (items? bound rest).map fun (items, rest) => (.array items, rest)
      else if a == 0x7B then
        match skipBlanks rest with
        | 0x7D :: rest => some (.object [], rest)
        | _ => (members? bound rest).map fun (members, rest) => (.object members, rest)
      else if a == 0x6E then (literal? (Utf8.encode "ull") rest).map (.null, ·)
      else if a == 0x74 then (literal? (Utf8.encode "rue") rest).map (.bool true, ·)
      else if a == 0x66 then (literal? (Utf8.encode "alse") rest).map (.bool false, ·)
      else (number? (a :: rest)).map fun (n, rest) => (.number n, rest)

/-- The elements of an array, of which there is at least one, up to its closing bracket. -/
def items? : Nat → Bytes → Option (List Json × Bytes)
  | 0, _ => none
  | bound + 1, bytes =>
    match value? bound bytes with
    | none => none
    | some (item, rest) =>
      match skipBlanks rest with
      | 0x2C :: rest => (items? bound rest).map fun (items, rest) => (item :: items, rest)
      | 0x5D :: rest => some ([item], rest)
      | _ => none

/-- The members of an object, of which there is at least one, up to its closing brace. -/
def members? : Nat → Bytes → Option (List (RawText × Json) × Bytes)
  | 0, _ => none
  | bound + 1, bytes =>
    match skipBlanks bytes with
    | 0x22 :: rest =>
      match rawText? rest with
      | none => none
      | some (name, rest) =>
        match skipBlanks rest with
        | 0x3A :: rest =>
          match value? bound rest with
          | none => none
          | some (item, rest) =>
            match skipBlanks rest with
            | 0x2C :: rest =>
              (members? bound rest).map fun (members, rest) => ((name, item) :: members, rest)
            | 0x7D :: rest => some ([(name, item)], rest)
            | _ => none
        | _ => none
    | _ => none

end

/-- The value that the bytes hold, with nothing but blanks around it. -/
def parse? (bytes : Bytes) : Option Json :=
  match value? (2 * bytes.length + 1) bytes with
  | some (v, rest) => if (skipBlanks rest).isEmpty then some v else none
  | none => none

end EntityStore.Json
