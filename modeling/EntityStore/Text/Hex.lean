import EntityStore.Text.Quoted
import EntityStore.Text.Utf8

/-!
# Hexadecimal

Bytes written as pairs of hexadecimal digits. Writing uses small letters;
reading takes both.
-/

namespace EntityStore.Hex

/-- The two digits of a byte. -/
def encodeByte (b : UInt8) : List Char :=
  [Text.hexDigit (b.toNat / 16), Text.hexDigit (b.toNat % 16)]

def encode (bytes : Bytes) : String := String.ofList (bytes.flatMap encodeByte)

/-- The value of a hexadecimal digit. -/
def digit? (c : Char) : Option Nat :=
  let n := c.toNat
  if 48 ≤ n ∧ n ≤ 57 then some (n - 48)
  else if 97 ≤ n ∧ n ≤ 102 then some (n - 87)
  else if 65 ≤ n ∧ n ≤ 70 then some (n - 55)
  else none

/-- The bytes that pairs of digits stand for. -/
def decodeChars? : List Char → Option Bytes
  | [] => some []
  | [_] => none
  | a :: b :: rest => do
    let high ← digit? a
    let low ← digit? b
    let bytes ← decodeChars? rest
    return (high * 16 + low).toUInt8 :: bytes

def decode? (s : String) : Option Bytes := decodeChars? s.toList

end EntityStore.Hex
