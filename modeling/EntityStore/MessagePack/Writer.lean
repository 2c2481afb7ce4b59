import EntityStore.MessagePack.Basic

/-!
# Writing MessagePack

Every length and every whole number takes the shortest marker that holds it.
A floating-point value is written in full.
-/

namespace EntityStore.Pack

def textHeader (length : Nat) : Bytes :=
  if length < 32 then [(0xA0 + length).toUInt8]
  else if length < 0x100 then 0xD9 :: bigEndian 1 length
  else if length < 0x10000 then 0xDA :: bigEndian 2 length
  else 0xDB :: bigEndian 4 length

def binaryHeader (length : Nat) : Bytes :=
  if length < 0x100 then 0xC4 :: bigEndian 1 length
  else if length < 0x10000 then 0xC5 :: bigEndian 2 length
  else 0xC6 :: bigEndian 4 length

def arrayHeader (length : Nat) : Bytes :=
  if length < 16 then [(0x90 + length).toUInt8]
  else if length < 0x10000 then 0xDC :: bigEndian 2 length
  else 0xDD :: bigEndian 4 length

def mapHeader (length : Nat) : Bytes :=
  if length < 16 then [(0x80 + length).toUInt8]
  else if length < 0x10000 then 0xDE :: bigEndian 2 length
  else 0xDF :: bigEndian 4 length

def extensionHeader (length : Nat) : Bytes :=
  if length < 0x100 then 0xC7 :: bigEndian 1 length
  else if length < 0x10000 then 0xC8 :: bigEndian 2 length
  else 0xC9 :: bigEndian 4 length

/-- A number of the unsigned family. -/
def renderUnsigned (n : Nat) : Bytes :=
  if n < 0x80 then [n.toUInt8]
  else if n < 0x100 then 0xCC :: bigEndian 1 n
  else if n < 0x10000 then 0xCD :: bigEndian 2 n
  else if n < 0x100000000 then 0xCE :: bigEndian 4 n
  else 0xCF :: bigEndian 8 n

/-- A number of the signed family. -/
def renderSigned (n : Int) : Bytes :=
  if -0x20 ≤ n ∧ n < 0 then [(n + 0x100).toNat.toUInt8]
  else if -0x80 ≤ n ∧ n < 0x80 then 0xD0 :: bigEndian 1 (n % 0x100).toNat
  else if -0x8000 ≤ n ∧ n < 0x8000 then 0xD1 :: bigEndian 2 (n % 0x10000).toNat
  else if -0x80000000 ≤ n ∧ n < 0x80000000 then 0xD2 :: bigEndian 4 (n % 0x100000000).toNat
  else 0xD3 :: bigEndian 8 (n % 0x10000000000000000).toNat

mutual

def render : Pack → Bytes
  | .nil => [0xC0]
  | .bool b => [if b then 0xC3 else 0xC2]
  | .unsigned n => renderUnsigned n.toNat
  | .signed n => renderSigned n.toInt
  | .float x => 0xCB :: bigEndian 8 x.bits.toNat
  | .text bytes => textHeader bytes.length ++ bytes
  | .binary bytes => binaryHeader bytes.length ++ bytes
  | .array items => arrayHeader items.length ++ renderItems items
  | .map entries => mapHeader entries.length ++ renderEntries entries
  | .extension kind bytes => extensionHeader bytes.length ++ kind :: bytes

def renderItems : List Pack → Bytes
  | [] => []
  | v :: rest => render v ++ renderItems rest

/-- The bytes of entries one after another, each key before its value. -/
def renderEntries : List (Pack × Pack) → Bytes
  | [] => []
  | (k, v) :: rest => render k ++ (render v ++ renderEntries rest)

end

end EntityStore.Pack
