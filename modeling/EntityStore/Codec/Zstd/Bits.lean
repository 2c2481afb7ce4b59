import EntityStore.Text.Utf8

/-!
# Numbers and bits in bytes

Numbers that take whole bytes have their lowest byte first. Fields of bits are
numbered in the same way, from the lowest bit of the first byte on. Codes are
read from the other end, the highest bits first: `BitStack` is what is left of
them, and it has to be read to its last bit.
-/

namespace EntityStore.Zstd

/-- A number as the given count of bytes, the lowest first. -/
def littleEndian : Nat → Nat → Bytes
  | 0, _ => []
  | count + 1, n => (n % 256).toUInt8 :: littleEndian count (n / 256)

/-- The number that bytes stand for, the lowest first. -/
def ofLittleEndian : Bytes → Nat
  | [] => 0
  | b :: rest => b.toNat + 256 * ofLittleEndian rest

/-- The first bytes, if there are so many, and the rest. -/
def take? (count : Nat) (bytes : Bytes) : Option (Bytes × Bytes) :=
  let front := bytes.take count
  if front.length = count then some (front, bytes.drop count) else none

/-- The number in the first bytes, and the rest. -/
def number? (count : Nat) (bytes : Bytes) : Option (Nat × Bytes) :=
  (take? count bytes).map fun (b, rest) => (ofLittleEndian b, rest)

/-- The number in a field of bits. Bits behind the last byte are zero. -/
def bitsAt (bytes : Array UInt8) (start count : Nat) : Nat :=
  let touched := (List.range ((start % 8 + count + 7) / 8)).map fun i =>
    bytes.getD (start / 8 + i) 0
  ofLittleEndian touched / Nat.pow 2 (start % 8) % Nat.pow 2 count

/-- Bits that are read from the highest down: those below `left` are still to come. -/
structure BitStack where
  bytes : Array UInt8
  left : Nat

namespace BitStack

/-- The bits of bytes up to the highest set bit of the last byte, which only marks the end. -/
def ofBytes? (bytes : Array UInt8) : Option BitStack :=
  match bytes.back? with
  | none => none
  | some last =>
    if last = 0 then none else some ⟨bytes, 8 * (bytes.size - 1) + Nat.log2 last.toNat⟩

/-- The number in the next bits, with zeros for bits that are missing. -/
def peek (s : BitStack) (count : Nat) : Nat :=
  if count ≤ s.left then bitsAt s.bytes (s.left - count) count
  else bitsAt s.bytes 0 s.left * Nat.pow 2 (count - s.left)

/-- What is left after the next bits, if there are so many. -/
def drop? (s : BitStack) (count : Nat) : Option BitStack :=
  if count ≤ s.left then some { s with left := s.left - count } else none

/-- The number in the next bits, if there are so many, and what is left. -/
def read? (s : BitStack) (count : Nat) : Option (Nat × BitStack) :=
  (s.drop? count).map fun rest => (s.peek count, rest)

end BitStack

end EntityStore.Zstd
