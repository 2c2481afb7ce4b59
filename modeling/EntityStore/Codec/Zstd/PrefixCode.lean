import EntityStore.Codec.Zstd.StateTable

/-!
# Bytes by prefix codes

A code gives each byte a weight: `0` if it does not occur, else one more than
the bits that its code is shorter than the longest one. The last weight is not
written down, since it has to fill the codes up. `PrefixCode` is the table that
the next bits are looked up in.
-/

namespace EntityStore.Zstd

/-- A prefix code of bytes. The cell of the next `log` bits holds the byte whose code they begin
with, and how many of them the code takes. -/
structure PrefixCode where
  log : Nat
  cells : Array (UInt8 × Nat)

def longestCode : Nat := 12

/-- The symbols of two decoders that take turns, until the bits run out; the other one's symbol is
the last. -/
def alternate? (table : StateTable) : Nat → State → State → BitStack → Option (List Nat)
  | 0, _, _, _ => none
  | bound + 1, current, other, s =>
    match table.next? current s with
    | none => some [current.symbol, other.symbol]
    | some (next, rest) => (alternate? table bound other next rest).map (current.symbol :: ·)

/-- The weights but the last that bytes begin with, and how many bytes they take. A weight takes
four bits, or the weights are themselves written by states. -/
def weights? (bytes : Array UInt8) : Option (List Nat × Nat) := do
  let header := (← bytes[0]?).toNat
  if 128 ≤ header then
    let count := header - 127
    let size := 1 + (count + 1) / 2
    let weight (i : Nat) := bitsAt bytes (8 + 4 * (if i % 2 = 0 then i + 1 else i - 1)) 4
    if size ≤ bytes.size then some ((List.range count).map weight, size) else none
  else if header < bytes.size then
    let part := bytes.extract 1 (header + 1)
    let (shares, used) ← Shares.read? 6 255 part
    let s ← BitStack.ofBytes? (part.extract used part.size)
    let table := StateTable.ofShares shares
    let (one, s) ← table.first? s
    let (other, s) ← table.first? s
    let weights ← alternate? table 254 one other s
    some (weights, header + 1)
  else none

namespace PrefixCode

/-- How many cells a weight takes. -/
def cellCount (weight : Nat) : Nat := Nat.pow 2 weight / 2

/-- How many cells weights take. -/
def cellCounts : List Nat → Nat
  | [] => 0
  | weight :: rest => cellCount weight + cellCounts rest

/-- The code of weights but the last. What they leave free of the next power of two has to be a
power of two itself, and the longest codes come in pairs. -/
def ofWeights? (weights : List Nat) : Option PrefixCode :=
  let total := if weights.all (· ≤ longestCode) then cellCounts weights else 0
  let log := Nat.log2 total + 1
  let free := Nat.pow 2 log - total
  let last := Nat.log2 free + 1
  if total = 0 ∨ longestCode < log ∨ cellCount last ≠ free then none
  else
    let weights := weights ++ [last]
    let longest := weights.count 1
    if longest < 2 ∨ longest % 2 = 1 then none
    else
      let cellsOf (weight : Nat) := weights.zipIdx.flatMap fun (w, symbol) =>
        if w = weight then List.replicate (cellCount w) (symbol.toUInt8, log + 1 - w) else []
      some ⟨log, ((List.range log).flatMap fun i => cellsOf (i + 1)).toArray⟩

/-- The code that bytes begin with, and how many bytes it takes. -/
def read? (bytes : Array UInt8) : Option (PrefixCode × Nat) := do
  let (weights, size) ← weights? bytes
  let code ← ofWeights? weights
  some (code, size)

/-- Adds so many bytes, after which no bit may be left. -/
def decode? (code : PrefixCode) : Nat → BitStack → Array UInt8 → Option (Array UInt8)
  | 0, s, out => if s.left = 0 then some out else none
  | n + 1, s, out =>
    let (b, length) := code.cells.getD (s.peek code.log) (0, 0)
    match s.drop? length with
    | none => none
    | some rest => decode? code n rest (out.push b)

end PrefixCode

end EntityStore.Zstd
