import EntityStore.Codec.Zstd.StateTable

/-!
# The sequences of a block

Behind its literals a compressed block says how they are put between copies of
earlier content. Each sequence is a number of literals, a distance to go back
and a number of bytes to copy from there. The three numbers are written as codes
by states and extra bits, and a distance can be one of the three that were used
last.
-/

namespace EntityStore.Zstd

/-- So many literals, then so many bytes of the content that lies `distance` back. -/
structure Sequence where
  literals : Nat
  distance : Nat
  length : Nat

/-- A kind of number in sequences: each code has a range of numbers, given by the first of them and
the extra bits that choose one. -/
structure Alphabet where
  ranges : Array (Nat × Nat)
  /-- The largest `log` of shares that a block may give. -/
  highestLog : Nat
  /-- The shares of blocks that give none. -/
  standard : Shares

namespace Alphabet

/-- Ranges that follow one another from a number on, by their extra bits. -/
def rangesFrom (first : Nat) : List Nat → List (Nat × Nat)
  | [] => []
  | bits :: rest => (first, bits) :: rangesFrom (first + Nat.pow 2 bits) rest

def literals : Alphabet where
  ranges := (rangesFrom 0 (List.replicate 16 0 ++
    [1, 1, 1, 1, 2, 2, 3, 3, 4, 6, 7, 8, 9, 10, 11, 12, 13, 14, 15, 16])).toArray
  highestLog := 9
  standard := ⟨6, [4, 3, 2, 2, 2, 2, 2, 2, 2, 2, 2, 2, 2, 1, 1, 1, 2, 2, 2, 2, 2, 2, 2, 2, 2, 3,
    2, 1, 1, 1, 1, 1, -1, -1, -1, -1]⟩

def lengths : Alphabet where
  ranges := (rangesFrom 3 (List.replicate 32 0 ++
    [1, 1, 1, 1, 2, 2, 3, 3, 4, 4, 5, 7, 8, 9, 10, 11, 12, 13, 14, 15, 16])).toArray
  highestLog := 9
  standard := ⟨6, [1, 4, 3, 2, 2, 2, 2, 2, 2, 1, 1, 1, 1, 1, 1, 1, 1, 1, 1, 1, 1, 1, 1, 1, 1, 1,
    1, 1, 1, 1, 1, 1, 1, 1, 1, 1, 1, 1, 1, 1, 1, 1, 1, 1, 1, 1, -1, -1, -1, -1, -1, -1, -1]⟩

/-- How far back the bytes lie. The numbers up to three stand for distances used last; greater
ones are three more than the distance. -/
def distances : Alphabet where
  ranges := (rangesFrom 1 (List.range 32)).toArray
  highestLog := 8
  standard := ⟨5, [1, 1, 1, 1, 1, 1, 2, 2, 2, 1, 1, 1, 1, 1, 1, 1, 1, 1, 1, 1, 1, 1, 1, 1,
    -1, -1, -1, -1, -1]⟩

/-- The table that a block uses, and where the bytes behind it start: the standard one, one of a
single code, one by shares, or the one of an earlier block. -/
def table? (a : Alphabet) (form : Nat) (earlier : Option StateTable) (bytes : Array UInt8)
    (start : Nat) : Option (StateTable × Nat) :=
  match form with
  | 0 => some (StateTable.ofShares a.standard, start)
  | 1 =>
    bytes[start]?.bind fun code =>
      if code.toNat < a.ranges.size then some (StateTable.single code.toNat, start + 1) else none
  | 2 =>
    (Shares.read? a.highestLog (a.ranges.size - 1) (bytes.extract start bytes.size)).map
      fun (shares, size) => (StateTable.ofShares shares, start + size)
  | _ => earlier.map fun table => (table, start)

/-- The number of a state's code, and what is left behind its extra bits. -/
def number? (a : Alphabet) (state : State) (s : BitStack) : Option (Nat × BitStack) :=
  let (first, bits) := a.ranges.getD state.symbol (0, 0)
  (s.read? bits).map fun (n, rest) => (first + n, rest)

end Alphabet

structure Recent where
  first : Nat := 1
  second : Nat := 4
  third : Nat := 8

/-- The distance that a number stands for, as the first of the recent ones. Behind no literals at
all the last distance would only have made the copy before longer, so the numbers up to three mean
the later ones and the last less one. -/
def Recent.resolve (r : Recent) (noLiterals : Bool) (n : Nat) : Recent :=
  if 3 < n then ⟨n - 3, r.first, r.second⟩
  else
    match if noLiterals then n + 1 else n with
    | 1 => r
    | 2 => ⟨r.second, r.first, r.third⟩
    | 3 => ⟨r.third, r.first, r.second⟩
    | _ => ⟨r.first - 1, r.first, r.second⟩

/-- Something for each kind of number in a sequence. -/
structure PerNumber (α : Type) where
  literals : α
  distance : α
  length : α

/-- What is known while sequences are read. -/
structure SequenceReader where
  states : PerNumber State
  recent : Recent
  bits : BitStack

namespace SequenceReader

/-- The sequence of the current states. Its extra bits come with those of the distance first. -/
def sequence? (r : SequenceReader) : Option (Sequence × SequenceReader) := do
  let (n, bits) ← Alphabet.distances.number? r.states.distance r.bits
  let (length, bits) ← Alphabet.lengths.number? r.states.length bits
  let (literals, bits) ← Alphabet.literals.number? r.states.literals bits
  let recent := r.recent.resolve (literals = 0) n
  some (⟨literals, recent.first, length⟩, { r with recent, bits })

/-- The reader in the next states. -/
def advance? (tables : PerNumber StateTable) (r : SequenceReader) : Option SequenceReader := do
  let (literals, bits) ← tables.literals.next? r.states.literals r.bits
  let (length, bits) ← tables.length.next? r.states.length bits
  let (distance, bits) ← tables.distance.next? r.states.distance bits
  some { r with states := ⟨literals, distance, length⟩, bits }

/-- Adds the given number of sequences before the last and the last, after which no bit may be
left. -/
def sequences? (tables : PerNumber StateTable) :
    Nat → SequenceReader → Array Sequence → Option (Array Sequence × Recent)
  | 0, r, out =>
    r.sequence?.bind fun (sequence, r) =>
      if r.bits.left = 0 then some (out.push sequence, r.recent) else none
  | n + 1, r, out =>
    match r.sequence? with
    | none => none
    | some (sequence, r) =>
      match advance? tables r with
      | none => none
      | some r => sequences? tables n r (out.push sequence)

end SequenceReader

structure Sequences where
  sequences : Array Sequence
  /-- The tables that a later block can refer to. -/
  tables : Option (PerNumber StateTable)
  recent : Recent

namespace Sequences

/-- How many sequences there are, and where the bytes behind that start. -/
def count? (bytes : Array UInt8) : Option (Nat × Nat) := do
  let first := (← bytes[0]?).toNat
  if first < 128 then some (first, 1)
  else if first < 255 then some (256 * (first - 128) + (← bytes[1]?).toNat, 2)
  else if 3 ≤ bytes.size then some (0x7F00 + bitsAt bytes 8 16, 3)
  else none

/-- The sequences in the bytes behind the literals of a block. -/
def read? (earlier : Option (PerNumber StateTable)) (recent : Recent) (bytes : Array UInt8) :
    Option Sequences := do
  let (count, start) ← count? bytes
  match count with
  | 0 => if start = bytes.size then some ⟨#[], earlier, recent⟩ else none
  | n + 1 =>
    let forms := (← bytes[start]?).toNat
    if forms % 4 ≠ 0 then none
    else
      let start := start + 1
      let (literals, start) ←
        Alphabet.literals.table? (forms / 64) (earlier.map (·.literals)) bytes start
      let (distance, start) ←
        Alphabet.distances.table? (forms / 16 % 4) (earlier.map (·.distance)) bytes start
      let (length, start) ←
        Alphabet.lengths.table? (forms / 4 % 4) (earlier.map (·.length)) bytes start
      let tables : PerNumber StateTable := ⟨literals, distance, length⟩
      let bits ← BitStack.ofBytes? (bytes.extract start bytes.size)
      let (literals, bits) ← tables.literals.first? bits
      let (distance, bits) ← tables.distance.first? bits
      let (length, bits) ← tables.length.first? bits
      let (sequences, recent) ←
        SequenceReader.sequences? tables n ⟨⟨literals, distance, length⟩, recent, bits⟩ #[]
      some ⟨sequences, some tables, recent⟩

end Sequences

end EntityStore.Zstd
