import EntityStore.Codec.Zstd.Bits

/-!
# Symbols by states

Symbols that occur often should take few bits, and a fraction of a bit where
that is their due. To that end the decoder is always in one of `2 ^ log` states.
A state stands for a symbol and says how many bits to read, and the number in
them leads to the next state. How many states a symbol has is its share, and
the shares are all that has to be written down: `Shares.read?` reads them and
`StateTable.ofShares` lays out the states.
-/

namespace EntityStore.Zstd

/-- How many of `2 ^ log` states each symbol has, from symbol zero on. The count of a symbol that
would deserve less than one state is `-1`; it has one all the same. -/
structure Shares where
  log : Nat
  counts : List Int

/-- A number below a limit that starts at a bit, and the bit behind it. Where the limit is no power
of two, the first numbers take one bit less than the others. -/
def boundedAt (bytes : Array UInt8) (limit start : Nat) : Nat × Nat :=
  let width := Nat.log2 (limit - 1)
  let half := Nat.pow 2 width
  let short := 2 * half - limit
  let low := bitsAt bytes start width
  if low < short then (low, start + width)
  else
    let n := bitsAt bytes start (width + 1)
    (if n < half then n else n - short, start + width + 1)

/-- How many symbols without a state follow another, and the bit behind that. Fields of two bits are
added up as long as they are full. -/
def gapAt (bytes : Array UInt8) : Nat → Nat → Nat × Nat
  | 0, start => (0, start)
  | bound + 1, start =>
    let n := bitsAt bytes start 2
    if n < 3 then (n, start + 2)
    else
      let (more, behind) := gapAt bytes bound (start + 2)
      (more + 3, behind)

/-- The counts of at most so many symbols that together take the states that are free, and the bit
behind them. -/
def counts? (bytes : Array UInt8) : Nat → Nat → Nat → Option (List Int × Nat)
  | _, 0, start => some ([], start)
  | 0, _ + 1, _ => none
  | bound + 1, free, start =>
    let (n, behind) := boundedAt bytes (free + 2) start
    let count : Int := n - 1
    let (gap, behind) := if n = 1 then gapAt bytes (4 * bytes.size) behind else (0, behind)
    (counts? bytes bound (free - count.natAbs) behind).map fun (more, behind) =>
      (count :: List.replicate gap 0 ++ more, behind)

/-- The shares that bytes begin with, of symbols up to the highest, and how many bytes they take. -/
def Shares.read? (highestLog highestSymbol : Nat) (bytes : Array UInt8) : Option (Shares × Nat) :=
  let log := 5 + bitsAt bytes 0 4
  if highestLog < log then none
  else
    match counts? bytes (highestSymbol + 1) (Nat.pow 2 log) 4 with
    | none => none
    | some (counts, behind) =>
      let size := (behind + 7) / 8
      if counts.length ≤ highestSymbol + 1 ∧ size ≤ bytes.size then some (⟨log, counts⟩, size)
      else none

/-- The symbol of every state. Symbols with the count `-1` take states from the end. The states of
the others are scattered over the rest in steps that come to every state once. -/
def Shares.symbols (s : Shares) : Array Nat :=
  let size := Nat.pow 2 s.log
  let rare := (s.counts.zipIdx.filter (·.1 < 0)).map (·.2)
  let others := s.counts.zipIdx.flatMap fun (count, symbol) => List.replicate count.toNat symbol
  let step := size / 2 + size / 8 + 3
  let places := ((List.range size).map (step * · % size)).filter (· < size - rare.length)
  let ends := (List.range rare.length).map (size - 1 - ·)
  (places.zip others ++ ends.zip rare).foldl
    (fun symbols (place, symbol) => symbols.setIfInBounds place symbol) (Array.replicate size 0)

/-- A state: its symbol, how many bits it reads, and the state that follows if they are zero. -/
structure State where
  symbol : Nat
  bits : Nat
  next : Nat

structure StateTable where
  log : Nat
  states : Array State

namespace StateTable

/-- The table of one symbol only, which reads no bits. -/
def single (symbol : Nat) : StateTable := ⟨0, #[⟨symbol, 0, 0⟩]⟩

/-- The table of shares. The states of a symbol share out the whole range of next states: the first
ones take more of it and read one bit more. -/
def ofShares (s : Shares) : StateTable :=
  let size := Nat.pow 2 s.log
  let add (acc : Array State × Array Nat) (symbol : Nat) : Array State × Array Nat :=
    let rank := acc.2.getD symbol 0
    let bits := s.log - Nat.log2 rank
    (acc.1.push ⟨symbol, bits, rank * Nat.pow 2 bits - size⟩, acc.2.setIfInBounds symbol (rank + 1))
  ⟨s.log, (s.symbols.foldl add (#[], (s.counts.map Int.natAbs).toArray)).1⟩

def state (t : StateTable) (i : Nat) : State := t.states.getD i ⟨0, 0, 0⟩

/-- The state to begin with, and the bits behind it. -/
def first? (t : StateTable) (s : BitStack) : Option (State × BitStack) :=
  (s.read? t.log).map fun (i, rest) => (t.state i, rest)

/-- The state that follows another, and the bits behind it. -/
def next? (t : StateTable) (current : State) (s : BitStack) : Option (State × BitStack) :=
  (s.read? current.bits).map fun (i, rest) => (t.state (current.next + i), rest)

end StateTable

end EntityStore.Zstd
