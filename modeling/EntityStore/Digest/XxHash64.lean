import EntityStore.Text.Utf8

/-!
# XXH64

A 64-bit digest of a byte sequence that guards against damage, not against
forgery. Stripes of 32 bytes are folded into four lanes; what is left over is
folded into the joined lanes by words of eight bytes, then four, then one, and
the bits are mixed at the end. All arithmetic wraps at 64 bits, and the seed is
zero.
-/

namespace EntityStore.XxHash64

def prime1 : UInt64 := 0x9E3779B185EBCA87
def prime2 : UInt64 := 0xC2B2AE3D27D4EB4F
def prime3 : UInt64 := 0x165667B19E3779F9
def prime4 : UInt64 := 0x85EBCA77C2B2AE63
def prime5 : UInt64 := 0x27D4EB2F165667C5

/-- A word turned to the left. -/
def turn (w : UInt64) (n : UInt64) : UInt64 := (w <<< n) ||| (w >>> (64 - n))

/-- Bytes as a word, the lowest first. -/
def word : Bytes → UInt64
  | [] => 0
  | b :: rest => b.toUInt64 ||| (word rest <<< 8)

/-- A lane with one word more. -/
def round (lane input : UInt64) : UInt64 := turn (lane + input * prime2) 31 * prime1

structure Lanes where
  a : UInt64
  b : UInt64
  c : UInt64
  d : UInt64

def Lanes.start : Lanes := ⟨prime1 + prime2, prime2, 0, 0 - prime1⟩

/-- The lanes with one stripe more. -/
def Lanes.absorb (lanes : Lanes) (stripe : Bytes) : Lanes :=
  let input (i : Nat) := word ((stripe.drop (8 * i)).take 8)
  ⟨round lanes.a (input 0), round lanes.b (input 1), round lanes.c (input 2),
    round lanes.d (input 3)⟩

/-- The lanes with the given number of stripes more, and the bytes behind them. -/
def Lanes.absorbAll : Nat → Lanes → Bytes → Lanes × Bytes
  | 0, lanes, bytes => (lanes, bytes)
  | n + 1, lanes, bytes => absorbAll n (lanes.absorb (bytes.take 32)) (bytes.drop 32)

/-- The lanes joined. -/
def Lanes.join (lanes : Lanes) : UInt64 :=
  let merge (sum lane : UInt64) := (sum ^^^ round 0 lane) * prime1 + prime4
  let sum := turn lanes.a 1 + turn lanes.b 7 + turn lanes.c 12 + turn lanes.d 18
  merge (merge (merge (merge sum lanes.a) lanes.b) lanes.c) lanes.d

/-- Folds fewer than 32 bytes into the joined lanes, by the largest words first. -/
def finish (sum : UInt64) : Bytes → UInt64
  | a :: b :: c :: d :: e :: f :: g :: h :: rest =>
    finish (turn (sum ^^^ round 0 (word [a, b, c, d, e, f, g, h])) 27 * prime1 + prime4) rest
  | a :: b :: c :: d :: rest =>
    finish (turn (sum ^^^ (word [a, b, c, d] * prime1)) 23 * prime2 + prime3) rest
  | a :: rest => finish (turn (sum ^^^ (a.toUInt64 * prime5)) 11 * prime1) rest
  | [] => sum

/-- Spreads every bit over the word. -/
def mix (sum : UInt64) : UInt64 :=
  let sum := (sum ^^^ (sum >>> 33)) * prime2
  let sum := (sum ^^^ (sum >>> 29)) * prime3
  sum ^^^ (sum >>> 32)

def digest (bytes : Bytes) : UInt64 :=
  let (lanes, rest) := Lanes.absorbAll (bytes.length / 32) Lanes.start bytes
  let sum := if bytes.length < 32 then prime5 else lanes.join
  mix (finish (sum + bytes.length.toUInt64) rest)

end EntityStore.XxHash64
