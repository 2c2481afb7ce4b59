import EntityStore.Codec.Zstd.Block
import EntityStore.Digest.XxHash64

/-!
# Frames

A frame is a header, blocks up to one that is marked as the last, and a checksum
of the content if the header announces one. The header bounds what has to be
remembered of the content while it is read, the window, and may tell how large
the content is.

The content is written to a ring that holds the window and a little more. Once
the next block might not fit, writing starts again from the beginning, and what
had been written before the last such turn is out of reach. Content that is said
to be small is written to a space of just its size instead.
-/

namespace EntityStore.Zstd

def blockLimit : Nat := 0x20000

def windowLimit : Nat := 0x8000001

/-- The largest content that is small. -/
def smallContent : Nat := 0x2000

structure Header where
  window : Nat
  contentSize : Option Nat
  hasChecksum : Bool

namespace Header

/-- The window that a byte stands for: a power of two and up to seven eighths more. -/
def windowOf? (b : Nat) : Option Nat :=
  let base := Nat.pow 2 (10 + b / 8)
  if 31 < 10 + b / 8 then none else some (base + base / 8 * (b % 8))

/-- The size of the content by a form, if it is given, and the rest. -/
def contentSize? (form : Nat) (isSingle : Bool) (bytes : Bytes) : Option (Option Nat × Bytes) :=
  match form with
  | 0 =>
    if isSingle then (number? 1 bytes).map fun (n, rest) => (some n, rest) else some (none, bytes)
  | 1 => (number? 2 bytes).map fun (n, rest) => (some (n + 256), rest)
  | 2 => (number? 4 bytes).map fun (n, rest) => (some n, rest)
  | _ =>
    (number? 8 bytes).map fun (n, rest) =>
      (if n = 0xFFFFFFFFFFFFFFFF then none else some n, rest)

/-- The header that bytes behind a magic number begin with, and the rest. The window of a single
segment is its content, and no dictionary is known. -/
def read? (bytes : Bytes) : Option (Header × Bytes) := do
  let (descriptor, rest) ← number? 1 bytes
  let isSingle : Bool := descriptor / 32 % 2 = 1
  let (windowByte, rest) ← if isSingle then some (0, rest) else number? 1 rest
  let (dictionary, rest) ← number? (Nat.pow 2 (descriptor % 4) / 2) rest
  let (contentSize, rest) ← contentSize? (descriptor / 64) isSingle rest
  let window ← if isSingle then contentSize else windowOf? windowByte
  if descriptor / 8 % 2 = 1 ∨ dictionary ≠ 0 then none
  else some (⟨window, contentSize, descriptor / 4 % 2 = 1⟩, rest)

/-- Whether the content is said to be small. -/
def isSmall (h : Header) : Bool := h.contentSize.any (· ≤ smallContent)

def blockLimit (h : Header) : Nat := min h.window Zstd.blockLimit

/-- The room in the ring. -/
def ring (h : Header) : Nat :=
  let window := max h.window 0x400
  window + 2 * min window Zstd.blockLimit + 64

/-- The room for content. -/
def room (h : Header) : Nat :=
  match h.contentSize with
  | none => h.ring
  | some size => if h.isSmall then size else min size h.ring

/-- Whether the room is less than the content may need. -/
def turns (h : Header) : Bool := h.contentSize.all (h.room < ·)

end Header

/-- What blocks leave, with the starts of the last two turns of the ring in the content. -/
structure FrameReader extends Progress where
  turn : Nat := 0
  earlierTurn : Nat := 0

namespace FrameReader

/-- Where the next block of a frame may read and write. -/
def extent (h : Header) (r : FrameReader) : Extent :=
  let stop := r.turn + h.room
  ⟨r.earlierTurn, if h.isSmall then stop else min stop (r.content.size + h.blockLimit)⟩

/-- The reader at a new turn if the next block might not fit. -/
def advance (h : Header) (r : FrameReader) : FrameReader :=
  let size := r.content.size
  if h.turns ∧ h.room < size - r.turn + h.blockLimit then
    { r with turn := size, earlierTurn := r.turn }
  else r

/-- The reader behind bytes that stand in a block as they are, if they fit. -/
def add? (h : Header) (r : FrameReader) (bytes : Bytes) : Option FrameReader :=
  if (r.extent h).stop < r.content.size + bytes.length then none
  else some (advance h { r with content := r.content.append bytes.toArray })

/-- The reader behind a compressed block. -/
def addCompressed? (h : Header) (r : FrameReader) (block : Bytes) : Option FrameReader :=
  let extent := r.extent h
  let ⟨progress, turn, earlierTurn⟩ := r
  (progress.compressed? h.blockLimit extent block.toArray).map fun progress =>
    advance h ⟨progress, turn, earlierTurn⟩

/-- The reader behind a block of a kind and a size, and the rest of the bytes. -/
def block? (h : Header) (r : FrameReader) (kind size : Nat) (bytes : Bytes) :
    Option (FrameReader × Bytes) :=
  match kind with
  | 0 =>
    (take? size bytes).bind fun (block, rest) => (r.add? h block).map fun r => (r, rest)
  | 1 =>
    (number? 1 bytes).bind fun (b, rest) =>
      if (r.extent h).stop < r.content.size + size then none
      else (r.add? h (List.replicate size b.toUInt8)).map fun r => (r, rest)
  | 2 =>
    (take? size bytes).bind fun (block, rest) =>
      if h.blockLimit < size then none
      else if size = 0 ∧ h.isSmall = false then some (r, rest)
      else (r.addCompressed? h block).map fun r => (r, rest)
  | _ => none

/-- Whether the content may end here. Where it is not small, an empty last block lets it be shorter
than it was said to be. -/
def isWhole (h : Header) (r : FrameReader) (kind size : Nat) : Bool :=
  h.contentSize.all (· = r.content.size) || (size = 0 && kind ≠ 1 && !h.isSmall)

/-- The content of a frame from a block on, and the rest of the bytes. -/
def blocks? (h : Header) : Nat → FrameReader → Bytes → Option (Array UInt8 × Bytes)
  | 0, _, _ => none
  | bound + 1, r, bytes => do
    let (header, rest) ← number? 3 bytes
    let kind := header / 2 % 4
    let size := header / 8
    let (r, rest) ← r.block? h kind size rest
    if header % 2 = 0 then blocks? h bound r rest
    else if r.isWhole h kind size then some (r.content, rest)
    else none

end FrameReader

/-- The bytes that a frame begins with. -/
def magic : Bytes := [0x28, 0xB5, 0x2F, 0xFD]

/-- The content of a frame behind its magic number, and the rest. -/
def frame? (bytes : Bytes) : Option (Bytes × Bytes) := do
  let (h, rest) ← Header.read? bytes
  if windowLimit < h.window ∧ h.isSmall = false then none
  else
    let (content, rest) ← FrameReader.blocks? h (rest.length + 1) {} rest
    let content := content.toList
    if h.hasChecksum then
      let (checksum, rest) ← number? 4 rest
      if checksum = (XxHash64.digest content).toNat % 0x100000000 then some (content, rest)
      else none
    else some (content, rest)

end EntityStore.Zstd
