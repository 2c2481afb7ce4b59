import EntityStore.Codec.Zstd.Frame

/-!
# Frames of older formats

The numbered formats before the settled one have magic numbers of their own.
Their blocks begin with a header whose highest byte comes first, and an end mark
stands behind the last one; a block without bytes ends a frame as well. Frames of
four of these formats are read if their blocks hold bytes as they are. Their
blocks of one repeated byte and their compressed blocks are refused.
-/

namespace EntityStore.Zstd

/-- What is known of an older frame before its blocks. -/
structure OlderHeader where
  /-- The room in the ring that content is written to. -/
  room : Nat
  /-- Where less room than this is left, writing starts again from the beginning. -/
  reserve : Nat
  hasChecksum : Bool := false

namespace OlderHeader

/-- The header of a window, with a block and a little more behind it. -/
def ofWindow (window : Nat) (hasChecksum : Bool) : OlderHeader :=
  let reserve := min window blockLimit
  ⟨window + reserve + 16, reserve, hasChecksum⟩

/-- The header of the fourth and the fifth format: the power of two that the window is. -/
def fifth? (bytes : Bytes) : Option (OlderHeader × Bytes) :=
  (number? 1 bytes).bind fun (descriptor, rest) =>
    if descriptor < 16 then some (⟨Nat.pow 2 (11 + descriptor), blockLimit, false⟩, rest) else none

/-- The header of the sixth format, which may give the size of the content. -/
def sixth? (bytes : Bytes) : Option (OlderHeader × Bytes) := do
  let (descriptor, rest) ← number? 1 bytes
  let (_, rest) ← number? ([0, 1, 2, 8].getD (descriptor / 64) 0) rest
  if descriptor / 32 % 2 = 1 then none
  else some (ofWindow (Nat.pow 2 (12 + descriptor % 16)) false, rest)

/-- The header of the seventh format, which is that of the settled one. A size of the content that
stands for the window counts by its lowest 32 bits. -/
def seventh? (bytes : Bytes) : Option (OlderHeader × Bytes) :=
  (Header.read? bytes).bind fun (h, rest) =>
    let window := h.window % 0x100000000
    if 0x8000000 < window then none
    else some (ofWindow (max window 0x400) h.hasChecksum, rest)

/-- The header that bytes behind a magic number begin with, and the rest. -/
def read? (mark : Nat) (bytes : Bytes) : Option (OlderHeader × Bytes) :=
  match mark with
  | 0xFD2FB524 => fifth? bytes
  | 0xFD2FB525 => fifth? bytes
  | 0xFD2FB526 => sixth? bytes
  | 0xFD2FB527 => seventh? bytes
  | _ => none

/-- The content of an older frame from a block on, the checksum of the end mark if there is one, and
the rest of the bytes. So many bytes have been written since the ring was last begun. -/
def blocks? (h : OlderHeader) : Nat → Nat → Bytes → Option (Bytes × Option Nat × Bytes)
  | 0, _, _ => none
  | bound + 1, written, bytes => do
    let (header, rest) ← take? 3 bytes
    let header := ofLittleEndian header.reverse
    let kind := header / 0x400000
    let size := header % 0x80000
    if kind = 3 then some ([], some (header % 0x400000), rest)
    else if kind = 2 then none
    else if size = 0 then some ([], none, rest)
    else if kind = 0 ∨ h.room < written + size then none
    else
      let (block, rest) ← take? size rest
      let written := if h.room < written + size + h.reserve then 0 else written + size
      (blocks? h bound written rest).map fun (content, more) => (block ++ content, more)

end OlderHeader

/-- The content of an older frame behind its magic number, and the rest. The checksum is made of
those bits of the digest that fit into the end mark. -/
def olderFrame? (mark : Nat) (bytes : Bytes) : Option (Bytes × Bytes) := do
  let (h, rest) ← OlderHeader.read? mark bytes
  let (content, checksum, rest) ← h.blocks? (rest.length + 1) 0 rest
  let expected := (XxHash64.digest content).toNat / 0x800 % 0x400000
  if h.hasChecksum && checksum.any (· ≠ expected) then none else some (content, rest)

end EntityStore.Zstd
