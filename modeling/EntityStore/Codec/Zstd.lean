import EntityStore.Codec.Basic
import EntityStore.Codec.Zstd.Older

/-!
# The Zstandard codec

Bytes as one Zstandard frame of raw blocks: the magic number, a header with the
window, and the content in blocks of at most 128 KiB. Raw blocks are as valid as
compressed ones and the same at every level, so the level is kept and changes
nothing.

Reading takes frames one after another, with blocks of every kind, and frames of
older formats. Frames that are marked as to be skipped hold no content.
-/

namespace EntityStore.Zstd

/-- The header of a block: its size, its kind and whether it is the last. -/
def blockHeader (isLast : Bool) (size : Nat) : Bytes :=
  littleEndian 3 (8 * size + if isLast then 1 else 0)

/-- Content as raw blocks, the given number before the last. -/
def rawBlocks : Nat → Bytes → Bytes
  | 0, content => blockHeader true content.length ++ content
  | n + 1, content =>
    blockHeader false blockLimit ++ content.take blockLimit ++ rawBlocks n (content.drop blockLimit)

/-- Content as a frame. Its header gives a window of 2 MiB and no size. -/
def encode (content : Bytes) : Bytes :=
  magic ++ 0x00 :: 0x58 :: rawBlocks ((content.length - 1) / blockLimit) content

/-- Whether a magic number marks a frame that is to be skipped. -/
def isSkippable (mark : Nat) : Bool := mark / 16 == 0x184D2A5

/-- The content of a frame behind its magic number, and the rest. -/
def frameOf? (mark : Nat) (bytes : Bytes) : Option (Bytes × Bytes) :=
  if isSkippable mark then
    (number? 4 bytes).bind fun (size, rest) => (take? size rest).map fun (_, rest) => ([], rest)
  else if mark = ofLittleEndian magic then frame? bytes
  else olderFrame? mark bytes

/-- The content of frames one after another. -/
def frames? : Nat → Bytes → Option Bytes
  | _, [] => some []
  | 0, _ :: _ => none
  | bound + 1, bytes => do
    let (mark, rest) ← number? 4 bytes
    let (content, rest) ← frameOf? mark rest
    (frames? bound rest).map (content ++ ·)

/-- The content of frames, of which there is at least one. -/
def decode? (bytes : Bytes) : Option Bytes :=
  if bytes.isEmpty then none else frames? bytes.length bytes

end EntityStore.Zstd

namespace EntityStore

structure ZstdCodec where
  level : Int32

namespace ZstdCodec

/-- The level that is used unless another is asked for. -/
def defaultLevel : Int32 := 3

instance : Inhabited ZstdCodec := ⟨⟨defaultLevel⟩⟩

def codec {σ : Type} (_ : ZstdCodec) : Codec σ :=
  Codec.ofFunctions "zstd" (fun bytes => .ok (Zstd.encode bytes)) fun bytes =>
    match Zstd.decode? bytes with
    | some content => .ok content
    | none => .error (.decode "Unknown frame descriptor")

end ZstdCodec

/-- The codec of an id; the level matters only to codecs that compress. -/
def Codec.named? {σ : Type} (id : String) (level : Int32) : Except CodecError (Codec σ) :=
  if id = "identity" then .ok Codec.identity
  else if id = "zstd" then .ok (ZstdCodec.mk level).codec
  else .error (.unknown id)

end EntityStore
