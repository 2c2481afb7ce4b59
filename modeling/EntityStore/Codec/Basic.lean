import EntityStore.Error
import EntityStore.Text.Utf8

/-!
# Codecs

A codec is the last pass over the bytes of an entity before they are stored,
and the first when they are read. It may keep a state from call to call and may
fail, also after having worked for a while, so each call takes a state and
hands the next one on, whether it succeeds or not.

Most codecs are plain functions: `Codec.ofFunctions` makes one that leaves the
state alone.
-/

namespace EntityStore

/-- A pass over stored bytes, with a state `σ` that it hands on from call to call. -/
structure Codec (σ : Type) where
  id : String
  encode : Bytes → σ → Except CodecError Bytes × σ
  decode : Bytes → σ → Except CodecError Bytes × σ

namespace Codec

variable {σ : Type}

def ofFunctions (id : String) (encode decode : Bytes → Except CodecError Bytes) : Codec σ where
  id
  encode bytes s := (encode bytes, s)
  decode bytes s := (decode bytes, s)

def identity : Codec σ := ofFunctions "identity" .ok .ok

end Codec

end EntityStore
