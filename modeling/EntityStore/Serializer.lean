import EntityStore.Codec.Zstd
import EntityStore.Json.Shape
import EntityStore.MessagePack.Decode
import EntityStore.MessagePack.Reader
import EntityStore.MessagePack.Writer

/-!
# Serializers and the way from an entity to a blob

A serializer writes an entity as bytes and reads it back; a codec is a second
pass over the bytes. Together they are a serialization context, which is all
that a container knows of formats. Like a codec, a serializer takes a state and
hands the next one on, and both may fail.
-/

namespace EntityStore

/-- How values of a type are written as MessagePack and read from it. -/
class PackShape (α : Type) where
  toPack : α → Pack
  ofPack? : Pack → Option α

export PackShape (toPack ofPack?)

/-- Writes entities as bytes and reads them back, with a state `σ` that it hands on. -/
structure Serializer (ε σ : Type) where
  formatId : String
  serialize : ε → σ → Except StoreError Bytes × σ
  deserialize : Bytes → σ → Except StoreError ε × σ

namespace Serializer

variable {ε σ : Type}

/-- What was read, or a failure to read. -/
def readOrFail {α : Type} (fault : String) (r : Option α) : Except StoreError α :=
  match r with
  | some a => .ok a
  | none => .error (.serialization fault)

def json [JsonShape ε] : Serializer ε σ where
  formatId := "json"
  serialize e s := (.ok (toJson e).render, s)
  deserialize bytes s :=
    (readOrFail (JsonShape.fault ε bytes) ((Json.parse? bytes).bind ofJson?), s)

def messagePack [PackShape ε] : Serializer ε σ where
  formatId := "msgpack"
  serialize e s := (.ok (toPack e).render, s)
  deserialize bytes s := (readOrFail "no such value" ((Pack.parse? bytes).bind ofPack?), s)

/-- A serializer that refuses to write. -/
def refusingToWrite (inner : Serializer ε σ) (reason : String) : Serializer ε σ :=
  { inner with serialize := fun _ s => (.error (.serialization reason), s) }

/-- A serializer that refuses to read. -/
def refusingToRead (inner : Serializer ε σ) (reason : String) : Serializer ε σ :=
  { inner with deserialize := fun _ s => (.error (.serialization reason), s) }

end Serializer

/-- A serializer and the codec behind it. -/
structure Context (ε σ : Type) where
  serializer : Serializer ε σ
  codec : Codec σ

namespace Context

variable {ε σ : Type}

def encode (c : Context ε σ) (e : ε) (s : σ) : Except StoreError Bytes × σ :=
  match c.serializer.serialize e s with
  | (.error err, s) => (.error err, s)
  | (.ok raw, s) =>
    match c.codec.encode raw s with
    | (.error err, s) => (.error err.toStoreError, s)
    | (.ok blob, s) => (.ok blob, s)

def decode (c : Context ε σ) (blob : Bytes) (s : σ) : Except StoreError ε × σ :=
  match c.codec.decode blob s with
  | (.error err, s) => (.error err.toStoreError, s)
  | (.ok raw, s) => c.serializer.deserialize raw s

/-- The format and the codec by name. -/
def describe (c : Context ε σ) : String := c.serializer.formatId ++ "+" ++ c.codec.id

def shown (c : Context ε σ) : String :=
  Text.shownRecord "SerializationContext" [("format", Text.quoted c.describe)]

/-- The usual context: JSON behind the Zstandard codec. -/
def standard [JsonShape ε] : Context ε σ := ⟨Serializer.json, (default : ZstdCodec).codec⟩

end Context

end EntityStore
