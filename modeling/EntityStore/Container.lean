import EntityStore.Key
import EntityStore.Property
import EntityStore.Reference
import EntityStore.Serializer

/-!
# Containers

A container is a stored entity: the blob it was serialized to, once, and what
is asked of it often enough to stand beside the blob. Nothing in it changes; an
update stores another container.

Two containers can be alike in every part and still be two, so each has a
handle that no other has. What was decoded from a blob is remembered under the
handle, in a `Memory` that also holds the state of the serialization context
and the next free handle. A container remembers at most one entity and never
another one.
-/

namespace EntityStore

/-- What tells containers apart. -/
abbrev Handle := Nat

/-- What stands beside the containers: the entities decoded so far, by handle, the state of the
serialization context, and the next free handle. -/
structure Memory (ε σ : Type) where
  decoded : SortedMap Handle ε
  session : σ
  next : Handle

/-- The memory before anything is stored. -/
def Memory.start {ε σ : Type} (session : σ) : Memory ε σ := ⟨.empty, session, 0⟩

/-- The parts of a container that do not come from its blob. -/
structure ContainerParts (κ : Type) where
  key : κ
  references : List Reference := []
  properties : List Property := []
  version : Option String := none
  signature : Option String := none

/-- A stored entity. -/
structure Container (κ : Type) extends ContainerParts κ where
  handle : Handle
  id : String
  blob : Bytes

namespace Container

variable {κ ε σ : Type}

/-- The reference that answers show: the first. -/
def reference (c : Container κ) : Option Reference := c.references.head?

/-- The first value of a property. -/
def property (c : Container κ) (name : String) : Option String :=
  Property.first? c.properties name

def decodeBlob (c : Container κ) (x : Context ε σ) (m : Memory ε σ) :
    Except StoreError ε × Memory ε σ :=
  let (r, session) := x.decode c.blob m.session
  (r, { m with session })

def remember (c : Container κ) (e : ε) (m : Memory ε σ) : Memory ε σ :=
  { m with decoded := m.decoded.insert c.handle e }

/-- The entity of a container: what is remembered, or what the blob decodes to, which is then
remembered. -/
def entity (c : Container κ) (x : Context ε σ) (m : Memory ε σ) :
    Except StoreError ε × Memory ε σ :=
  match m.decoded.find? c.handle with
  | some e => (.ok e, m)
  | none =>
    match c.decodeBlob x m with
    | (.error err, m) => (.error err, m)
    | (.ok e, m) => (.ok e, c.remember e m)

def decodeCopy (c : Container κ) (x : Context ε σ) (m : Memory ε σ) :
    Except StoreError ε × Memory ε σ :=
  match m.decoded.find? c.handle with
  | some e => (.ok e, m)
  | none => c.decodeBlob x m

def isDecoded (c : Container κ) (m : Memory ε σ) : Bool := m.decoded.contains c.handle

/-- Serializes an entity into a new container. An eager one is decoded at once and remembers the
entity. -/
def make [EntityKey κ] (parts : ContainerParts κ) (e : ε) (x : Context ε σ) (eager : Bool)
    (m : Memory ε σ) : Except StoreError (Container κ) × Memory ε σ :=
  match x.encode e m.session with
  | (.error err, session) => (.error err, { m with session })
  | (.ok blob, session) =>
    let c : Container κ :=
      { parts with handle := m.next, id := EntityKey.text parts.key, blob }
    let m := { m with session, next := m.next + 1 }
    if eager then
      match c.decodeBlob x m with
      | (.error err, m) => (.error err, m)
      | (.ok e, m) => (.ok c, c.remember e m)
    else (.ok c, m)

/-- A copy of a container with another signature. It remembers what the container remembers. -/
def resigned (c : Container κ) (signature : Option String) (m : Memory ε σ) :
    Container κ × Memory ε σ :=
  let copy := { c with signature, handle := m.next }
  let m := { m with next := m.next + 1 }
  match m.decoded.find? c.handle with
  | some e => (copy, copy.remember e m)
  | none => (copy, m)

def shown [EntityKey κ] (c : Container κ) : String :=
  Text.shownRecord "EntityContainer" [
    ("key", EntityKey.shown c.key),
    ("blob_len", Decimal.text c.blob.length),
    ("references", Text.shownList Reference.shown c.references),
    ("version_id", Text.shownOption Text.quoted c.version),
    ("signature", Text.shownOption Text.quoted c.signature)]

end Container

end EntityStore
