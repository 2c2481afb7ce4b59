import EntityStore.Container
import EntityStore.ReadHits
import EntityStore.Snapshot
import EntityStore.Target

/-!
# The index

The index holds the live containers by key, says which key owns each reference,
counts read hits, and numbers its states: every accepted addition, replacement
or removal makes the revision one larger, and nothing else does.

A reference is owned by the key of the container that lists it. An operation
that would give a reference two owners is refused as a whole.
-/

namespace EntityStore

/-- The live containers, the owners of references, the read hits and the number of changes. -/
structure Index (κ : Type) [Ranked κ] where
  containers : SortedMap κ (Container κ)
  owners : SortedMap Reference κ
  hits : ReadHits κ
  /-- The number of accepted changes. It is a natural number here and 64 bits wide in the machine:
  what happens at the change that makes it 2^64 is left out. -/
  revision : Nat

namespace Index

variable {κ : Type} [Ranked κ]

def empty : Index κ := ⟨.empty, .empty, .empty, 0⟩

def size (ix : Index κ) : Nat := ix.containers.size

def isEmpty (ix : Index κ) : Bool := ix.containers.isEmpty

def referenceCount (ix : Index κ) : Nat := ix.owners.size

def get? (ix : Index κ) (k : κ) : Option (Container κ) := ix.containers.find? k

def getByReference? (ix : Index κ) (r : Reference) : Option (Container κ) :=
  (ix.owners.find? r).bind ix.get?

/-- The container that a call is aimed at. -/
def find? (ix : Index κ) : Target κ → Option (Container κ)
  | .key k => ix.get? k
  | .reference r => ix.getByReference? r

def containsKey (ix : Index κ) (k : κ) : Bool := ix.containers.contains k

def containsReference (ix : Index κ) (r : Reference) : Bool := ix.owners.contains r

/-- Whether two keys are one. -/
def sameKey (a b : κ) : Bool := rank a b == .eq

/-- Whether one of the references is owned, by another key than the given one if one is given. -/
def anyOwned (ix : Index κ) (references : List Reference) (besides : Option κ) : Bool :=
  references.any fun r =>
    match ix.owners.find? r with
    | none => false
    | some owner => !besides.any (sameKey owner)

/-- The owners once a container owns its references. -/
def ownedBy (owners : SortedMap Reference κ) (c : Container κ) : SortedMap Reference κ :=
  c.references.foldl (fun owners r => owners.insert r c.key) owners

/-- The owners once a container owns its references no longer. -/
def releasedBy (owners : SortedMap Reference κ) (c : Container κ) : SortedMap Reference κ :=
  c.references.foldl
    (fun owners r => if (owners.find? r).any (sameKey c.key) then owners.erase r else owners) owners

/-- The index with a container stored and its references owned. -/
def store (ix : Index κ) (owners : SortedMap Reference κ) (c : Container κ) : Index κ where
  containers := ix.containers.insert c.key c
  owners := ownedBy owners c
  hits := ix.hits.reset c.key
  revision := ix.revision + 1

/-- Stores a container whose key is free and whose references are. -/
def add (ix : Index κ) (c : Container κ) : Bool × Index κ :=
  if ix.containsKey c.key then (false, ix)
  else if ix.anyOwned c.references none then (false, ix)
  else (true, ix.store ix.owners c)

/-- Stores a container in place of another of the same key. The other has to be the very one that
is stored, and the references of the new one free or owned by the key. -/
def replace (ix : Index κ) (old new : Container κ) : Bool × Index κ :=
  if !sameKey new.key old.key then (false, ix)
  else if !(ix.get? old.key).any (·.handle == old.handle) then (false, ix)
  else if ix.anyOwned new.references (some old.key) then (false, ix)
  else (true, ix.store (releasedBy ix.owners old) new)

def delete (ix : Index κ) (k : κ) : Option (Container κ) × Index κ :=
  match ix.get? k with
  | none => (none, ix)
  | some c =>
    (some c, {
      containers := ix.containers.erase k
      owners := releasedBy ix.owners c
      hits := ix.hits.remove k
      revision := ix.revision + 1 })

def deleteByReference (ix : Index κ) (r : Reference) : Option (Container κ) × Index κ :=
  match ix.owners.find? r with
  | none => (none, ix)
  | some k => ix.delete k

/-- Removes the container that a call is aimed at. -/
def remove (ix : Index κ) : Target κ → Option (Container κ) × Index κ
  | .key k => ix.delete k
  | .reference r => ix.deleteByReference r

/-- Counts a read hit; the new count and the index. -/
def recordHit (ix : Index κ) (k : κ) : Nat × Index κ :=
  let (count, hits) := ix.hits.record k
  (count, { ix with hits })

def readHits (ix : Index κ) (k : κ) : Option Nat := ix.hits.get? k

/-- The live containers in key order, with a tag. -/
def snapshot (ix : Index κ) (etag : String) : Snapshot κ := ⟨ix.containers.values, etag⟩

end Index

end EntityStore
