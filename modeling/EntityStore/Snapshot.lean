import EntityStore.Container

/-!
# Snapshots

The live containers of one moment, in key order, with the tag of that moment.
Containers never change, so a snapshot stays what it is whatever is written
afterwards.
-/

namespace EntityStore

/-- The containers of one moment and its tag. -/
structure Snapshot (κ : Type) where
  containers : List (Container κ)
  etag : String

namespace Snapshot

def size {κ : Type} (s : Snapshot κ) : Nat := s.containers.length

def isEmpty {κ : Type} (s : Snapshot κ) : Bool := s.containers.isEmpty

def ids {κ : Type} (s : Snapshot κ) : List String := s.containers.map Container.id

end Snapshot

end EntityStore
