import EntityStore.SortedMap

/-!
# Read hits

How often each live entity was found since it was last written. The counts say
nothing about the entities themselves, so they stand in a table of their own.
-/

namespace EntityStore

/-- A count for every tracked key. Counts are natural numbers here and 64 bits wide in the machine:
what happens to a key that is found 2^64 times in a row without being written is left out. -/
structure ReadHits (κ : Type) [Ranked κ] where
  counts : SortedMap κ Nat

namespace ReadHits

variable {κ : Type} [Ranked κ]

def empty : ReadHits κ := ⟨.empty⟩

def get? (t : ReadHits κ) (k : κ) : Option Nat := t.counts.find? k

def reset (t : ReadHits κ) (k : κ) : ReadHits κ := ⟨t.counts.insert k 0⟩

/-- Counts one more for a key, from zero if it was not tracked; the new count and the table. -/
def record (t : ReadHits κ) (k : κ) : Nat × ReadHits κ :=
  let count := (t.get? k).getD 0 + 1
  (count, ⟨t.counts.insert k count⟩)

def remove (t : ReadHits κ) (k : κ) : ReadHits κ := ⟨t.counts.erase k⟩

end ReadHits

end EntityStore
