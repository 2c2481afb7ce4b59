import EntityStore.Reference

/-!
# Targets

A call that concerns one stored entity names it by its key or by any of its
references. Which of the two was used shows in the answer only where nothing
was found.
-/

namespace EntityStore

inductive Target (κ : Type) where
  | key (k : κ)
  | reference (r : Reference)

/-- The key that a call is aimed at, if it is aimed at one. -/
def Target.key? {κ : Type} : Target κ → Option κ
  | .key k => some k
  | .reference _ => none

end EntityStore
