import EntityStore.Decimal.Digits

/-!
# Etags

The tag of a store's contents names the collection and, behind a colon, how
often the contents have changed. A collection may have colons in its name, so a
tag is taken apart at its last colon.
-/

namespace EntityStore.Etag

/-- The tag of a collection after a number of changes. -/
def text (collection : String) (changes : Nat) : String :=
  collection ++ ":" ++ Decimal.text changes

/-- A text up to its last colon, and what follows it. -/
def split (s : String) : String × String :=
  let reversed := s.toList.reverse
  (String.ofList ((reversed.dropWhile (· ≠ ':')).drop 1).reverse,
    String.ofList (reversed.takeWhile (· ≠ ':')).reverse)

end EntityStore.Etag
