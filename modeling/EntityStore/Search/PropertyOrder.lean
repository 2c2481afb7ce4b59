import EntityStore.Decimal.Numeral
import EntityStore.Ranked

/-!
# The order of properties

Properties are texts, and a search that orders by one wants nine before ten. So
a property that is missing comes first, then come the numbers in the order of
their values, and last every other text by code point. Which texts are numbers
is a parameter (`numeral?`): the order is one whatever the answer is, because
each property is placed on its own and places are ranked.
-/

namespace EntityStore

/-- The place of a property. -/
inductive SortKey where
  | absent
  | number (x : Binary64)
  | text (s : String)
deriving DecidableEq

namespace SortKey

/-- The place of a property, where `numeral?` says which texts are numbers. -/
def of (numeral? : String → Option Binary64) : Option String → SortKey
  | none => .absent
  | some s =>
    match numeral? s with
    | some x => .number x
    | none => .text s

/-- The group of a place, and where in its group it stands. -/
def coordinates : SortKey → Nat × Int × String
  | .absent => (0, 0, "")
  | .number x => (1, x.place, "")
  | .text s => (2, 0, s)

theorem coordinates_inj {a b : SortKey} (h : a.coordinates = b.coordinates) : a = b := by
  cases a <;> cases b <;> simp_all [coordinates]
  case number.number x y => exact Binary64.place_inj h

instance : Ranked SortKey := Ranked.comap coordinates fun _ _ => coordinates_inj

end SortKey

/-- How two properties compare. -/
def compareProperty (numeral? : String → Option Binary64) (a b : Option String) : Ordering :=
  rank (SortKey.of numeral? a) (SortKey.of numeral? b)

end EntityStore
