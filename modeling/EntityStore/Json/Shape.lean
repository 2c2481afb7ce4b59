import EntityStore.Json.Decode
import EntityStore.Json.Reader
import EntityStore.Json.Writer

/-!
# Types with a JSON shape

A type has a shape when its values are written as JSON and read from it.
-/

namespace EntityStore

/-- How values of a type are written as JSON and read from it. -/
class JsonShape (α : Type) where
  toJson : α → Json
  ofJson? : Json → Option α
  /-- What is wrong with bytes that hold no value of the type. -/
  fault : Bytes → String := fun _ => "no such value"

export JsonShape (toJson ofJson?)

namespace JsonShape

/-- The value that a text holds. -/
def parse? {α : Type} [JsonShape α] (s : String) : Option α :=
  (Json.parse? (Utf8.encode s)).bind ofJson?

def text {α : Type} [JsonShape α] (a : α) : String := (toJson a).compact

instance : JsonShape String where
  toJson := Json.string
  ofJson? := Json.asString?

instance : JsonShape Int64 where
  toJson n := Json.int n.toInt
  ofJson? := Json.asInt64?

instance : JsonShape UInt64 where
  toJson n := Json.nat n.toNat
  ofJson? := Json.asUInt64?

def listToJson {α : Type} (write : α → Json) (values : List α) : Json :=
  .array (values.map write)

end JsonShape

namespace Json

/-- The members of a record that are there; the others are left out. -/
def present (members : List (String × Option Json)) : Json :=
  record (members.filterMap fun m => m.2.map fun v => (m.1, v))

end Json

end EntityStore
