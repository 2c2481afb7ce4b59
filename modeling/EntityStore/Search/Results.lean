import EntityStore.Search.Request

/-!
# Search results

A table has a row for every hit: the id and then the properties that the
request selects, each in the column of its name. An entity list has the
entities themselves. Both carry the tag of the contents they were drawn from
and the page that was asked for.
-/

namespace EntityStore

/-- A kind of result that search answers carry. -/
class Paged (ρ : Type) where
  size : ρ → Nat
  /-- The result with the tag of the contents and the page that was asked for. -/
  onPage : String → SearchRequest → ρ → ρ

/-- A column of a table. -/
structure Column where
  index : UInt64
  name : String
deriving DecidableEq

instance : JsonShape Column where
  toJson c := Json.record [("index", toJson c.index), ("name", .string c.name)]
  ofJson? v := do
    let r ← v.asRecord? ["index", "name"]
    return {
      index := ← r.required? "index" ofJson?
      name := ← r.required? "name" Json.asString? }

/-- Hits as rows of an id and properties. -/
structure Table where
  fields : List Column := []
  data : List (List (Option String)) := []
  etag : Option String := none
  skip : UInt64 := 0
  top : Option UInt64 := none
deriving DecidableEq

namespace Table

def idColumn : String := "_"

/-- The columns of the given names, numbered from the first index. -/
def columnsFrom (index : Nat) : List String → List Column
  | [] => []
  | name :: rest => ⟨index.toUInt64, name⟩ :: columnsFrom (index + 1) rest

/-- The table without rows that a request asks for. -/
def forRequest (r : SearchRequest) : Table :=
  { fields := columnsFrom 0 (idColumn :: r.select) }

def size (t : Table) : Nat := t.data.length

instance : Paged Table where
  size := size
  onPage etag r t := { t with etag := some etag, skip := r.skipped, top := r.top }

instance : JsonShape Table where
  toJson t := Json.present [
    ("fields", some (JsonShape.listToJson toJson t.fields)),
    ("data", some (JsonShape.listToJson (JsonShape.listToJson (Json.orNull .string)) t.data)),
    ("etag", t.etag.map .string),
    ("skip", some (toJson t.skip)),
    ("top", t.top.map toJson)]
  ofJson? v := do
    let r ← v.asRecord? ["fields", "data", "etag", "skip", "top"]
    return {
      fields := ← r.required? "fields" (Json.asList? ofJson?)
      data := ← r.required? "data" (Json.asList? (Json.asList? (Json.asOption? Json.asString?)))
      etag := ← r.optional? "etag" Json.asString?
      skip := ← r.required? "skip" ofJson?
      top := ← r.optional? "top" ofJson? }

end Table

/-- Hits as entities. -/
structure EntityList (ε : Type) where
  data : List ε := []
  etag : Option String := none
  skip : UInt64 := 0
  top : Option UInt64 := none

namespace EntityList

def size {ε : Type} (l : EntityList ε) : Nat := l.data.length

instance {ε : Type} : Paged (EntityList ε) where
  size := size
  onPage etag r l := { l with etag := some etag, skip := r.skipped, top := r.top }

instance {ε : Type} [JsonShape ε] : JsonShape (EntityList ε) where
  toJson l := Json.present [
    ("data", some (JsonShape.listToJson toJson l.data)),
    ("etag", l.etag.map .string),
    ("skip", some (toJson l.skip)),
    ("top", l.top.map toJson)]
  ofJson? v := do
    let r ← v.asRecord? ["data", "etag", "skip", "top"]
    return {
      data := ← r.required? "data" (Json.asList? ofJson?)
      etag := ← r.optional? "etag" Json.asString?
      skip := ← r.required? "skip" ofJson?
      top := ← r.optional? "top" ofJson? }

end EntityList

end EntityStore
