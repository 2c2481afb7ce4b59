import EntityStore.Json.Shape

/-!
# Search requests

A request names an algorithm, the properties to show, the filters an entity has
to pass, an order and a page. Every part may be left out. In the JSON shape the
shown properties and the filters are always written, the other parts only when
they are given.
-/

namespace EntityStore

/-- How a filter compares a property with its value. -/
inductive FilterOp where
  | equals
  | differs
  | contains
  | startsWith
deriving DecidableEq

namespace FilterOp

def all : List FilterOp := [.equals, .differs, .contains, .startsWith]

def name : FilterOp → String
  | .equals => "eq"
  | .differs => "ne"
  | .contains => "contains"
  | .startsWith => "starts_with"

def ofName? (name : String) : Option FilterOp := all.find? (·.name == name)

instance : JsonShape FilterOp where
  toJson op := .string op.name
  ofJson? v := v.asName?.bind ofName?

end FilterOp

/-- A condition on one property. -/
structure Filter where
  field : String
  op : FilterOp
  value : String
deriving DecidableEq

namespace Filter

/-- Whether one sequence of characters stands somewhere in another. -/
def occursIn (part : List Char) : List Char → Bool
  | [] => part.isEmpty
  | c :: rest => part.isPrefixOf (c :: rest) || occursIn part rest

/-- Whether a property passes. A missing one passes no comparison but being different. -/
def passes (f : Filter) : Option String → Bool
  | none => f.op == .differs
  | some v =>
    match f.op with
    | .equals => v == f.value
    | .differs => v != f.value
    | .contains => occursIn f.value.toList v.toList
    | .startsWith => f.value.toList.isPrefixOf v.toList

instance : JsonShape Filter where
  toJson f := Json.record [
    ("field", .string f.field), ("op", toJson f.op), ("value", .string f.value)]
  ofJson? v := do
    let r ← v.asRecord? ["field", "op", "value"]
    return {
      field := ← r.required? "field" Json.asString?
      op := ← r.required? "op" ofJson?
      value := ← r.required? "value" Json.asString? }

end Filter

/-- Which end of an order comes first. -/
inductive Direction where
  | ascending
  | descending
deriving DecidableEq

namespace Direction

def all : List Direction := [.ascending, .descending]

def name : Direction → String
  | .ascending => "ascending"
  | .descending => "descending"

def ofName? (name : String) : Option Direction := all.find? (·.name == name)

instance : JsonShape Direction where
  toJson d := .string d.name
  ofJson? v := v.asName?.bind ofName?

end Direction

/-- The property that hits are ordered by, and which end comes first. -/
structure OrderBy where
  field : String
  direction : Direction := .ascending
deriving DecidableEq

instance : JsonShape OrderBy where
  toJson o := Json.record [("field", .string o.field), ("direction", toJson o.direction)]
  ofJson? v := do
    let r ← v.asRecord? ["field", "direction"]
    return {
      field := ← r.required? "field" Json.asString?
      direction := ← r.withDefault? "direction" .ascending ofJson? }

/-- What a search is asked for. -/
structure SearchRequest where
  id : Option String := none
  select : List String := []
  filters : List Filter := []
  orderBy : Option OrderBy := none
  skip : Option UInt64 := none
  top : Option UInt64 := none
deriving DecidableEq

namespace SearchRequest

/-- The number of hits to leave out, none unless said otherwise. -/
def skipped (r : SearchRequest) : UInt64 := r.skip.getD 0

def withSelect (r : SearchRequest) (names : List String) : SearchRequest :=
  { r with select := names }

def withFilter (r : SearchRequest) (f : Filter) : SearchRequest :=
  { r with filters := r.filters ++ [f] }

def withOrder (r : SearchRequest) (order : OrderBy) : SearchRequest :=
  { r with orderBy := some order }

def withSkip (r : SearchRequest) (n : UInt64) : SearchRequest := { r with skip := some n }

def withTop (r : SearchRequest) (n : UInt64) : SearchRequest := { r with top := some n }

instance : JsonShape SearchRequest where
  toJson r := Json.present [
    ("id", r.id.map .string),
    ("select", some (JsonShape.listToJson .string r.select)),
    ("filters", some (JsonShape.listToJson toJson r.filters)),
    ("order_by", r.orderBy.map toJson),
    ("skip", r.skip.map toJson),
    ("top", r.top.map toJson)]
  ofJson? v := do
    let r ← v.asRecord? ["id", "select", "filters", "order_by", "skip", "top"]
    return {
      id := ← r.optional? "id" Json.asString?
      select := ← r.withDefault? "select" [] (Json.asList? Json.asString?)
      filters := ← r.withDefault? "filters" [] (Json.asList? ofJson?)
      orderBy := ← r.optional? "order_by" ofJson?
      skip := ← r.optional? "skip" ofJson?
      top := ← r.optional? "top" ofJson? }

end SearchRequest

end EntityStore
