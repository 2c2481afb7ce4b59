import EntityStore.Search.Algorithm
import EntityStore.Search.PropertyOrder

/-!
# The property scan

The scan looks at every container of a snapshot. It keeps those that pass all
filters, puts them in order if the request names one, leaves out as many as the
request skips and keeps at most as many as it asks for.

Containers whose properties tie keep their order in both directions: descending
compares the other way round, it does not turn the result round.
-/

namespace EntityStore.Scan

variable {κ ε σ : Type}

def passesAll (filters : List Filter) (c : Container κ) : Bool :=
  filters.all fun f => f.passes (c.property f.field)

/-- Whether one container may stand before another. -/
def inOrder (order : OrderBy) (a b : Container κ) : Bool :=
  let compare (a b : Container κ) :=
    compareProperty Decimal.numeral? (a.property order.field) (b.property order.field)
  match order.direction with
  | .ascending => compare a b != .gt
  | .descending => compare b a != .gt

/-- Containers in the order that a request names, if it names one. -/
def ordered (order : Option OrderBy) (containers : List (Container κ)) : List (Container κ) :=
  match order with
  | none => containers
  | some order => containers.mergeSort (inOrder order)

/-- At most the given number of containers. -/
def upTo (top : Option UInt64) (containers : List (Container κ)) : List (Container κ) :=
  match top with
  | none => containers
  | some n => containers.take n.toNat

/-- The page of containers that a request asks for. -/
def page (request : SearchRequest) (containers : List (Container κ)) : List (Container κ) :=
  upTo request.top (containers.drop request.skipped.toNat)

/-- The containers that a request asks for. -/
def hits (snapshot : Snapshot κ) (request : SearchRequest) : List (Container κ) :=
  page request (ordered request.orderBy (snapshot.containers.filter (passesAll request.filters)))

/-- The error for a filter without a field. -/
def unnamedField (f : Filter) : SearchError :=
  .invalidRequest ("filter on empty field name (value '" ++ f.value ++ "')")

/-- The answer to a request: every filter has to name a field. -/
def search (snapshot : Snapshot κ) (request : SearchRequest) :
    Except SearchError (List (Container κ)) :=
  match request.filters.find? (·.field.isEmpty) with
  | some f => .error (unnamedField f)
  | none => .ok (hits snapshot request)

def defaultId : String := "scan"

def algorithm (id : String) : Algorithm κ ε σ :=
  Algorithm.ofFunction id fun snapshot request =>
    match search snapshot request with
    | .error e => .error (.error e)
    | .ok items => .ok { items }

end EntityStore.Scan
