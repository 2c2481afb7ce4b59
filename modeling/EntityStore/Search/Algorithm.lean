import EntityStore.Search.Request
import EntityStore.Snapshot

/-!
# Search algorithms

An algorithm has an id and turns a snapshot and a request into hits. It may
refuse the request, fail, or panic: break off with a value in place of a
result. It may also panic between one hit and the next, so hits are the
containers that were produced and the panic that ended them, if one did.

Whoever asked sees a panic as a failure of the search (`Breakdown.toError`).
-/

namespace EntityStore

/-- The value that an algorithm panics with. -/
inductive Panic where
  | text (s : String)
  | other
deriving DecidableEq

def Panic.message : Panic → String
  | .text s => s
  | .other => "(non-string panic)"

/-- How an algorithm ends without a result. -/
inductive Breakdown where
  | error (e : SearchError)
  | panic (p : Panic)
deriving DecidableEq

def Breakdown.toError : Breakdown → SearchError
  | .error e => e
  | .panic p => .failed ("panicked: " ++ p.message)

/-- The containers that an algorithm produces, and the panic that breaks them off. -/
structure Hits (κ : Type) where
  items : List (Container κ)
  panic : Option Panic := none

/-- A named way to search. It may decode entities, so it is handed the context and the memory of
the store. -/
structure Algorithm (κ ε σ : Type) where
  id : String
  search : Context ε σ → Snapshot κ → SearchRequest → Memory ε σ →
    Except Breakdown (Hits κ) × Memory ε σ

namespace Algorithm

variable {κ ε σ : Type}

/-- The algorithm of a function of snapshot and request. -/
def ofFunction (id : String) (search : Snapshot κ → SearchRequest → Except Breakdown (Hits κ)) :
    Algorithm κ ε σ where
  id
  search _ snapshot request m := (search snapshot request, m)

def shown (a : Algorithm κ ε σ) : String :=
  Text.shownRecord "FnSearchAlgorithm" [("id", Text.quoted a.id)]

end Algorithm

def Container.shownHit {κ : Type} [EntityKey κ] (c : Container κ) : String :=
  Text.shownRecord "SearchHit" [("key", EntityKey.shown c.key)]

end EntityStore
