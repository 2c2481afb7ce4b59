import EntityStore.Search.Algorithm
import EntityStore.Text.Blank
import EntityStore.Text.Lowercase

/-!
# The registry of search algorithms

Algorithms are registered under the normal form of their ids: without blanks at
the ends, in lowercase. An id is registered once; what is registered stays. One
of the registered algorithms can be the default, which answers requests that
name none.
-/

namespace EntityStore

/-- The normal form of a search id. -/
def normalId (id : String) : String := Text.lowercase (Text.trim id)

/-- Algorithms by the normal forms of their ids, and the id of the default one. -/
structure SearchRegistry (κ ε σ : Type) where
  algorithms : SortedMap String (Algorithm κ ε σ)
  defaultId : Option String

namespace SearchRegistry

variable {κ ε σ : Type}

def empty : SearchRegistry κ ε σ := ⟨.empty, none⟩

/-- Registers an algorithm. Its id must hold more than blanks and be free. -/
def register (r : SearchRegistry κ ε σ) (a : Algorithm κ ε σ) :
    Except StoreError (SearchRegistry κ ε σ) :=
  let id := normalId a.id
  if id.isEmpty then .error (.configuration "search id must be a non-empty string")
  else if r.algorithms.contains id then .error (.duplicateSearch id)
  else .ok { r with algorithms := r.algorithms.insert id a }

def registerDefault (r : SearchRegistry κ ε σ) (a : Algorithm κ ε σ) :
    Except StoreError (SearchRegistry κ ε σ) :=
  (r.register a).map fun r => { r with defaultId := some (normalId a.id) }

def setDefault (r : SearchRegistry κ ε σ) (id : String) :
    Except StoreError (SearchRegistry κ ε σ) :=
  let id := normalId id
  if r.algorithms.contains id then .ok { r with defaultId := some id }
  else .error (.unknownSearch id)

def registerAll (r : SearchRegistry κ ε σ) (algorithms : List (Algorithm κ ε σ)) :
    Except StoreError (SearchRegistry κ ε σ) :=
  algorithms.foldlM register r

/-- The id that a request is answered by: its own in normal form, or the default. -/
def resolveId (r : SearchRegistry κ ε σ) (requested : Option String) : Option String :=
  match requested with
  | some id => some (normalId id)
  | none => r.defaultId

def get? (r : SearchRegistry κ ε σ) (id : String) : Option (Algorithm κ ε σ) :=
  r.algorithms.find? (normalId id)

def ids (r : SearchRegistry κ ε σ) : List String := r.algorithms.keys

def size (r : SearchRegistry κ ε σ) : Nat := r.algorithms.size

def isEmpty (r : SearchRegistry κ ε σ) : Bool := r.algorithms.isEmpty

def shown (r : SearchRegistry κ ε σ) : String :=
  Text.shownRecord "SearchRegistry" [
    ("ids", Text.shownList Text.quoted r.ids),
    ("default_id", Text.shownOption Text.quoted r.defaultId)]

end SearchRegistry

end EntityStore
