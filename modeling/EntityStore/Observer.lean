import EntityStore.Key
import EntityStore.Response
import EntityStore.Search.Request
import EntityStore.Target

/-!
# Observers

Observers are told of a deletion before it is tried and of a search before and
after. What they are told is data: every delivery names the observer, by its
place in the order the observers were added, and the event. An observer with a
name writes each event down as a line; one without keeps nothing.
-/

namespace EntityStore

/-- What observers are told of. -/
inductive Event (κ : Type) where
  | beforeDelete (target : Target κ)
  | beforeSearch (request : SearchRequest)
  | afterSearch (request : SearchRequest) (code : ResponseCode) (hits : Nat)

/-- One who is told of events. -/
structure Observer where
  name : Option String

/-- An event told to the observer at a place of the order. -/
structure Delivery (κ : Type) where
  place : Nat
  event : Event κ

/-- An event told to every observer, in the order of their places. -/
def Event.deliveries {κ : Type} (e : Event κ) (observers : List Observer) : List (Delivery κ) :=
  (List.range observers.length).map fun place => ⟨place, e⟩

/-- The id of a request as it is written down. -/
def SearchRequest.idText (r : SearchRequest) : String := r.id.getD "-"

/-- An event as it is written down. -/
def Event.text {κ : Type} [EntityKey κ] : Event κ → String
  | .beforeDelete (.key k) => "delete key " ++ EntityKey.text k
  | .beforeDelete (.reference r) => "delete ref " ++ r.text ++ " true"
  | .beforeSearch r => "search " ++ r.idText
  | .afterSearch r code hits =>
    "searched " ++ r.idText ++ " " ++ code.text ++ " " ++ Decimal.text hits

/-- The line that a delivery leaves behind, if its observer has a name. -/
def Delivery.line? {κ : Type} [EntityKey κ] (observers : List Observer) (d : Delivery κ) :
    Option String := do
  let observer ← observers[d.place]?
  let name ← observer.name
  return name ++ " " ++ d.event.text

end EntityStore
