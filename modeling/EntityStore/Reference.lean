import EntityStore.Json.Shape
import EntityStore.Text.Quoted

/-!
# References

A reference is a pair of texts that finds an entity beside its key, such as an
email address. At most one live entity owns a reference, and two references are
the same only letter for letter.
-/

namespace EntityStore

/-- An alternate way to name an entity: what kind of name it is, and the name. -/
structure Reference where
  key : String
  value : String
deriving DecidableEq

namespace Reference

instance : Ranked Reference :=
  Ranked.comap (fun r => (r.key, r.value)) fun a b h => by
    cases a
    cases b
    simpa using h

def text (r : Reference) : String := r.key ++ "=" ++ r.value

def shown (r : Reference) : String :=
  Text.shownRecord "Reference" [("key", Text.quoted r.key), ("value", Text.quoted r.value)]

instance : JsonShape Reference where
  toJson r := Json.record [("key", .string r.key), ("value", .string r.value)]
  ofJson? v := do
    let r ← v.asRecord? ["key", "value"]
    return {
      key := ← r.required? "key" Json.asString?
      value := ← r.required? "value" Json.asString? }

end Reference

end EntityStore
