import EntityStore.Json.Shape

/-!
# Settings of a call

What a caller sends along with a call. The store reads none of it and hands it
back with the answer, so that whoever asked can tell the answers apart.
-/

namespace EntityStore

/-- What a caller sends along with a call. -/
structure Settings where
  correlationId : Option String := none
  caller : Option String := none
  headers : SortedMap String String := .empty

namespace Settings

instance : Inhabited Settings := ⟨{}⟩

def isEmpty (s : Settings) : Bool :=
  s.correlationId.isNone && s.caller.isNone && s.headers.isEmpty

def withCorrelationId (s : Settings) (id : String) : Settings := { s with correlationId := some id }

def withCaller (s : Settings) (caller : String) : Settings := { s with caller := some caller }

/-- The settings with a header, in place of one of its name. -/
def withHeader (s : Settings) (name value : String) : Settings :=
  { s with headers := s.headers.insert name value }

def headersToJson (m : SortedMap String String) : Json :=
  Json.record (m.entries.map fun e => (e.1, .string e.2))

instance : JsonShape Settings where
  toJson s := Json.present [
    ("correlation_id", s.correlationId.map .string),
    ("caller", s.caller.map .string),
    ("headers", if s.headers.isEmpty then none else some (headersToJson s.headers))]
  ofJson? v := do
    let r ← v.asRecord? ["correlation_id", "caller", "headers"]
    return {
      correlationId := ← r.optional? "correlation_id" Json.asString?
      caller := ← r.optional? "caller" Json.asString?
      headers := ← r.withDefault? "headers" .empty (Json.asMap? Json.asString?) }

end Settings

end EntityStore
