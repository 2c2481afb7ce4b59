import EntityStore.Error
import EntityStore.Reference
import EntityStore.Settings

/-!
# Responses

Every call is answered with a response. Its code says how the call went, and
the other parts are there as far as the code has something to say.
-/

namespace EntityStore

/-- How a call went. -/
inductive ResponseCode where
  /-- Read, updated, deleted or searched. -/
  | ok
  | created
  /-- Refused because the store is read-only. -/
  | badRequest
  /-- The stored signature does not fit the entity. -/
  | forbidden
  /-- No such key, reference or search algorithm. -/
  | notFound
  /-- The key or a reference is taken, or the version is stale. -/
  | conflict
  /-- A search algorithm failed. -/
  | internalError
deriving DecidableEq

namespace ResponseCode

def all : List ResponseCode :=
  [.ok, .created, .badRequest, .forbidden, .notFound, .conflict, .internalError]

def number : ResponseCode → Nat
  | .ok => 200
  | .created => 201
  | .badRequest => 400
  | .forbidden => 403
  | .notFound => 404
  | .conflict => 409
  | .internalError => 500

def name : ResponseCode → String
  | .ok => "Ok"
  | .created => "Created"
  | .badRequest => "BadRequest"
  | .forbidden => "Forbidden"
  | .notFound => "NotFound"
  | .conflict => "Conflict"
  | .internalError => "InternalError"

def ofNumber? (n : Nat) : Option ResponseCode := all.find? (·.number == n)

def ofName? (name : String) : Option ResponseCode := all.find? (·.name == name)

/-- Whether a code says that the call did what it was asked to. -/
def isSuccess (code : ResponseCode) : Bool := code == .ok || code == .created

def text (code : ResponseCode) : String := Decimal.text code.number

instance : JsonShape ResponseCode where
  toJson code := .string code.name
  ofJson? v := v.asName?.bind ofName?

end ResponseCode

/-- The answer to a call: the key it was about, what it found and how it went. -/
structure Response (κ ρ : Type) where
  code : ResponseCode
  key : Option κ := none
  entity : Option ρ := none
  reference : Option Reference := none
  message : Option String := none
  error : Option Cause := none
  settings : Option Settings := none

/-- Whether a call did what it was asked to. -/
def Response.isSuccess {κ ρ : Type} (r : Response κ ρ) : Bool := r.code.isSuccess

end EntityStore
