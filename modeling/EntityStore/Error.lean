/-!
# Errors

An outcome that a caller can expect is a response code. Errors are for the
rest: mistakes in the setup of a store, which end its construction, and
failures inside one call, such as a blob that does not decode. Every error is a
cause; its wording is in one place beside it.
-/

namespace EntityStore

/-- What can go wrong in a codec. -/
inductive CodecError where
  | encode (reason : String)
  | decode (reason : String)
  | unknown (id : String)
deriving DecidableEq

/-- What can go wrong in a store. -/
inductive StoreError where
  | io (reason : String)
  /-- An entity could not be written as bytes or read from them. -/
  | serialization (reason : String)
  | codec (reason : String)
  | configuration (reason : String)
  | duplicateSearch (id : String)
  | unknownSearch (id : String)
  /-- A failure of the store itself. -/
  | internal (reason : String)
deriving DecidableEq

/-- What can go wrong in a search. -/
inductive SearchError where
  /-- The algorithm cannot answer the request. -/
  | invalidRequest (reason : String)
  | failed (reason : String)
  | entity (e : StoreError)
deriving DecidableEq

def CodecError.message : CodecError → String
  | .encode reason => "Encode error: " ++ reason
  | .decode reason => "Decode error: " ++ reason
  | .unknown id => "Unknown codec: " ++ id

/-- A codec error as one of the store: an unknown codec is a mistake in the setup. -/
def CodecError.toStoreError : CodecError → StoreError
  | .unknown id => .configuration ("unknown codec '" ++ id ++ "'")
  | e => .codec e.message

def StoreError.message : StoreError → String
  | .io reason => "I/O error: " ++ reason
  | .serialization reason => "Serialization error: " ++ reason
  | .codec reason => "Codec error: " ++ reason
  | .configuration reason => "Configuration error: " ++ reason
  | .duplicateSearch id => "Duplicate search algorithm: " ++ id
  | .unknownSearch id => "Unknown search algorithm: " ++ id
  | .internal reason => "Internal error: " ++ reason

/-- Whether an error is a mistake in the setup of a store. -/
def StoreError.isSetup : StoreError → Bool
  | .configuration _ => true
  | .duplicateSearch _ => true
  | .unknownSearch _ => true
  | _ => false

def SearchError.message : SearchError → String
  | .invalidRequest reason => "Invalid search request: " ++ reason
  | .failed reason => "Search failed: " ++ reason
  | .entity e => "Entity error: " ++ e.message

/-- An error that a response carries. -/
inductive Cause where
  | store (e : StoreError)
  | search (e : SearchError)
deriving DecidableEq

def Cause.message : Cause → String
  | .store e => e.message
  | .search e => e.message

end EntityStore
