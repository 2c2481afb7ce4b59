import EntityStore.Etag
import EntityStore.Gate
import EntityStore.Index
import EntityStore.Observer
import EntityStore.Policy.Signature
import EntityStore.Policy.Version
import EntityStore.Search.Registry

/-!
# Stores

A store is what was decided when it was set up: how keys, references and
properties are read off entities, which policies hold, how entities become
blobs, which searches there are and who observes. None of it changes. What
changes is a `State`: the index behind its gate, the memory beside the
containers, the token source, and what observers have been told so far.

Every call is a function from a state to an answer and the next state.
-/

namespace EntityStore

/-- How keys, references and properties are read off entities. -/
structure Makers (κ ε : Type) where
  key : ε → κ
  references : ε → List Reference := fun _ => []
  properties : ε → List Property := fun _ => []

/-- What was decided when a store was set up. -/
structure Store (κ ε σ τ : Type) where
  /-- The name of the collection and what tells it from others of the name. -/
  collectionId : String
  /-- Whether every write is refused. -/
  readOnly : Bool
  /-- Whether entities are decoded when they are stored. -/
  eager : Bool
  makers : Makers κ ε
  versionPolicy : Option (VersionPolicy ε τ)
  signaturePolicy : Option (SignaturePolicy ε)
  context : Context ε σ
  searches : SearchRegistry κ ε σ
  observers : List Observer

/-- What changes in a store. -/
structure State (κ ε σ τ : Type) [Ranked κ] where
  gate : Gate (Index κ)
  memory : Memory ε σ
  tokens : τ
  /-- What observers have been told, the latest last. -/
  deliveries : List (Delivery κ)

namespace State

variable {κ ε σ τ : Type} [Ranked κ]

/-- The state before anything is stored. -/
def start (session : σ) (tokens : τ) : State κ ε σ τ :=
  ⟨⟨.empty⟩, .start session, tokens, []⟩

def count (st : State κ ε σ τ) : Nat := st.gate.read Index.size

def referenceCount (st : State κ ε σ τ) : Nat := st.gate.read Index.referenceCount

def containsKey (st : State κ ε σ τ) (k : κ) : Bool := st.gate.read (·.containsKey k)

def containsReference (st : State κ ε σ τ) (r : Reference) : Bool :=
  st.gate.read (·.containsReference r)

/-- How often an entity was found since it was last written. -/
def readHits (st : State κ ε σ τ) (k : κ) : Option Nat := st.gate.read (·.readHits k)

/-- Tells observers of an event. -/
def notify (st : State κ ε σ τ) (observers : List Observer) (e : Event κ) : State κ ε σ τ :=
  { st with deliveries := st.deliveries ++ e.deliveries observers }

end State

namespace Store

variable {κ ε σ τ : Type}

/-- What a refused write is answered with. -/
def readOnlyMessage : String := "Repository is read-only."

/-- The tag of an index: the collection and the number of its changes. -/
def etagOf [Ranked κ] (s : Store κ ε σ τ) (ix : Index κ) : String :=
  Etag.text s.collectionId ix.revision

def etag [Ranked κ] (s : Store κ ε σ τ) (st : State κ ε σ τ) : String := st.gate.read s.etagOf

def defaultSearchId (s : Store κ ε σ τ) : Option String := s.searches.defaultId

def searchIds (s : Store κ ε σ τ) : List String := s.searches.ids

def shown (s : Store κ ε σ τ) : String :=
  Text.shownRecord "MemoryRepository" [
    ("collection_id", Text.quoted s.collectionId),
    ("read_only", Text.shownBool s.readOnly),
    ("context", s.context.shown),
    ("searches", Text.shownList Text.quoted s.searchIds),
    ("observers", Decimal.text s.observers.length)]

end Store

end EntityStore
