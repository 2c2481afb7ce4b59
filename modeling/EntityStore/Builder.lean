import EntityStore.Config
import EntityStore.Store.Write

/-!
# Setting up a store

A builder collects what a store is set up with, step by step; of two steps that
say the same thing the later counts, and a step that gives a configuration
replaces all of it. Building checks everything in one order and stops at the
first mistake: the configuration, the serializer, the searches in the order
they were added, the default search, and last the entities that are there from
the start. Those are created one after another as by any caller, and only then
does a read-only store refuse to write.
-/

namespace EntityStore

/-- What a store is set up with. -/
structure Builder (κ ε σ τ : Type) where
  makers : Makers κ ε
  versionPolicy : Option (VersionPolicy ε τ) := none
  signaturePolicy : Option (SignaturePolicy ε) := none
  serializer : Option (Serializer ε σ) := none
  /-- The codec in place of the configured one. -/
  codec : Option (Codec σ) := none
  searches : List (Algorithm κ ε σ) := []
  /-- The default search in place of the configured one. -/
  defaultSearch : Option String := none
  prepopulation : List ε := []
  observers : List Observer := []
  config : Config := {}

namespace Builder

variable {κ ε σ τ : Type}

/-! ## Steps -/

def bare (makers : Makers κ ε) : Builder κ ε σ τ := { makers }

def ofMakers [JsonShape ε] (makers : Makers κ ε) : Builder κ ε σ τ :=
  { makers, serializer := some Serializer.json }

def withReferences (b : Builder κ ε σ τ) (references : ε → List Reference) : Builder κ ε σ τ :=
  { b with makers := { b.makers with references } }

def withProperties (b : Builder κ ε σ τ) (properties : ε → List Property) : Builder κ ε σ τ :=
  { b with makers := { b.makers with properties } }

def withVersionPolicy (b : Builder κ ε σ τ) (p : VersionPolicy ε τ) : Builder κ ε σ τ :=
  { b with versionPolicy := some p }

def withSignaturePolicy (b : Builder κ ε σ τ) (p : SignaturePolicy ε) : Builder κ ε σ τ :=
  { b with signaturePolicy := some p }

def withSerializer (b : Builder κ ε σ τ) (s : Serializer ε σ) : Builder κ ε σ τ :=
  { b with serializer := some s }

/-- Sets the codec, whatever the configuration says. -/
def withCodec (b : Builder κ ε σ τ) (c : Codec σ) : Builder κ ε σ τ := { b with codec := some c }

def withSearch (b : Builder κ ε σ τ) (a : Algorithm κ ε σ) : Builder κ ε σ τ :=
  { b with searches := b.searches ++ [a] }

/-- Names the default search, whatever the configuration says. -/
def withDefaultSearch (b : Builder κ ε σ τ) (id : String) : Builder κ ε σ τ :=
  { b with defaultSearch := some id }

/-- Adds a search and makes it the default. -/
def withSearchAsDefault (b : Builder κ ε σ τ) (a : Algorithm κ ε σ) : Builder κ ε σ τ :=
  (b.withDefaultSearch a.id).withSearch a

def withEntities (b : Builder κ ε σ τ) (entities : List ε) : Builder κ ε σ τ :=
  { b with prepopulation := b.prepopulation ++ entities }

def withObserver (b : Builder κ ε σ τ) (o : Observer) : Builder κ ε σ τ :=
  { b with observers := b.observers ++ [o] }

def withConfig (b : Builder κ ε σ τ) (c : Config) : Builder κ ε σ τ := { b with config := c }

def withReadOnly (b : Builder κ ε σ τ) (readOnly : Bool) : Builder κ ε σ τ :=
  { b with config := { b.config with readOnly } }

def withCollectionName (b : Builder κ ε σ τ) (name : String) : Builder κ ε σ τ :=
  { b with config := { b.config with collectionName := some name } }

/-- Sets whether entities are decoded when they are stored. -/
def withEagerDeserialize (b : Builder κ ε σ τ) (eager : Bool) : Builder κ ε σ τ :=
  { b with config := { b.config with eagerDeserialize := eager } }

def shown (b : Builder κ ε σ τ) : String :=
  Text.shownRecord "RepositoryBuilder" [
    ("config", b.config.shown),
    ("searches", Decimal.text b.searches.length),
    ("prepopulate", Decimal.text b.prepopulation.length),
    ("observers", Decimal.text b.observers.length)]

/-! ## Building -/

def context (b : Builder κ ε σ τ) : Except StoreError (Context ε σ) :=
  match b.serializer with
  | none => .error (.configuration "no serializer registered")
  | some serializer =>
    match b.codec with
    | some codec => .ok ⟨serializer, codec⟩
    | none => b.config.storageCodec.map fun codec => ⟨serializer, codec⟩

/-- The id of the default search: the builder's own, or the configured one. -/
def defaultSearchId (b : Builder κ ε σ τ) : Option String :=
  b.defaultSearch.or b.config.defaultSearch

def registry (b : Builder κ ε σ τ) : Except StoreError (SearchRegistry κ ε σ) :=
  match SearchRegistry.empty.registerAll b.searches with
  | .error e => .error e
  | .ok searches =>
    match b.defaultSearchId with
    | none => .ok searches
    | some id => searches.setDefault id

/-- The id of a collection: its name, and the identifier of the store. -/
def collectionId (b : Builder κ ε σ τ) (entityName : String) (identity : Uuid) : String :=
  b.config.collectionName.getD entityName ++ ":" ++ identity.plainCapital

/-- The store, open for writing. -/
def openStore (b : Builder κ ε σ τ) (entityName : String) (identity : Uuid) :
    Except StoreError (Store κ ε σ τ) := do
  b.config.validate
  let context ← b.context
  let searches ← b.registry
  return {
    collectionId := b.collectionId entityName identity
    readOnly := false
    eager := b.config.eagerDeserialize
    makers := b.makers
    versionPolicy := b.versionPolicy
    signaturePolicy := b.signaturePolicy
    context
    searches
    observers := b.observers }

/-- The error for an entity that the store refuses to be set up with. -/
def rejection [EntityKey κ] (r : Response κ ε) : StoreError :=
  .configuration
    ("prepopulated entity " ++ Text.shownOption EntityKey.shown r.key ++ " rejected with " ++
      r.code.text)

/-- Creates entities one after another; every one has to be accepted. -/
def populate [EntityKey κ] (s : Store κ ε σ τ) :
    List ε → State κ ε σ τ → Except StoreError (State κ ε σ τ)
  | [], st => .ok st
  | e :: rest, st =>
    match s.create e none st with
    | (.error err, _) => .error err
    | (.ok r, st) => if r.isSuccess then populate s rest st else .error (rejection r)

/-- Sets up the store and the state it starts in. The identifier tells it from other stores of the
same name; the session and the tokens are where its context and its token source start. -/
def build [EntityKey κ] (b : Builder κ ε σ τ) (entityName : String) (identity : Uuid)
    (session : σ) (tokens : τ) : Except StoreError (Store κ ε σ τ × State κ ε σ τ) := do
  let s ← b.openStore entityName identity
  let st ← populate s b.prepopulation (State.start session tokens)
  return ({ s with readOnly := b.config.readOnly }, st)

end Builder

end EntityStore
