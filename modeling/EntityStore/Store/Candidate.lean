import EntityStore.Store.Basic

/-!
# Candidates

A write builds its container before it visits the gate: the references, the
properties and the signature are made, the entity is serialized, and the blob
is decoded again, since the answer shows what is stored and what cannot be read
back must not be stored. Nothing here looks at the index, so a candidate is the
same whatever other calls do meanwhile.
-/

namespace EntityStore

/-- A container that is not stored yet, and the copy of its entity that the answer will show. -/
structure Candidate (κ ε : Type) where
  container : Container κ
  copy : ε

/-- An update that is ready for the gate: its candidate and, where the stored token is compared,
the token that the update presents. -/
structure PendingUpdate (κ ε : Type) extends Candidate κ ε where
  presented : Option (Option String)

namespace Store

variable {κ ε σ τ : Type} [EntityKey κ]

/-- What stands beside the blob of an entity with a key and a version token. -/
def parts (s : Store κ ε σ τ) (key : κ) (e : ε) (version : Option String) : ContainerParts κ where
  key
  references := s.makers.references e
  properties := s.makers.properties e
  version
  signature := s.signaturePolicy.map fun p => p.sign e version

/-- Builds the container of an entity with a key and a version token. -/
def candidate (s : Store κ ε σ τ) (key : κ) (e : ε) (version : Option String) (m : Memory ε σ) :
    Except StoreError (Candidate κ ε) × Memory ε σ :=
  match Container.make (s.parts key e version) e s.context s.eager m with
  | (.error err, m) => (.error err, m)
  | (.ok container, m) =>
    match container.decodeCopy s.context m with
    | (.error err, m) => (.error err, m)
    | (.ok copy, m) => (.ok { container, copy }, m)

/-- The token that an entity carries, if the store has versions. -/
def versionOf (s : Store κ ε σ τ) (e : ε) : Option String :=
  s.versionPolicy.bind fun p => p.versionOf e

/-- Prepares to create an entity. It keeps the token it carries. -/
def prepareCreate (s : Store κ ε σ τ) (e : ε) (st : State κ ε σ τ) :
    Except StoreError (Candidate κ ε) × State κ ε σ τ :=
  let (r, memory) := s.candidate (s.makers.key e) e (s.versionOf e) st.memory
  (r, { st with memory })

/-- Prepares to update an entity. With optimistic locking it presents the token it carries and is
stored with a new one. The key is that of the entity as it was given. -/
def prepareUpdate (s : Store κ ε σ τ) (e : ε) (st : State κ ε σ τ) :
    Except StoreError (PendingUpdate κ ε) × State κ ε σ τ :=
  let pending (presented : Option (Option String)) (c : Candidate κ ε) : PendingUpdate κ ε :=
    { c with presented }
  let key := s.makers.key e
  match s.versionPolicy with
  | some p =>
    if p.optimistic then
      let ((token, next), tokens) := p.renew e st.tokens
      let (r, memory) := s.candidate key next (some token) st.memory
      (r.map (pending (some (p.versionOf e))), { st with memory, tokens })
    else
      let (r, memory) := s.candidate key e (p.versionOf e) st.memory
      (r.map (pending none), { st with memory })
  | none =>
    let (r, memory) := s.candidate key e none st.memory
    (r.map (pending none), { st with memory })

end Store

end EntityStore
