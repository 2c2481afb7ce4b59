import EntityStore.Store.Candidate

/-!
# Creating, updating and deleting

A write on a read-only store is refused before anything is looked at. Any other
write builds what it needs and then visits the gate once (`enter`, `commit`,
`remove`). Every decision is made in that visit, on the index it finds there,
and a refused write leaves the index as it is.
-/

namespace EntityStore

/-- How an update ends at the gate. -/
inductive UpdateOutcome where
  /-- Nothing is stored under the key. -/
  | missing
  /-- A reference is owned by another entity. -/
  | taken
  /-- The presented token is not the stored one. -/
  | stale
  /-- The candidate is stored. -/
  | replaced
deriving DecidableEq

/-- The code that an update is answered with. -/
def UpdateOutcome.code : UpdateOutcome → ResponseCode
  | .missing => .notFound
  | .taken => .conflict
  | .stale => .conflict
  | .replaced => .ok

/-- The visit of an update: the key has to be live, the references free or its own, and the
presented token the stored one. -/
def PendingUpdate.commit {κ ε : Type} [Ranked κ] (p : PendingUpdate κ ε) (ix : Index κ) :
    UpdateOutcome × Index κ :=
  match ix.get? p.container.key with
  | none => (.missing, ix)
  | some old =>
    if ix.anyOwned p.container.references (some p.container.key) then (.taken, ix)
    else if p.presented.any (· ≠ old.version) then (.stale, ix)
    else
      match ix.replace old p.container with
      | (true, ix) => (.replaced, ix)
      | (false, ix) => (.taken, ix)

namespace Store

variable {κ ε σ τ : Type} [EntityKey κ]

/-- The answer to a write that is refused because the store is read-only. -/
def refusal {ρ : Type} (key : Option κ) (entity : Option ρ) (settings : Option Settings) :
    Response κ ρ :=
  { code := .badRequest, key, entity, message := some readOnlyMessage, settings }

/-- The answer to an accepted write. -/
def accepted (code : ResponseCode) (c : Candidate κ ε) (settings : Option Settings) :
    Response κ ε :=
  { code
    key := some c.container.key
    entity := some c.copy
    reference := c.container.reference
    settings }

/-- The visit of a creation: the candidate is stored if its key and its references are free. -/
def enter (c : Candidate κ ε) (settings : Option Settings) (st : State κ ε σ τ) :
    Response κ ε × State κ ε σ τ :=
  let (added, gate) := st.gate.write (·.add c.container)
  let response :=
    if added then accepted .created c settings
    else { code := .conflict, key := some c.container.key, settings }
  (response, { st with gate })

def create (s : Store κ ε σ τ) (e : ε) (settings : Option Settings) (st : State κ ε σ τ) :
    Except StoreError (Response κ ε) × State κ ε σ τ :=
  if s.readOnly then (.ok (refusal (some (s.makers.key e)) none settings), st)
  else
    match s.prepareCreate e st with
    | (.error err, st) => (.error err, st)
    | (.ok c, st) =>
      let (response, st) := enter c settings st
      (.ok response, st)

/-- The visit of an update: the candidate is stored if nothing speaks against it. -/
def commit (p : PendingUpdate κ ε) (settings : Option Settings) (st : State κ ε σ τ) :
    Response κ ε × State κ ε σ τ :=
  let (outcome, gate) := st.gate.write p.commit
  let response :=
    if outcome = .replaced then accepted outcome.code p.toCandidate settings
    else { code := outcome.code, key := some p.container.key, settings }
  (response, { st with gate })

def update (s : Store κ ε σ τ) (e : ε) (settings : Option Settings) (st : State κ ε σ τ) :
    Except StoreError (Response κ ε) × State κ ε σ τ :=
  if s.readOnly then (.ok (refusal (some (s.makers.key e)) none settings), st)
  else
    match s.prepareUpdate e st with
    | (.error err, st) => (.error err, st)
    | (.ok p, st) =>
      let (response, st) := commit p settings st
      (.ok response, st)

/-- The key that a call is aimed at, with an empty token, as an answer shows it. -/
def requested (target : Target κ) : Option (κ × String) := target.key?.map fun k => (k, "")

/-- The visit of a deletion: the container that the call is aimed at is removed. -/
def remove (target : Target κ) (settings : Option Settings) (st : State κ ε σ τ) :
    Response κ (κ × String) × State κ ε σ τ :=
  let (removed, gate) := st.gate.write (·.remove target)
  let response :=
    match removed with
    | some c => {
      code := .ok
      key := some c.key
      entity := some (c.key, "")
      reference := c.reference
      settings }
    | none => { code := .notFound, key := target.key?, entity := requested target, settings }
  (response, { st with gate })

/-- Deletes the entity that the call is aimed at. Observers are told whether or not there is one. -/
def delete (s : Store κ ε σ τ) (target : Target κ) (settings : Option Settings)
    (st : State κ ε σ τ) : Response κ (κ × String) × State κ ε σ τ :=
  if s.readOnly then (refusal target.key? (requested target) settings, st)
  else remove target settings (st.notify s.observers (.beforeDelete target))

end Store

end EntityStore
