import EntityStore.Store.Write

/-!
# Reading entities and their versions

A read finds a container, decodes it unless that was done before, and checks
its signature. Only a read that hands out an entity counts as a hit. A question
for the version looks at the container alone, so it counts whenever something
is found.
-/

namespace EntityStore.Store

variable {κ ε σ τ : Type} [EntityKey κ]

/-- Whether the signature of a container fits its entity. Without a policy every one does. -/
def isIntact (s : Store κ ε σ τ) (c : Container κ) (e : ε) : Bool :=
  match s.signaturePolicy with
  | none => true
  | some p => c.signature.any (p.accepts e c.version)

/-- Counts a hit of a key. -/
def countHit (k : κ) (st : State κ ε σ τ) : State κ ε σ τ :=
  { st with gate := (st.gate.write (·.recordHit k)).2 }

/-- Reads the entity that the call is aimed at. -/
def read (s : Store κ ε σ τ) (target : Target κ) (settings : Option Settings)
    (st : State κ ε σ τ) : Except StoreError (Response κ ε) × State κ ε σ τ :=
  match st.gate.read (·.find? target) with
  | none => (.ok { code := .notFound, settings }, st)
  | some c =>
    let (decoded, memory) := c.entity s.context st.memory
    let st := { st with memory }
    match decoded with
    | .error err => (.error err, st)
    | .ok e =>
      if s.isIntact c e then
        (.ok {
          code := .ok
          key := some c.key
          entity := some e
          reference := c.reference
          settings }, countHit c.key st)
      else (.ok { code := .forbidden, key := some c.key, settings }, st)

/-- The key and the token of the entity that the call is aimed at; the empty text stands for no
token. -/
def version (target : Target κ) (settings : Option Settings) (st : State κ ε σ τ) :
    Response κ (κ × String) × State κ ε σ τ :=
  match st.gate.read (·.find? target) with
  | some c =>
    ({
      code := .ok
      key := some c.key
      entity := some (c.key, c.version.getD "")
      reference := c.reference
      settings }, countHit c.key st)
  | none => ({ code := .notFound, key := target.key?, entity := requested target, settings }, st)

end EntityStore.Store
