import EntityStore.Proofs.Store.Memory

/-!
# The ledger

A ledger is what a store without blobs, caches and owners would be: one finite
map from keys to entries, and a count of its changes. An entry is the copy that
readers get, with the references it lists, its token and its signature. Nothing
says who owns a reference; whoever wants to know looks for an entry that lists
it.

The rules of each call are written down here once more, on the ledger alone. An
entity that does not come back from being written and read is refused before
anything is looked at, and otherwise the checks stand in the order in which
they decide the code.
-/

namespace EntityStore

/-- An entry of a ledger. -/
structure Entry (ε : Type) where
  copy : ε
  references : List Reference
  version : Option String
  signature : Option String

/-- Entries by key, and how often they were changed. -/
structure Ledger (κ ε : Type) [Ranked κ] where
  entries : SortedMap κ (Entry ε)
  changes : Nat

/-- What can be seen of the contents between two calls. -/
structure Observation (κ : Type) where
  count : Nat
  referenceCount : Nat
  containsKey : κ → Bool
  containsReference : Reference → Bool
  etag : String

namespace Ledger

section

variable {κ ε : Type} [Ranked κ]

/-- The ledger before anything is written. -/
def empty : Ledger κ ε := ⟨.empty, 0⟩

/-- The entry that lists a reference, with its key. -/
def holder? (l : Ledger κ ε) (r : Reference) : Option (κ × Entry ε) :=
  l.entries.entries.find? fun p => decide (r ∈ p.2.references)

/-- The entry that a call is aimed at, with its key. -/
def find? (l : Ledger κ ε) : Target κ → Option (κ × Entry ε)
  | .key k => (l.entries.find? k).map fun entry => (k, entry)
  | .reference r => l.holder? r

/-- Whether an entry lists a reference, under another key than the given one if one is given. -/
def isListed (l : Ledger κ ε) (besides : Option κ) (r : Reference) : Bool :=
  l.entries.entries.any fun p =>
    decide (r ∈ p.2.references) && !besides.any (Index.sameKey p.1)

/-- The ledger with an entry written under a key. -/
def write (l : Ledger κ ε) (k : κ) (entry : Entry ε) : Ledger κ ε :=
  ⟨l.entries.insert k entry, l.changes + 1⟩

/-- The ledger with the entry of a key struck out. -/
def strike (l : Ledger κ ε) (k : κ) : Ledger κ ε := ⟨l.entries.erase k, l.changes + 1⟩

/-- What can be seen of a ledger of the given collection. -/
def observe (collection : String) (l : Ledger κ ε) : Observation κ where
  count := l.entries.size
  referenceCount := (l.entries.values.flatMap Entry.references).dedup.length
  containsKey := l.entries.contains
  containsReference r := (l.holder? r).isSome
  etag := Etag.text collection l.changes

end

/-! ## The rules

They are those of a store `s`, whose makers and policies they consult, and
`copyOf` says what an entity comes back as. -/

section

variable {κ ε σ τ : Type} [EntityKey κ] (s : Store κ ε σ τ) (copyOf : ε → Except StoreError ε)

/-- The entry of an entity that came back as a copy. -/
def entryOf (e : ε) (version : Option String) (copy : ε) : Entry ε where
  copy
  references := s.makers.references e
  version
  signature := s.signaturePolicy.map fun p => p.sign e version

/-- Whether the signature of an entry fits its copy. -/
def isIntact (entry : Entry ε) : Bool :=
  match s.signaturePolicy with
  | none => true
  | some p => entry.signature.any (p.accepts entry.copy entry.version)

/-- The answer to an accepted write. -/
def written (code : ResponseCode) (k : κ) (entry : Entry ε) (settings : Option Settings) :
    Response κ ε :=
  { code, key := some k, entity := some entry.copy, reference := entry.references.head?, settings }

/-- The key and all references have to be free. -/
def enter (k : κ) (entry : Entry ε) (settings : Option Settings) (l : Ledger κ ε) :
    Response κ ε × Ledger κ ε :=
  if l.entries.contains k || entry.references.any (l.isListed none) then
    ({ code := .conflict, key := some k, settings }, l)
  else (written .created k entry settings, l.write k entry)

/-- The key has to be live, the references free or its own, and the presented token the stored
one, in this order. -/
def commit (k : κ) (entry : Entry ε) (presented : Option (Option String))
    (settings : Option Settings) (l : Ledger κ ε) : Response κ ε × Ledger κ ε :=
  match l.entries.find? k with
  | none => ({ code := .notFound, key := some k, settings }, l)
  | some old =>
    if entry.references.any (l.isListed (some k)) then
      ({ code := .conflict, key := some k, settings }, l)
    else if presented.any (· ≠ old.version) then
      ({ code := .conflict, key := some k, settings }, l)
    else (written .ok k entry settings, l.write k entry)

/-- Creating enters an entity that comes back. -/
def create (e : ε) (settings : Option Settings) (l : Ledger κ ε) :
    Except StoreError (Response κ ε) × Ledger κ ε :=
  match copyOf e with
  | .error err => (.error err, l)
  | .ok copy => (enter (s.makers.key e) (entryOf s e (s.versionOf e) copy) settings l).map .ok id

/-- Updating commits the draft of an entity if it comes back. -/
def update (e : ε) (d : Store.Draft ε) (settings : Option Settings) (l : Ledger κ ε) :
    Except StoreError (Response κ ε) × Ledger κ ε :=
  match copyOf d.stored with
  | .error err => (.error err, l)
  | .ok copy =>
    (commit (s.makers.key e) (entryOf s d.stored d.version copy) d.presented settings l).map .ok id

/-- A read hands out the copy of the entry that it is aimed at, if its signature fits. -/
def read (target : Target κ) (settings : Option Settings) (l : Ledger κ ε) : Response κ ε :=
  match l.find? target with
  | none => { code := .notFound, settings }
  | some (k, entry) =>
    if isIntact s entry then written .ok k entry settings
    else { code := .forbidden, key := some k, settings }

/-- The answer about a key and a token: those of an entry, or what was asked for if there is
none. -/
def keyed (target : Target κ) (found : Option (κ × Entry ε)) (token : Entry ε → String)
    (settings : Option Settings) : Response κ (κ × String) :=
  match found with
  | none => { code := .notFound, key := target.key?, entity := Store.requested target, settings }
  | some (k, entry) =>
    { code := .ok
      key := some k
      entity := some (k, token entry)
      reference := entry.references.head?
      settings }

/-- Deleting strikes out the entry that the call is aimed at. -/
def delete (target : Target κ) (settings : Option Settings) (l : Ledger κ ε) :
    Response κ (κ × String) × Ledger κ ε :=
  (keyed target (l.find? target) (fun _ => "") settings,
    match l.find? target with
    | none => l
    | some (k, _) => l.strike k)

/-- Answers a call, where new tokens come from the source of the store. -/
def perform (c : EntityCall κ ε) (l : Ledger κ ε) (tokens : τ) :
    EntityAnswer κ ε × Ledger κ ε × τ :=
  match c with
  | .create e settings =>
    let (r, l) := create s copyOf e settings l
    (.entity r, l, tokens)
  | .read target settings => (.entity (.ok (read s target settings l)), l, tokens)
  | .update e settings =>
    let (d, tokens) := s.draft e tokens
    let (r, l) := update s copyOf e d settings l
    (.entity r, l, tokens)
  | .delete target settings =>
    let (r, l) := delete target settings l
    (.version r, l, tokens)
  | .version target settings =>
    (.version (keyed target (l.find? target) (fun entry => entry.version.getD "") settings), l,
      tokens)

/-- The answers to calls, each with what can be seen afterwards. -/
def trace : List (EntityCall κ ε) → Ledger κ ε → τ → List (EntityAnswer κ ε × Observation κ)
  | [], _, _ => []
  | c :: rest, l, tokens =>
    let (a, l, tokens) := perform s copyOf c l tokens
    (a, l.observe s.collectionId) :: trace rest l tokens

end

end Ledger

namespace Store

variable {κ ε σ τ : Type} [EntityKey κ]

/-- What can be seen of a state of a store. -/
def observe (s : Store κ ε σ τ) (st : State κ ε σ τ) : Observation κ where
  count := st.count
  referenceCount := st.referenceCount
  containsKey := st.containsKey
  containsReference := st.containsReference
  etag := s.etag st

/-- The answers to calls, each with what can be seen afterwards. -/
def trace (s : Store κ ε σ τ) :
    List (EntityCall κ ε) → State κ ε σ τ → List (EntityAnswer κ ε × Observation κ)
  | [], _ => []
  | c :: rest, st =>
    let (a, st) := s.perform c st
    (a, s.observe st) :: trace s rest st

end Store

end EntityStore
