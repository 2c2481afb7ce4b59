import EntityStore.Store.Read
import EntityStore.Store.Search

/-!
# Calls, answers and runs

What a client can ask of a store, as data, so that "any sequence of calls" is a
list. Calls about one entity are apart from searches, because much of what
holds of a run holds of the first kind alone.
-/

namespace EntityStore

/-- A call about one entity. -/
inductive EntityCall (κ ε : Type) where
  | create (e : ε) (settings : Option Settings)
  | read (target : Target κ) (settings : Option Settings)
  | update (e : ε) (settings : Option Settings)
  | delete (target : Target κ) (settings : Option Settings)
  | version (target : Target κ) (settings : Option Settings)

/-- A call. -/
inductive Call (κ ε : Type) where
  | entity (c : EntityCall κ ε)
  | search (request : SearchRequest) (settings : Option Settings)
  | searchEntities (request : SearchRequest) (settings : Option Settings)

/-- The answer to a call about one entity. -/
inductive EntityAnswer (κ ε : Type) where
  | entity (r : Except StoreError (Response κ ε))
  | version (r : Response κ (κ × String))

/-- The answer to a call. -/
inductive Answer (κ ε : Type) where
  | entity (a : EntityAnswer κ ε)
  | table (r : Response SearchRequest Table)
  | entities (r : Response SearchRequest (EntityList ε))

/-- The code of an answer, unless the call failed. -/
def EntityAnswer.code? {κ ε : Type} : EntityAnswer κ ε → Option ResponseCode
  | .entity (.ok r) => some r.code
  | .entity (.error _) => none
  | .version r => some r.code

/-- The code of an answer, unless the call failed. -/
def Answer.code? {κ ε : Type} : Answer κ ε → Option ResponseCode
  | .entity a => a.code?
  | .table r => some r.code
  | .entities r => some r.code

/-- Whether the answer to a call says that the contents were changed. -/
def Call.isAccepted {κ ε : Type} (c : Call κ ε) (a : Answer κ ε) : Bool :=
  match c with
  | .entity (.create _ _) => a.code? == some .created
  | .entity (.update _ _) => a.code? == some .ok
  | .entity (.delete _ _) => a.code? == some .ok
  | _ => false

/-- The entity that a call is to create. -/
def Call.created? {κ ε : Type} : Call κ ε → Option ε
  | .entity (.create e _) => some e
  | _ => none

/-- The index of a state. -/
abbrev State.index {κ ε σ τ : Type} [Ranked κ] (st : State κ ε σ τ) : Index κ := st.gate.inner

namespace Store

variable {κ ε σ τ : Type} [EntityKey κ]

/-- Answers a call about one entity. -/
def perform (s : Store κ ε σ τ) (c : EntityCall κ ε) (st : State κ ε σ τ) :
    EntityAnswer κ ε × State κ ε σ τ :=
  match c with
  | .create e settings => (s.create e settings st).map .entity id
  | .read target settings => (s.read target settings st).map .entity id
  | .update e settings => (s.update e settings st).map .entity id
  | .delete target settings => (s.delete target settings st).map .version id
  | .version target settings => (version target settings st).map .version id

/-- Answers a call. -/
def answer (s : Store κ ε σ τ) (c : Call κ ε) (st : State κ ε σ τ) :
    Answer κ ε × State κ ε σ τ :=
  match c with
  | .entity c => (s.perform c st).map .entity id
  | .search request settings => (s.search request settings st).map .table id
  | .searchEntities request settings => (s.searchEntities request settings st).map .entities id

/-- The state after calls, one after another. -/
def after (s : Store κ ε σ τ) (calls : List (Call κ ε)) (st : State κ ε σ τ) : State κ ε σ τ :=
  calls.foldl (fun st c => (s.answer c st).2) st

end Store

end EntityStore
