import EntityStore.Search.Results
import EntityStore.Store.Basic

/-!
# Searching

A search takes a snapshot at the gate and runs its algorithm on it afterwards,
so writes that come in between do not show. The hits are then made into a table
or into a list of entities. A failure at any point, be it of the algorithm, of
a hit or of an entity that does not decode, is answered in place of a result,
and no part of a result is handed out.

Observers are told twice of every search: before it, and after it with its code
and the number of hits, which is zero unless it succeeded.
-/

namespace EntityStore

namespace Hits

variable {κ ε σ : Type}

/-- The row of a hit: its id and the selected properties. -/
def row (select : List String) (c : Container κ) : List (Option String) :=
  some c.id :: select.map c.property

/-- What comes of hits, unless a panic breaks them off. -/
def unlessPanic {α : Type} (h : Hits κ) (a : α) : Except Breakdown α :=
  match h.panic with
  | some p => .error (.panic p)
  | none => .ok a

/-- Hits as a table. -/
def table (request : SearchRequest) (h : Hits κ) (m : Memory ε σ) :
    Except Breakdown Table × Memory ε σ :=
  (h.unlessPanic { Table.forRequest request with data := h.items.map (row request.select) }, m)

/-- The entities of containers; the first that does not decode ends it. -/
def entitiesOf (x : Context ε σ) : List (Container κ) → Memory ε σ →
    Except StoreError (List ε) × Memory ε σ
  | [], m => (.ok [], m)
  | c :: rest, m =>
    match c.entity x m with
    | (.error err, m) => (.error err, m)
    | (.ok e, m) =>
      let (more, m) := entitiesOf x rest m
      (more.map (e :: ·), m)

/-- Hits as a list of entities. -/
def entityList (x : Context ε σ) (h : Hits κ) (m : Memory ε σ) :
    Except Breakdown (EntityList ε) × Memory ε σ :=
  match entitiesOf x h.items m with
  | (.error err, m) => (.error (.error (.entity err)), m)
  | (.ok data, m) => (h.unlessPanic { data }, m)

end Hits

/-- How hits are made into a result. -/
abbrev Loader (κ ε σ ρ : Type) := Hits κ → Memory ε σ → Except Breakdown ρ × Memory ε σ

/-- Runs an algorithm on a snapshot and loads its hits. -/
def Algorithm.run {κ ε σ ρ : Type} (a : Algorithm κ ε σ) (x : Context ε σ)
    (load : Loader κ ε σ ρ) (snapshot : Snapshot κ) (request : SearchRequest) (m : Memory ε σ) :
    Except Breakdown ρ × Memory ε σ :=
  match a.search x snapshot request m with
  | (.error b, m) => (.error b, m)
  | (.ok hits, m) => load hits m

namespace Store

variable {κ ε σ τ ρ : Type} [EntityKey κ]

/-- The message about a search: its id and what is the matter with it. -/
def searchMessage (id rest : String) : String := "Search algorithm '" ++ id ++ "' " ++ rest

/-- The id that a request is answered under; the empty one if there is none. -/
def searchId (s : Store κ ε σ τ) (request : SearchRequest) : String :=
  (s.searches.resolveId request.id).getD ""

/-- The visit of a search: the live containers of the moment and their tag. -/
def takeSnapshot (s : Store κ ε σ τ) (st : State κ ε σ τ) : Snapshot κ :=
  st.gate.read fun ix => ix.snapshot (s.etagOf ix)

/-- The answer to a request for which there is no algorithm. -/
def notSearched (s : Store κ ε σ τ) (request : SearchRequest) (settings : Option Settings)
    (st : State κ ε σ τ) : Response SearchRequest ρ × State κ ε σ τ :=
  ({
    code := .notFound
    key := some request
    message := some (searchMessage (s.searchId request) "cannot be found.")
    settings },
    st.notify s.observers (.afterSearch request .notFound 0))

/-- Runs an algorithm on a snapshot that was taken before and answers the request with the result
that the hits are made into. -/
def searchIn [Paged ρ] (s : Store κ ε σ τ) (load : Loader κ ε σ ρ) (algorithm : Algorithm κ ε σ)
    (snapshot : Snapshot κ) (request : SearchRequest) (settings : Option Settings)
    (st : State κ ε σ τ) : Response SearchRequest ρ × State κ ε σ τ :=
  let (outcome, memory) := algorithm.run s.context load snapshot request st.memory
  let st := { st with memory }
  match outcome with
  | .ok found =>
    ({
      code := .ok
      key := some request
      entity := some (Paged.onPage snapshot.etag request found)
      settings },
      st.notify s.observers (.afterSearch request .ok (Paged.size found)))
  | .error breakdown =>
    ({
      code := .internalError
      key := some request
      message := some (searchMessage (s.searchId request) "unexpected exception.")
      error := some (.search breakdown.toError)
      settings },
      st.notify s.observers (.afterSearch request .internalError 0))

/-- Answers a request with the result that its hits are made into. -/
def searchWith [Paged ρ] (s : Store κ ε σ τ) (load : Loader κ ε σ ρ) (request : SearchRequest)
    (settings : Option Settings) (st : State κ ε σ τ) :
    Response SearchRequest ρ × State κ ε σ τ :=
  let st := st.notify s.observers (.beforeSearch request)
  match s.searches.get? (s.searchId request) with
  | none => s.notSearched request settings st
  | some algorithm => s.searchIn load algorithm (s.takeSnapshot st) request settings st

/-- Answers a request with a table of ids and properties. -/
def search (s : Store κ ε σ τ) (request : SearchRequest) (settings : Option Settings)
    (st : State κ ε σ τ) : Response SearchRequest Table × State κ ε σ τ :=
  s.searchWith (Hits.table request) request settings st

/-- Answers a request with the entities themselves. -/
def searchEntities (s : Store κ ε σ τ) (request : SearchRequest) (settings : Option Settings)
    (st : State κ ε σ τ) : Response SearchRequest (EntityList ε) × State κ ε σ τ :=
  s.searchWith (Hits.entityList s.context) request settings st

end Store

end EntityStore
