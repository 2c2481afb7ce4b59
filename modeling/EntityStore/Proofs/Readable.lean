import EntityStore.Proofs.Failure
import EntityStore.Proofs.Interleaving.Lockstep
import EntityStore.Proofs.ReadOnly
import EntityStore.Proofs.Search.Inquiry

/-!
# Nothing unreadable is stored

A blob is read back before its container is shown to anybody. What follows from
that is different for pure contexts and for eager stores.

A pure context reads a blob as it was read then, so every stored blob reads as
an entity, though not always as the one that was written, and no read fails. An
eager store has remembered what it read, so it never asks the context again:
whatever the context does by now, an answer to a look-up is the one that it would
give with any other context, and the memory, with the session that the context
hands on, is what it was (`Store.SparesContext`). Snapshots that searches hold on
to are no exception, since an invariant says that all containers ever made are
decoded (`State.Grounded.decoded`), not only those that are stored.
-/

namespace EntityStore

variable {κ ε σ τ : Type} [EntityKey κ]

omit [EntityKey κ] in
/-- The request of a search. -/
def Call.request? : Call κ ε → Option SearchRequest
  | .search request _ => some request
  | .searchEntities request _ => some request
  | _ => none

/-- Every filter names a field. -/
def SearchRequest.IsValid (request : SearchRequest) : Prop :=
  request.filters.find? (·.field.isEmpty) = none

omit [EntityKey κ] in
theorem Scan.run_of_valid {ρ : Type} {request : SearchRequest} (h : request.IsValid) (id : String)
    (x : Context ε σ) (load : Loader κ ε σ ρ) (snapshot : Snapshot κ) (m : Memory ε σ) :
    (Scan.algorithm id).run x load snapshot request m =
      load { items := Scan.hits snapshot request } m := by
  simp only [Algorithm.run, Scan.algorithm, Algorithm.ofFunction, Scan.search,
    show request.filters.find? (·.field.isEmpty) = none from h]

omit [EntityKey κ] in
theorem Scan.run_of_invalid {ρ : Type} {request : SearchRequest} (h : ¬ request.IsValid) (id : String)
    (x : Context ε σ) (load : Loader κ ε σ ρ) (snapshot : Snapshot κ) (m : Memory ε σ) :
    ∃ b, (Scan.algorithm id).run x load snapshot request m = (.error b, m) := by
  obtain ⟨f, hf⟩ := Option.ne_none_iff_exists'.1 h
  simp only [Algorithm.run, Scan.algorithm, Algorithm.ofFunction, Scan.search, hf]
  exact ⟨_, rfl⟩

omit [EntityKey κ] in
/-- The store with another context. -/
def Store.withContext (s : Store κ ε σ τ) (x : Context ε σ) : Store κ ε σ τ :=
  { s with context := x }

/-- What a store does leaves the memory as it is, and comes out the same with any context. -/
def Store.SparesContext {α : Type} (s : Store κ ε σ τ) (st : State κ ε σ τ)
    (run : Store κ ε σ τ → State κ ε σ τ → α × State κ ε σ τ) : Prop :=
  (run s st).2.memory = st.memory ∧ ∀ x, run (s.withContext x) st = run s st

/-! ## Contexts that are steady -/

namespace State.Grounded

variable {s : Store κ ε σ τ} {made : Container κ → Prop} {st : State κ ε σ τ}

/-- The entities of made containers are what their blobs read as. -/
theorem entitiesOf_eq (hx : s.context.IsSteady) : ∀ {cs : List (Container κ)} {es : List ε}
    {st : State κ ε σ τ}, st.Grounded s made → (∀ c ∈ cs, made c) →
      List.Forall₂ (fun c e => s.context.Reads c.blob e) cs es →
      (Hits.entitiesOf s.context cs st.memory).1 = .ok es := by
  intro cs es st h hmade hreads
  induction hreads generalizing st with
  | nil => rfl
  | @cons c e rest es hc _ ih =>
      have hcmade := hmade c List.mem_cons_self
      have hentity := h.entity_eq hx hcmade hc
      have hrest := ih (h.entity hcmade) fun d hd => hmade d (List.mem_cons_of_mem c hd)
      rw [Hits.entitiesOf]
      cases hent : c.entity s.context st.memory with
      | mk r m =>
          rw [hent] at hentity hrest
          obtain rfl : r = .ok e := hentity
          simp only [hrest]
          rfl

theorem exists_readsAll (h : st.Grounded s made) (hx : s.context.IsSteady) :
    ∀ {cs : List (Container κ)}, (∀ c ∈ cs, made c) →
      ∃ es, List.Forall₂ (fun c e => s.context.Reads c.blob e) cs es := by
  intro cs hmade
  induction cs with
  | nil => exact ⟨[], .nil⟩
  | cons c rest ih =>
      obtain ⟨e, he⟩ := h.exists_reads hx (hmade c List.mem_cons_self)
      obtain ⟨es, hes⟩ := ih fun d hd => hmade d (List.mem_cons_of_mem c hd)
      exact ⟨e :: es, .cons he hes⟩

theorem exists_entitiesOf (h : st.Grounded s made) (hx : s.context.IsSteady)
    {cs : List (Container κ)} (hmade : ∀ c ∈ cs, made c) :
    ∃ es, (Hits.entitiesOf s.context cs st.memory).1 = .ok es := by
  obtain ⟨es, hes⟩ := h.exists_readsAll hx hmade
  exact ⟨es, entitiesOf_eq hx h hmade hes⟩

end State.Grounded

namespace Store

variable {s : Store κ ε σ τ} {made : Container κ → Prop} {st : State κ ε σ τ}

theorem exists_read (h : st.Grounded s made) (hx : s.context.IsSteady) (target : Target κ)
    (settings : Option Settings) : ∃ r, (s.read target settings st).1 = .ok r := by
  cases hfind : st.index.find? target with
  | none => exact ⟨_, by rw [s.read_of_none hfind]⟩
  | some c =>
      have hmade := h.live (h.exact.live_of_find? hfind)
      obtain ⟨copy, hcopy⟩ := h.exists_reads hx hmade
      exact ⟨_, read_of_entity hfind (h.entity_eq hx hmade hcopy) settings⟩

/-- The scan answers a valid request with entities if all of the snapshot was made. -/
theorem searchIn_scan (h : st.Grounded s made) (hx : s.context.IsSteady) {snapshot : Snapshot κ}
    (hmade : ∀ c ∈ snapshot.containers, made c) {request : SearchRequest}
    (hvalid : request.IsValid) (id : String) (settings : Option Settings) :
    (s.searchIn (Hits.entityList s.context) (Scan.algorithm id) snapshot request settings
      st).1.code = .ok := by
  obtain ⟨es, hes⟩ := h.exists_entitiesOf hx
    fun c (hc : c ∈ Scan.hits snapshot request) => hmade c (Scan.mem_of_hit hc)
  have hrun : ((Scan.algorithm id).run s.context (Hits.entityList s.context) snapshot request
      st.memory).1 = .ok { data := es } := by
    rw [Scan.run_of_valid hvalid, Hits.entityList]
    cases hent : Hits.entitiesOf s.context (Scan.hits snapshot request) st.memory with
    | mk r m =>
        rw [hent] at hes
        obtain rfl : r = .ok es := hes
        rfl
  rw [searchIn_eq, hrun]
  rfl

/-! ## Eager stores -/

theorem SparesContext.map {α β : Type}
    {run : Store κ ε σ τ → State κ ε σ τ → α × State κ ε σ τ} (h : s.SparesContext st run)
    (g : α → β) : s.SparesContext st fun s st => (run s st).map g id :=
  ⟨h.1, fun x => congrArg (Prod.map g id) (h.2 x)⟩

/-- In an eager store a read leaves the context alone, and does not fail. -/
theorem read_sparesContext (h : st.Grounded s made) (heager : s.eager = true)
    (target : Target κ) (settings : Option Settings) :
    s.SparesContext st (fun s => s.read target settings) ∧
      ∃ r, (s.read target settings st).1 = .ok r := by
  cases hfind : st.index.find? target with
  | none =>
      have hread : ∀ s : Store κ ε σ τ,
          s.read target settings st = (.ok { code := .notFound, settings }, st) :=
        fun s => s.read_of_none hfind
      exact ⟨⟨congrArg (fun r => r.2.memory) (hread s),
        fun x => (hread (s.withContext x)).trans (hread s).symm⟩, _, congrArg Prod.fst (hread s)⟩
  | some c =>
      have hdecoded := h.decoded heager (h.live (h.exact.live_of_find? hfind))
      obtain ⟨e, he⟩ := Container.entity_of_decoded (σ := σ) hdecoded
      have hread := fun s : Store κ ε σ τ => s.read_of_ok settings hfind (he s.context)
      refine ⟨⟨(congrArg (fun r => r.2.memory) (hread s)).trans ?_,
        fun x => (hread (s.withContext x)).trans (hread s).symm⟩, ?_⟩
      · split <;> rfl
      · rw [hread]
        split <;> exact ⟨_, rfl⟩

theorem version_memory (target : Target κ) (settings : Option Settings) :
    (version target settings st).2.memory = st.memory := by
  obtain ⟨hits, hversion⟩ := version_state target settings st
  rw [hversion]

theorem searchIn_sparesContext {ρ : Type} [Paged ρ] (h : st.Grounded s made)
    (heager : s.eager = true) {load : Context ε σ → Loader κ ε σ ρ}
    (hload : Loader.SparesContext load) {a : Algorithm κ ε σ} (ha : a.OnlyInquires)
    {snapshot : Snapshot κ} (hmade : ∀ c ∈ snapshot.containers, made c) (request : SearchRequest)
    (settings : Option Settings) :
    s.SparesContext st fun s => s.searchIn (load s.context) a snapshot request settings := by
  obtain ⟨r, hr⟩ := ha.run_of_decoded hload (fun c hc => h.decoded heager (hmade c hc)) request
  refine ⟨(searchIn_memory _ a snapshot request settings).trans (by rw [hr]), fun x => ?_⟩
  simp only [searchIn, withContext, hr]
  rfl

theorem searchWith_sparesContext {ρ : Type} [Paged ρ] (h : st.Grounded s made)
    (heager : s.eager = true) {load : Context ε σ → Loader κ ε σ ρ}
    (hload : Loader.SparesContext load) {request : SearchRequest}
    (ha : ∀ a, s.searches.get? (s.searchId request) = some a → a.OnlyInquires)
    (settings : Option Settings) :
    s.SparesContext st fun s => s.searchWith (load s.context) request settings := by
  have hnotified : (st.notify s.observers (.beforeSearch request)).Grounded s made :=
    h.fills rfl (.refl _)
  cases hget : s.searches.get? (s.searchId request) with
  | none =>
      have hsearch : ∀ x, (s.withContext x).searchWith (load x) request settings st =
          s.notSearched request settings (st.notify s.observers (.beforeSearch request)) := by
        intro x
        rw [searchWith, show (s.withContext x).searches.get?
          ((s.withContext x).searchId request) = none from hget]
        rfl
      exact ⟨congrArg (fun r => r.2.memory) (hsearch s.context),
        fun x => (hsearch x).trans (hsearch s.context).symm⟩
  | some a =>
      have hsearch : ∀ x, (s.withContext x).searchWith (load x) request settings st =
          (s.withContext x).searchIn (load x) a
            (s.takeSnapshot (st.notify s.observers (.beforeSearch request))) request settings
            (st.notify s.observers (.beforeSearch request)) := by
        intro x
        rw [searchWith, show (s.withContext x).searches.get?
          ((s.withContext x).searchId request) = some a from hget]
        rfl
      obtain ⟨hmemory, hsame⟩ := searchIn_sparesContext hnotified heager hload (ha a hget)
        (fun c hc => hnotified.live (takeSnapshot_live (s := s) hnotified.exact hc)) request
        settings
      exact ⟨(congrArg (fun r => r.2.memory) (hsearch s.context)).trans hmemory,
        fun x => ((hsearch x).trans (hsame x)).trans (hsearch s.context).symm⟩

/-- In an eager store a look-up leaves the context alone. -/
theorem answer_sparesContext (h : st.Grounded s made) (heager : s.eager = true) {c : Call κ ε}
    (hc : c.isWrite = false)
    (ha : ∀ request a, c.request? = some request →
      s.searches.get? (s.searchId request) = some a → a.OnlyInquires) :
    s.SparesContext st fun s => s.answer c := by
  cases c with
  | entity c =>
      cases c with
      | create e settings => cases hc
      | update e settings => cases hc
      | delete target settings => cases hc
      | read target settings =>
          exact ((read_sparesContext h heager target settings).1.map EntityAnswer.entity).map
            Answer.entity
      | version target settings => exact ⟨version_memory target settings, fun _ => rfl⟩
  | search request settings =>
      exact (searchWith_sparesContext h heager (Hits.table_sparesContext request)
        (fun a => ha request a rfl) settings).map Answer.table
  | searchEntities request settings =>
      exact (searchWith_sparesContext h heager Hits.entityList_sparesContext
        (fun a => ha request a rfl) settings).map Answer.entities

/-- So does a further step of one, whatever snapshot it works on. -/
theorem advance_sparesContext (h : st.Grounded s made) (heager : s.eager = true) {c : Call κ ε}
    (hc : c.isWrite = false) {drawn : Option String} {stage : Stage κ ε σ}
    (hfits : stage.Fits s c drawn) (hstage : stage.Grounded s made c)
    (ha : ∀ a, stage.algorithm? = some a → a.OnlyInquires) :
    s.SparesContext st fun s => s.advance stage := by
  cases stage with
  | enter c settings =>
      obtain ⟨e, settings', rfl, -⟩ := hfits
      cases hc
  | commit p settings =>
      obtain ⟨e, settings', rfl, -⟩ := hfits
      cases hc
  | remove target settings =>
      obtain ⟨settings', rfl⟩ := hfits
      cases hc
  | read target settings => exact (read_sparesContext h heager target settings).1.map _
  | version target settings => exact ⟨version_memory target settings, fun _ => rfl⟩
  | takeSnapshot wanted a request settings => exact ⟨rfl, fun _ => rfl⟩
  | search wanted a snapshot request settings =>
      cases wanted with
      | table =>
          exact (searchIn_sparesContext h heager (Hits.table_sparesContext request) (ha a rfl)
            hstage.2 request settings).map _
      | entities =>
          exact (searchIn_sparesContext h heager Hits.entityList_sparesContext (ha a rfl)
            hstage.2 request settings).map _

/-! ## Both -/

variable {w : World κ ε σ τ}

/-- Nothing unreadable is ever stored. Wherever clients lead a store: if its context is pure, every
stored blob reads as an entity, no read fails, and the scan answers no valid request for entities
with 500, nor one that is under way; and if the store is eager, all that is stored is decoded, no
read fails, and no look-up, whole or under way, calls the context or would be answered otherwise
with any other. -/
theorem Lives.readable (hs : s.searches.OnlyDecodes) (h : s.Lives w) :
    (s.context.IsPure →
      (∀ c, w.state.index.Live c → ∃ e, s.context.Reads c.blob e) ∧
      (∀ target settings, ∃ r, (s.read target settings w.state).1 = .ok r) ∧
      ∀ request : SearchRequest, request.IsValid → ∀ settings id,
        (s.searches.get? (s.searchId request) = some (Scan.algorithm id) →
          (s.searchEntities request settings w.state).1.code = .ok) ∧
        ∀ client f snapshot, w.flights client = some f →
          f.stage = .search .entities (Scan.algorithm id) snapshot request settings →
          ∃ r, (s.advance f.stage w.state).1 = .done (.entities r) ∧ r.code = .ok) ∧
    (s.eager = true →
      (∀ c, w.state.index.Live c → c.isDecoded w.state.memory = true) ∧
      (∀ target settings, ∃ r, (s.read target settings w.state).1 = .ok r) ∧
      (∀ c : Call κ ε, c.isWrite = false →
        (∀ request a, c.request? = some request →
          s.searches.get? (s.searchId request) = some a → a.OnlyInquires) →
        s.SparesContext w.state fun s => s.answer c) ∧
      ∀ client f, w.flights client = some f → f.call.isWrite = false →
        (∀ a, f.stage.algorithm? = some a → a.OnlyInquires) →
        s.SparesContext w.state fun s => s.advance f.stage) := by
  obtain ⟨made, hmade⟩ := h.grounded hs
  have hstate := hmade.state
  refine ⟨fun hpure => ?_, fun heager => ?_⟩
  · have hx : s.context.IsSteady := hpure.isSteady
    refine ⟨fun c hc => hstate.exists_reads hx (hstate.live hc), exists_read hstate hx,
      fun request hvalid settings id => ⟨fun hget => ?_, fun client f snapshot hf hstage => ?_⟩⟩
    · have hnotified : (w.state.notify s.observers (.beforeSearch request)).Grounded s made :=
        hstate.fills rfl (.refl _)
      rw [searchEntities, searchWith, hget]
      exact searchIn_scan hnotified hx
        (fun c hc => hnotified.live (takeSnapshot_live (s := s) hnotified.exact hc)) hvalid id
        settings
    · have hflight := hmade.flights hf
      rw [hstage] at hflight ⊢
      exact ⟨_, rfl, searchIn_scan hstate hx hflight.2 hvalid id settings⟩
  · refine ⟨fun c hc => hstate.decoded heager (hstate.live hc),
      fun target settings => (read_sparesContext hstate heager target settings).2,
      fun c hc ha => answer_sparesContext hstate heager hc ha, fun client f hf hc ha => ?_⟩
    exact advance_sparesContext hstate heager hc (h.counted.1.fits hf) (hmade.flights hf) ha

/-- The document store whose codec reads once and never again, eager. -/
def eagerExhausted : Store String Doc Meter Nat := { exhausted with eager := true }

/-- Two documents are created. -/
def twoDocuments : List (Move String Doc) := [
  .call 0 (.entity (.create { id := "a" } none)), .go 0,
  .call 0 (.entity (.create { id := "b" } none)), .go 0]

/-- The second reading fails, so the second creation does. The first document is read and found all
the same, and neither asks for a third reading. -/
theorem twoDocuments_readable :
    ((∃ r, (Doc.store.read (.key "b") none (World.reached Doc.store () 0 twoDocuments).state).1 =
        .ok r) ∧
      (Doc.store.searchEntities {} none
        (World.reached Doc.store () 0 twoDocuments).state).1.code = .ok) ∧
    (World.reached eagerExhausted {} 0 twoDocuments).state.count = 1 ∧
      (World.reached eagerExhausted {} 0 twoDocuments).state.memory.session.decodes = 2 ∧
      (∃ r, (eagerExhausted.read (.key "a") none
        (World.reached eagerExhausted {} 0 twoDocuments).state).1 = .ok r) ∧
      (eagerExhausted.answer (.searchEntities {} none)
        (World.reached eagerExhausted {} 0 twoDocuments).state).2.memory.session.decodes = 2 := by
  obtain ⟨hpure, -⟩ := Lives.readable Doc.store_onlyDecodes
    (lives_reached (s := Doc.store) () 0 twoDocuments)
  obtain ⟨-, hread, hsearch⟩ := hpure Doc.store_isPure
  have hdiscreet : eagerExhausted.searches.AreDiscreet :=
    Doc.storeOver_areDiscreet ⟨Serializer.json, Codec.metered Codec.identity ⟨none, some 1⟩⟩
  obtain ⟨-, heager⟩ := Lives.readable hdiscreet.onlyDecodes
    (lives_reached (s := eagerExhausted) {} 0 twoDocuments)
  obtain ⟨-, hread', hcalls, -⟩ := heager rfl
  have hdecodes :
      (World.reached eagerExhausted {} 0 twoDocuments).state.memory.session.decodes = 2 := by
    decide +kernel
  refine ⟨⟨hread _ _, (hsearch {} rfl none Scan.defaultId).1 rfl⟩, by decide +kernel, hdecodes,
    hread' _ _, ?_⟩
  have hspares := hcalls (.searchEntities {} none) rfl
    fun _ _ _ hget => (hdiscreet hget).onlyInquires
  rw [hspares.1]
  exact hdecodes

end Store

end EntityStore
