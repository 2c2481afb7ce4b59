import EntityStore.Proofs.Building.Populate

/-!
# How searches end and what observers are told

A search ends in one of three ways: there is no algorithm to run, the run breaks,
or it comes to a result. A run breaks where the algorithm ends without hits, where
a panic breaks its hits off, or where a hit cannot be loaded (`Algorithm.Breaks`).
A table loads every hit. An entity list reads an entity for each, and that can fail
or panic; what is said here holds for every way to read them.

What observers are told of a call hangs on the call and on its answer alone
(`Store.announced`). A step of a run adds that to the deliveries, for every observer
in turn, so every observer hears of a run what its calls announce, in order.
-/

namespace EntityStore

variable {κ ε σ τ ρ : Type}

/-! ## Runs that break -/

/-- A way to read the entity of a container. -/
abbrev Reader (κ ε σ : Type) := Container κ → Memory ε σ → Except Breakdown ε × Memory ε σ

/-- How a context reads the entity of a container. -/
def Context.reader (x : Context ε σ) : Reader κ ε σ := fun c m =>
  ((c.entity x m).1.mapError fun err => .error (.entity err), (c.entity x m).2)

namespace Reader

/-- The entities of containers, one after another; the first that cannot be read ends it. -/
def all (read : Reader κ ε σ) : List (Container κ) → Memory ε σ →
    Except Breakdown (List ε) × Memory ε σ
  | [], m => (.ok [], m)
  | c :: rest, m =>
    match read c m with
    | (.error b, m) => (.error b, m)
    | (.ok e, m) =>
      let (more, m) := all read rest m
      (more.map (e :: ·), m)

/-- Reading containers one after another, one of them cannot be read. -/
inductive Breaks (read : Reader κ ε σ) : List (Container κ) → Memory ε σ → Prop where
  | here {c : Container κ} {rest : List (Container κ)} {m m' : Memory ε σ} {b : Breakdown}
      (h : read c m = (.error b, m')) : Breaks read (c :: rest) m
  | later {c : Container κ} {rest : List (Container κ)} {m m' : Memory ε σ} {e : ε}
      (h : read c m = (.ok e, m')) (hrest : Breaks read rest m') : Breaks read (c :: rest) m

theorem all_error_iff {read : Reader κ ε σ} {cs : List (Container κ)} :
    ∀ {m : Memory ε σ}, (∃ b, (read.all cs m).1 = .error b) ↔ read.Breaks cs m := by
  induction cs with
  | nil =>
      intro m
      constructor
      · rintro ⟨b, hb⟩
        cases hb
      · intro h
        cases h
  | cons c rest ih =>
      intro m
      rw [all]
      cases hread : read c m with
      | mk r m' =>
          cases r with
          | error b =>
              exact ⟨fun _ => .here hread, fun _ => ⟨b, rfl⟩⟩
          | ok e =>
              constructor
              · rintro ⟨b, hb⟩
                refine .later hread (ih.1 ?_)
                cases hmore : (read.all rest m').1 with
                | error b' => exact ⟨b', rfl⟩
                | ok more =>
                    simp only [hmore] at hb
                    cases hb
              · intro h
                cases h with
                | here h =>
                    rw [hread] at h
                    cases h
                | later h hrest =>
                    obtain ⟨-, rfl⟩ := Prod.mk.inj (hread.symm.trans h)
                    obtain ⟨b, hb⟩ := ih.2 hrest
                    exact ⟨b, by simp only [hb]; rfl⟩

end Reader

/-- Hits as a list of the entities that are read. -/
def Hits.entityListBy (read : Reader κ ε σ) (h : Hits κ) (m : Memory ε σ) :
    Except Breakdown (EntityList ε) × Memory ε σ :=
  match read.all h.items m with
  | (.error b, m) => (.error b, m)
  | (.ok data, m) => (h.unlessPanic { data }, m)

theorem Context.reader_all (x : Context ε σ) (cs : List (Container κ)) : ∀ m : Memory ε σ,
    x.reader.all cs m =
      ((Hits.entitiesOf x cs m).1.mapError fun err => .error (.entity err),
        (Hits.entitiesOf x cs m).2) := by
  induction cs with
  | nil => exact fun _ => rfl
  | cons c rest ih =>
      intro m
      rw [Reader.all, Hits.entitiesOf, reader]
      cases c.entity x m with
      | mk r m' =>
          cases r with
          | error err => rfl
          | ok e =>
              simp only [Except.mapError, ih]
              cases (Hits.entitiesOf x rest m').1 <;> rfl

/-- A store reads the entities of hits by its context. -/
theorem Hits.entityList_eq_reader (x : Context ε σ) :
    (Hits.entityList x : Loader κ ε σ (EntityList ε)) = Hits.entityListBy x.reader := by
  funext h m
  rw [entityList, entityListBy, x.reader_all]
  cases entitiesOf x h.items m with
  | mk r m' => cases r <;> rfl

/-- A way to load hits fails if a panic breaks them off or if they cannot be loaded. -/
def Loader.FailsOn (load : Loader κ ε σ ρ) (unloadable : List (Container κ) → Memory ε σ → Prop) :
    Prop :=
  ∀ (hits : Hits κ) (m : Memory ε σ),
    (∃ b, (load hits m).1 = .error b) ↔ (∃ p, hits.panic = some p) ∨ unloadable hits.items m

theorem Hits.unlessPanic_error_iff {α : Type} {h : Hits κ} {a : α} :
    (∃ b, h.unlessPanic a = .error b) ↔ ∃ p, h.panic = some p := by
  rw [unlessPanic]
  cases h.panic <;> simp

theorem Hits.table_failsOn (request : SearchRequest) :
    Loader.FailsOn (ε := ε) (σ := σ) (κ := κ) (Hits.table request) fun _ _ => False := by
  intro hits m
  rw [or_false]
  exact Hits.unlessPanic_error_iff

theorem Hits.entityListBy_failsOn (read : Reader κ ε σ) :
    Loader.FailsOn (Hits.entityListBy read) read.Breaks := by
  intro hits m
  rw [entityListBy, ← Reader.all_error_iff]
  cases hread : read.all hits.items m with
  | mk r m' =>
      cases r with
      | error b =>
          dsimp only
          exact ⟨fun _ => .inr ⟨b, rfl⟩, fun _ => ⟨b, rfl⟩⟩
      | ok data =>
          dsimp only
          rw [unlessPanic_error_iff]
          simp

/-- An algorithm is run, and the run comes to no result: it ends without hits, a panic breaks its
hits off, or they cannot be loaded. -/
inductive Algorithm.Breaks (a : Algorithm κ ε σ) (x : Context ε σ) (snapshot : Snapshot κ)
    (request : SearchRequest) (unloadable : List (Container κ) → Memory ε σ → Prop)
    (m : Memory ε σ) : Prop where
  | algorithm {b : Breakdown} (h : (a.search x snapshot request m).1 = .error b)
  | hit {hits : Hits κ} (h : (a.search x snapshot request m).1 = .ok hits) {p : Panic}
      (hpanic : hits.panic = some p)
  | load {hits : Hits κ} (h : (a.search x snapshot request m).1 = .ok hits)
      (hload : unloadable hits.items (a.search x snapshot request m).2)

theorem Algorithm.run_error_iff {load : Loader κ ε σ ρ}
    {unloadable : List (Container κ) → Memory ε σ → Prop} (hload : load.FailsOn unloadable)
    (a : Algorithm κ ε σ) (x : Context ε σ) (snapshot : Snapshot κ) (request : SearchRequest)
    (m : Memory ε σ) : (∃ b, (a.run x load snapshot request m).1 = .error b) ↔
      a.Breaks x snapshot request unloadable m := by
  rw [run]
  cases hsearch : a.search x snapshot request m with
  | mk r m' =>
      cases r with
      | error b => exact ⟨fun _ => .algorithm (congrArg Prod.fst hsearch), fun _ => ⟨b, rfl⟩⟩
      | ok hits =>
          have hok : (a.search x snapshot request m).1 = .ok hits := congrArg Prod.fst hsearch
          dsimp only
          rw [hload hits m']
          constructor
          · rintro (⟨p, hp⟩ | hunloadable)
            · exact .hit hok hp
            · exact .load hok (by rw [hsearch]; exact hunloadable)
          · intro h
            cases h with
            | algorithm h =>
                rw [hok] at h
                cases h
            | hit h hpanic =>
                obtain rfl := Except.ok.inj (hok.symm.trans h)
                exact .inl ⟨_, hpanic⟩
            | load h hload =>
                obtain rfl := Except.ok.inj (hok.symm.trans h)
                rw [hsearch] at hload
                exact .inr hload

/-! ## Answers to searches -/

/-- How an answer says that a search ended. There is no algorithm among the given ones under the
id, or there is one and the run breaks, or there is one and the run comes to a result, and then
only the answer carries it. -/
structure Response.Reports (r : Response SearchRequest ρ) (algorithms : List (Algorithm κ ε σ))
    (id : String) (breaks : Algorithm κ ε σ → Prop) : Prop where
  notFound_iff : r.code = .notFound ↔ ∀ a ∈ algorithms, normalId a.id ≠ id
  internalError_iff : r.code = .internalError ↔ ∃ a ∈ algorithms, normalId a.id = id ∧ breaks a
  ok_iff : r.code = .ok ↔ ∃ a ∈ algorithms, normalId a.id = id ∧ ¬breaks a
  found_iff : r.entity.isSome = true ↔ r.code = .ok

namespace Response

variable {algorithms : List (Algorithm κ ε σ)} {id : String} {breaks : Algorithm κ ε σ → Prop}
  {r : Response SearchRequest ρ}

theorem reports_of_none (hnone : ∀ a ∈ algorithms, normalId a.id ≠ id) (hcode : r.code = .notFound)
    (hentity : r.entity = none) : r.Reports algorithms id breaks where
  notFound_iff := iff_of_true hcode hnone
  internalError_iff := by
    refine iff_of_false (by simp [hcode]) ?_
    rintro ⟨a, ha, hid, -⟩
    exact hnone a ha hid
  ok_iff := by
    refine iff_of_false (by simp [hcode]) ?_
    rintro ⟨a, ha, hid, -⟩
    exact hnone a ha hid
  found_iff := by simp [hcode, hentity]

theorem reports_of_some {a : Algorithm κ ε σ} (ha : a ∈ algorithms) (hid : normalId a.id = id)
    (honly : ∀ a' ∈ algorithms, normalId a'.id = id → a' = a)
    (hends : (breaks a ∧ r.code = .internalError ∧ r.entity = none) ∨
      (¬breaks a ∧ r.code = .ok ∧ r.entity.isSome = true)) : r.Reports algorithms id breaks := by
  have hfound (P : Algorithm κ ε σ → Prop) :
      (∃ a' ∈ algorithms, normalId a'.id = id ∧ P a') ↔ P a := by
    constructor
    · rintro ⟨a', ha', hid', hP⟩
      rwa [honly a' ha' hid'] at hP
    · exact fun hP => ⟨a, ha, hid, hP⟩
  have hnotNone : ¬∀ a ∈ algorithms, normalId a.id ≠ id := fun h => h a ha hid
  rcases hends with ⟨hbreaks, hcode, hentity⟩ | ⟨hbreaks, hcode, hentity⟩
  · exact ⟨iff_of_false (by simp [hcode]) hnotNone, by simp [hcode, hfound breaks, hbreaks],
      by simp [hcode, hfound fun a => ¬breaks a, hbreaks], by simp [hcode, hentity]⟩
  · exact ⟨iff_of_false (by simp [hcode]) hnotNone, by simp [hcode, hfound breaks, hbreaks],
      by simp [hcode, hfound fun a => ¬breaks a, hbreaks], by simp [hcode, hentity]⟩

end Response

namespace Store

variable [EntityKey κ] {s : Store κ ε σ τ}

section

variable [Paged ρ]

theorem searchIn_reports {load : Loader κ ε σ ρ}
    {unloadable : List (Container κ) → Memory ε σ → Prop} (hload : load.FailsOn unloadable)
    (a : Algorithm κ ε σ) (snapshot : Snapshot κ) (request : SearchRequest)
    (settings : Option Settings) (st : State κ ε σ τ) :
    (a.Breaks s.context snapshot request unloadable st.memory ∧
      (s.searchIn load a snapshot request settings st).1.code = .internalError ∧
      (s.searchIn load a snapshot request settings st).1.entity = none) ∨
    (¬a.Breaks s.context snapshot request unloadable st.memory ∧
      (s.searchIn load a snapshot request settings st).1.code = .ok ∧
      (s.searchIn load a snapshot request settings st).1.entity.isSome = true) := by
  have hbreaks := a.run_error_iff hload s.context snapshot request st.memory
  rw [searchIn_eq]
  cases hrun : (a.run s.context load snapshot request st.memory).1 with
  | error b => exact .inl ⟨hbreaks.1 ⟨b, hrun⟩, rfl, rfl⟩
  | ok found =>
      refine .inr ⟨fun h => ?_, rfl, rfl⟩
      obtain ⟨b, hb⟩ := hbreaks.2 h
      rw [hrun] at hb
      cases hb

/-- Whatever its hits are made into, a search is answered by how its run ends. -/
theorem searchWith_reports {algorithms : List (Algorithm κ ε σ)} {id : String}
    {request : SearchRequest}
    (hregistered : ∀ {a}, s.searches.get? (s.searchId request) = some a ↔
      a ∈ algorithms ∧ normalId a.id = id)
    {load : Loader κ ε σ ρ} {unloadable : List (Container κ) → Memory ε σ → Prop}
    (hload : load.FailsOn unloadable) (settings : Option Settings) (st : State κ ε σ τ) :
    (s.searchWith load request settings st).1.Reports algorithms id
      fun a => a.Breaks s.context (s.takeSnapshot st) request unloadable st.memory := by
  rw [searchWith]
  cases hget : s.searches.get? (s.searchId request) with
  | none =>
      refine Response.reports_of_none (fun a ha hid => ?_) rfl rfl
      rw [hregistered.2 ⟨ha, hid⟩] at hget
      cases hget
  | some a =>
      obtain ⟨ha, hid⟩ := hregistered.1 hget
      refine Response.reports_of_some ha hid (fun a' ha' hid' => ?_)
        (s.searchIn_reports hload a (s.takeSnapshot st) request settings
          (st.notify s.observers (.beforeSearch request)))
      exact Option.some.inj ((hregistered.2 ⟨ha', hid'⟩).symm.trans hget)

end

end Store

/-! ## What observers are told -/

/-- What is told of a search once it is answered. -/
def Response.afterSearch [Paged ρ] (request : SearchRequest) (r : Response SearchRequest ρ) :
    Event κ := .afterSearch request r.code (r.entity.elim 0 Paged.size)

namespace Store

variable [EntityKey κ] {s : Store κ ε σ τ}

/-- What every observer is told of a call that is answered. -/
def announced (s : Store κ ε σ τ) (c : Call κ ε) (a : Answer κ ε) : List (Event κ) :=
  match c, a with
  | .entity (.delete target _), _ => if s.readOnly then [] else [.beforeDelete target]
  | .search request _, .table r => [.beforeSearch request, r.afterSearch request]
  | .searchEntities request _, .entities r => [.beforeSearch request, r.afterSearch request]
  | _, _ => []

/-- What every observer is told of calls, one after another. -/
def announcements (s : Store κ ε σ τ) : List (Call κ ε) → State κ ε σ τ → List (Event κ)
  | [], _ => []
  | c :: rest, st =>
    s.announced c (s.answer c st).1 ++ s.announcements rest (s.answer c st).2

/-- Events are told one after another, each to every observer in turn. -/
def told (s : Store κ ε σ τ) (events : List (Event κ)) : List (Delivery κ) :=
  events.flatMap (·.deliveries s.observers)

theorem create_deliveries (s : Store κ ε σ τ) (e : ε) (settings : Option Settings)
    (st : State κ ε σ τ) : (s.create e settings st).2.deliveries = st.deliveries := by
  cases hwritable : s.readOnly with
  | true =>
      rw [create, hwritable]
      rfl
  | false =>
      have hprepared : (s.prepareCreate e st).2.deliveries = st.deliveries := rfl
      rw [create_of_writable hwritable]
      cases hprep : s.prepareCreate e st with
      | mk r st' =>
          rw [hprep] at hprepared
          cases r <;> exact hprepared

theorem update_deliveries (s : Store κ ε σ τ) (e : ε) (settings : Option Settings)
    (st : State κ ε σ τ) : (s.update e settings st).2.deliveries = st.deliveries := by
  cases hwritable : s.readOnly with
  | true =>
      rw [update, hwritable]
      rfl
  | false =>
      have hprepared : (s.prepareUpdate e st).2.deliveries = st.deliveries := by
        rw [prepareUpdate_eq]
      rw [update_of_writable hwritable]
      cases hprep : s.prepareUpdate e st with
      | mk r st' =>
          rw [hprep] at hprepared
          cases r <;> exact hprepared

theorem searchWith_deliveries [Paged ρ] (load : Loader κ ε σ ρ)
    (hsize : ∀ etag request (found : ρ), Paged.size (Paged.onPage etag request found) =
      Paged.size found)
    (request : SearchRequest) (settings : Option Settings) (st : State κ ε σ τ) :
    (s.searchWith load request settings st).2.deliveries = st.deliveries ++
      s.told [.beforeSearch request,
        (s.searchWith load request settings st).1.afterSearch request] := by
  rw [told, List.flatMap_cons, List.flatMap_singleton, ← List.append_assoc, searchWith]
  cases s.searches.get? (s.searchId request) with
  | none => rfl
  | some a =>
      dsimp only
      rw [searchIn_eq]
      cases (a.run s.context load (s.takeSnapshot (st.notify s.observers (.beforeSearch request)))
          request (st.notify s.observers (.beforeSearch request)).memory).1 with
      | error b => rfl
      | ok found =>
          rw [searched, afterOutcome, Response.afterSearch, Option.elim_some, hsize]
          rfl

/-- A call adds what it announces to the deliveries. -/
theorem answer_deliveries (s : Store κ ε σ τ) (c : Call κ ε) (st : State κ ε σ τ) :
    (s.answer c st).2.deliveries = st.deliveries ++ s.told (s.announced c (s.answer c st).1) := by
  have hsilent : ∀ {st' : State κ ε σ τ}, st'.deliveries = st.deliveries →
      st'.deliveries = st.deliveries ++ s.told [] := by
    intro st' h
    rw [told, List.flatMap_nil, List.append_nil, h]
  cases c with
  | entity c =>
      cases c with
      | create e settings => exact hsilent (s.create_deliveries e settings st)
      | update e settings => exact hsilent (s.update_deliveries e settings st)
      | read target settings =>
          obtain ⟨hits, memory, hread⟩ := s.read_state target settings st
          have hkept : (s.read target settings st).2.deliveries = st.deliveries := by rw [hread]
          exact hsilent hkept
      | version target settings =>
          obtain ⟨hits, hversion⟩ := version_state target settings st
          have hkept : (version target settings st).2.deliveries = st.deliveries := by
            rw [hversion]
          exact hsilent hkept
      | delete target settings =>
          change (s.delete target settings st).2.deliveries = st.deliveries ++
            s.told (if s.readOnly then [] else [.beforeDelete target])
          cases hwritable : s.readOnly with
          | true =>
              rw [delete, hwritable]
              exact hsilent rfl
          | false =>
              rw [delete_of_writable hwritable, remove_eq]
              simp [told, State.notify]
  | search request settings =>
      exact searchWith_deliveries (Hits.table request) (fun _ _ _ => rfl) request settings st
  | searchEntities request settings =>
      exact searchWith_deliveries (Hits.entityList s.context) (fun _ _ _ => rfl) request settings st

/-- Of a run, observers are told what its calls announce. -/
theorem after_deliveries (s : Store κ ε σ τ) (calls : List (Call κ ε)) :
    ∀ st : State κ ε σ τ,
      (s.after calls st).deliveries = st.deliveries ++ s.told (s.announcements calls st) := by
  induction calls with
  | nil =>
      intro st
      simp [after, announcements, told]
  | cons c rest ih =>
      intro st
      change (s.after rest (s.answer c st).2).deliveries = _
      rw [ih, answer_deliveries, announcements, List.append_assoc]
      simp only [told, List.flatMap_append]

/-- What one observer heard, of all that was told. -/
def heardBy (place : Nat) (deliveries : List (Delivery κ)) : List (Event κ) :=
  (deliveries.filter (·.place == place)).map Delivery.event

omit [EntityKey κ] in
/-- Every observer hears everything that is told, once and in order. -/
theorem heardBy_told {place : Nat} (hplace : place < s.observers.length)
    (events : List (Event κ)) : heardBy place (s.told events) = events := by
  have honce : ∀ e : Event κ, heardBy place (e.deliveries s.observers) = [e] := by
    intro e
    have hcount : (List.range s.observers.length).count place = 1 :=
      List.count_eq_one_of_mem List.nodup_range (List.mem_range.2 hplace)
    have hfilter : (e.deliveries s.observers).filter (·.place == place) = [⟨place, e⟩] := by
      rw [Event.deliveries, List.filter_map]
      change ((List.range s.observers.length).filter (· == place)).map _ = _
      rw [List.filter_beq, hcount]
      rfl
    rw [heardBy, hfilter]
    rfl
  induction events with
  | nil => rfl
  | cons e rest ih =>
      have hsplit : heardBy place (s.told (e :: rest)) =
          heardBy place (e.deliveries s.observers) ++ heardBy place (s.told rest) := by
        simp only [told, heardBy, List.flatMap_cons, List.filter_append, List.map_append]
      rw [hsplit, honce, ih]
      rfl

end Store

/-! ## Stores that were built -/

namespace Builder

variable [EntityKey κ] {b : Builder κ ε σ τ} {s : Store κ ε σ τ}

omit [EntityKey κ] in
/-- The id that answers a request: its own in normal form, else that of the default search, else the
empty one. -/
def answeringId (b : Builder κ ε σ τ) (request : SearchRequest) : String :=
  match request.id with
  | some id => normalId id
  | none => (b.defaultSearchId.map normalId).getD ""

omit [EntityKey κ] in
theorem normalId_answeringId (request : SearchRequest) :
    normalId (b.answeringId request) = b.answeringId request := by
  have hempty : normalId "" = "" := by decide
  rw [answeringId]
  cases request.id with
  | some id => exact normalId_normalId id
  | none =>
      cases b.defaultSearchId with
      | none => exact hempty
      | some id => exact normalId_normalId id

omit [EntityKey κ] in
theorem Opens.searchId_eq (h : b.Opens s) (request : SearchRequest) :
    s.searchId request = b.answeringId request := by
  rw [Store.searchId, answeringId]
  cases request.id with
  | some id => rfl
  | none => exact congrArg (·.getD "") h.defaultId_eq

omit [EntityKey κ] in
/-- An algorithm answers a request if and only if it was added under the id that answers it. -/
theorem Opens.get?_iff (h : b.Opens s) (request : SearchRequest) {a : Algorithm κ ε σ} :
    s.searches.get? (s.searchId request) = some a ↔
      a ∈ b.searches ∧ normalId a.id = b.answeringId request := by
  rw [h.searchId_eq, SearchRegistry.get?, normalId_answeringId, h.lists.find?_iff]

theorem build_opens {name : String} {identity : Uuid} {session : σ} {tokens : τ}
    {st : State κ ε σ τ} (h : b.build name identity session tokens = .ok (s, st)) :
    b.Opens s.opened :=
  (b.openStore_endsBy name identity).of_ok (build_cases h).1

/-- Entities that are put in beforehand are announced to nobody. -/
theorem build_deliveries {name : String} {identity : Uuid} {session : σ} {tokens : τ}
    {st : State κ ε σ τ} (h : b.build name identity session tokens = .ok (s, st)) :
    st.deliveries = [] := by
  have hsilent : ∀ (es : List ε) (st : State κ ε σ τ),
      s.opened.announcements (creations es) st = [] := by
    intro es
    induction es with
    | nil => exact fun _ => rfl
    | cons e rest ih => exact fun st => ih (s.opened.answer (.entity (.create e none)) st).2
  obtain ⟨-, -, hpop⟩ := build_cases h
  have hstate : st = s.opened.after (creations b.prepopulation) (State.start session tokens) :=
    populate_eq_after hpop
  rw [hstate, Store.after_deliveries, hsilent]
  rfl

/-- How searches end and what observers are told, in every run of calls on a store that was built.
A search is answered 404 if no algorithm was added under the id that answers it, and else 500 or
200 as its run breaks or does not; for an entity list that is so however entities are read. Every
observer hears what the calls of the run announce, once and in order, and nothing of the entities
that were put in beforehand. -/
theorem build_outcomes {name : String} {identity : Uuid} {session : σ} {tokens : τ}
    {st : State κ ε σ τ} (h : b.build name identity session tokens = .ok (s, st))
    (calls : List (Call κ ε)) :
    (∀ request settings,
      (s.search request settings (s.after calls st)).1.Reports b.searches (b.answeringId request)
        (fun a => a.Breaks s.context (s.takeSnapshot (s.after calls st)) request
          (fun _ _ => False) (s.after calls st).memory) ∧
      (s.searchEntities request settings (s.after calls st)).1.Reports b.searches
        (b.answeringId request)
        (fun a => a.Breaks s.context (s.takeSnapshot (s.after calls st)) request
          s.context.reader.Breaks (s.after calls st).memory) ∧
      ∀ read : Reader κ ε σ,
        (s.searchWith (Hits.entityListBy read) request settings (s.after calls st)).1.Reports
          b.searches (b.answeringId request)
          (fun a => a.Breaks s.context (s.takeSnapshot (s.after calls st)) request read.Breaks
            (s.after calls st).memory)) ∧
    (s.after calls st).deliveries =
      (s.announcements calls st).flatMap (·.deliveries b.observers) ∧
    ∀ place, place < b.observers.length →
      Store.heardBy place (s.after calls st).deliveries = s.announcements calls st := by
  have hopens := build_opens h
  have hobservers : s.observers = b.observers := hopens.observers_eq
  have htold := s.after_deliveries calls st
  rw [build_deliveries h, List.nil_append] at htold
  refine ⟨fun request settings => ?_, ?_, fun place hplace => ?_⟩
  · have hregistered : ∀ {a}, s.searches.get? (s.searchId request) = some a ↔
        a ∈ b.searches ∧ normalId a.id = b.answeringId request := hopens.get?_iff request
    have hread := fun read : Reader κ ε σ => Store.searchWith_reports hregistered
      (Hits.entityListBy_failsOn read) settings (s.after calls st)
    refine ⟨Store.searchWith_reports hregistered (Hits.table_failsOn request) settings _, ?_, hread⟩
    rw [Store.searchEntities, Hits.entityList_eq_reader]
    exact hread s.context.reader
  · rw [htold, Store.told, hobservers]
  · rw [htold]
    exact Store.heardBy_told (hobservers ▸ hplace) _

/-- Finds one container and panics over the second. -/
def broken : Algorithm String Doc Unit :=
  .ofFunction "Broken" fun snapshot _ => .ok ⟨snapshot.containers.take 1, some .other⟩

/-- A collection with two observers and an algorithm that breaks off. -/
def watched : Builder String Doc Unit Nat where
  makers := Doc.store.makers
  serializer := some Serializer.json
  searches := [Scan.algorithm Scan.defaultId, broken]
  prepopulation := [{ id := "a" }, { id := "b" }]
  observers := [⟨none⟩, ⟨none⟩]
  config := { codec := "identity", defaultSearch := some " SCAN " }

theorem watched_outcomes : ∃ s st, watched.build "docs" ⟨0⟩ () 0 = .ok (s, st) ∧
    (s.search { id := some "BROKEN " } none
      (s.after [.entity (.delete (.key "c") none)] st)).1.code = .internalError ∧
    Store.heardBy 1 (s.after [.entity (.delete (.key "c") none), .search {} none] st).deliveries =
      s.announcements [.entity (.delete (.key "c") none), .search {} none] st := by
  have hok : (watched.build "docs" ⟨0⟩ () 0).isOk = true := by decide +kernel
  have hid : normalId "Broken" = normalId "BROKEN " := by decide +kernel
  cases hbuilt : watched.build "docs" ⟨0⟩ () 0 with
  | error err =>
      rw [hbuilt] at hok
      cases hok
  | ok built =>
      obtain ⟨s, st⟩ := built
      obtain ⟨hreports, -⟩ := build_outcomes hbuilt [.entity (.delete (.key "c") none)]
      obtain ⟨-, -, hheard⟩ :=
        build_outcomes hbuilt [.entity (.delete (.key "c") none), .search {} none]
      refine ⟨s, st, rfl, ?_, hheard 1 (by decide)⟩
      exact (hreports { id := some "BROKEN " } none).1.internalError_iff.2
        ⟨broken, by simp [watched], hid, .hit rfl rfl⟩

end Builder

end EntityStore
