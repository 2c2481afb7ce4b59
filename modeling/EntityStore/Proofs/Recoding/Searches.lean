import EntityStore.Proofs.Etag
import EntityStore.Proofs.Recoding.Calls

/-!
# Searches

A discreet algorithm asks about the same containers in a store and in a recoded
one, and since these read as the same entities it is told the same, so it comes
to the same hits (`Inquiry.run_alike`). A table shows what stands beside blobs
and an entity list what blobs read as, which is the same again. So two answers to
a search differ in the tag, and the tags in the collection.
-/

namespace EntityStore

variable {κ ε σ τ : Type}

/-! ## The name of the collection -/

/-- A tag in the name of another collection. -/
def Etag.inCollection (collection etag : String) : String :=
  collection ++ ":" ++ (split etag).2

theorem Etag.inCollection_text (collection collection' : String) (changes : Nat) :
    inCollection collection (text collection' changes) = text collection changes := by
  rw [inCollection, split_text, text]

/-- A table in the name of another collection. -/
def Table.inCollection (collection : String) (t : Table) : Table :=
  { t with etag := t.etag.map (Etag.inCollection collection) }

/-- A list of entities in the name of another collection. -/
def EntityList.inCollection (collection : String) (l : EntityList ε) : EntityList ε :=
  { l with etag := l.etag.map (Etag.inCollection collection) }

/-- A way to put results that carry a tag in the name of another collection. -/
def Paged.Renames {ρ : Type} [Paged ρ] (collection : String) (rename : ρ → ρ) : Prop :=
  ∀ etag request found, rename (onPage etag request found) =
    onPage (Etag.inCollection collection etag) request found

theorem Table.inCollection_renames (collection : String) :
    Paged.Renames collection (inCollection collection) := fun _ _ _ => rfl

theorem EntityList.inCollection_renames (collection : String) :
    Paged.Renames collection (inCollection collection : EntityList ε → EntityList ε) :=
  fun _ _ _ => rfl

/-- A response with a function applied to what was found. -/
def Response.mapEntity {ρ : Type} (f : ρ → ρ) (r : Response κ ρ) : Response κ ρ :=
  { r with entity := r.entity.map f }

/-- An answer in the name of another collection. -/
def Answer.inCollection (collection : String) : Answer κ ε → Answer κ ε
  | .table r => .table (r.mapEntity (Table.inCollection collection))
  | .entities r => .entities (r.mapEntity (EntityList.inCollection collection))
  | a => a

/-! ## Inquiries and results -/

variable [EntityKey κ] {s : Store κ ε σ τ} {collectionId : String} {eager : Bool}
  {codec : Codec σ} {made made' : Container κ → Prop} {st st' : State κ ε σ τ}

variable (hx : s.context.IsFaithful) (hx' : (s.recoded collectionId eager codec).context.IsFaithful)

include hx hx'

/-- Inquiries that look the same come to hits that look the same. -/
theorem Inquiry.run_alike : ∀ {q q' : Inquiry κ ε} {st st' : State κ ε σ τ}, st.Grounded s made →
    st'.Grounded (s.recoded collectionId eager codec) made' →
    st.Alike s.context (s.recoded collectionId eager codec).context st' →
    q.Within st.index.Live → q'.Within st'.index.Live →
    q.map Container.outline = q'.map Container.outline →
    (q.run s.context st.memory).1.map (Hits.map Container.outline) =
      (q'.run (s.recoded collectionId eager codec).context st'.memory).1.map
        (Hits.map Container.outline) := by
  intro q
  induction q with
  | done outcome =>
      intro q' st st' _ _ _ _ _ hsame
      cases q' with
      | done outcome' => exact Inquiry.done.inj hsame
      | ask c' next' => cases hsame
  | ask c next ih =>
      intro q' st st' h h' halike hq hq' hsame
      cases q' with
      | done outcome' => cases hsame
      | ask c' next' =>
          obtain ⟨hc, hnext⟩ := Inquiry.ask.inj hsame
          have hentity := Store.entity_alike hx hx' h h' halike hq.1 hq'.1 hc
          rw [run, run, ← hentity]
          exact ih _ (h.entity (h.live hq.1)) (h'.entity (h'.live hq'.1)) (halike.remember _ _)
            (hq.2 _) (hq'.2 _) (congrFun hnext _)

theorem Hits.entitiesOf_alike : ∀ {cs cs' : List (Container κ)} {st st' : State κ ε σ τ},
    st.Grounded s made → st'.Grounded (s.recoded collectionId eager codec) made' →
    st.Alike s.context (s.recoded collectionId eager codec).context st' →
    (∀ c ∈ cs, st.index.Live c) → (∀ c ∈ cs', st'.index.Live c) →
    cs.map Container.outline = cs'.map Container.outline →
    (entitiesOf s.context cs st.memory).1 =
      (entitiesOf (s.recoded collectionId eager codec).context cs' st'.memory).1 := by
  intro cs
  induction cs with
  | nil =>
      intro cs' st st' _ _ _ _ _ hsame
      obtain rfl := List.map_eq_nil_iff.1 hsame.symm
      rfl
  | cons c rest ih =>
      intro cs' st st' h h' halike hcs hcs' hsame
      obtain ⟨c', rest', rfl, hc, hrest⟩ := List.map_eq_cons_iff.1 hsame.symm
      have hlive := hcs c List.mem_cons_self
      have hlive' := hcs' c' List.mem_cons_self
      have hentity := Store.entity_alike hx hx' h h' halike hlive hlive' hc.symm
      have hmore := ih (h.entity (h.live hlive)) (h'.entity (h'.live hlive')) (halike.remember _ _)
        (fun d hd => hcs d (List.mem_cons_of_mem c hd))
        (fun d hd => hcs' d (List.mem_cons_of_mem c' hd)) hrest.symm
      rw [entitiesOf, entitiesOf]
      cases hent : c.entity s.context st.memory with
      | mk r m =>
          cases hent' : c'.entity (s.recoded collectionId eager codec).context st'.memory with
          | mk r' m' =>
              rw [hent, hent'] at hentity hmore
              obtain rfl : r = r' := hentity
              cases r with
              | error err => rfl
              | ok e =>
                  dsimp only at hmore ⊢
                  rw [hmore]

/-! ## Answers to searches -/

variable {ρ : Type}

omit hx hx' in
/-- Results that are made of stored hits which look the same are the same. -/
def Store.LoadsAlike (s s' : Store κ ε σ τ) (load : Context ε σ → Loader κ ε σ ρ) : Prop :=
  ∀ ⦃made made' : Container κ → Prop⦄ ⦃st st' : State κ ε σ τ⦄ ⦃hits hits' : Hits κ⦄,
    st.Grounded s made → st'.Grounded s' made' → st.Alike s.context s'.context st' →
    (∀ c ∈ hits.items, st.index.Live c) → (∀ c ∈ hits'.items, st'.index.Live c) →
    hits.map Container.outline = hits'.map Container.outline →
    (load s.context hits st.memory).1 = (load s'.context hits' st'.memory).1

omit hx hx' in
theorem Hits.table_loadsAlike (s s' : Store κ ε σ τ) (request : SearchRequest) :
    s.LoadsAlike s' fun _ => table request :=
  fun _ _ st st' _ _ _ _ _ _ _ hsame => table_eq hsame (fun _ => rfl) st.memory st'.memory

theorem Hits.entityList_loadsAlike :
    s.LoadsAlike (s.recoded collectionId eager codec) (entityList : _ → Loader κ ε σ _) :=
  fun _ _ _ _ _ _ h h' halike hlive hlive' hsame => entityList_eq hsame
    (entitiesOf_alike hx hx' h h' halike hlive hlive' (congrArg Hits.items hsame))

theorem Algorithm.IsDiscreet.run_alike {a : Algorithm κ ε σ} (ha : a.IsDiscreet)
    {load : Context ε σ → Loader κ ε σ ρ}
    (hload : s.LoadsAlike (s.recoded collectionId eager codec) load) (h : st.Grounded s made)
    (h' : st'.Grounded (s.recoded collectionId eager codec) made')
    (halike : st.Alike s.context (s.recoded collectionId eager codec).context st')
    {snapshot snapshot' : Snapshot κ} (hlive : ∀ c ∈ snapshot.containers, st.index.Live c)
    (hlive' : ∀ c ∈ snapshot'.containers, st'.index.Live c)
    (hsame : snapshot.containers.map Container.outline =
      snapshot'.containers.map Container.outline) (request : SearchRequest) :
    (a.run s.context (load s.context) snapshot request st.memory).1 =
      (a.run (s.recoded collectionId eager codec).context
        (load (s.recoded collectionId eager codec).context) snapshot' request st'.memory).1 := by
  have honly := ha.onlyInquires.onlyDecodes
  obtain ⟨plan, hplan, hmap⟩ := ha
  have hsearch : (a.search s.context snapshot request st.memory).1.map
      (Hits.map Container.outline) = (a.search (s.recoded collectionId eager codec).context
        snapshot' request st'.memory).1.map (Hits.map Container.outline) := by
    rw [hplan.search_eq, hplan.search_eq]
    exact Inquiry.run_alike hx hx' h h' halike ((hplan.within snapshot request).mono hlive)
      ((hplan.within snapshot' request).mono hlive') (hmap request hsame)
  refine run_eq hsearch fun hits hits' hhits hhits' hmap => ?_
  have hnext : ({ st with memory := (a.search s.context snapshot request st.memory).2 } :
      State κ ε σ τ).Grounded s made :=
    h.fills rfl (((honly.decodes _ _ _ _).mono fun c hc => h.live (hlive c hc)).fills
      fun _ => h.handle_lt)
  have hnext' : ({ st' with memory := (a.search (s.recoded collectionId eager codec).context
      snapshot' request st'.memory).2 } : State κ ε σ τ).Grounded
      (s.recoded collectionId eager codec) made' :=
    h'.fills rfl (((honly.decodes _ _ _ _).mono fun c hc => h'.live (hlive' c hc)).fills
      fun _ => h'.handle_lt)
  exact hload hnext hnext' (halike.remember _ _)
    (fun c hc => hlive c (honly.mem_of_hit hhits c hc))
    (fun c hc => hlive' c (honly.mem_of_hit hhits' c hc)) hmap

namespace Store

omit hx hx' in
theorem etag_alike (halike : st.Alike s.context (s.recoded collectionId eager codec).context st') :
    (s.recoded collectionId eager codec).etag st' = Etag.inCollection collectionId (s.etag st) := by
  have hrevision : st.index.revision = st'.index.revision :=
    (congrArg Index.revision halike.index_eq :)
  change Etag.text collectionId st'.index.revision = Etag.inCollection collectionId
    (Etag.text s.collectionId st.index.revision)
  rw [Etag.inCollection_text, hrevision]

omit hx hx' in
theorem takeSnapshot_alike
    (halike : st.Alike s.context (s.recoded collectionId eager codec).context st') :
    (s.takeSnapshot st).containers.map Container.outline =
      ((s.recoded collectionId eager codec).takeSnapshot st').containers.map
        Container.outline := by
  have hvalues := (congrArg (fun ix : Index κ => ix.containers.values) halike.index_eq :)
  rw [Index.map, Index.map, SortedMap.values_map, SortedMap.values_map] at hvalues
  exact hvalues

variable [Paged ρ] {load : Context ε σ → Loader κ ε σ ρ}
  (hload : s.LoadsAlike (s.recoded collectionId eager codec) load) {request : SearchRequest}
  {rename : ρ → ρ} (hrename : Paged.Renames collectionId rename)

include hrename

omit [EntityKey κ] hx hx' in
theorem searched_recoded (settings : Option Settings) (etag : String)
    (outcome : Except Breakdown ρ) :
    (s.recoded collectionId eager codec).searched (Etag.inCollection collectionId etag) request
      settings outcome = (s.searched etag request settings outcome).mapEntity rename := by
  cases outcome with
  | error b => rfl
  | ok found =>
      simp only [searched, Response.mapEntity, Option.map_some, hrename etag request found]

include hload

theorem searchIn_alike {a : Algorithm κ ε σ} (ha : a.IsDiscreet) (h : st.Grounded s made)
    (h' : st'.Grounded (s.recoded collectionId eager codec) made')
    (halike : st.Alike s.context (s.recoded collectionId eager codec).context st')
    (settings : Option Settings) :
    AnsweredAlike s.context (s.recoded collectionId eager codec).context (Response.mapEntity rename)
      (s.searchIn (load s.context) a (s.takeSnapshot st) request settings st)
      ((s.recoded collectionId eager codec).searchIn
        (load (s.recoded collectionId eager codec).context) a
        ((s.recoded collectionId eager codec).takeSnapshot st') request settings st') := by
  have hrun := ha.run_alike hx hx' hload h h' halike (fun c hc => takeSnapshot_live h.exact hc)
    (fun c hc => takeSnapshot_live h'.exact hc) (takeSnapshot_alike halike) request
  have hetag : ((s.recoded collectionId eager codec).takeSnapshot st').etag =
      Etag.inCollection collectionId (s.takeSnapshot st).etag := etag_alike halike
  rw [searchIn_eq, searchIn_eq, ← hrun, hetag]
  exact ⟨searched_recoded hrename settings _ _, (halike.remember _ _).notify s.observers _⟩

theorem searchWith_alike (hs : s.searches.AreDiscreet) (h : st.Grounded s made)
    (h' : st'.Grounded (s.recoded collectionId eager codec) made')
    (halike : st.Alike s.context (s.recoded collectionId eager codec).context st')
    (settings : Option Settings) :
    AnsweredAlike s.context (s.recoded collectionId eager codec).context (Response.mapEntity rename)
      (s.searchWith (load s.context) request settings st)
      ((s.recoded collectionId eager codec).searchWith
        (load (s.recoded collectionId eager codec).context) request settings st') := by
  have hnotified := halike.notify s.observers (.beforeSearch request)
  have hg : (st.notify s.observers (.beforeSearch request)).Grounded s made :=
    h.fills rfl (.refl _)
  have hg' : (st'.notify s.observers (.beforeSearch request)).Grounded
      (s.recoded collectionId eager codec) made' := h'.fills rfl (.refl _)
  rw [searchWith, searchWith]
  cases hget : s.searches.get? (s.searchId request) with
  | none =>
      rw [show (s.recoded collectionId eager codec).searches.get?
        ((s.recoded collectionId eager codec).searchId request) = none from hget]
      exact ⟨rfl, hnotified.notify s.observers _⟩
  | some a =>
      rw [show (s.recoded collectionId eager codec).searches.get?
        ((s.recoded collectionId eager codec).searchId request) = some a from hget]
      exact searchIn_alike hx hx' hload hrename (hs hget) hg hg' hnotified settings

end Store

end EntityStore
