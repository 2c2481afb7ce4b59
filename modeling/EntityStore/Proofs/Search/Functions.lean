import EntityStore.Proofs.Bare
import EntityStore.Proofs.Store.Documents
import EntityStore.Proofs.Store.Made

/-!
# Searches that are functions of snapshot and request

An algorithm is handed the memory, so its outcome could hang on what happens to
be remembered, and it is handed containers with their handles. One that is a
function of snapshot and request (`Algorithm.IsFunction`) has, in every memory
that is in order, the outcome that a function says it has, and the function does
not tell containers apart by handles. The known algorithms are of this kind if
serializer and codec are pure, the one that decodes included.

A table of such hits, or the entities of such hits, is then the same in any two
memories that are in order, and for any two snapshots that are alike but for
handles (`Algorithm.IsFunction.run_agree`).
-/

namespace EntityStore

variable {κ ε σ τ ρ : Type}

/-! ## Memories in order -/

/-- A memory is in order for some containers: each has a handle of its own, and what is remembered
of it is what its blob reads as. -/
structure Memory.Recalls (x : Context ε σ) (known : Container κ → Prop) (m : Memory ε σ) :
    Prop where
  reads : ∀ {c e}, known c → m.decoded.find? c.handle = some e → x.Reads c.blob e
  handle_inj : ∀ {c d}, known c → known d → c.handle = d.handle → c = d

namespace Memory.Recalls

variable {x : Context ε σ} {known : Container κ → Prop} {m m' : Memory ε σ}

theorem mono {known' : Container κ → Prop} (h : m.Recalls x known)
    (hle : ∀ c, known' c → known c) : m.Recalls x known' :=
  ⟨fun hc => h.reads (hle _ hc), fun hc hd => h.handle_inj (hle _ hc) (hle _ hd)⟩

/-- With a pure context a container reads as its blob does in any session. -/
theorem entity_eq (hx : x.IsPure) (h : m.Recalls x known) (session : σ) {c : Container κ}
    (hc : known c) : (c.entity x m).1 = x.entityOf session c.blob :=
  Container.entity_eq hx fun he => h.reads hc he session

theorem entity (hx : x.IsPure) (h : m.Recalls x known) {c : Container κ} (hc : known c) :
    (c.entity x m).2.Recalls x known where
  reads {d e} hd he := by
    rcases c.entity_find? x m d.handle with hsame | ⟨hhandle, -, e', he', hdec⟩
    · exact h.reads hd (hsame ▸ he)
    · obtain rfl := h.handle_inj hd hc hhandle
      obtain rfl := Option.some.inj (he.symm.trans he')
      exact fun session => (hx.decode_eq d.blob session m.session).trans hdec
  handle_inj := h.handle_inj

theorem decodes (hx : x.IsPure) (h : m.Recalls x known) (hdec : Memory.Decodes x known m m') :
    m'.Recalls x known := by
  induction hdec with
  | refl => exact h
  | step _ hc ih => exact ih.entity hx hc

end Memory.Recalls

/-- What is remembered in a grounded state is in order. -/
theorem State.Grounded.recalls_memory [EntityKey κ] {s : Store κ ε σ τ}
    {made : Container κ → Prop} {st : State κ ε σ τ} (h : st.Grounded s made)
    (hx : s.context.IsPure) : st.memory.Recalls s.context made :=
  ⟨fun hc he => h.recalls hx.isSteady hc he, h.handle_inj⟩

/-! ## Functions of snapshot and request -/

/-- An algorithm whose outcome is that of a function, which does not tell containers apart by
handles. -/
structure Algorithm.IsFunction (x : Context ε σ) (a : Algorithm κ ε σ) : Prop
    extends a.OnlyDecodes where
  outcome : ∃ f : Snapshot κ → SearchRequest → Except Breakdown (Hits κ),
    (∀ snapshot request m, m.Recalls x (· ∈ snapshot.containers) →
      (a.search x snapshot request m).1 = f snapshot request) ∧
    ∀ snapshot request, (f snapshot request).map Hits.bare = f snapshot.bare request

/-- A registry of such algorithms. -/
def SearchRegistry.AreFunctions (x : Context ε σ) (r : SearchRegistry κ ε σ) : Prop :=
  ∀ {id a}, r.get? id = some a → a.IsFunction x

theorem SearchRegistry.AreFunctions.onlyDecodes {x : Context ε σ} {r : SearchRegistry κ ε σ}
    (h : r.AreFunctions x) : r.OnlyDecodes := fun hget => (h hget).toOnlyDecodes

theorem Algorithm.IsFunction.ofFunction {x : Context ε σ} {id : String}
    {f : Snapshot κ → SearchRequest → Except Breakdown (Hits κ)}
    (hdecodes : (Algorithm.ofFunction id f : Algorithm κ ε σ).OnlyDecodes)
    (hbare : ∀ snapshot request, (f snapshot request).map Hits.bare = f snapshot.bare request) :
    (Algorithm.ofFunction id f : Algorithm κ ε σ).IsFunction x :=
  ⟨hdecodes, f, fun _ _ _ _ => rfl, hbare⟩

/-! ## Making hits into results -/

/-- A way to make hits into results that looks at nothing but the hits, handles apart. -/
def Loader.IsFunction (load : Loader κ ε σ ρ) (x : Context ε σ) : Prop :=
  ∀ {hits hits' : Hits κ} {m m' : Memory ε σ}, hits.bare = hits'.bare →
    m.Recalls x (· ∈ hits.items) → m'.Recalls x (· ∈ hits'.items) →
    (load hits m).1 = (load hits' m').1

namespace Hits

section

variable {f : Container κ → Container κ} {h h' : Hits κ} (hmap : h.map f = h'.map f)

include hmap

theorem unlessPanic_eq {α : Type} (a : α) : h.unlessPanic a = h'.unlessPanic a := by
  have hpanic : (h.map f).panic = (h'.map f).panic := congrArg Hits.panic hmap
  change h.panic = h'.panic at hpanic
  rw [unlessPanic, unlessPanic, hpanic]

theorem map_items_eq {β : Type} {g : Container κ → β} (hg : ∀ c, g (f c) = g c) :
    h.items.map g = h'.items.map g := by
  have hitems : ∀ l : List (Container κ), l.map g = (l.map f).map g := by
    intro l
    rw [List.map_map]
    exact List.map_congr_left fun c _ => (hg c).symm
  have hsame : h.items.map f = h'.items.map f := congrArg Hits.items hmap
  rw [hitems h.items, hitems h'.items, hsame]

theorem table_eq {request : SearchRequest}
    (hrow : ∀ c, row request.select (f c) = row request.select c) (m m' : Memory ε σ) :
    (table request h m).1 = (table request h' m').1 := by
  simp only [table]
  rw [map_items_eq hmap hrow, unlessPanic_eq hmap]

theorem entityList_eq {x x' : Context ε σ} {m m' : Memory ε σ}
    (hentities : (entitiesOf x h.items m).1 = (entitiesOf x' h'.items m').1) :
    (entityList x h m).1 = (entityList x' h' m').1 := by
  simp only [entityList]
  cases hent : entitiesOf x h.items m with
  | mk r m₁ =>
      cases hent' : entitiesOf x' h'.items m' with
      | mk r' m₁' =>
          rw [hent, hent'] at hentities
          obtain rfl : r = r' := hentities
          cases r with
          | error err => rfl
          | ok data => exact unlessPanic_eq hmap _

end

theorem table_isFunction (x : Context ε σ) (request : SearchRequest) :
    Loader.IsFunction (table request : Loader κ ε σ Table) x :=
  fun {_ _ m m'} hbare _ _ => table_eq (f := Container.bare) hbare (fun _ => rfl) m m'

/-- The entities of containers are what their blobs read as, up to the first that does not. -/
theorem entitiesOf_eq {x : Context ε σ} (hx : x.IsPure) (session : σ) :
    ∀ (cs : List (Container κ)) {m : Memory ε σ}, m.Recalls x (· ∈ cs) →
      (entitiesOf x cs m).1 = (cs.map fun c => c.blob).mapM (x.entityOf session) := by
  intro cs
  induction cs with
  | nil => exact fun _ => rfl
  | cons c rest ih =>
      intro m hm
      have hc := hm.entity_eq hx session List.mem_cons_self
      have hrest := (hm.entity hx (c := c) List.mem_cons_self).mono
        fun d (hd : d ∈ rest) => List.mem_cons_of_mem c hd
      rw [entitiesOf, List.map_cons, List.mapM_cons, ← hc]
      cases hent : c.entity x m with
      | mk r m' =>
          rw [hent] at hrest
          cases r with
          | error err => rfl
          | ok e =>
              dsimp only
              rw [ih hrest]
              cases (rest.map fun c => c.blob).mapM (x.entityOf session) <;> rfl

theorem entityList_isFunction {x : Context ε σ} (hx : x.IsPure) :
    Loader.IsFunction (entityList x : Loader κ ε σ (EntityList ε)) x := by
  intro hits hits' m m' hbare hm hm'
  refine entityList_eq (f := Container.bare) hbare ?_
  rw [entitiesOf_eq hx m.session _ hm, entitiesOf_eq hx m.session _ hm',
    map_items_eq (f := Container.bare) hbare fun _ => rfl]

end Hits

/-- Two runs come out the same if the hits look the same through a function, and so do the results
that are made of hits which do. -/
theorem Algorithm.run_eq {a : Algorithm κ ε σ} {x x' : Context ε σ} {load load' : Loader κ ε σ ρ}
    {snapshot snapshot' : Snapshot κ} {request : SearchRequest} {m m' : Memory ε σ}
    {f : Container κ → Container κ}
    (hsearch : (a.search x snapshot request m).1.map (Hits.map f) =
      (a.search x' snapshot' request m').1.map (Hits.map f))
    (hload : ∀ hits hits', (a.search x snapshot request m).1 = .ok hits →
      (a.search x' snapshot' request m').1 = .ok hits' → hits.map f = hits'.map f →
      (load hits (a.search x snapshot request m).2).1 =
        (load' hits' (a.search x' snapshot' request m').2).1) :
    (a.run x load snapshot request m).1 = (a.run x' load' snapshot' request m').1 := by
  rw [run, run]
  cases hs : a.search x snapshot request m with
  | mk r m₁ =>
      cases hs' : a.search x' snapshot' request m' with
      | mk r' m₁' =>
          rw [hs, hs'] at hsearch hload
          rcases Except.cases_of_map_eq hsearch with
            ⟨b, rfl, rfl⟩ | ⟨hits, hits', rfl, rfl, hmap⟩
          · rfl
          · exact hload hits hits' rfl rfl hmap

/-- What a search is answered with hangs on the snapshot, handles apart, and on the request. -/
theorem Algorithm.IsFunction.run_agree {x : Context ε σ} (hx : x.IsPure) {a : Algorithm κ ε σ}
    (ha : a.IsFunction x) {load : Loader κ ε σ ρ} (hload : load.IsFunction x)
    {snapshot snapshot' : Snapshot κ} (hbare : snapshot.bare = snapshot'.bare)
    {m m' : Memory ε σ} (hm : m.Recalls x (· ∈ snapshot.containers))
    (hm' : m'.Recalls x (· ∈ snapshot'.containers)) (request : SearchRequest) :
    (a.run x load snapshot request m).1 = (a.run x load snapshot' request m').1 := by
  obtain ⟨f, hf, hbareOf⟩ := ha.outcome
  have hsame : (a.search x snapshot request m).1.map Hits.bare =
      (a.search x snapshot' request m').1.map Hits.bare := by
    rw [hf _ _ _ hm, hf _ _ _ hm', hbareOf, hbareOf, hbare]
  refine run_eq (f := Container.bare) hsame fun hits hits' hhits hhits' hmap => ?_
  have hnext := hm.decodes hx (ha.decodes x snapshot request m)
  have hnext' := hm'.decodes hx (ha.decodes x snapshot' request m')
  exact hload hmap (hnext.mono (ha.mem_of_hit hhits)) (hnext'.mono (ha.mem_of_hit hhits'))

/-! ## The known algorithms -/

section

variable {f : Container κ → Container κ} (hf : Container.KeepsParts f)

include hf

theorem Container.KeepsParts.property_eq (c : Container κ) (name : String) :
    (f c).property name = c.property name := by
  rw [Container.property, Container.property, hf c]

theorem Scan.ordered_map (order : Option OrderBy) (l : List (Container κ)) :
    (ordered order l).map f = ordered order (l.map f) := by
  cases order with
  | none => rfl
  | some order =>
      refine List.map_mergeSort fun a _ b _ => ?_
      simp only [inOrder, hf.property_eq]

omit hf in
theorem Scan.page_map (f : Container κ → Container κ) (request : SearchRequest)
    (l : List (Container κ)) : (page request l).map f = page request (l.map f) := by
  rw [page, page, ← List.map_drop, upTo.eq_def, upTo.eq_def]
  cases request.top with
  | none => rfl
  | some n => exact List.map_take

/-- The scan looks at nothing but parts. -/
theorem Scan.hits_map (snapshot : Snapshot κ) (request : SearchRequest) :
    (hits snapshot request).map f = hits (snapshot.map f) request := by
  have hpasses : (passesAll request.filters ∘ f) = passesAll request.filters := by
    funext c
    simp only [Function.comp_apply, passesAll, hf.property_eq]
  have hfilter : (snapshot.map f).containers.filter (passesAll request.filters) =
      (snapshot.containers.filter (passesAll request.filters)).map f := by
    rw [Snapshot.map, List.filter_map, hpasses]
  rw [hits, hits, hfilter, page_map, ordered_map hf]

end

theorem Scan.algorithm_isFunction (x : Context ε σ) (id : String) :
    (Scan.algorithm id : Algorithm κ ε σ).IsFunction x := by
  refine .ofFunction (Scan.algorithm_onlyDecodes id) fun snapshot request => ?_
  simp only [Scan.search]
  cases request.filters.find? (·.field.isEmpty) with
  | some f => rfl
  | none =>
      change Except.ok (Hits.bare { items := hits snapshot request }) = _
      rw [Hits.bare, hits_map Container.bare_keepsParts]
      rfl

theorem Doc.store_areFunctions : Doc.store.searches.AreFunctions Doc.store.context := by
  intro id a h
  obtain rfl := SearchRegistry.eq_of_get?_single h
  exact Scan.algorithm_isFunction _ _

namespace Sample

theorem lateHits_map (f : Container κ → Container κ) (l : List (Container κ)) :
    (lateHits l).map f = lateHits (l.map f) := by
  cases l with
  | nil => rfl
  | cons c rest => cases rest <;> rfl

theorem twice_map (f : Container κ → Container κ) (l : List (Container κ)) :
    (l.flatMap fun c => [c, c]).map f = (l.map f).flatMap fun c => [c, c] := by
  rw [List.map_flatMap, List.flatMap_map]
  rfl

variable {x : Context ε σ} {measure : ε → Int}

/-- The first of the containers whose entities measure most, by what their blobs read as. -/
def greatestRead (measure : ε → Int) (read : Bytes → Except StoreError ε)
    (best : Option (Container κ × Int)) :
    List (Container κ) → Except StoreError (Option (Container κ × Int))
  | [] => .ok best
  | c :: rest =>
    match read c.blob with
    | .error e => .error e
    | .ok e =>
      greatestRead measure read
        (if best.any (measure e ≤ ·.2) then best else some (c, measure e)) rest

theorem greatestOf_eq (hx : x.IsPure) (session : σ) : ∀ (cs : List (Container κ))
    (best : Option (Container κ × Int)) {m : Memory ε σ}, m.Recalls x (· ∈ cs) →
      (greatestOf measure x best cs m).1 =
        greatestRead measure (x.entityOf session) best cs := by
  intro cs
  induction cs with
  | nil => exact fun _ _ _ => rfl
  | cons c rest ih =>
      intro best m hm
      have hc := hm.entity_eq hx session List.mem_cons_self
      have hrest := (hm.entity hx (c := c) List.mem_cons_self).mono
        fun d (hd : d ∈ rest) => List.mem_cons_of_mem c hd
      rw [greatestOf, greatestRead, ← hc]
      cases hent : c.entity x m with
      | mk r m' =>
          rw [hent] at hrest
          cases r with
          | error err => rfl
          | ok e => exact ih _ hrest

theorem greatestRead_bare (measure : ε → Int) (read : Bytes → Except StoreError ε) :
    ∀ (cs : List (Container κ))
    (best : Option (Container κ × Int)),
      (greatestRead measure read best cs).map (Option.map fun p => (p.1.bare, p.2)) =
        greatestRead measure read (best.map fun p => (p.1.bare, p.2))
          (cs.map Container.bare) := by
  intro cs
  induction cs with
  | nil => exact fun _ => rfl
  | cons c rest ih =>
      intro best
      rw [List.map_cons, greatestRead, greatestRead, show c.bare.blob = c.blob from rfl]
      cases read c.blob with
      | error err => rfl
      | ok e =>
          refine (ih _).trans ?_
          cases best with
          | none => rfl
          | some p =>
              simp only [Option.any_some, Option.map_some]
              split <;> rfl

theorem greatest_isFunction (hx : x.IsPure) (session : σ) (id : String) :
    (algorithm measure id .greatest : Algorithm κ ε σ).IsFunction x where
  toOnlyDecodes := greatest_onlyDecodes measure id
  outcome := by
    refine ⟨fun snapshot _ =>
      match greatestRead measure (x.entityOf session) none snapshot.containers with
      | .error e => .error (.error (.entity e))
      | .ok best => .ok { items := (best.map Prod.fst).toList }, ?_, ?_⟩
    · intro snapshot request m hm
      dsimp only
      rw [greatest_search, ← greatestOf_eq hx session snapshot.containers none hm]
      cases greatestOf measure x none snapshot.containers m with
      | mk r m' => cases r <;> rfl
    · intro snapshot request
      have hbare := greatestRead_bare measure (x.entityOf session)
        snapshot.containers none
      change _ = greatestRead measure (x.entityOf session) none snapshot.bare.containers at hbare
      dsimp only
      rw [← hbare]
      cases greatestRead measure (x.entityOf session) none snapshot.containers with
      | error e => rfl
      | ok best => cases best <;> rfl

/-- Whatever a known algorithm does, it is a function of snapshot and request. -/
theorem algorithm_isFunction (hx : x.IsPure) (session : σ) (id : String) (sample : Sample) :
    (algorithm measure id sample : Algorithm κ ε σ).IsFunction x := by
  have hdecodes : (algorithm measure id sample : Algorithm κ ε σ).OnlyDecodes :=
    algorithm_onlyDecodes measure id sample
  cases sample with
  | scan => exact Scan.algorithm_isFunction x id
  | failing e => exact .ofFunction hdecodes fun _ _ => rfl
  | panicking form message => exact .ofFunction hdecodes fun _ _ => rfl
  | late =>
      exact .ofFunction hdecodes fun snapshot request =>
        congrArg Except.ok (lateHits_map Container.bare snapshot.containers)
  | reverse =>
      exact .ofFunction hdecodes fun snapshot request =>
        congrArg (fun items => Except.ok (Hits.mk items none)) List.map_reverse
  | twice =>
      exact .ofFunction hdecodes fun snapshot request =>
        congrArg (fun items => Except.ok (Hits.mk items none))
          (twice_map Container.bare snapshot.containers)
  | nothing => exact .ofFunction hdecodes fun _ _ => rfl
  | greatest => exact greatest_isFunction hx session id

end Sample

end EntityStore
