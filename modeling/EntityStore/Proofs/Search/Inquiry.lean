import EntityStore.Proofs.Search.Functions

/-!
# Searches that only inquire

An algorithm is handed the context and the memory of the store, because reading
a container takes both. One that touches entities only through hits does nothing
else with them: it asks for the entity of a container, is told the entity or why
there is none, and goes on from there until it has an outcome. That is an
`Inquiry`, a tree with a branch for everything it may be told, and running it is
reading containers (`Algorithm.Follows`). If all of them have been decoded
before, the context has no part in it (`Algorithm.Follows.run_of_decoded`).

The known algorithms are of this kind. They are discreet besides: they look at
what stands beside blobs, and neither at blobs and handles nor at the tag, so
their inquiries about two snapshots that look the same from outside are the same
(`Algorithm.IsDiscreet`).
-/

namespace EntityStore

variable {κ ε σ τ ρ : Type}

/-- What an algorithm does: it has an outcome, or asks for an entity and goes on. -/
inductive Inquiry (κ ε : Type) where
  | done (outcome : Except Breakdown (Hits κ))
  | ask (c : Container κ) (next : Except StoreError ε → Inquiry κ ε)

namespace Inquiry

/-- The outcome of an inquiry in which every question is a read of the container. -/
def run (x : Context ε σ) : Inquiry κ ε → Memory ε σ → Except Breakdown (Hits κ) × Memory ε σ
  | .done outcome, m => (outcome, m)
  | .ask c next, m => (next (c.entity x m).1).run x (c.entity x m).2

/-- An inquiry asks for known containers and produces such, whatever it is told. -/
def Within (known : Container κ → Prop) : Inquiry κ ε → Prop
  | .done outcome => ∀ hits, outcome = .ok hits → ∀ c ∈ hits.items, known c
  | .ask c next => known c ∧ ∀ r, (next r).Within known

/-- An inquiry, with its containers seen through a function. -/
def map (f : Container κ → Container κ) : Inquiry κ ε → Inquiry κ ε
  | .done outcome => .done (outcome.map (Hits.map f))
  | .ask c next => .ask (f c) fun r => (next r).map f

variable {x : Context ε σ} {known : Container κ → Prop}

theorem Within.mono {known' : Container κ → Prop} (hle : ∀ c, known c → known' c) :
    ∀ {q : Inquiry κ ε}, q.Within known → q.Within known' := by
  intro q
  induction q with
  | done outcome => exact fun hq hits hhits c hc => hle c (hq hits hhits c hc)
  | ask c next ih => exact fun hq => ⟨hle c hq.1, fun r => ih r (hq.2 r)⟩

theorem run_decodes : ∀ {q : Inquiry κ ε}, q.Within known → ∀ m : Memory ε σ,
    Memory.Decodes x known m (q.run x m).2 ∧
      ∀ {hits}, (q.run x m).1 = .ok hits → ∀ c ∈ hits.items, known c := by
  intro q
  induction q with
  | done outcome => exact fun hq m => ⟨.refl, hq _⟩
  | ask c next ih =>
      intro hq m
      obtain ⟨hrest, hitems⟩ := ih (c.entity x m).1 (hq.2 _) (c.entity x m).2
      exact ⟨(Memory.Decodes.step .refl hq.1).trans hrest, hitems⟩

end Inquiry

/-- An algorithm does what a plan says, which stays within the snapshot. -/
structure Algorithm.Follows (a : Algorithm κ ε σ)
    (plan : Snapshot κ → SearchRequest → Inquiry κ ε) : Prop where
  search_eq : ∀ x snapshot request m, a.search x snapshot request m =
    (plan snapshot request).run x m
  within : ∀ snapshot request, (plan snapshot request).Within (· ∈ snapshot.containers)

/-- An algorithm that touches entities only through hits. -/
def Algorithm.OnlyInquires (a : Algorithm κ ε σ) : Prop := ∃ plan, a.Follows plan

theorem Algorithm.OnlyInquires.onlyDecodes {a : Algorithm κ ε σ} (h : a.OnlyInquires) :
    a.OnlyDecodes := by
  obtain ⟨plan, hplan⟩ := h
  refine ⟨fun x snapshot request m => ?_, fun {x snapshot request m hits} hhits => ?_⟩
  · rw [hplan.search_eq]
    exact (Inquiry.run_decodes (hplan.within snapshot request) m).1
  · rw [hplan.search_eq] at hhits
    exact (Inquiry.run_decodes (hplan.within snapshot request) m).2 hhits

/-! ## Where everything is decoded -/

/-- A container that is decoded reads as what is remembered, and the context is left alone. -/
theorem Container.entity_of_decoded {c : Container κ} {m : Memory ε σ}
    (h : c.isDecoded m = true) : ∃ e, ∀ x : Context ε σ, c.entity x m = (.ok e, m) := by
  obtain ⟨e, he⟩ := SortedMap.contains_iff.1 h
  exact ⟨e, fun x => by rw [entity, he]⟩

theorem Inquiry.run_of_decoded {known : Container κ → Prop} {m : Memory ε σ}
    (hknown : ∀ c, known c → c.isDecoded m = true) : ∀ {q : Inquiry κ ε}, q.Within known →
      ∃ outcome, (∀ x : Context ε σ, q.run x m = (outcome, m)) ∧
        ∀ hits, outcome = .ok hits → ∀ c ∈ hits.items, known c := by
  intro q
  induction q with
  | done outcome => exact fun hq => ⟨outcome, fun _ => rfl, hq⟩
  | ask c next ih =>
      intro hq
      obtain ⟨e, he⟩ := Container.entity_of_decoded (hknown c hq.1)
      obtain ⟨outcome, hrun, hitems⟩ := ih (.ok e) (hq.2 _)
      exact ⟨outcome, fun x => by rw [run, he]; exact hrun x, hitems⟩

theorem Hits.entitiesOf_of_decoded {m : Memory ε σ} : ∀ {cs : List (Container κ)},
    (∀ c ∈ cs, c.isDecoded m = true) →
      ∃ es, ∀ x : Context ε σ, entitiesOf x cs m = (.ok es, m) := by
  intro cs
  induction cs with
  | nil => exact fun _ => ⟨[], fun _ => rfl⟩
  | cons c rest ih =>
      intro h
      obtain ⟨e, he⟩ := Container.entity_of_decoded (h c List.mem_cons_self)
      obtain ⟨es, hes⟩ := ih fun d hd => h d (List.mem_cons_of_mem c hd)
      exact ⟨e :: es, fun x => by simp only [entitiesOf, he, hes]; rfl⟩

/-- Loading decoded hits does not take a context. -/
def Loader.SparesContext (load : Context ε σ → Loader κ ε σ ρ) : Prop :=
  ∀ {hits : Hits κ} {m : Memory ε σ}, (∀ c ∈ hits.items, c.isDecoded m = true) →
    ∃ r, ∀ x, load x hits m = (r, m)

theorem Hits.table_sparesContext (request : SearchRequest) :
    Loader.SparesContext fun _ : Context ε σ => (table request : Loader κ ε σ Table) :=
  fun _ => ⟨_, fun _ => rfl⟩

theorem Hits.entityList_sparesContext :
    Loader.SparesContext fun x : Context ε σ =>
      (entityList x : Loader κ ε σ (EntityList ε)) := by
  intro hits m h
  obtain ⟨es, hes⟩ := entitiesOf_of_decoded h
  exact ⟨hits.unlessPanic { data := es }, fun x => by simp only [entityList, hes]⟩

/-- Where all of a snapshot is decoded, an algorithm that touches entities only through hits
answers without the context. -/
theorem Algorithm.OnlyInquires.run_of_decoded {a : Algorithm κ ε σ} (ha : a.OnlyInquires)
    {load : Context ε σ → Loader κ ε σ ρ} (hload : Loader.SparesContext load)
    {snapshot : Snapshot κ} {m : Memory ε σ}
    (h : ∀ c ∈ snapshot.containers, c.isDecoded m = true) (request : SearchRequest) :
    ∃ r, ∀ x, a.run x (load x) snapshot request m = (r, m) := by
  obtain ⟨plan, hplan⟩ := ha
  obtain ⟨outcome, hrun, hitems⟩ :=
    Inquiry.run_of_decoded h (hplan.within snapshot request)
  cases outcome with
  | error b =>
      exact ⟨.error b, fun x => by simp only [run, hplan.search_eq, hrun]⟩
  | ok hits =>
      obtain ⟨r, hr⟩ := hload fun c hc => h c (hitems hits rfl c hc)
      exact ⟨r, fun x => by simp only [run, hplan.search_eq, hrun, hr]⟩

/-! ## Discretion -/

/-- What can be seen of a container from outside. -/
def Container.outline (c : Container κ) : Container κ := { c with handle := 0, blob := [] }

theorem Container.outline_keepsParts : KeepsParts (outline : Container κ → Container κ) :=
  fun _ => rfl

/-- An algorithm that touches entities only through hits, and does the same for snapshots that look
the same from outside. -/
def Algorithm.IsDiscreet (a : Algorithm κ ε σ) : Prop :=
  ∃ plan, a.Follows plan ∧ ∀ {snapshot snapshot' : Snapshot κ} (request : SearchRequest),
    snapshot.containers.map Container.outline = snapshot'.containers.map Container.outline →
      (plan snapshot request).map Container.outline =
        (plan snapshot' request).map Container.outline

/-- A registry of such algorithms. -/
def SearchRegistry.AreDiscreet (r : SearchRegistry κ ε σ) : Prop :=
  ∀ {id a}, r.get? id = some a → a.IsDiscreet

theorem Algorithm.IsDiscreet.onlyInquires {a : Algorithm κ ε σ} (h : a.IsDiscreet) :
    a.OnlyInquires := by
  obtain ⟨plan, hplan, -⟩ := h
  exact ⟨plan, hplan⟩

theorem SearchRegistry.AreDiscreet.onlyDecodes {r : SearchRegistry κ ε σ} (h : r.AreDiscreet) :
    r.OnlyDecodes := fun hget => (h hget).onlyInquires.onlyDecodes

/-- A function of snapshot and request asks for nothing. -/
theorem FindsWithin.follows {f : Snapshot κ → SearchRequest → Except Breakdown (Hits κ)}
    (h : FindsWithin f) (id : String) : (Algorithm.ofFunction id f : Algorithm κ ε σ).Follows
      fun snapshot request => .done (f snapshot request) :=
  ⟨fun _ _ _ _ => rfl, fun _ _ _ hhits => h hhits⟩

/-- It is discreet if it looks at outlines, and not at the tag. -/
theorem FindsWithin.isDiscreet {f : Snapshot κ → SearchRequest → Except Breakdown (Hits κ)}
    (h : FindsWithin f) (id : String)
    (hmap : ∀ snapshot request, (f snapshot request).map (Hits.map Container.outline) =
      f (snapshot.map Container.outline) request)
    (hetag : ∀ cs etag etag' request, f ⟨cs, etag⟩ request = f ⟨cs, etag'⟩ request) :
    (Algorithm.ofFunction id f : Algorithm κ ε σ).IsDiscreet := by
  refine ⟨_, h.follows id, fun {snapshot snapshot'} request hsame => congrArg Inquiry.done ?_⟩
  rw [hmap, hmap, Snapshot.map, Snapshot.map, hsame, hetag]

/-! ## The known algorithms -/

theorem Scan.algorithm_isDiscreet (id : String) :
    (Scan.algorithm id : Algorithm κ ε σ).IsDiscreet := by
  refine findsWithin.isDiscreet id (fun snapshot request => ?_) fun _ _ _ _ => rfl
  simp only [search]
  cases request.filters.find? (·.field.isEmpty) with
  | some f => rfl
  | none =>
      exact congrArg (fun items => Except.ok (Hits.mk items none))
        (hits_map Container.outline_keepsParts snapshot request)

theorem Doc.storeOver_areDiscreet (x : Context Doc σ) : (Doc.storeOver x).searches.AreDiscreet := by
  intro id a h
  obtain rfl := SearchRegistry.eq_of_get?_single h
  exact Scan.algorithm_isDiscreet _

namespace Sample

/-- The inquiry for the first of the containers whose entities measure most. -/
def greatestInquiry (measure : ε → Int) (best : Option (Container κ × Int)) :
    List (Container κ) → Inquiry κ ε
  | [] => .done (.ok { items := (best.map Prod.fst).toList })
  | c :: rest => .ask c fun
    | .error e => .done (.error (.error (.entity e)))
    | .ok e =>
      greatestInquiry measure
        (if best.any (measure e ≤ ·.2) then best else some (c, measure e)) rest

variable {measure : ε → Int}

theorem greatestInquiry_run (x : Context ε σ) : ∀ (cs : List (Container κ))
    (best : Option (Container κ × Int)) (m : Memory ε σ),
      (greatestInquiry measure best cs).run x m =
        match greatestOf measure x best cs m with
        | (.error e, m) => (.error (.error (.entity e)), m)
        | (.ok best, m) => (.ok { items := (best.map Prod.fst).toList }, m) := by
  intro cs
  induction cs with
  | nil => exact fun _ _ => rfl
  | cons c rest ih =>
      intro best m
      rw [greatestInquiry, Inquiry.run, greatestOf]
      cases c.entity x m with
      | mk r m' =>
          cases r with
          | error err => rfl
          | ok e => exact ih _ m'

theorem greatestInquiry_within {known : Container κ → Prop} : ∀ {cs : List (Container κ)}
    {best : Option (Container κ × Int)}, (∀ c ∈ cs, known c) → (∀ p ∈ best, known p.1) →
      (greatestInquiry measure best cs).Within known := by
  intro cs
  induction cs with
  | nil =>
      intro best _ hbest hits hhits c hc
      obtain rfl := Except.ok.inj hhits
      obtain ⟨p, hp, rfl⟩ := Option.map_eq_some_iff.1 (Option.mem_toList.1 hc)
      exact hbest p hp
  | cons c rest ih =>
      intro best hcs hbest
      refine ⟨hcs c List.mem_cons_self, fun r => ?_⟩
      cases r with
      | error err => exact nofun
      | ok e =>
          refine ih (fun d hd => hcs d (List.mem_cons_of_mem c hd)) fun p hp => ?_
          split at hp
          · exact hbest p hp
          · obtain rfl := Option.some.inj hp
            exact hcs c List.mem_cons_self

theorem greatestInquiry_map (f : Container κ → Container κ) : ∀ (cs : List (Container κ))
    (best : Option (Container κ × Int)),
      (greatestInquiry measure best cs).map f =
        greatestInquiry measure (best.map fun p => (f p.1, p.2)) (cs.map f) := by
  intro cs
  induction cs with
  | nil =>
      intro best
      cases best <;> rfl
  | cons c rest ih =>
      intro best
      refine congrArg (Inquiry.ask (f c)) (funext fun r => ?_)
      cases r with
      | error err => rfl
      | ok e =>
          refine (ih _).trans ?_
          cases best with
          | none => rfl
          | some p =>
              simp only [Option.any_some, Option.map_some]
              split <;> rfl

theorem greatest_isDiscreet (id : String) :
    (algorithm measure id .greatest : Algorithm κ ε σ).IsDiscreet := by
  refine ⟨fun snapshot _ => greatestInquiry measure none snapshot.containers, ⟨?_, ?_⟩, ?_⟩
  · intro x snapshot request m
    exact (greatest_search measure id x snapshot request m).trans
      (greatestInquiry_run x snapshot.containers none m).symm
  · exact fun snapshot request => greatestInquiry_within (fun _ hc => hc) nofun
  · intro snapshot snapshot' request hsame
    rw [greatestInquiry_map, greatestInquiry_map, hsame]

/-- Whatever a known algorithm does, it is discreet. -/
theorem algorithm_isDiscreet (measure : ε → Int) (id : String) (sample : Sample) :
    (algorithm measure id sample : Algorithm κ ε σ).IsDiscreet := by
  cases sample with
  | scan => exact Scan.algorithm_isDiscreet id
  | failing e =>
      exact FindsWithin.isDiscreet (f := fun _ _ => .error (.error e)) nofun id (fun _ _ => rfl)
        fun _ _ _ _ => rfl
  | panicking form message =>
      exact FindsWithin.isDiscreet
        (f := fun _ request => .error (.panic (panicOf form message request))) nofun id
        (fun _ _ => rfl) fun _ _ _ _ => rfl
  | late =>
      exact late_findsWithin.isDiscreet id
        (fun snapshot _ => congrArg Except.ok (lateHits_map _ snapshot.containers))
        fun _ _ _ _ => rfl
  | reverse =>
      exact reverse_findsWithin.isDiscreet id
        (fun _ _ => congrArg (fun items => Except.ok (Hits.mk items none)) List.map_reverse)
        fun _ _ _ _ => rfl
  | twice =>
      exact twice_findsWithin.isDiscreet id
        (fun snapshot _ => congrArg (fun items => Except.ok (Hits.mk items none))
          (twice_map _ snapshot.containers))
        fun _ _ _ _ => rfl
  | nothing => exact nothing_findsWithin.isDiscreet id (fun _ _ => rfl) fun _ _ _ _ => rfl
  | greatest => exact greatest_isDiscreet id

end Sample

end EntityStore
