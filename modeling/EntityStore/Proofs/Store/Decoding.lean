import EntityStore.Proofs.Store.Memory
import EntityStore.Search.Samples

/-!
# What is remembered stays

An entity is remembered for a container that has none remembered, and then it is
what the blob was just decoded to. Nothing else is ever done to what is
remembered: building a candidate works under a handle that is new, and reading a
container fills in what is missing. So between two moments an older handle kept
what it had, or had nothing and was filled (`Memory.Fills`).

A search algorithm is handed the memory because it may look at entities. One
that does no more than that leaves a memory that decoding containers of the
snapshot, one after another, leads to (`Memory.Decodes`), and it produces hits
that are containers of the snapshot (`Algorithm.OnlyDecodes`). The scan and the
other known algorithms are of this kind.
-/

namespace EntityStore

variable {κ ε σ τ : Type}

/-! ## Reading one container -/

/-- Reading a container changes nothing under any handle, or fills in what was missing under its
own. -/
theorem Container.entity_find? (c : Container κ) (x : Context ε σ) (m : Memory ε σ) (h : Handle) :
    (c.entity x m).2.decoded.find? h = m.decoded.find? h ∨
    (h = c.handle ∧ m.decoded.find? h = none ∧ ∃ e, (c.entity x m).2.decoded.find? h = some e ∧
      (x.decode c.blob m.session).1 = .ok e) := by
  rw [entity]
  cases hfind : m.decoded.find? c.handle with
  | some e => exact .inl rfl
  | none =>
      cases hdec : x.decode c.blob m.session with
      | mk r session =>
          cases r with
          | error err =>
              simp only [decodeBlob, hdec]
              exact .inl trivial
          | ok e =>
              simp only [decodeBlob, hdec]
              by_cases hh : h = c.handle
              · subst hh
                exact .inr ⟨rfl, hfind, e, SortedMap.find?_insert_self _ _ _, rfl⟩
              · exact .inl (SortedMap.find?_insert_of_ne _ _ hh)

namespace Memory

/-! ## Filling -/

/-- A later memory, which kept what was remembered under older handles; what was added to those is
what the blob of a known container decoded to. -/
structure Fills (x : Context ε σ) (known : Container κ → Prop) (m m' : Memory ε σ) : Prop where
  next_le : m.next ≤ m'.next
  find?_cases : ∀ {h}, h < m.next → m'.decoded.find? h = m.decoded.find? h ∨
    m.decoded.find? h = none ∧ ∃ c e session, known c ∧ c.handle = h ∧
      m'.decoded.find? h = some e ∧ (x.decode c.blob session).1 = .ok e
  tidy : m.Tidy → m'.Tidy

variable {x : Context ε σ} {known : Container κ → Prop} {m m' m'' : Memory ε σ}

theorem Fills.refl (m : Memory ε σ) : Fills x known m m :=
  ⟨Nat.le_refl _, fun _ => .inl rfl, id⟩

theorem Fills.trans (h : Fills x known m m') (h' : Fills x known m' m'') :
    Fills x known m m'' where
  next_le := Nat.le_trans h.next_le h'.next_le
  find?_cases {k} hk := by
    rcases h'.find?_cases (Nat.lt_of_lt_of_le hk h.next_le) with hsame | ⟨hnone, hfilled⟩
    · rw [hsame]
      exact h.find?_cases hk
    · rcases h.find?_cases hk with hsame | ⟨-, c, e, session, -, -, hsome, -⟩
      · exact .inr ⟨hsame ▸ hnone, hfilled⟩
      · rw [hnone] at hsome
        cases hsome
  tidy := h'.tidy ∘ h.tidy

theorem Fills.mono {known' : Container κ → Prop} (h : Fills x known m m')
    (hle : ∀ c, known c → known' c) : Fills x known' m m' where
  next_le := h.next_le
  find?_cases hk := by
    rcases h.find?_cases hk with hsame | ⟨hnone, c, e, session, hc, hrest⟩
    · exact .inl hsame
    · exact .inr ⟨hnone, c, e, session, hle c hc, hrest⟩
  tidy := h.tidy

theorem Fills.find?_of_some (h : Fills x known m m') {k : Handle} (hlt : k < m.next) {e : ε}
    (he : m.decoded.find? k = some e) : m'.decoded.find? k = some e := by
  rcases h.find?_cases hlt with hsame | ⟨hnone, -⟩
  · rw [hsame, he]
  · rw [hnone] at he
    cases he

/-- Work under new handles fills nothing in under older ones. -/
theorem Extends.fills (h : m.Extends m') : Fills x known m m' :=
  ⟨h.next_le, fun hk => .inl (h.find?_eq _ hk), h.tidy⟩

theorem Fills.entity {c : Container κ} (hc : known c) (hlt : c.handle < m.next) :
    Fills x known m (c.entity x m).2 where
  next_le := Nat.le_of_eq (c.entity_memory m).1.symm
  find?_cases {k} _ := by
    rcases c.entity_find? x m k with hsame | ⟨rfl, hnone, e, hsome, hdec⟩
    · exact .inl hsame
    · exact .inr ⟨hnone, c, e, m.session, hc, rfl, hsome, hdec⟩
  tidy ht k e he := by
    rw [(c.entity_memory m).1]
    rcases (c.entity_memory m).2 he with hold | ⟨rfl, -⟩
    · exact ht hold
    · exact hlt

/-! ## Decoding containers one after another -/

/-- The memories that decoding known containers, one after another, leads to. -/
inductive Decodes (x : Context ε σ) (known : Container κ → Prop) (m : Memory ε σ) :
    Memory ε σ → Prop where
  | refl : Decodes x known m m
  | step {c : Container κ} {m' : Memory ε σ} (h : Decodes x known m m') (hc : known c) :
      Decodes x known m (c.entity x m').2

theorem Decodes.trans (h : Decodes x known m m') (h' : Decodes x known m' m'') :
    Decodes x known m m'' := by
  induction h' with
  | refl => exact h
  | step _ hc ih => exact ih.step hc

theorem Decodes.mono {known' : Container κ → Prop} (h : Decodes x known m m')
    (hle : ∀ c, known c → known' c) : Decodes x known' m m' := by
  induction h with
  | refl => exact .refl
  | step _ hc ih => exact ih.step (hle _ hc)

theorem Decodes.next_eq (h : Decodes x known m m') : m'.next = m.next := by
  induction h with
  | refl => rfl
  | @step c m' _ _ ih => rw [(c.entity_memory m').1, ih]

theorem Decodes.fills (h : Decodes x known m m') (hlt : ∀ c, known c → c.handle < m.next) :
    Fills x known m m' := by
  induction h with
  | refl => exact .refl m
  | @step c m' h hc ih => exact ih.trans (.entity hc (h.next_eq ▸ hlt c hc))

end Memory

/-! ## Algorithms that do no more than decode -/

/-- An algorithm whose hits are containers of the snapshot, and which leaves of the memory what
decoding such containers leads to. -/
structure Algorithm.OnlyDecodes (a : Algorithm κ ε σ) : Prop where
  decodes : ∀ x snapshot request m,
    Memory.Decodes x (· ∈ snapshot.containers) m (a.search x snapshot request m).2
  mem_of_hit : ∀ {x snapshot request m hits}, (a.search x snapshot request m).1 = .ok hits →
    ∀ c ∈ hits.items, c ∈ snapshot.containers

/-- What a registry of a single algorithm has is this algorithm. -/
theorem SearchRegistry.eq_of_get?_single {id : String} {a : Algorithm κ ε σ} {d : Option String}
    {name : String} {b : Algorithm κ ε σ}
    (h : SearchRegistry.get? { algorithms := SortedMap.empty.insert id a, defaultId := d } name =
      some b) : b = a := by
  rcases SortedMap.find?_insert_eq_some_iff.1 h with ⟨-, rfl⟩ | ⟨-, hnone⟩
  · rfl
  · cases hnone

/-- A registry of such algorithms. -/
def SearchRegistry.OnlyDecodes (r : SearchRegistry κ ε σ) : Prop :=
  ∀ {id a}, r.get? id = some a → a.OnlyDecodes

/-- A function of snapshot and request that produces containers of the snapshot. -/
def FindsWithin (search : Snapshot κ → SearchRequest → Except Breakdown (Hits κ)) : Prop :=
  ∀ {snapshot request hits}, search snapshot request = .ok hits →
    ∀ c ∈ hits.items, c ∈ snapshot.containers

theorem FindsWithin.onlyDecodes {id : String}
    {search : Snapshot κ → SearchRequest → Except Breakdown (Hits κ)} (h : FindsWithin search) :
    (Algorithm.ofFunction id search : Algorithm κ ε σ).OnlyDecodes :=
  ⟨fun _ _ _ _ => .refl, h⟩

theorem Scan.mem_of_hit {snapshot : Snapshot κ} {request : SearchRequest} {c : Container κ}
    (hc : c ∈ hits snapshot request) : c ∈ snapshot.containers := by
  have hpage : ∀ l : List (Container κ), c ∈ page request l → c ∈ l := by
    intro l h
    rw [page, upTo.eq_def] at h
    split at h
    · exact List.mem_of_mem_drop h
    · exact List.mem_of_mem_drop (List.mem_of_mem_take h)
  have hordered : ∀ l : List (Container κ), c ∈ ordered request.orderBy l → c ∈ l := by
    intro l h
    rw [ordered.eq_def] at h
    split at h
    · exact h
    · exact List.mem_mergeSort.1 h
  exact (List.mem_filter.1 (hordered _ (hpage _ hc))).1

theorem Scan.findsWithin : FindsWithin fun (snapshot : Snapshot κ) request =>
    match search snapshot request with
    | .error e => .error (.error e)
    | .ok items => .ok { items } := by
  intro snapshot request found h c hc
  dsimp only [search] at h
  split at h
  · cases h
  · next hsearch =>
      split at hsearch
      · cases hsearch
      · obtain rfl := Except.ok.inj hsearch
        obtain rfl := Except.ok.inj h
        exact mem_of_hit hc

theorem Scan.algorithm_onlyDecodes (id : String) :
    (Scan.algorithm id : Algorithm κ ε σ).OnlyDecodes := findsWithin.onlyDecodes

/-! ## Making hits into results -/

/-- A way to make hits into results that does no more than decode them. -/
def Loader.OnlyDecodes {ρ : Type} (load : Loader κ ε σ ρ) (x : Context ε σ) : Prop :=
  ∀ hits m, Memory.Decodes x (· ∈ hits.items) m (load hits m).2

namespace Hits

theorem table_onlyDecodes (x : Context ε σ) (request : SearchRequest) :
    Loader.OnlyDecodes (table request : Loader κ ε σ Table) x := fun _ _ => .refl

theorem entitiesOf_decodes (x : Context ε σ) : ∀ (cs : List (Container κ)) (m : Memory ε σ),
    Memory.Decodes x (· ∈ cs) m (entitiesOf x cs m).2 := by
  intro cs
  induction cs with
  | nil => exact fun _ => .refl
  | cons c rest ih =>
      intro m
      have hc : Memory.Decodes x (· ∈ c :: rest) m (c.entity x m).2 :=
        .step .refl List.mem_cons_self
      rw [entitiesOf]
      cases hent : c.entity x m with
      | mk r m' =>
          rw [hent] at hc
          cases r with
          | error err => exact hc
          | ok e => exact hc.trans ((ih m').mono fun _ => List.mem_cons_of_mem _)

theorem entityList_onlyDecodes (x : Context ε σ) :
    Loader.OnlyDecodes (entityList x : Loader κ ε σ (EntityList ε)) x := by
  intro hits m
  have h := entitiesOf_decodes x hits.items m
  rw [entityList]
  cases hent : entitiesOf x hits.items m with
  | mk r m' =>
      rw [hent] at h
      cases r <;> exact h

end Hits

/-- A run of an algorithm with the loading of its hits decodes containers of the snapshot. -/
theorem Algorithm.OnlyDecodes.run {ρ : Type} {a : Algorithm κ ε σ} (ha : a.OnlyDecodes)
    {x : Context ε σ} {load : Loader κ ε σ ρ} (hload : load.OnlyDecodes x)
    (snapshot : Snapshot κ) (request : SearchRequest) (m : Memory ε σ) :
    Memory.Decodes x (· ∈ snapshot.containers) m (a.run x load snapshot request m).2 := by
  have h := ha.decodes x snapshot request m
  have hitems : ∀ hits, (a.search x snapshot request m).1 = .ok hits →
      ∀ c ∈ hits.items, c ∈ snapshot.containers := fun _ => ha.mem_of_hit
  rw [Algorithm.run]
  cases hsearch : a.search x snapshot request m with
  | mk r m' =>
      rw [hsearch] at h hitems
      cases r with
      | error b => exact h
      | ok hits => exact h.trans ((hload hits m').mono (hitems hits rfl))

/-! ## The known algorithms -/

namespace Sample

theorem greatestOf_decodes (measure : ε → Int) (x : Context ε σ) :
    ∀ (cs : List (Container κ)) (best : Option (Container κ × Int)) (m : Memory ε σ),
      Memory.Decodes x (· ∈ cs) m (greatestOf measure x best cs m).2 ∧
      ∀ {found}, (greatestOf measure x best cs m).1 = .ok found →
        ∀ p ∈ found, best = some p ∨ p.1 ∈ cs := by
  intro cs
  induction cs with
  | nil =>
      intro best m
      refine ⟨.refl, fun h p hp => .inl ?_⟩
      rw [greatestOf] at h
      rw [Except.ok.inj h]
      exact hp
  | cons c rest ih =>
      intro best m
      have hc : Memory.Decodes x (· ∈ c :: rest) m (c.entity x m).2 :=
        .step .refl List.mem_cons_self
      rw [greatestOf]
      cases hent : c.entity x m with
      | mk r m' =>
          rw [hent] at hc
          cases r with
          | error err => exact ⟨hc, fun h => by cases h⟩
          | ok e =>
              obtain ⟨hdec, hbest⟩ :=
                ih (if best.any (measure e ≤ ·.2) then best else some (c, measure e)) m'
              refine ⟨hc.trans (hdec.mono fun _ => List.mem_cons_of_mem _), fun h p hp => ?_⟩
              rcases hbest h p hp with heq | hmem
              · split at heq
                · exact .inl heq
                · obtain rfl := Option.some.inj heq
                  exact .inr List.mem_cons_self
              · exact .inr (List.mem_cons_of_mem _ hmem)

theorem greatest_search (measure : ε → Int) (id : String) (x : Context ε σ) (snapshot : Snapshot κ)
    (request : SearchRequest) (m : Memory ε σ) :
    (algorithm measure id .greatest).search x snapshot request m =
      match greatestOf measure x none snapshot.containers m with
      | (.error e, m) => (.error (.error (.entity e)), m)
      | (.ok best, m) => (.ok { items := (best.map Prod.fst).toList }, m) := rfl

theorem greatest_onlyDecodes (measure : ε → Int) (id : String) :
    (algorithm measure id .greatest : Algorithm κ ε σ).OnlyDecodes := by
  refine ⟨fun x snapshot request m => ?_, fun {x snapshot request m hits} h c hc => ?_⟩
  · have hdec := (greatestOf_decodes measure x snapshot.containers none m).1
    rw [greatest_search]
    cases hg : greatestOf measure x none snapshot.containers m with
    | mk r m' =>
        rw [hg] at hdec
        cases r <;> exact hdec
  · rw [greatest_search] at h
    cases hg : greatestOf measure x none snapshot.containers m with
    | mk r m' =>
        rw [hg] at h
        cases r with
        | error e => cases h
        | ok best =>
            obtain rfl := Except.ok.inj h
            obtain ⟨p, hp, rfl⟩ := Option.map_eq_some_iff.1 (Option.mem_toList.1 hc)
            rcases (greatestOf_decodes measure x snapshot.containers none m).2
              (by rw [hg]) p hp with hnone | hmem
            · cases hnone
            · exact hmem

theorem late_findsWithin :
    FindsWithin fun (snapshot : Snapshot κ) _ => .ok (lateHits snapshot.containers) := by
  intro snapshot request hits h c hc
  obtain rfl := Except.ok.inj h
  rw [lateHits.eq_def] at hc
  split at hc
  · next hcs =>
      rw [hcs, List.mem_singleton.1 hc]
      exact List.mem_cons_self
  · exact hc

theorem reverse_findsWithin :
    FindsWithin fun (snapshot : Snapshot κ) _ => .ok { items := snapshot.containers.reverse } := by
  intro snapshot request hits h c hc
  obtain rfl := Except.ok.inj h
  exact List.mem_reverse.1 hc

theorem twice_findsWithin : FindsWithin fun (snapshot : Snapshot κ) _ =>
    .ok { items := snapshot.containers.flatMap fun c => [c, c] } := by
  intro snapshot request hits h c hc
  obtain rfl := Except.ok.inj h
  obtain ⟨d, hd, hcd⟩ := List.mem_flatMap.1 hc
  simp only [List.mem_cons, List.not_mem_nil, or_false, or_self] at hcd
  exact hcd ▸ hd

theorem nothing_findsWithin :
    FindsWithin fun (_ : Snapshot κ) _ => .ok { items := [] } := by
  intro snapshot request hits h c hc
  obtain rfl := Except.ok.inj h
  cases hc

/-- Whatever a known algorithm does, it does no more to the memory than decode. -/
theorem algorithm_onlyDecodes (measure : ε → Int) (id : String) (sample : Sample) :
    (algorithm measure id sample : Algorithm κ ε σ).OnlyDecodes := by
  cases sample with
  | scan => exact Scan.algorithm_onlyDecodes id
  | failing e => exact FindsWithin.onlyDecodes nofun
  | panicking form message => exact FindsWithin.onlyDecodes nofun
  | late => exact late_findsWithin.onlyDecodes
  | reverse => exact reverse_findsWithin.onlyDecodes
  | twice => exact twice_findsWithin.onlyDecodes
  | nothing => exact nothing_findsWithin.onlyDecodes
  | greatest => exact greatest_onlyDecodes measure id

end Sample

end EntityStore
