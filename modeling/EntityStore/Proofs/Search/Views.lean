import EntityStore.Proofs.Readable
import EntityStore.Proofs.Search.Functions

/-!
# Tables and entity lists are two views of the same hits

A search for a table and one for entities run the same algorithm, and if its
outcome hangs on snapshot and request alone they get the same hits, whatever is
remembered by then. They load them in different ways: a table looks at what
stands beside the blobs, an entity list decodes them. Nothing unreadable is
stored, so a pure context decodes every hit, and neither way fails where the
other does not. A panic breaks both off, wherever it comes.

So the two answers say the same of how the search ended, and where it came to a
result the two results show the same hits, one by one (`Hits.Views`).
-/

namespace EntityStore

variable {κ ε σ τ : Type}

/-- In every memory that is in order an algorithm has the outcome that a function of snapshot and
request says it has. -/
def Algorithm.IsDetermined (a : Algorithm κ ε σ) (x : Context ε σ) : Prop :=
  ∃ f : Snapshot κ → SearchRequest → Except Breakdown (Hits κ), ∀ snapshot request m,
    m.Recalls x (· ∈ snapshot.containers) → (a.search x snapshot request m).1 = f snapshot request

theorem Algorithm.IsFunction.isDetermined {a : Algorithm κ ε σ} {x : Context ε σ}
    (h : a.IsFunction x) : a.IsDetermined x := by
  obtain ⟨f, hf, -⟩ := h.outcome
  exact ⟨f, hf⟩

/-! ## The same hits, loaded twice -/

section

variable [EntityKey κ] {s : Store κ ε σ τ} {made made' : Container κ → Prop}
  {st st' : State κ ε σ τ} {a : Algorithm κ ε σ} {snapshot : Snapshot κ} {request : SearchRequest}

namespace State.Grounded

theorem recalls_snapshot (h : st.Grounded s made) (hx : s.context.IsPure) :
    st.memory.Recalls s.context (· ∈ (s.takeSnapshot st).containers) :=
  (h.recalls_memory hx).mono fun _ hc => h.live (Store.takeSnapshot_live h.exact hc)

/-- What an algorithm finds among made containers can be read after it was run. -/
theorem entitiesOf_hits (h : st.Grounded s made) (hx : s.context.IsPure) (ha : a.OnlyDecodes)
    (hmade : ∀ c ∈ snapshot.containers, made c) {hits : Hits κ}
    (hhits : (a.search s.context snapshot request st.memory).1 = .ok hits) :
    ∃ es, List.Forall₂ (fun c e => s.context.Reads c.blob e) hits.items es ∧
      (Hits.entitiesOf s.context hits.items (a.search s.context snapshot request st.memory).2).1 =
        .ok es := by
  have hdecodes := (ha.decodes s.context snapshot request st.memory).mono hmade
  have hafter : ({ st with memory := (a.search s.context snapshot request st.memory).2 } :
      State κ ε σ τ).Grounded s made :=
    h.fills rfl (hdecodes.fills fun _ => h.handle_lt)
  have hmade' : ∀ c ∈ hits.items, made c := fun c hc => hmade c (ha.mem_of_hit hhits c hc)
  obtain ⟨es, hes⟩ := h.exists_readsAll hx.isSteady hmade'
  exact ⟨es, hes, entitiesOf_eq hx.isSteady hafter hmade' hes⟩

end State.Grounded

/-- Hits of an algorithm that no panic broke off, and the entities that they read as. -/
structure Algorithm.Finds (a : Algorithm κ ε σ) (x : Context ε σ) (snapshot : Snapshot κ)
    (request : SearchRequest) (m : Memory ε σ) (cs : List (Container κ)) (es : List ε) : Prop where
  hits : (a.search x snapshot request m).1 = .ok { items := cs }
  mem : ∀ c ∈ cs, c ∈ snapshot.containers
  reads : List.Forall₂ (fun c e => x.Reads c.blob e) cs es

/-- Two runs in memories that are in order, one for a table and one for entities, break in the same
way or show the same hits. -/
theorem Algorithm.run_views (request : SearchRequest) (hx : s.context.IsPure) (ha : a.OnlyDecodes)
    (hdetermined : a.IsDetermined s.context) (h' : st'.Grounded s made')
    (hm : st.memory.Recalls s.context (· ∈ snapshot.containers))
    (hm' : st'.memory.Recalls s.context (· ∈ snapshot.containers))
    (hmade' : ∀ c ∈ snapshot.containers, made' c) :
    (∃ b, (a.run s.context (Hits.table request) snapshot request st.memory).1 = .error b ∧
      (a.run s.context (Hits.entityList s.context) snapshot request st'.memory).1 = .error b) ∨
    ∃ cs es, a.Finds s.context snapshot request st.memory cs es ∧
      (a.run s.context (Hits.table request) snapshot request st.memory).1 =
        .ok { Table.forRequest request with data := cs.map (Hits.row request.select) } ∧
      (a.run s.context (Hits.entityList s.context) snapshot request st'.memory).1 =
        .ok { data := es } := by
  obtain ⟨f, hf⟩ := hdetermined
  have houtcome := hf snapshot request _ hm
  have houtcome' := hf snapshot request _ hm'
  rw [run, run]
  cases hsearch : a.search s.context snapshot request st.memory with
  | mk r m =>
      cases hsearch' : a.search s.context snapshot request st'.memory with
      | mk r' m' =>
          rw [hsearch] at houtcome
          rw [hsearch'] at houtcome'
          obtain rfl : r = r' := houtcome.trans houtcome'.symm
          cases r with
          | error b => exact .inl ⟨b, rfl, rfl⟩
          | ok hits =>
              have hhits : (a.search s.context snapshot request st.memory).1 = .ok hits := by
                rw [hsearch]
              have hhits' : (a.search s.context snapshot request st'.memory).1 = .ok hits := by
                rw [hsearch']
              obtain ⟨es, hreads, hes⟩ := h'.entitiesOf_hits hx ha hmade' hhits'
              rw [hsearch'] at hes
              obtain ⟨cs, panic⟩ := hits
              simp only [Hits.table, Hits.entityList]
              cases hent : Hits.entitiesOf s.context cs m' with
              | mk r m'' =>
                  rw [hent] at hes
                  obtain rfl : r = .ok es := hes
                  cases panic with
                  | some p => exact .inl ⟨.panic p, rfl, rfl⟩
                  | none =>
                      exact .inr ⟨cs, es, ⟨hhits, ha.mem_of_hit hhits, hreads⟩, rfl, rfl⟩

/-! ## The two answers -/

/-- A table and an entity list show the same hits, one by one, of a state in which they are stored:
in its row the text of the key and the first values of the selected properties, in its entry the
entity that its blob reads as, which a read of the key hands out unless it refuses to. -/
structure Hits.Views (s : Store κ ε σ τ) (st : State κ ε σ τ) (request : SearchRequest)
    (cs : List (Container κ)) (t : Table) (l : EntityList ε) : Prop where
  live : ∀ c ∈ cs, st.index.Live c
  etags : t.etag = some (s.etag st) ∧ l.etag = some (s.etag st)
  skips : t.skip = request.skipped ∧ l.skip = request.skipped
  tops : t.top = request.top ∧ l.top = request.top
  size_eq : t.data.length = cs.length ∧ l.data.length = cs.length
  row : ∀ {i : Nat} {c : Container κ}, cs[i]? = some c →
    ∃ row : List (Option String), t.data[i]? = some row ∧
      row.length = 1 + request.select.length ∧ row[0]? = some (some (EntityKey.text c.key)) ∧
      ∀ {j : Nat} {name : String}, request.select[j]? = some name →
        row[j + 1]? = some (Property.first? c.properties name)
  entry : ∀ {i : Nat} {c : Container κ}, cs[i]? = some c → ∃ e, l.data[i]? = some e ∧
    s.context.Reads c.blob e ∧
    ∀ settings, ∃ r, (s.read (.key c.key) settings st).1 = .ok r ∧
      (r.code = .ok → r.entity = some e)
  columns : t.fields.length = 1 + request.select.length ∧ t.fields[0]? = some ⟨0, "_"⟩ ∧
    ∀ {j : Nat} {name : String}, request.select[j]? = some name →
      t.fields[j + 1]? = some ⟨(j + 1).toUInt64, name⟩

omit [EntityKey κ] in
theorem Table.columnsFrom_length (names : List String) :
    ∀ index, (columnsFrom index names).length = names.length := by
  induction names with
  | nil => exact fun _ => rfl
  | cons name rest ih =>
      intro index
      rw [columnsFrom, List.length_cons, ih, List.length_cons]

omit [EntityKey κ] in
theorem Table.columnsFrom_get? {names : List String} : ∀ {index j : Nat} {name : String},
    names[j]? = some name →
      (columnsFrom index names)[j]? = some ⟨(index + j).toUInt64, name⟩ := by
  induction names with
  | nil =>
      intro index j name h
      cases h
  | cons first rest ih =>
      intro index j name h
      cases j with
      | zero =>
          obtain rfl := Option.some.inj h
          rfl
      | succ j =>
          rw [columnsFrom, List.getElem?_cons_succ, ih h, Nat.add_right_comm, Nat.add_assoc]

theorem State.Grounded.id_eq (h : st.Grounded s made) {c : Container κ} (hc : made c) :
    c.id = EntityKey.text c.key := by
  obtain ⟨call, copy, key, d, -, hmakes⟩ := h.origin hc
  have hcontainer : c = s.containerOf key d.stored d.version c.handle c.blob := hmakes.container_eq
  rw [hcontainer]
  rfl

/-- A read that hands out an entity hands out the one that the blob reads as. -/
theorem State.Grounded.read_of_reads (h : st.Grounded s made) (hx : s.context.IsPure)
    {c : Container κ} (hc : st.index.Live c) {e : ε} (he : s.context.Reads c.blob e)
    (settings : Option Settings) : ∃ r, (s.read (.key c.key) settings st).1 = .ok r ∧
      (r.code = .ok → r.entity = some e) := by
  have hentity := h.entity_eq hx.isSteady (h.live hc) he
  cases hent : c.entity s.context st.memory with
  | mk r m =>
      rw [hent] at hentity
      obtain rfl : r = .ok e := hentity
      have hread := s.read_of_ok settings (show st.index.find? (.key c.key) = some c from hc) hent
      cases hintact : s.isIntact c e with
      | true =>
          rw [hread, hintact]
          exact ⟨_, rfl, fun _ => rfl⟩
      | false =>
          rw [hread, hintact]
          exact ⟨_, rfl, fun hcode => by cases hcode⟩

theorem Hits.views_of_finds (h : st.Grounded s made) (hx : s.context.IsPure)
    {cs : List (Container κ)} {es : List ε} {m : Memory ε σ}
    (hfinds : a.Finds s.context (s.takeSnapshot st) request m cs es) :
    Hits.Views s st request cs
      (Paged.onPage (s.etag st) request
        { Table.forRequest request with data := cs.map (Hits.row request.select) })
      (Paged.onPage (s.etag st) request { data := es }) where
  live c hc := Store.takeSnapshot_live h.exact (hfinds.mem c hc)
  etags := ⟨rfl, rfl⟩
  skips := ⟨rfl, rfl⟩
  tops := ⟨rfl, rfl⟩
  size_eq := ⟨List.length_map _, hfinds.reads.length_eq.symm⟩
  row {i c} hc := by
    have hlive := Store.takeSnapshot_live h.exact (hfinds.mem c (List.mem_of_getElem? hc))
    refine ⟨Hits.row request.select c, ?_, ?_, ?_, fun {j name} hname => ?_⟩
    · change (cs.map (Hits.row request.select))[i]? = _
      rw [List.getElem?_map, hc]
      rfl
    · rw [Hits.row, List.length_cons, List.length_map, Nat.add_comm]
    · rw [← h.id_eq (h.live hlive)]
      rfl
    · change (request.select.map c.property)[j]? = _
      rw [List.getElem?_map, hname]
      rfl
  entry {i c} hc := by
    have hlive := Store.takeSnapshot_live h.exact (hfinds.mem c (List.mem_of_getElem? hc))
    obtain ⟨hlength, hreads⟩ := List.forall₂_iff_get.1 hfinds.reads
    obtain ⟨hi, rfl⟩ := List.getElem?_eq_some_iff.1 hc
    have he : s.context.Reads cs[i].blob es[i] := hreads i hi (hlength ▸ hi)
    exact ⟨es[i], List.getElem?_eq_getElem (hlength ▸ hi), he, h.read_of_reads hx hlive he⟩
  columns := by
    refine ⟨?_, rfl, fun {j name} hname => ?_⟩
    · change (Table.columnsFrom 0 ("_" :: request.select)).length = _
      rw [Table.columnsFrom_length, List.length_cons, Nat.add_comm]
    · have hcolumn : ("_" :: request.select)[j + 1]? = some name := hname
      change (Table.columnsFrom 0 ("_" :: request.select))[j + 1]? = _
      rw [Table.columnsFrom_get? hcolumn, Nat.zero_add]

namespace Store

theorem searchWith_answer {ρ : Type} [Paged ρ]
    (hget : s.searches.get? (s.searchId request) = some a) (load : Loader κ ε σ ρ)
    (settings : Option Settings) : (s.searchWith load request settings st).1 =
      s.searched (s.etag st) request settings
        (a.run s.context load (s.takeSnapshot st) request st.memory).1 := by
  rw [searchWith, hget]
  dsimp only
  rw [searchIn_eq]
  rfl

/-- Answers to two searches that say the same of how they ended. -/
structure SameEnd {ρ ρ' : Type} (r : Response SearchRequest ρ) (r' : Response SearchRequest ρ') :
    Prop where
  code_eq : r.code = r'.code
  message_eq : r.message = r'.message
  error_eq : r.error = r'.error
  key_eq : r.key = r'.key
  reference_eq : r.reference = r'.reference
  settings_eq : r.settings = r'.settings

/-- Tables and entity lists are two views of the same hits. In two states that clients lead a store
with a pure context to, and in which the contents are the same, a search for a table and one for
entities say the same of how they ended, if the algorithm of the request is a function of snapshot
and request; and if they are answered 200 their results show the same hits, one by one. -/
theorem search_views (hx : s.context.IsPure) (hs : s.searches.OnlyDecodes) (h : s.Reaches st)
    (h' : s.Reaches st') (hsnapshot : s.takeSnapshot st = s.takeSnapshot st')
    (request : SearchRequest) (hdetermined : ∀ a, s.searches.get? (s.searchId request) = some a →
      a.IsDetermined s.context) (settings : Option Settings) :
    SameEnd (s.search request settings st).1 (s.searchEntities request settings st').1 ∧
    ((s.search request settings st).1.code = .ok →
      ∃ a cs t l, s.searches.get? (s.searchId request) = some a ∧
        (a.search s.context (s.takeSnapshot st) request st.memory).1 = .ok { items := cs } ∧
        (s.search request settings st).1.entity = some t ∧
        (s.searchEntities request settings st').1.entity = some l ∧
        Hits.Views s st request cs t l) := by
  obtain ⟨made, hmade⟩ := h.grounded hs
  obtain ⟨made', hmade'⟩ := h'.grounded hs
  rw [search, searchEntities]
  cases hget : s.searches.get? (s.searchId request) with
  | none =>
      rw [searchWith, searchWith, hget]
      exact ⟨⟨rfl, rfl, rfl, rfl, rfl, rfl⟩, fun hcode => by cases hcode⟩
  | some a =>
      have hlive : ∀ c ∈ (s.takeSnapshot st).containers, made' c := by
        rw [hsnapshot]
        exact fun c hc => hmade'.live (takeSnapshot_live hmade'.exact hc)
      have hm' := hmade'.recalls_snapshot hx
      rw [← hsnapshot] at hm'
      have hetag : s.etag st = s.etag st' := congrArg Snapshot.etag hsnapshot
      rw [searchWith_answer hget, searchWith_answer hget, ← hsnapshot, ← hetag]
      rcases a.run_views request hx (hs hget) (hdetermined a hget) hmade'
        (hmade.recalls_snapshot hx) hm' hlive with
        ⟨b, htable, hentities⟩ | ⟨cs, es, hfinds, htable, hentities⟩
      · rw [htable, hentities]
        exact ⟨⟨rfl, rfl, rfl, rfl, rfl, rfl⟩, fun hcode => by cases hcode⟩
      · rw [htable, hentities]
        exact ⟨⟨rfl, rfl, rfl, rfl, rfl, rfl⟩, fun _ =>
          ⟨a, cs, _, _, rfl, hfinds.hits, rfl, rfl, Hits.views_of_finds hmade hx hfinds⟩⟩

/-- The document store with an algorithm that finds everything twice. -/
def twiceStore : Store String Doc Unit Nat := { Doc.store with
  searches := {
    algorithms := SortedMap.empty.insert "twice" (Sample.algorithm (·.number.toInt) "twice" .twice)
    defaultId := some "twice" } }

theorem twiceStore_algorithm {id : String} {a : Algorithm String Doc Unit}
    (h : twiceStore.searches.get? id = some a) :
    a = Sample.algorithm (·.number.toInt) "twice" .twice :=
  SearchRegistry.eq_of_get?_single h

/-- Two documents in this store, of which only the second has the property that is asked for. -/
def twoTitles : State String Doc Unit Nat :=
  (World.reached twiceStore () 0 [
    .call 0 (.entity (.create { id := "a", properties := [⟨"kind", "book"⟩] } none)), .go 0,
    .call 0 (.entity (.create {
      id := "b", properties := [⟨"title", "x"⟩, ⟨"title", "y"⟩] } none)), .go 0]).state

/-- In the table and in the entity list every document stands twice, one after the other, and of two
properties of one name the first is shown. -/
theorem twoTitles_views :
    (twiceStore.search { select := ["title", "title"] } none twoTitles).1.code = .ok ∧
    SameEnd (twiceStore.search { select := ["title", "title"] } none twoTitles).1
      (twiceStore.searchEntities { select := ["title", "title"] } none twoTitles).1 ∧
    ∃ cs t l,
      (twiceStore.search { select := ["title", "title"] } none twoTitles).1.entity = some t ∧
      t.data = [[some "a", none, none], [some "a", none, none],
        [some "b", some "x", some "x"], [some "b", some "x", some "x"]] ∧
      (twiceStore.searchEntities { select := ["title", "title"] } none twoTitles).1.entity = some l ∧
      Hits.Views twiceStore twoTitles { select := ["title", "title"] } cs t l := by
  have hpure : twiceStore.context.IsPure := Doc.store_isPure
  have hreaches : twiceStore.Reaches twoTitles := reaches_reached () 0 _
  have honly : twiceStore.searches.OnlyDecodes := by
    intro id a h
    rw [twiceStore_algorithm h]
    exact Sample.algorithm_onlyDecodes _ _ _
  have hcode : (twiceStore.search { select := ["title", "title"] } none twoTitles).1.code = .ok := by
    decide +kernel
  have hrows : (twiceStore.search { select := ["title", "title"] } none twoTitles).1.entity.map
      (·.data) = some [[some "a", none, none], [some "a", none, none],
        [some "b", some "x", some "x"], [some "b", some "x", some "x"]] := by
    decide +kernel
  obtain ⟨hsame, hviews⟩ := search_views hpure honly hreaches hreaches rfl
    { select := ["title", "title"] } (fun a ha => by
      rw [twiceStore_algorithm ha]
      exact (Sample.algorithm_isFunction hpure () _ _).isDetermined) none
  obtain ⟨-, cs, t, l, -, -, ht, hl, h⟩ := hviews hcode
  rw [ht] at hrows
  exact ⟨hcode, hsame, cs, t, l, ht, Option.some.inj hrows, hl, h⟩

end Store

end

end EntityStore
