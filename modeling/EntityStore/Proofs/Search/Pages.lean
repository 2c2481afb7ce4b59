import EntityStore.Proofs.Etag
import EntityStore.Proofs.Search.Views

/-!
# Pages tile the result

A client may collect what the scan finds page by page: it skips what it has got
already and goes on until a page is not full. Every page is a search of its own,
with its own snapshot, filtering and sorting, and anything may be called between
two of them. What holds the pages together is the tag. Where it is the same the
contents are, and so is what the scan finds, order and all; the pages are slices
of one list, and one after another they are that list.

For tables that is the whole argument. An entity list shows what was decoded,
and not every context decodes a blob alike whenever it is asked. But what was
handed out once is remembered, so to the end of the run an entry shows what its
container is known as (`HitView.Shows`).
-/

namespace EntityStore

/-! ## Slices of a list -/

section

variable {α β : Type}

/-- What is left of a list when some are skipped and at most so many kept. -/
def slice (skip top : Option UInt64) (l : List α) : List α :=
  match top with
  | none => l.drop (skip.getD 0).toNat
  | some n => (l.drop (skip.getD 0).toNat).take n.toNat

theorem slice_sublist (skip top : Option UInt64) (l : List α) : (slice skip top l).Sublist l := by
  cases top with
  | none => exact List.drop_sublist _ l
  | some n => exact (List.take_sublist _ _).trans (List.drop_sublist _ l)

theorem forall₂_slice {R : α → β → Prop} {l : List α} {l' : List β} (h : List.Forall₂ R l l')
    (skip top : Option UInt64) : List.Forall₂ R (slice skip top l) (slice skip top l') := by
  cases top with
  | none => exact List.forall₂_drop _ h
  | some n => exact List.forall₂_take _ (List.forall₂_drop _ h)

/-- Slices of one length, taken one after another until one is shorter, make up the list. The
relation says what stands for an element in a page. -/
theorem forall₂_flatten {R : α → β → Prop} {n : Nat} (hn : 0 < n) {pages : List (List β)} :
    ∀ {l : List α}, pages ≠ [] →
      (∀ {i p}, pages[i]? = some p → List.Forall₂ R ((l.drop (i * n)).take n) p) →
      (∀ {i p}, pages[i]? = some p → (i + 1 < pages.length ↔ n ≤ p.length)) →
      List.Forall₂ R l pages.flatten ∧ pages.length = l.length / n + 1 := by
  induction pages with
  | nil => exact fun h => absurd rfl h
  | cons p rest ih =>
      intro l _ hpage hfull
      have hp : List.Forall₂ R (l.take n) p := by
        have h := hpage (i := 0) (p := p) rfl
        rwa [Nat.zero_mul, List.drop_zero] at h
      have hlength : p.length = min n l.length := by rw [← hp.length_eq, List.length_take]
      have hrest := hfull (i := 0) (p := p) rfl
      rw [List.length_cons] at hrest
      cases rest with
      | nil =>
          have hshort : l.length < n := by
            rw [List.length_nil] at hrest
            omega
          rw [List.take_of_length_le (Nat.le_of_lt hshort)] at hp
          refine ⟨by simpa using hp, ?_⟩
          rw [List.length_singleton, Nat.div_eq_of_lt hshort]
      | cons q rest =>
          have hlong : n ≤ l.length := by
            rw [List.length_cons] at hrest
            omega
          obtain ⟨htail, hcount⟩ := ih (l := l.drop n) (List.cons_ne_nil q rest)
            (fun {i p'} hi => by
              rw [List.drop_drop, Nat.add_comm, ← Nat.succ_mul]
              exact hpage (i := i + 1) hi)
            (fun {i p'} hi => by
              rw [← hfull (i := i + 1) hi, List.length_cons (a := p), Nat.add_lt_add_iff_right])
          refine ⟨?_, ?_⟩
          · rw [List.flatten_cons, ← List.take_append_drop n l]
            exact List.rel_append hp htail
          · rw [List.length_cons, hcount, List.length_drop, Nat.div_eq_sub_div hn hlong]

end

/-- The request for a slice of what there is to find. -/
def SearchRequest.sliced (request : SearchRequest) (skip top : Option UInt64) : SearchRequest :=
  { request with skip, top }

variable {κ ε σ τ : Type}

namespace Scan

/-- With order or without, a page is a slice of what the scan finds without a page. -/
theorem hits_sliced (snapshot : Snapshot κ) (request : SearchRequest) (skip top : Option UInt64) :
    hits snapshot (request.sliced skip top) =
      slice skip top (hits snapshot (request.sliced none none)) := by
  cases top <;> rfl

theorem hits_perm (snapshot : Snapshot κ) (request : SearchRequest) :
    (hits snapshot (request.sliced none none)).Perm
      (snapshot.containers.filter (passesAll request.filters)) := by
  change (ordered request.orderBy (snapshot.containers.filter (passesAll request.filters))).Perm _
  cases request.orderBy with
  | none => exact .refl _
  | some order => exact List.mergeSort_perm _ _

/-- What tells the containers of a snapshot apart tells hits apart. -/
theorem nodup_map_hits {α : Type} {f : Container κ → α} {snapshot : Snapshot κ}
    (h : (snapshot.containers.map f).Nodup) (request : SearchRequest) :
    ((hits snapshot request).map f).Nodup := by
  have hall : ((hits snapshot (request.sliced none none)).map f).Nodup :=
    ((hits_perm snapshot request).map f).nodup_iff.2 (h.sublist (List.filter_sublist.map f))
  exact hall.sublist ((slice_sublist request.skip request.top _).map f)

end Scan

/-! ## Entries -/

/-- What an answer shows of a hit: a row of a table or an entity. -/
inductive HitView (ε : Type) where
  | row (cells : List (Option String))
  | entity (e : ε)
deriving DecidableEq

/-- The result of an answer that is 200. -/
def Response.found? {α ρ : Type} (r : Response α ρ) : Option ρ :=
  if r.code = .ok then r.entity else none

/-- The tag and the entries that a search is answered with, if the answer is 200. -/
def Answer.page? : Answer κ ε → Option (String × List (HitView ε))
  | .entity _ => none
  | .table r => r.found?.bind fun t => t.etag.map (·, t.data.map .row)
  | .entities r => r.found?.bind fun l => l.etag.map (·, l.data.map .entity)

/-- The search for a kind of results. -/
def Wanted.call (wanted : Wanted) (request : SearchRequest) (settings : Option Settings) :
    Call κ ε :=
  match wanted with
  | .table => .search request settings
  | .entities => .searchEntities request settings

theorem Answer.code_of_page? {a : Answer κ ε} {found : String × List (HitView ε)}
    (h : a.page? = some found) : a.code? = some .ok := by
  cases a with
  | entity a => cases h
  | table r =>
      obtain ⟨t, ht, -⟩ := Option.bind_eq_some_iff.1 h
      rw [Response.found?] at ht
      split at ht
      · next hcode => exact congrArg some hcode
      · cases ht
  | entities r =>
      obtain ⟨l, hl, -⟩ := Option.bind_eq_some_iff.1 h
      rw [Response.found?] at hl
      split at hl
      · next hcode => exact congrArg some hcode
      · cases hl

/-- An entry shows a container: it is the row of its parts, or the entity that is remembered of
it. -/
inductive HitView.Shows (select : List String) (m : Memory ε σ) (wanted : Wanted)
    (c : Container κ) : HitView ε → Prop where
  | row (h : wanted = .table) : Shows select m wanted c (.row (Hits.row select c))
  | entity {e : ε} (h : wanted = .entities) (he : m.decoded.find? c.handle = some e) :
      Shows select m wanted c (.entity e)

namespace HitView

variable {select : List String} {m m' : Memory ε σ} {wanted : Wanted}

theorem Shows.unique {c : Container κ} {x x' : HitView ε} (h : x.Shows select m wanted c)
    (h' : x'.Shows select m wanted c) : x = x' := by
  cases h with
  | row hw =>
      cases h' with
      | row => rfl
      | entity hw' => cases hw.symm.trans hw'
  | entity hw he =>
      cases h' with
      | row hw' => cases hw.symm.trans hw'
      | entity _ he' => rw [Option.some.inj (he.symm.trans he')]

theorem showsAll_unique {cs : List (Container κ)} {entries entries' : List (HitView ε)}
    (h : List.Forall₂ (Shows select m wanted) cs entries)
    (h' : List.Forall₂ (Shows select m wanted) cs entries') :
    entries = entries' :=
  List.right_unique_forall₂' (fun _ _ _ h h' => h.unique h') h h'

theorem isDecoded_of_showsAll {cs : List (Container κ)} {entries : List (HitView ε)}
    (h : List.Forall₂ (Shows select m .entities) cs entries) :
    ∀ c ∈ cs, c.isDecoded m = true := by
  induction h with
  | nil => exact nofun
  | @cons c y cs entries hy _ ih =>
      intro d hd
      rcases List.mem_cons.1 hd with rfl | hd
      · cases hy with
        | row hw => cases hw
        | @entity e _ he => exact SortedMap.contains_iff.2 ⟨e, he⟩
      · exact ih d hd

theorem Shows.fills {x : Context ε σ} {known : Container κ → Prop} {c : Container κ} {y : HitView ε}
    (h : y.Shows select m wanted c) (hfills : m.Fills x known m') (hlt : c.handle < m.next) :
    y.Shows select m' wanted c := by
  cases h with
  | row hw => exact .row hw
  | entity hw he => exact .entity hw (hfills.find?_of_some hlt he)

theorem showsAll_fills {x : Context ε σ} {known : Container κ → Prop} (hfills : m.Fills x known m')
    {cs : List (Container κ)} {entries : List (HitView ε)}
    (h : List.Forall₂ (Shows select m wanted) cs entries)
    (hlt : ∀ c ∈ cs, c.handle < m.next) :
    List.Forall₂ (Shows select m' wanted) cs entries := by
  induction h with
  | nil => exact .nil
  | @cons c y cs entries hy _ ih =>
      exact .cons (hy.fills hfills (hlt c List.mem_cons_self))
        (ih fun d hd => hlt d (List.mem_cons_of_mem c hd))

theorem showsAll_rows (select : List String) (m : Memory ε σ) (cs : List (Container κ)) :
    List.Forall₂ (Shows select m .table) cs
      (cs.map fun c => .row (Hits.row select c)) := by
  rw [List.forall₂_map_right_iff, List.forall₂_same]
  exact fun c _ => .row rfl

theorem showsAll_entities {cs : List (Container κ)} {es : List ε}
    (h : List.Forall₂ (fun c e => m.decoded.find? c.handle = some e) cs es) :
    List.Forall₂ (Shows select m .entities) cs (es.map .entity) :=
  List.forall₂_map_right_iff.2 (h.imp fun _ _ he => .entity rfl he)

/-- In a context that reads blobs alike whenever it is asked, entries show what is read. -/
theorem showsAll_reads {x : Context ε σ} {cs : List (Container κ)} {es : List ε}
    {entries : List (HitView ε)} (session : σ)
    (hm : ∀ {c e}, c ∈ cs → m.decoded.find? c.handle = some e → x.Reads c.blob e)
    (hreads : List.Forall₂ (fun c e => x.Reads c.blob e) cs es)
    (h : List.Forall₂ (Shows select m .entities) cs entries) :
    entries = es.map .entity := by
  induction h generalizing es with
  | nil =>
      cases hreads
      rfl
  | @cons c y cs entries hy _ ih =>
      cases hreads with
      | @cons _ e _ es he hes =>
          have hrest := ih (fun hd => hm (List.mem_cons_of_mem c hd)) hes
          cases hy with
          | row hw => cases hw
          | entity _ hfound =>
              have hsame := (hm List.mem_cons_self hfound).unique session (he session)
              rw [hrest, hsame]
              rfl

end HitView

/-! ## What was handed out is remembered -/

theorem Container.entity_remembers {c : Container κ} {x : Context ε σ} {m m' : Memory ε σ} {e : ε}
    (h : c.entity x m = (.ok e, m')) : m'.decoded.find? c.handle = some e := by
  rw [entity] at h
  cases hfind : m.decoded.find? c.handle with
  | some e' =>
      rw [hfind] at h
      obtain ⟨hok, rfl⟩ := Prod.mk.inj h
      rw [hfind, Except.ok.inj hok]
  | none =>
      rw [hfind] at h
      cases hdec : c.decodeBlob x m with
      | mk r m₁ =>
          rw [hdec] at h
          cases r with
          | error err => cases h
          | ok e' =>
              obtain ⟨hok, rfl⟩ := Prod.mk.inj h
              rw [← Except.ok.inj hok]
              exact SortedMap.find?_insert_self _ _ _

theorem Memory.Decodes.find?_of_some {x : Context ε σ} {known : Container κ → Prop}
    {m m' : Memory ε σ} (h : m.Decodes x known m') {k : Handle} {e : ε}
    (he : m.decoded.find? k = some e) : m'.decoded.find? k = some e := by
  induction h with
  | refl => exact he
  | @step c m' _ _ ih =>
      rcases c.entity_find? x m' k with hsame | ⟨-, hnone, -⟩
      · rw [hsame, ih]
      · rw [hnone] at ih
        cases ih

theorem Hits.entitiesOf_remembers {x : Context ε σ} : ∀ {cs : List (Container κ)} {es : List ε}
    {m m' : Memory ε σ}, entitiesOf x cs m = (.ok es, m') →
      List.Forall₂ (fun c e => m'.decoded.find? c.handle = some e) cs es := by
  intro cs
  induction cs with
  | nil =>
      intro es m m' h
      obtain ⟨hok, -⟩ := Prod.mk.inj h
      obtain rfl := Except.ok.inj hok
      exact .nil
  | cons c rest ih =>
      intro es m m' h
      rw [entitiesOf] at h
      cases hent : c.entity x m with
      | mk r m₁ =>
          rw [hent] at h
          cases r with
          | error err => cases h
          | ok e =>
              have hdecodes := entitiesOf_decodes x rest m₁
              cases hmore : entitiesOf x rest m₁ with
              | mk r m₂ =>
                  simp only [hmore] at h hdecodes
                  obtain ⟨hok, rfl⟩ := Prod.mk.inj h
                  cases r with
                  | error err => cases hok
                  | ok more =>
                      obtain rfl := Except.ok.inj hok
                      exact .cons (hdecodes.find?_of_some (Container.entity_remembers hent))
                        (ih hmore)

/-! ## One answer -/

namespace Store

variable [EntityKey κ] {s : Store κ ε σ τ} {st : State κ ε σ τ} {request : SearchRequest}
  {id : String} {made : Container κ → Prop} {wanted : Wanted}

theorem page?_table (hget : s.searches.get? (s.searchId request) = some (Scan.algorithm id))
    (hvalid : request.IsValid) (settings : Option Settings) :
    (s.answer (.search request settings) st).1.page? =
      some (s.etag st, (Scan.hits (s.takeSnapshot st) request).map
        fun c => .row (Hits.row request.select c)) := by
  change (Answer.table (s.searchWith (Hits.table request) request settings st).1 :
    Answer κ ε).page? = _
  rw [searchWith_answer hget, Scan.run_of_valid hvalid]
  change some (s.etag st, ((Scan.hits (s.takeSnapshot st) request).map
    (Hits.row request.select)).map HitView.row) = _
  rw [List.map_map]
  rfl

theorem page?_entities (hget : s.searches.get? (s.searchId request) = some (Scan.algorithm id))
    (hvalid : request.IsValid) (settings : Option Settings) {es : List ε} {m : Memory ε σ}
    (h : Hits.entitiesOf s.context (Scan.hits (s.takeSnapshot st) request) st.memory =
      (.ok es, m)) :
    (s.answer (.searchEntities request settings) st).1.page? =
      some (s.etag st, es.map .entity) := by
  change (Answer.entities (s.searchWith (Hits.entityList s.context) request settings st).1 :
    Answer κ ε).page? = _
  rw [searchWith_answer hget, Scan.run_of_valid hvalid, Hits.entityList]
  dsimp only
  rw [h]
  rfl

/-- Where the containers are remembered, a list of them shows what is. -/
theorem page?_of_shows (hget : s.searches.get? (s.searchId request) = some (Scan.algorithm id))
    (hvalid : request.IsValid) (settings : Option Settings) {entries : List (HitView ε)}
    (h : List.Forall₂ (HitView.Shows request.select st.memory .entities)
      (Scan.hits (s.takeSnapshot st) request) entries) :
    (s.answer (.searchEntities request settings) st).1.page? = some (s.etag st, entries) := by
  obtain ⟨es, hes⟩ := Hits.entitiesOf_of_decoded (HitView.isDecoded_of_showsAll h)
  have hremembered := Hits.entitiesOf_remembers (hes s.context)
  rw [page?_entities hget hvalid settings (hes s.context),
    HitView.showsAll_unique h (HitView.showsAll_entities hremembered)]

/-- In a steady context a list shows what may be remembered only later. -/
theorem page?_of_steady (hget : s.searches.get? (s.searchId request) = some (Scan.algorithm id))
    (hvalid : request.IsValid) (settings : Option Settings) (hx : s.context.IsSteady)
    (hground : st.Grounded s made) {m : Memory ε σ} {entries : List (HitView ε)}
    (hm : ∀ {c e}, st.index.Live c → m.decoded.find? c.handle = some e →
      s.context.Reads c.blob e)
    (h : List.Forall₂ (HitView.Shows request.select m .entities)
      (Scan.hits (s.takeSnapshot st) request) entries) :
    (s.answer (.searchEntities request settings) st).1.page? = some (s.etag st, entries) := by
  have hlive : ∀ c ∈ Scan.hits (s.takeSnapshot st) request, st.index.Live c :=
    fun c hc => takeSnapshot_live hground.exact (Scan.mem_of_hit hc)
  have hmade : ∀ c ∈ Scan.hits (s.takeSnapshot st) request, made c :=
    fun c hc => hground.live (hlive c hc)
  obtain ⟨es, hreads⟩ := hground.exists_readsAll hx hmade
  have hes := State.Grounded.entitiesOf_eq hx hground hmade hreads
  cases hent : Hits.entitiesOf s.context (Scan.hits (s.takeSnapshot st) request) st.memory with
  | mk r m' =>
      rw [hent] at hes
      obtain rfl : r = .ok es := hes
      rw [page?_entities hget hvalid settings hent,
        HitView.showsAll_reads st.memory.session (fun hc => hm (hlive _ hc)) hreads h]

theorem searchWith_memory {ρ : Type} [Paged ρ] {a : Algorithm κ ε σ}
    (hget : s.searches.get? (s.searchId request) = some a) (load : Loader κ ε σ ρ)
    (settings : Option Settings) : (s.searchWith load request settings st).2.memory =
      (a.run s.context load (s.takeSnapshot st) request st.memory).2 := by
  rw [searchWith, hget]
  exact searchIn_memory load a _ request settings

theorem valid_of_answer (hget : s.searches.get? (s.searchId request) = some (Scan.algorithm id))
    {settings : Option Settings}
    (h : (s.answer (wanted.call request settings) st).1.code? = some .ok) : request.IsValid := by
  by_contra hvalid
  cases wanted with
  | table =>
      obtain ⟨b, hb⟩ := Scan.run_of_invalid hvalid id s.context (Hits.table request)
        (s.takeSnapshot st) st.memory
      change some (s.searchWith (Hits.table request) request settings st).1.code = _ at h
      rw [searchWith_answer hget, hb] at h
      cases h
  | entities =>
      obtain ⟨b, hb⟩ := Scan.run_of_invalid hvalid id s.context (Hits.entityList s.context)
        (s.takeSnapshot st) st.memory
      change some (s.searchWith (Hits.entityList s.context) request settings st).1.code = _ at h
      rw [searchWith_answer hget, hb] at h
      cases h

/-- An answer that is 200 shows the hits, and what it shows is remembered from then on. -/
theorem answer_shows (hget : s.searches.get? (s.searchId request) = some (Scan.algorithm id))
    {settings : Option Settings}
    (h : (s.answer (wanted.call request settings) st).1.code? = some .ok) :
    ∃ entries, (s.answer (wanted.call request settings) st).1.page? =
        some (s.etag st, entries) ∧
      List.Forall₂ (HitView.Shows request.select
          (s.answer (wanted.call request settings) st).2.memory wanted)
        (Scan.hits (s.takeSnapshot st) request) entries := by
  have hvalid := valid_of_answer hget h
  cases wanted with
  | table => exact ⟨_, page?_table hget hvalid settings, HitView.showsAll_rows _ _ _⟩
  | entities =>
      change some (s.searchWith (Hits.entityList s.context) request settings st).1.code = _ at h
      have hmemory : (s.answer (Wanted.entities.call request settings) st).2.memory =
          (Hits.entitiesOf s.context (Scan.hits (s.takeSnapshot st) request) st.memory).2 := by
        refine (searchWith_memory hget (Hits.entityList s.context) settings).trans ?_
        rw [Scan.run_of_valid hvalid, Hits.entityList]
        dsimp only
        cases Hits.entitiesOf s.context (Scan.hits (s.takeSnapshot st) request) st.memory with
        | mk r m => cases r <;> rfl
      rw [searchWith_answer hget, Scan.run_of_valid hvalid, Hits.entityList] at h
      dsimp only at h
      rw [hmemory]
      cases hent : Hits.entitiesOf s.context (Scan.hits (s.takeSnapshot st) request)
          st.memory with
      | mk r m =>
          rw [hent] at h
          cases r with
          | error err => cases h
          | ok es =>
              exact ⟨_, page?_entities hget hvalid settings hent,
                HitView.showsAll_entities (Hits.entitiesOf_remembers hent)⟩

/-! ## Runs -/

theorem after_grounded (hs : s.searches.OnlyDecodes) (calls : List (Call κ ε)) :
    ∀ {made : Container κ → Prop} {st : State κ ε σ τ}, st.Grounded s made →
      ∃ made', (∀ c, made c → made' c) ∧ (s.after calls st).Grounded s made' ∧
        st.memory.Fills s.context made' (s.after calls st).memory := by
  induction calls with
  | nil => exact fun {made st} h => ⟨made, fun _ => id, h, .refl _⟩
  | cons c rest ih =>
      intro made st h
      obtain ⟨made₁, hle₁, hground₁, hfills₁⟩ := answer_grounded hs h c
      obtain ⟨made₂, hle₂, hground₂, hfills₂⟩ := ih hground₁
      exact ⟨made₂, fun c hc => hle₂ c (hle₁ c hc), hground₂, (hfills₁.mono hle₂).trans hfills₂⟩

theorem mem_takeSnapshot_iff (h : st.index.Exact) {c : Container κ} :
    c ∈ (s.takeSnapshot st).containers ↔ st.index.Live c :=
  h.mem_snapshot_iff

theorem takeSnapshot_keys (h : st.index.Exact) :
    (s.takeSnapshot st).containers.map (·.key) = st.index.containers.keys :=
  h.keys_snapshot _

/-- What an answer of a run shows is what is known at the end of the run. -/
theorem call_shows (hs : s.searches.OnlyDecodes) (h : st.Grounded s made)
    {calls : List (Call κ ε)} {t : Nat}
    (hget : s.searches.get? (s.searchId request) = some (Scan.algorithm id))
    {settings : Option Settings} (hcall : calls[t]? = some (wanted.call request settings))
    (hcode : (s.answer (wanted.call request settings) (s.after (calls.take t) st)).1.code? =
      some .ok) :
    ∃ entries, (s.answer (wanted.call request settings) (s.after (calls.take t) st)).1.page? =
        some (s.etag (s.after (calls.take t) st), entries) ∧
      List.Forall₂ (HitView.Shows request.select (s.after calls st).memory wanted)
        (Scan.hits (s.takeSnapshot (s.after (calls.take t) st)) request) entries := by
  obtain ⟨entries, hpage, hshows⟩ := answer_shows hget hcode
  obtain ⟨made₁, -, hground₁, -⟩ := after_grounded hs (calls.take t) h
  obtain ⟨made₂, hle, hground₂, -⟩ :=
    answer_grounded hs hground₁ (wanted.call request settings)
  obtain ⟨made₃, -, -, hfills⟩ := after_grounded hs (calls.drop (t + 1)) hground₂
  have hsplit : s.after calls st = s.after (calls.drop (t + 1))
      (s.answer (wanted.call request settings) (s.after (calls.take t) st)).2 := by
    obtain ⟨ht, hc⟩ := List.getElem?_eq_some_iff.1 hcall
    have hcalls : calls = calls.take t ++ calls[t] :: calls.drop (t + 1) := by
      rw [← List.drop_eq_getElem_cons ht, List.take_append_drop]
    conv_lhs => rw [hcalls, after_append, hc]
    rfl
  rw [hsplit]
  refine ⟨entries, hpage, HitView.showsAll_fills hfills hshows fun c hc => ?_⟩
  have hlive := takeSnapshot_live hground₁.exact (Scan.mem_of_hit hc)
  exact hground₂.handle_lt (hle c (hground₁.live hlive))

/-! ## Pages -/

/-- Pages of a request that a run collects under one tag. Each was asked for at some time, skipping
as many hits as there are on the pages before it, and all but the last are full. -/
structure Collects (s : Store κ ε σ τ) (st : State κ ε σ τ) (calls : List (Call κ ε))
    (wanted : Wanted) (request : SearchRequest) (n : UInt64) (etag : String)
    (pages : List (List (HitView ε))) : Prop where
  ne_nil : pages ≠ []
  page : ∀ {i : Nat} {p : List (HitView ε)}, pages[i]? = some p →
    ∃ (t : Nat) (skip : UInt64) (settings : Option Settings), skip.toNat = i * n.toNat ∧
      calls[t]? = some (wanted.call (request.sliced (some skip) (some n)) settings) ∧
      (s.answer (wanted.call (request.sliced (some skip) (some n)) settings)
        (s.after (calls.take t) st)).1.page? = some (etag, p)
  full_iff : ∀ {i : Nat} {p : List (HitView ε)}, pages[i]? = some p →
    (i + 1 < pages.length ↔ n.toNat ≤ p.length)

variable {calls : List (Call κ ε)} {n : UInt64} {etag : String} {pages : List (List (HitView ε))}

omit [EntityKey κ] in
theorem get?_sliced (hget : s.searches.get? (s.searchId request) = some (Scan.algorithm id))
    (skip top : Option UInt64) :
    s.searches.get? (s.searchId (request.sliced skip top)) = some (Scan.algorithm id) := hget

/-- There is a point with the tag, and the pages show what the scan finds there, hit by hit. -/
theorem Collects.entries (hpages : s.Collects st calls wanted request n etag pages)
    (hs : s.searches.OnlyDecodes) (h : st.Grounded s made)
    (hget : s.searches.get? (s.searchId request) = some (Scan.algorithm id)) (hn : 0 < n) :
    ∃ t, s.etag (s.after (calls.take t) st) = etag ∧
      List.Forall₂ (HitView.Shows request.select (s.after calls st).memory wanted)
        (Scan.hits (s.takeSnapshot (s.after (calls.take t) st)) (request.sliced none none))
        pages.flatten ∧
      pages.length =
        (Scan.hits (s.takeSnapshot (s.after (calls.take t) st))
          (request.sliced none none)).length / n.toNat + 1 := by
  have hpage : ∀ {i : Nat} {p : List (HitView ε)}, pages[i]? = some p →
      ∃ (t : Nat) (skip : UInt64), skip.toNat = i * n.toNat ∧
        s.etag (s.after (calls.take t) st) = etag ∧
        List.Forall₂ (HitView.Shows request.select (s.after calls st).memory wanted)
          (slice (some skip) (some n) (Scan.hits (s.takeSnapshot (s.after (calls.take t) st))
            (request.sliced none none))) p := by
    intro i p hp
    obtain ⟨t, skip, settings, hskip, hcall, hanswer⟩ := hpages.page hp
    obtain ⟨entries, hentries, hshows⟩ := call_shows hs h
      (get?_sliced hget (some skip) (some n)) hcall (Answer.code_of_page? hanswer)
    obtain ⟨hetag, rfl⟩ := Prod.mk.inj (Option.some.inj (hentries.symm.trans hanswer))
    rw [Scan.hits_sliced] at hshows
    exact ⟨t, skip, hskip, hetag, hshows⟩
  obtain ⟨p, hp⟩ := List.exists_mem_of_ne_nil pages hpages.ne_nil
  obtain ⟨i, hi⟩ := List.mem_iff_getElem?.1 hp
  obtain ⟨t, -, -, hetag, -⟩ := hpage hi
  refine ⟨t, hetag, forall₂_flatten (UInt64.lt_iff_toNat_lt.1 hn) hpages.ne_nil
    (fun {i p} hp => ?_) hpages.full_iff⟩
  obtain ⟨u, skip, hskip, hetag', hshows⟩ := hpage hp
  rw [takeSnapshot_eq_of_etag_eq (hetag'.trans hetag.symm)] at hshows
  rw [← hskip]
  exact hshows

theorem Collects.isValid (hpages : s.Collects st calls wanted request n etag pages)
    (hget : s.searches.get? (s.searchId request) = some (Scan.algorithm id)) :
    request.IsValid := by
  obtain ⟨p, hp⟩ := List.exists_mem_of_ne_nil pages hpages.ne_nil
  obtain ⟨i, hi⟩ := List.mem_iff_getElem?.1 hp
  obtain ⟨t, skip, settings, -, -, hanswer⟩ := hpages.page hi
  have hvalid : (request.sliced (some skip) (some n)).IsValid :=
    valid_of_answer (get?_sliced hget (some skip) (some n)) (Answer.code_of_page? hanswer)
  exact hvalid

omit [EntityKey κ] in
theorem keys_nodup_of_hits {snapshot : Snapshot κ} (h : (snapshot.containers.map (·.key)).Nodup) :
    ((Scan.hits snapshot (request.sliced none none)).map (·.key)).Nodup :=
  Scan.nodup_map_hits h _

/-- Pages tile the result. Pages of a request to the scan, collected in a run until one is not full,
with any calls in between, but under one tag, show one after another every container with the tag
that passes the filters, once, in the order of the scan. They are what any slice of the request is
answered with wherever the tag is the same, in particular the request for everything: always if
tables are asked for or the context is steady, and with any context if it is asked after the pages,
or anywhere in the run and is answered 200. -/
theorem pages_tile (hs : s.searches.OnlyDecodes) (h : s.Reaches st)
    (hget : s.searches.get? (s.searchId request) = some (Scan.algorithm id)) (hn : 0 < n)
    (hpages : s.Collects st calls wanted request n etag pages) :
    ∃ cs : List (Container κ),
      List.Forall₂ (HitView.Shows request.select (s.after calls st).memory wanted)
        cs pages.flatten ∧
      (cs.map (·.key)).Nodup ∧ pages.length = cs.length / n.toNat + 1 ∧
      ∀ u, s.etag (s.after (calls.take u) st) = etag →
        cs = Scan.hits (s.takeSnapshot (s.after (calls.take u) st)) (request.sliced none none) ∧
        (∀ c, c ∈ cs ↔ (s.after (calls.take u) st).index.Live c ∧
          Scan.passesAll request.filters c = true) ∧
        ∀ skip top settings,
          (wanted = .table ∨ s.context.IsSteady ∨
            s.Collects st (calls.take u) wanted request n etag pages ∨
            calls[u]? = some (wanted.call (request.sliced skip top) settings) ∧
              (s.answer (wanted.call (request.sliced skip top) settings)
                (s.after (calls.take u) st)).1.code? = some .ok) →
          (s.answer (wanted.call (request.sliced skip top) settings)
            (s.after (calls.take u) st)).1.page? = some (etag, slice skip top pages.flatten) := by
  obtain ⟨made, hmade⟩ := h.grounded hs
  have hvalid := hpages.isValid hget
  obtain ⟨t, hetag, hshows, hcount⟩ := hpages.entries hs hmade hget hn
  have hsame {u : Nat} (hu : s.etag (s.after (calls.take u) st) = etag) :=
    takeSnapshot_eq_of_etag_eq (hetag.trans hu.symm)
  obtain ⟨made', -, hground', -⟩ := after_grounded hs (calls.take t) hmade
  refine ⟨_, hshows, keys_nodup_of_hits ?_, hcount, fun u hu => ?_⟩
  · rw [takeSnapshot_keys hground'.exact]
    exact SortedMap.nodup_keys _
  obtain ⟨made₁, -, hground₁, -⟩ := after_grounded hs (calls.take u) hmade
  rw [hsame hu] at hshows ⊢
  refine ⟨rfl, fun c => ?_, fun skip top settings hcase => ?_⟩
  · rw [(Scan.hits_perm _ _).mem_iff, List.mem_filter, mem_takeSnapshot_iff hground₁.exact]
  have hgets := get?_sliced hget skip top
  have hslice := forall₂_slice hshows skip top
  rw [← Scan.hits_sliced] at hslice
  rw [← hu]
  cases wanted with
  | table =>
      exact (page?_table hgets hvalid settings).trans
        (by rw [HitView.showsAll_unique hslice (HitView.showsAll_rows _ _ _)]; rfl)
  | entities =>
      rcases hcase with htable | hx | hbefore | ⟨hcall, hcode⟩
      · cases htable
      -- what the pages leave behind is what the blobs read as, before them too
      · obtain ⟨made₂, hle, hground₂, -⟩ := after_grounded hs (calls.drop u) hground₁
        rw [← after_append, List.take_append_drop] at hground₂
        exact page?_of_steady hgets hvalid settings hx hground₁
          (fun hc => hground₂.recalls hx (hle _ (hground₁.live hc))) hslice
      -- all that is found has been handed out by then, so nothing is decoded any more
      · obtain ⟨v, hv, hremembered, -⟩ := hbefore.entries hs hmade hget hn
        rw [List.take_take] at hv hremembered
        rw [takeSnapshot_eq_of_etag_eq (hv.trans hu.symm)] at hremembered
        have hremembered' := forall₂_slice hremembered skip top
        rw [← Scan.hits_sliced] at hremembered'
        exact page?_of_shows hgets hvalid settings hremembered'
      -- at the end of the run both the answer and the pages show what is remembered
      · obtain ⟨entries, hpage, hentries⟩ := call_shows hs hmade hgets hcall hcode
        rw [HitView.showsAll_unique hslice hentries]
        exact hpage

/-- A document of a kind. -/
def ofKind (id kind : String) : Doc := { id, properties := [⟨"kind", kind⟩] }

/-- What is a book. -/
def books : SearchRequest where filters := [⟨"kind", .equals, "book"⟩]

/-- Four documents are created, and the books among them are listed in pages of two. Before the
second page one of them is read, another created in vain, and one that is not there deleted. -/
def browsing : List (Call String Doc) := [
  .entity (.create (ofKind "c" "book") none), .entity (.create (ofKind "a" "book") none),
  .entity (.create (ofKind "b" "film") none), .entity (.create (ofKind "d" "book") none),
  .searchEntities (books.sliced (some 0) (some 2)) none,
  .entity (.read (.key "c") none), .entity (.create (ofKind "b" "book") none),
  .entity (.delete (.key "e") none),
  .searchEntities (books.sliced (some 2) (some 2)) none]

/-- The pages as they were collected. -/
def browsed : List (List (HitView Doc)) :=
  [[.entity (ofKind "a" "book"), .entity (ofKind "c" "book")], [.entity (ofKind "d" "book")]]

theorem browsing_collects :
    Doc.store.Collects (State.start () 0) browsing .entities books 2 "docs:4" browsed where
  ne_nil := List.cons_ne_nil _ _
  page {i p} hp := by
    match i, hp with
    | 0, rfl => exact ⟨4, 0, none, rfl, rfl, by decide +kernel⟩
    | 1, rfl => exact ⟨8, 2, none, rfl, rfl, by decide +kernel⟩
  full_iff {i p} hp := by
    match i, hp with
    | 0, rfl => decide
    | 1, rfl => decide

/-- Before the pages and after them the request for everything finds what they show. -/
theorem browsing_tiles :
    Doc.store.Collects (State.start () 0) browsing .entities books 2 "docs:4" browsed ∧
    ∀ u ∈ [4, 9], (Doc.store.answer (.searchEntities (books.sliced none none) none)
      (Doc.store.after (browsing.take u) (State.start () 0))).1.page? =
        some ("docs:4", browsed.flatten) := by
  have hreaches : Doc.store.Reaches (State.start () 0) := reaches_reached () 0 []
  have hget : Doc.store.searches.get? (Doc.store.searchId books) =
      some (Scan.algorithm Scan.defaultId) := rfl
  obtain ⟨cs, -, -, -, h⟩ :=
    pages_tile Doc.store_onlyDecodes hreaches hget (by decide) browsing_collects
  refine ⟨browsing_collects, fun u hu => ?_⟩
  have hetag : Doc.store.etag (Doc.store.after (browsing.take u) (State.start () 0)) =
      "docs:4" := by
    rcases List.mem_pair.1 hu with rfl | rfl <;> decide +kernel
  exact (h u hetag).2.2 none none none (.inr (.inl Doc.store_isPure.isSteady))

end Store

end EntityStore
