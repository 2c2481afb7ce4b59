import EntityStore.Proofs.Index.Runs
import EntityStore.Proofs.Keys
import EntityStore.Proofs.Search.Pages

/-!
# What a snapshot lists

A snapshot lists the containers of an index one by one, in strictly ascending
order of their keys. Which operations led to the index does not show: the map of
containers is the list of its entries, and there is one such list for given
contents.

An id is the text of a key, since a container is given its id when it is made
and keeps it when it is copied (`Container.IsMade.id_eq`). Keys are read back
from their texts, so different containers of a snapshot have different ids. The
order is another matter: it is that of the keys, and not of the texts. And the
scan leaves out containers and moves them, but repeats none, so no id stands
twice in what it finds, nor in the first column of a table.
-/

namespace EntityStore

variable {κ : Type}

/-- A container that was made, or a copy of one under another signature. -/
inductive Container.IsMade [EntityKey κ] : Container κ → Prop where
  | make {ε σ : Type} {parts : ContainerParts κ} {e : ε} {x : Context ε σ} {eager : Bool}
      {m : Memory ε σ} {c : Container κ} (h : (Container.make parts e x eager m).1 = .ok c) :
      IsMade c
  | resigned {ε σ : Type} {c : Container κ} (h : IsMade c) (signature : Option String)
      (m : Memory ε σ) : IsMade (c.resigned signature m).1

/-- The id of a container is the text of its key. -/
theorem Container.IsMade.id_eq [EntityKey κ] {c : Container κ} (h : c.IsMade) :
    c.id = EntityKey.text c.key := by
  induction h with
  | @make _ _ parts e x eager m c h =>
      cases hmake : Container.make parts e x eager m with
      | mk r m' =>
          rw [hmake] at h
          obtain rfl : r = .ok c := h
          obtain ⟨blob, rfl⟩ := Container.make_eq_ok hmake
          rfl
  | @resigned _ _ c _ signature m ih =>
      rw [Container.resigned]
      cases m.decoded.find? c.handle <;> exact ih

/-- A snapshot lists what an index stores: every container once, in strictly ascending order of
keys, each with the text of its key for an id. No id stands twice in it, nor in what the scan
finds in it. -/
structure Snapshot.Lists [EntityKey κ] [LT κ] (snapshot : Snapshot κ) (ix : Index κ) : Prop where
  mem_iff : ∀ c, c ∈ snapshot.containers ↔ ∃ k, ix.get? k = some c
  nodup : snapshot.containers.Nodup
  size_eq : snapshot.size = ix.size
  ascending : snapshot.containers.Pairwise fun c d => c.key < d.key
  id_eq : ∀ c ∈ snapshot.containers, c.id = EntityKey.text c.key
  ids_nodup : snapshot.ids.Nodup
  found_nodup : ∀ request found, Scan.search snapshot request = .ok found →
    (found.map Container.id).Nodup

theorem Scan.hits_of_search {snapshot : Snapshot κ} {request : SearchRequest}
    {found : List (Container κ)} (h : search snapshot request = .ok found) :
    hits snapshot request = found := by
  rw [search] at h
  split at h
  · cases h
  · exact Except.ok.inj h

/-- If the keys are lawful and the containers labelled with them, the snapshot of an exact index
lists what it stores. -/
theorem Index.Exact.snapshot_lists [EntityKey κ] [LT κ] {ix : Index κ} (h : ix.Exact)
    (hκ : EntityKey.IsLawful κ) (hid : ∀ c, ix.Live c → c.id = EntityKey.text c.key)
    (etag : String) : (ix.snapshot etag).Lists ix := by
  have hlabel : ∀ c ∈ (ix.snapshot etag).containers, c.id = EntityKey.text c.key :=
    fun c hc => hid c (h.mem_snapshot_iff.1 hc)
  have hkeys : ((ix.snapshot etag).containers.map (·.key)).Nodup := by
    rw [h.keys_snapshot]
    exact SortedMap.nodup_keys _
  have hids : (ix.snapshot etag).ids.Nodup := by
    have htexts : (ix.snapshot etag).ids =
        ((ix.snapshot etag).containers.map (·.key)).map EntityKey.text := by
      rw [Snapshot.ids, List.map_map]
      exact List.map_congr_left hlabel
    rw [htexts]
    exact hkeys.map hκ.text_injective
  refine ⟨fun c => ?_, hkeys.of_map _, ?_, ?_, hlabel, hids, fun request found hfound => ?_⟩
  · rw [h.mem_snapshot_iff]
    exact ⟨fun hc => ⟨c.key, hc⟩, fun ⟨_, hk⟩ => h.live hk⟩
  · exact List.length_map _
  · rw [← List.pairwise_map (R := (· < ·)), h.keys_snapshot, SortedMap.keys, List.pairwise_map]
    exact ix.containers.ascending.imp hκ.rank_lt_iff.1
  · rw [← Scan.hits_of_search hfound]
    exact Scan.nodup_map_hits hids request

/-- What an index stores, its snapshot says, whatever else the index knows. -/
theorem Index.snapshot_eq_of_get?_eq [Ranked κ] {ix ix' : Index κ}
    (h : ∀ k, ix.get? k = ix'.get? k) (etag : String) : ix.snapshot etag = ix'.snapshot etag := by
  have hcontainers : ix.containers = ix'.containers := SortedMap.ext_find? h
  rw [Index.snapshot, Index.snapshot, hcontainers]

/-- The ids in a table that the scan answers with are those of hits. -/
theorem Store.ids_of_search {ε σ τ : Type} [EntityKey κ] {s : Store κ ε σ τ} {st : State κ ε σ τ}
    {request : SearchRequest} {id : String} {settings : Option Settings} {table : Table}
    (hget : s.searches.get? (s.searchId request) = some (Scan.algorithm id))
    (h : (s.search request settings st).1.entity = some table) :
    ∃ found, Scan.search (s.takeSnapshot st) request = .ok found ∧
      table.data.map List.head? = (found.map Container.id).map (some ∘ some) := by
  rw [Store.search, searchWith_answer hget, Algorithm.run] at h
  simp only [Scan.algorithm, Algorithm.ofFunction] at h
  cases hsearch : Scan.search (s.takeSnapshot st) request with
  | error err =>
      rw [hsearch] at h
      cases h
  | ok found =>
      rw [hsearch] at h
      obtain rfl := Option.some.inj h
      refine ⟨found, rfl, ?_⟩
      change (found.map (Hits.row request.select)).map List.head? = _
      rw [List.map_map, List.map_map]
      rfl

namespace Index

/-- Snapshots are complete, in strict order, and without an id that stands twice, for keys of every
type. After any operations on containers as they are made, the snapshot of an index lists what it
stores, and it is the snapshot of every index that operations leave with the same contents. Every
key is read back from its text, so different keys have different texts. Wherever clients lead a
store with such keys, its snapshots list what it stores as well, and a table that the scan answers
with shows no id twice. -/
theorem reached_snapshot_lists (t : KeyType) :
    (∀ heap : Heap t.Key, (∀ h, (heap.container h).IsMade) → ∀ ops etag,
      ((reached heap ops).snapshot etag).Lists (reached heap ops) ∧
      ∀ heap' ops', (∀ k, (reached heap' ops').get? k = (reached heap ops).get? k) →
        (reached heap' ops').snapshot etag = (reached heap ops).snapshot etag) ∧
    (∀ k : t.Key, EntityKey.ofText? (EntityKey.text k) = some k) ∧
    Function.Injective (EntityKey.text : t.Key → String) ∧
    ∀ {ε σ τ : Type} (s : Store t.Key ε σ τ) (st : State t.Key ε σ τ),
      s.searches.OnlyDecodes → s.Reaches st →
      (s.takeSnapshot st).Lists st.index ∧
      ∀ request id, s.searches.get? (s.searchId request) = some (Scan.algorithm id) →
        ∀ settings table, (s.search request settings st).1.entity = some table →
          (table.data.map List.head?).Nodup := by
  refine ⟨fun heap hmade ops etag => ⟨?_, fun heap' ops' hsame =>
    snapshot_eq_of_get?_eq hsame etag⟩, t.isLawful.ofText?_text, t.isLawful.text_injective,
    fun s st hs hst => ?_⟩
  · have hsound := reached_sound heap ops
    refine hsound.exact.snapshot_lists t.isLawful (fun c hc => ?_) etag
    rw [← hsound.container_eq hc]
    exact (hmade c.handle).id_eq
  · obtain ⟨made, hmade⟩ := hst.grounded hs
    have hlists : (s.takeSnapshot st).Lists st.index :=
      hmade.exact.snapshot_lists t.isLawful (fun c hc => hmade.id_eq (hmade.live hc)) _
    refine ⟨hlists, fun request id hget settings table htable => ?_⟩
    obtain ⟨found, hfound, hrows⟩ := Store.ids_of_search hget htable
    rw [hrows]
    exact (hlists.found_nodup request found hfound).map
      ((Option.some_injective _).comp (Option.some_injective _))

/-- Containers of the keys 10, 3, -4 and so on downwards. -/
def descending : Heap KeyType.int32.Key where
  container h := {
    key := Int32.ofInt (10 - 7 * h)
    handle := h
    id := EntityKey.text (Int32.ofInt (10 - 7 * h))
    blob := (toJson ({ id := "" } : Doc)).render }
  handle_eq _ := rfl

theorem descending_isMade (h : Handle) : (descending.container h).IsMade :=
  have hmade : (Container.make { key := Int32.ofInt (10 - 7 * h) } ({ id := "" } : Doc)
      Doc.store.context false ⟨.empty, (), h⟩).1 = .ok (descending.container h) := rfl
  .make hmade

/-- The document store with the numbers of its documents for keys. -/
def numbered : Store KeyType.int32.Key Doc Unit Nat where
  collectionId := "numbers"
  readOnly := false
  eager := false
  makers := {
    key d := show Int32 from Int32.ofInt d.number.toInt
    references := Doc.references
    properties := Doc.properties }
  versionPolicy := Doc.store.versionPolicy
  signaturePolicy := Doc.store.signaturePolicy
  context := Doc.store.context
  searches := {
    algorithms := SortedMap.empty.insert Scan.defaultId (Scan.algorithm Scan.defaultId)
    defaultId := some Scan.defaultId }
  observers := []

theorem numbered_onlyDecodes : numbered.searches.OnlyDecodes := by
  intro id a h
  obtain rfl := SearchRegistry.eq_of_get?_single h
  exact Scan.algorithm_onlyDecodes _

/-- This store with three documents in it. -/
def threeNumbers : State KeyType.int32.Key Doc Unit Nat :=
  (World.reached numbered () 0 [
    .call 0 (.entity (.create { id := "a", number := 10 } none)), .go 0,
    .call 0 (.entity (.create { id := "b", number := 3 } none)), .go 0,
    .call 0 (.entity (.create { id := "c", number := -4 } none)), .go 0]).state

/-- Three containers, or three documents, are listed by their keys and not by their texts, whatever
was added first. -/
theorem numbers_listed :
    let ops : List (Operation KeyType.int32.Key) :=
      [.add 0, .add 1, .delete (10 : Int32), .add 2, .add 0, .add 1]
    let snapshot := (reached descending ops).snapshot "numbers:5"
    "10" < "3" ∧ snapshot.Lists (reached descending ops) ∧ snapshot.ids = ["-4", "3", "10"] ∧
      snapshot = (reached descending [.add 2, .add 1, .add 0]).snapshot "numbers:5" ∧
      (numbered.takeSnapshot threeNumbers).Lists threeNumbers.index ∧
      ∃ table, (numbered.search { top := some 2 } none threeNumbers).1.entity = some table ∧
        table.data.map List.head? = [some (some "-4"), some (some "3")] ∧
        (table.data.map List.head?).Nodup := by
  intro ops snapshot
  obtain ⟨hindex, -, -, hstore⟩ := reached_snapshot_lists .int32
  obtain ⟨hlists, hsame⟩ := hindex descending descending_isMade ops "numbers:5"
  have hcontainers : (reached descending [.add 2, .add 1, .add 0]).containers.entries =
      (reached descending ops).containers.entries := rfl
  have hreaches : numbered.Reaches threeNumbers := Store.reaches_reached () 0 _
  have hget : numbered.searches.get? (numbered.searchId { top := some 2 }) =
      some (Scan.algorithm Scan.defaultId) := rfl
  obtain ⟨hstored, hfound⟩ := hstore numbered threeNumbers numbered_onlyDecodes hreaches
  have htable : (numbered.search { top := some 2 } none threeNumbers).1.entity.map
      (fun table => table.data.map List.head?) = some [some (some "-4"), some (some "3")] := by
    decide +kernel
  obtain ⟨table, hentity, hrows⟩ := Option.map_eq_some_iff.1 htable
  refine ⟨by decide, hlists, by decide +kernel, ?_, hstored, table, hentity, hrows,
    hfound _ _ hget none table hentity⟩
  refine (hsame descending [.add 2, .add 1, .add 0] fun k => ?_).symm
  rw [get?, get?, SortedMap.find?, SortedMap.find?, hcontainers]

end Index

end EntityStore
