import EntityStore.Proofs.Building.Faults
import EntityStore.Proofs.Etag
import EntityStore.Proofs.Interleaving.Whole

/-!
# Stores that hold entities from the start

Putting entities in is creating them one after another, and what carries the
induction is what the state holds by then (`Store.Holds`): every entity so far as
its own container, nothing else, and no hits. So an entity clashes with the
contents if and only if it clashes with an entity before it, and populating ends
by the faults of the entities. With that, building ends by all faults of the
setup (`Builder.build_endsBy`).
-/

namespace EntityStore

variable {κ ε σ τ : Type} [EntityKey κ]

namespace Store

/-- A state holds entities that were created one after another, and nothing happened since. -/
structure Holds (s : Store κ ε σ τ) (session : σ) (es : List ε) (st : State κ ε σ τ) : Prop where
  exact : st.index.Exact
  tidy : st.memory.Tidy
  /-- Every entity has its container, and that reads as what the entity comes back as. -/
  found : ∀ e ∈ es, ∃ handle blob,
    st.index.get? (s.makers.key e) =
      some (s.containerOf (s.makers.key e) e (s.versionOf e) handle blob) ∧
    s.context.entityOf session blob = s.context.copyOf session e
  only : ∀ {k c}, st.index.get? k = some c → ∃ e ∈ es, s.makers.key e = k
  hits_iff : ∀ {k n}, st.readHits k = some n ↔ n = 0 ∧ ∃ e ∈ es, s.makers.key e = k
  revision_eq : st.index.revision = es.length
  deliveries_eq : st.deliveries = []

variable {s : Store κ ε σ τ} {session : σ} {es : List ε} {st : State κ ε σ τ}

theorem start_holds (s : Store κ ε σ τ) (session session' : σ) (tokens : τ) :
    s.Holds session [] (State.start session' tokens) where
  exact := Index.empty_exact
  tidy := Memory.start_tidy session'
  found e he := by cases he
  only h := by cases h
  hits_iff {k n} := by
    constructor
    · intro h
      cases h
    · rintro ⟨-, e, he, -⟩
      cases he
  revision_eq := rfl
  deliveries_eq := rfl

namespace Holds

theorem live_iff (h : s.Holds session es st) {k : κ} :
    (∃ c, st.index.get? k = some c) ↔ k ∈ es.map s.makers.key := by
  rw [List.mem_map]
  constructor
  · rintro ⟨c, hc⟩
    exact h.only hc
  · rintro ⟨e, he, rfl⟩
    obtain ⟨handle, blob, hget, -⟩ := h.found e he
    exact ⟨_, hget⟩

theorem count_eq (h : s.Holds session es st) (hkeys : (es.map s.makers.key).Nodup) :
    st.count = es.length := by
  classical
  have hsize : st.index.containers.size = (es.map s.makers.key).dedup.length :=
    SortedMap.size_eq_length_dedup fun k => h.live_iff
  rw [hkeys.dedup, List.length_map] at hsize
  exact hsize

/-- The owners are the keys of the entities that list a reference. -/
theorem owner_iff (h : s.Holds session es st) {r : Reference} {k : κ} :
    st.index.owners.find? r = some k ↔ ∃ e ∈ es, r ∈ s.makers.references e ∧ s.makers.key e = k := by
  rw [h.exact.owner_iff]
  constructor
  · rintro ⟨c, hc, hr⟩
    obtain ⟨e, he, rfl⟩ := h.only hc
    obtain ⟨handle, blob, hget, -⟩ := h.found e he
    obtain rfl := Option.some.inj (hc.symm.trans hget)
    exact ⟨e, he, hr, rfl⟩
  · rintro ⟨e, he, hr, rfl⟩
    obtain ⟨handle, blob, hget, -⟩ := h.found e he
    exact ⟨_, hget, hr⟩

/-- An entity finds its key or a reference taken if and only if it clashes with an entity that is
held. -/
theorem clashes_iff (h : s.Holds session es st) (e : ε) :
    (st.index.containsKey (s.makers.key e) = true ∨
      st.index.anyOwned (s.makers.references e) none = true) ↔
    es.any (Builder.clashes s.makers · e) = true := by
  rw [Index.containsKey, SortedMap.contains_iff, Index.anyOwned_iff, List.any_eq_true]
  simp only [Builder.clashes, Bool.or_eq_true, Index.sameKey_iff, List.any_eq_true,
    decide_eq_true_iff]
  constructor
  · rintro (hlive | ⟨r, hr, k, hk, -⟩)
    · obtain ⟨x, hx, hkey⟩ := List.mem_map.1 (h.live_iff.1 hlive)
      exact ⟨x, hx, .inl hkey⟩
    · obtain ⟨x, hx, hrx, -⟩ := h.owner_iff.1 hk
      exact ⟨x, hx, .inr ⟨r, hr, hrx⟩⟩
  · rintro ⟨x, hx, hkey | ⟨r, hr, hrx⟩⟩
    · exact .inl (h.live_iff.2 (List.mem_map.2 ⟨x, hx, hkey⟩))
    · exact .inr ⟨r, hr, _, h.owner_iff.2 ⟨x, hx, hrx, rfl⟩, by simp⟩

/-- Storing the candidate of an entity that clashes with nothing makes the state hold it too. -/
theorem store (h : s.Holds session es st) {e : ε} {m : Memory ε σ} (hext : st.memory.Extends m)
    {handle : Handle} {blob : Bytes}
    (hblob : s.context.entityOf session blob = s.context.copyOf session e)
    (hkey : st.index.get? (s.makers.key e) = none)
    (hrefs : st.index.anyOwned (s.makers.references e) none = false) :
    s.Holds session (es ++ [e]) { st with
      gate := ⟨st.index.store st.index.owners
        (s.containerOf (s.makers.key e) e (s.versionOf e) handle blob)⟩
      memory := m } where
  exact := h.exact.store_free hkey hrefs
  tidy := hext.tidy h.tidy
  found x hx := by
    rcases List.mem_append.1 hx with hx | hx
    · obtain ⟨handle', blob', hget, hblob'⟩ := h.found x hx
      refine ⟨handle', blob', Index.get?_store.2 (.inr ⟨fun hsame => ?_, hget⟩), hblob'⟩
      have hsame' : s.makers.key x = s.makers.key e := hsame
      rw [hsame', hkey] at hget
      cases hget
    · obtain rfl := List.mem_singleton.1 hx
      exact ⟨handle, blob, Index.get?_store.2 (.inl ⟨rfl, rfl⟩), hblob⟩
  only {k c} hc := by
    rcases Index.get?_store.1 hc with ⟨rfl, -⟩ | ⟨-, hc⟩
    · exact ⟨e, by simp, rfl⟩
    · obtain ⟨x, hx, hkx⟩ := h.only hc
      exact ⟨x, by simp [hx], hkx⟩
  hits_iff {k n} := by
    change (st.index.hits.reset (s.makers.key e)).counts.find? k = some n ↔ _
    rw [ReadHits.reset, SortedMap.find?_insert_eq_some_iff]
    have hold : st.index.hits.counts.find? k = some n ↔
        n = 0 ∧ ∃ x ∈ es, s.makers.key x = k := h.hits_iff
    rw [hold]
    constructor
    · rintro (⟨rfl, rfl⟩ | ⟨-, hn, x, hx, hkx⟩)
      · exact ⟨rfl, e, by simp, rfl⟩
      · exact ⟨hn, x, by simp [hx], hkx⟩
    · rintro ⟨rfl, x, hx, rfl⟩
      rcases List.mem_append.1 hx with hx | hx
      · by_cases hsame : s.makers.key x = s.makers.key e
        · exact .inl ⟨hsame, rfl⟩
        · exact .inr ⟨hsame, rfl, x, hx, rfl⟩
      · obtain rfl := List.mem_singleton.1 hx
        exact .inl ⟨rfl, rfl⟩
  revision_eq := by
    rw [List.length_append]
    exact congrArg (· + 1) h.revision_eq
  deliveries_eq := h.deliveries_eq

end Holds

/-- How creating an entity goes in a state that holds others. -/
theorem create_of_holds (hx : s.context.IsPure) (hwritable : s.readOnly = false)
    (h : s.Holds session es st) (e : ε) :
    (∃ err st', s.context.copyOf session e = .error err ∧
      s.create e none st = (.error err, st')) ∨
    ∃ copy, s.context.copyOf session e = .ok copy ∧
      ((es.any (Builder.clashes s.makers · e) = true ∧ ∃ st', s.create e none st =
          (.ok { code := .conflict, key := some (s.makers.key e) }, st')) ∨
        (es.any (Builder.clashes s.makers · e) = false ∧ ∃ r st', s.create e none st = (.ok r, st') ∧
          r.code = .created ∧ s.Holds session (es ++ [e]) st')) := by
  rw [create_of_writable hwritable]
  cases hcopy : s.context.copyOf session e with
  | error err =>
      obtain ⟨m, hcand, -⟩ :=
        candidate_of_error hx h.tidy (s.makers.key e) (s.versionOf e) hcopy
      exact .inl ⟨err, { st with memory := m }, rfl, by simp only [prepareCreate, hcand]⟩
  | ok copy =>
      obtain ⟨blob, m, hblob, hcand, hext, -⟩ :=
        candidate_of_ok hx h.tidy (s.makers.key e) (s.versionOf e) hcopy
      refine .inr ⟨copy, rfl, ?_⟩
      simp only [prepareCreate, hcand]
      rcases enter_cases ⟨s.containerOf (s.makers.key e) e (s.versionOf e) st.memory.next blob, copy⟩
          none { st with memory := m } with ⟨htaken, henter⟩ | ⟨hkey, hrefs, henter⟩
      · refine .inl ⟨(h.clashes_iff e).1 htaken, { st with memory := m }, ?_⟩
        rw [henter]
        rfl
      · refine .inr ⟨?_, _, _, by rw [henter]; exact rfl, rfl,
          h.store hext (hblob.trans hcopy.symm) hkey hrefs⟩
        rw [← Bool.not_eq_true, ← h.clashes_iff, not_or]
        exact ⟨by rw [Index.containsKey, Bool.not_eq_true, SortedMap.contains_eq_false_iff]; exact hkey,
          by rw [Bool.not_eq_true]; exact hrefs⟩

end Store

/-- The calls that create entities one after another. -/
def creations (es : List ε) : List (Call κ ε) := es.map fun e => .entity (.create e none)

/-- A state that comes of another by creating entities one after another, all of them accepted. -/
structure Store.Accepts (s : Store κ ε σ τ) (es : List ε) (st st' : State κ ε σ τ) : Prop where
  state_eq : st' = s.after (creations es) st
  created : ∀ earlier e later, es = earlier ++ e :: later →
    (s.answer (.entity (.create e none)) (s.after (creations earlier) st)).1.code? = some .created

namespace Builder

/-- What refuses an entity that clashes with an earlier one. -/
theorem rejection_conflict (k : κ) :
    rejection ({ code := .conflict, key := some k } : Response κ ε) = .configuration
      ("prepopulated entity " ++ Text.shownOption EntityKey.shown (some k) ++
        " rejected with 409") := by
  have htext : " rejected with " ++ ResponseCode.conflict.text = " rejected with 409" := by decide
  rw [rejection, String.append_assoc, htext]

theorem populate_endsBy {s : Store κ ε σ τ} {session : σ} (hx : s.context.IsPure)
    (hwritable : s.readOnly = false) (es : List ε) :
    ∀ {earlier : List ε} {st : State κ ε σ τ}, s.Holds session earlier st →
      EndsBy (fun st' => s.Holds session (earlier ++ es) st' ∧ s.Accepts es st st')
        (faultsInTurn (entityFaults s.makers s.context session) earlier es) (populate s es st) := by
  induction es with
  | nil =>
      intro earlier st h
      rw [List.append_nil]
      refine .ended ⟨h, rfl, fun earlier e later hsplit => ?_⟩
      simp at hsplit
  | cons e rest ih =>
      intro earlier st h
      rw [populate, faultsInTurn, entityFaults]
      rcases Store.create_of_holds hx hwritable h e with
        ⟨err, st', hcopy, hcreate⟩ | ⟨copy, hcopy, ⟨hclash, st', hcreate⟩ |
          ⟨hfree, r, st', hcreate, hcode, hnext⟩⟩
      · rw [hcopy, hcreate]
        exact .stopped _ _
      · rw [hcopy, hcreate]
        simp only [faultIf, if_pos hclash, ← rejection_conflict (ε := ε)]
        exact .stopped _ _
      · have hsuccess : r.isSuccess = true := by
          rw [Response.isSuccess, hcode]
          rfl
        rw [hcopy, hcreate]
        simp only [faultIf, hfree, Bool.false_eq_true, if_false, List.nil_append, hsuccess, if_true]
        rw [List.append_cons]
        refine (ih hnext).mono fun final hfinal => ⟨hfinal.1, ?_⟩
        have hanswer : s.answer (.entity (.create e none)) st = (.entity (.entity (.ok r)), st') := by
          rw [Store.answer, Store.perform, hcreate]
          rfl
        have hafter : ∀ es : List ε,
            s.after (creations (e :: es)) st = s.after (creations es) st' := by
          intro es
          change s.after (creations es) (s.answer (.entity (.create e none)) st).2 = _
          rw [hanswer]
        refine ⟨by rw [hafter, hfinal.2.state_eq], fun before x later hsplit => ?_⟩
        cases before with
        | nil =>
            obtain ⟨rfl, -⟩ := List.cons.inj hsplit
            change (s.answer (.entity (.create e none)) st).1.code? = _
            rw [hanswer]
            exact congrArg some hcode
        | cons first before =>
            obtain ⟨rfl, hrest⟩ := List.cons.inj hsplit
            rw [hafter]
            exact hfinal.2.created before x later hrest

/-- The builder of the same store, writable and without entities. -/
def emptied (b : Builder κ ε σ τ) : Builder κ ε σ τ :=
  { b.withReadOnly false with prepopulation := [] }

/-- What is handed out is the store that the builder hands out writable and without entities, in the
state that comes of creating the entities in it one after another, and read-only if the
configuration says so. -/
structure Sets (b : Builder κ ε σ τ) (name : String) (identity : Uuid) (session : σ) (tokens : τ)
    (s : Store κ ε σ τ) (st : State κ ε σ τ) : Prop where
  emptied : b.emptied.build name identity session tokens =
    .ok (s.opened, State.start session tokens)
  readOnly_eq : s.readOnly = b.config.readOnly
  accepts : s.opened.Accepts b.prepopulation (State.start session tokens) st
  holds : s.opened.Holds session b.prepopulation st
  opens : b.Opens s.opened

theorem build_endsBy {b : Builder κ ε σ τ} (hx : ∀ x, b.context = .ok x → x.IsPure)
    (name : String) (identity : Uuid) (session : σ) (tokens : τ) :
    EndsBy (fun built => b.Sets name identity session tokens built.1 built.2) (b.faults session)
      (b.build name identity session tokens) := by
  have hbuild : b.build name identity session tokens =
      (b.openStore name identity).bind fun s =>
        (populate s b.prepopulation (State.start session tokens)).bind fun st =>
          .ok ({ s with readOnly := b.config.readOnly }, st) := rfl
  rw [hbuild]
  refine (b.openStore_endsBy name identity).known.bind fun s hs => ?_
  obtain ⟨hopen, hs⟩ := hs
  rw [hs.context_eq, ← hs.makers_eq]
  refine (populate_endsBy (hx _ hs.context_eq) hs.readOnly_eq b.prepopulation
    (s.start_holds session session tokens)).bind_ok fun st hst => ?_
  have hopened : ({ s with readOnly := b.config.readOnly } : Store κ ε σ τ).opened = s :=
    openStore_opened hopen
  refine ⟨?_, rfl, ?_, ?_, ?_⟩
  · have hemptied : b.emptied.openStore name identity = .ok s := hopen
    rw [build, hemptied, hopened]
    exact congrArg (fun s => Except.ok (s, State.start session tokens)) (openStore_opened hopen)
  · rw [hopened]
    exact hst.2
  · rw [hopened]
    exact hst.1
  · rw [hopened]
    exact hs

end Builder

end EntityStore
