import EntityStore.Proofs.Ledger.Basic
import EntityStore.Proofs.Store.Documents
import EntityStore.Proofs.Store.Sound

/-!
# A store with a pure context answers like its ledger

A state represents a ledger if it is sound and faithful, every container stands
for the entry under its key, and the revision is the count of changes. Then
each look-up of the store finds what the ledger finds: a key by the maps, a
reference because the owners are exactly what the containers list, so the one
entry that lists it is the one that its owner's key leads to.

From there each call is a square. The preparation outside the gate extends the
memory and settles on the same copy or the same failure as the round trip; the
checks at the gate read the same on both sides and in the same order; and what
is stored stands for what is written. A run is one square after another.
-/

namespace EntityStore

variable {κ ε σ τ : Type} [EntityKey κ]

/-- A container stands for an entry: its blob decodes to the copy, and the rest is the same. -/
structure Entry.Describes (x : Context ε σ) (session : σ) (entry : Entry ε) (c : Container κ) :
    Prop where
  copy : x.entityOf session c.blob = .ok entry.copy
  references : entry.references = c.references
  version : entry.version = c.version
  signature : entry.signature = c.signature

/-- A state represents a ledger. -/
structure Ledger.Represents (x : Context ε σ) (session : σ) (st : State κ ε σ τ)
    (l : Ledger κ ε) : Prop where
  sound : st.Sound
  faithful : st.Faithful x session
  entry : ∀ {k c}, st.index.get? k = some c →
    ∃ entry, l.entries.find? k = some entry ∧ entry.Describes x session c
  container : ∀ {k entry}, l.entries.find? k = some entry → ∃ c, st.index.get? k = some c
  changes : l.changes = st.index.revision

namespace Ledger

section Lookups

variable {l : Ledger κ ε}

omit [EntityKey κ] in
theorem holder?_some [Ranked κ] {l : Ledger κ ε} {r : Reference} {p : κ × Entry ε}
    (h : l.holder? r = some p) : l.entries.find? p.1 = some p.2 ∧ r ∈ p.2.references := by
  have hmem := List.mem_of_find?_eq_some h
  have hr := List.find?_some h
  exact ⟨SortedMap.find?_eq_some_iff.2 hmem, of_decide_eq_true hr⟩

theorem isListed_iff {besides : Option κ} {r : Reference} :
    l.isListed besides r = true ↔
      ∃ k entry, l.entries.find? k = some entry ∧ r ∈ entry.references ∧ besides ≠ some k := by
  simp only [isListed, List.any_eq_true, Bool.and_eq_true, decide_eq_true_eq,
    SortedMap.find?_eq_some_iff]
  constructor
  · intro hp
    obtain ⟨⟨k, entry⟩, hmem, hr, hne⟩ := hp
    refine ⟨k, entry, hmem, hr, ?_⟩
    rintro rfl
    simp [Index.sameKey] at hne
  · intro hp
    obtain ⟨k, entry, hmem, hr, hne⟩ := hp
    refine ⟨(k, entry), hmem, hr, ?_⟩
    cases besides with
    | none => rfl
    | some k' =>
        rw [Option.any_some, Bool.not_eq_true', ← Bool.not_eq_true, Index.sameKey_iff]
        rintro rfl
        exact hne rfl

end Lookups

variable {x : Context ε σ} {session : σ} {st : State κ ε σ τ} {l : Ledger κ ε}

namespace Represents

/-! ## Look-ups agree -/

theorem get?_eq_none_iff (h : Represents x session st l) {k : κ} :
    st.index.get? k = none ↔ l.entries.find? k = none := by
  constructor
  · intro hnone
    cases hk : l.entries.find? k with
    | none => rfl
    | some entry =>
        obtain ⟨c, hc⟩ := h.container hk
        rw [hnone] at hc
        cases hc
  · intro hnone
    cases hk : st.index.get? k with
    | none => rfl
    | some c =>
        obtain ⟨entry, hentry, -⟩ := h.entry hk
        rw [hnone] at hentry
        cases hentry

theorem containsKey_eq (h : Represents x session st l) (k : κ) :
    st.index.containsKey k = l.entries.contains k := by
  rw [Bool.eq_iff_iff, Index.containsKey, SortedMap.contains_iff, SortedMap.contains_iff]
  constructor
  · intro hp
    obtain ⟨c, hc⟩ := hp
    obtain ⟨entry, hentry, -⟩ := h.entry hc
    exact ⟨entry, hentry⟩
  · intro hp
    obtain ⟨entry, hentry⟩ := hp
    exact h.container hentry

theorem listed_iff (h : Represents x session st l) {k : κ} {r : Reference} :
    (∃ c, st.index.get? k = some c ∧ r ∈ c.references) ↔
      ∃ entry, l.entries.find? k = some entry ∧ r ∈ entry.references := by
  constructor
  · intro hp
    obtain ⟨c, hc, hr⟩ := hp
    obtain ⟨entry, hentry, hdesc⟩ := h.entry hc
    exact ⟨entry, hentry, hdesc.references ▸ hr⟩
  · intro hp
    obtain ⟨entry, hentry, hr⟩ := hp
    obtain ⟨c, hc⟩ := h.container hentry
    obtain ⟨entry', hentry', hdesc⟩ := h.entry hc
    obtain rfl := Option.some.inj (hentry.symm.trans hentry')
    exact ⟨c, hc, hdesc.references ▸ hr⟩

theorem anyOwned_eq (h : Represents x session st l) (rs : List Reference) (besides : Option κ) :
    st.index.anyOwned rs besides = rs.any (l.isListed besides) := by
  rw [Bool.eq_iff_iff, Index.anyOwned_iff, List.any_eq_true]
  refine exists_congr fun r => and_congr_right fun _ => ?_
  rw [isListed_iff]
  refine exists_congr fun k => ?_
  rw [h.sound.exact.owner_iff, h.listed_iff]
  constructor
  · intro hp
    obtain ⟨⟨entry, hentry, hr⟩, hne⟩ := hp
    exact ⟨entry, hentry, hr, hne⟩
  · intro hp
    obtain ⟨entry, hentry, hr, hne⟩ := hp
    exact ⟨⟨entry, hentry, hr⟩, hne⟩

theorem owner_eq (h : Represents x session st l) (r : Reference) :
    st.index.owners.find? r = (l.holder? r).map Prod.fst := by
  cases hr : l.holder? r with
  | some p =>
      obtain ⟨hentry, hmem⟩ := holder?_some hr
      exact h.sound.exact.owner_iff.2 (h.listed_iff.2 ⟨p.2, hentry, hmem⟩)
  | none =>
      rw [holder?, List.find?_eq_none] at hr
      cases hk : st.index.owners.find? r with
      | none => rfl
      | some k =>
          obtain ⟨entry, hentry, hmem⟩ := h.listed_iff.1 (h.sound.exact.owner_iff.1 hk)
          exact absurd (decide_eq_true hmem) (hr (k, entry) (SortedMap.find?_eq_some_iff.1 hentry))

/-- A call finds a container if and only if the ledger has an entry for it, and then the one under
the container's key. -/
theorem find?_cases (h : Represents x session st l) (target : Target κ) :
    (st.index.find? target = none ∧ l.find? target = none) ∨
    ∃ c entry, st.index.find? target = some c ∧ st.index.Live c ∧
      l.find? target = some (c.key, entry) ∧ entry.Describes x session c := by
  cases target with
  | key k =>
      cases hc : st.index.get? k with
      | none =>
          refine .inl ⟨hc, ?_⟩
          rw [find?, h.get?_eq_none_iff.1 hc]
          rfl
      | some c =>
          obtain ⟨entry, hentry, hdesc⟩ := h.entry hc
          refine .inr ⟨c, entry, hc, h.sound.exact.live hc, ?_, hdesc⟩
          rw [find?, hentry, h.sound.exact.key_eq hc]
          rfl
  | reference r =>
      have howner := h.owner_eq r
      cases hr : l.holder? r with
      | none =>
          rw [hr] at howner
          exact .inl ⟨by rw [Index.find?, Index.getByReference?, howner]; rfl, hr⟩
      | some p =>
          rw [hr] at howner
          obtain ⟨hentry, hmem⟩ := holder?_some hr
          obtain ⟨c, hc⟩ := h.container hentry
          obtain ⟨entry, hentry', hdesc⟩ := h.entry hc
          obtain rfl := Option.some.inj (hentry.symm.trans hentry')
          refine .inr ⟨c, p.2, ?_, h.sound.exact.live hc, ?_, hdesc⟩
          · rw [Index.find?, Index.getByReference?, howner]
            exact hc
          · rw [find?, hr, h.sound.exact.key_eq hc]

/-! ## What can be seen agrees -/

theorem count_eq (h : Represents x session st l) : st.count = l.entries.size := by
  have hperm : st.index.containers.keys.Perm l.entries.keys := by
    rw [List.perm_ext_iff_of_nodup (SortedMap.nodup_keys _) (SortedMap.nodup_keys _)]
    intro k
    have hk := h.containsKey_eq k
    rw [Bool.eq_iff_iff, Index.containsKey, SortedMap.contains_iff, SortedMap.contains_iff] at hk
    rw [SortedMap.mem_keys_iff, SortedMap.mem_keys_iff, hk]
  have hlength := hperm.length_eq
  rw [SortedMap.length_keys, SortedMap.length_keys] at hlength
  exact hlength

theorem referenceCount_eq (h : Represents x session st l) :
    st.referenceCount = (l.entries.values.flatMap Entry.references).dedup.length := by
  refine SortedMap.size_eq_length_dedup fun r => ?_
  rw [List.mem_flatMap]
  constructor
  · intro hp
    obtain ⟨k, hk⟩ := hp
    obtain ⟨entry, hentry, hr⟩ := h.listed_iff.1 (h.sound.exact.owner_iff.1 hk)
    exact ⟨entry, SortedMap.mem_values_iff.2 ⟨k, hentry⟩, hr⟩
  · intro hp
    obtain ⟨entry, hentry, hr⟩ := hp
    obtain ⟨k, hk⟩ := SortedMap.mem_values_iff.1 hentry
    exact ⟨k, h.sound.exact.owner_iff.2 (h.listed_iff.2 ⟨entry, hk, hr⟩)⟩

theorem containsReference_eq (h : Represents x session st l) (r : Reference) :
    st.containsReference r = (l.holder? r).isSome := by
  change (st.index.owners.find? r).isSome = _
  rw [h.owner_eq, Option.isSome_map]

theorem observe_eq (h : Represents x session st l) (s : Store κ ε σ τ) :
    s.observe st = l.observe s.collectionId := by
  have hetag : s.etag st = Etag.text s.collectionId l.changes := by
    rw [h.changes]
    rfl
  rw [Store.observe, observe, h.count_eq, h.referenceCount_eq, hetag]
  congr
  · funext k
    exact h.containsKey_eq k
  · funext r
    exact h.containsReference_eq r

/-! ## What changes, changes on both sides -/

theorem extend (h : Represents x session st l) {st' : State κ ε σ τ} (hgate : st'.gate = st.gate)
    (hmem : st.memory.Extends st'.memory) : Represents x session st' l where
  sound := h.sound.extend hgate hmem
  faithful := h.faithful.extend h.sound hgate hmem
  entry hc := h.entry (by rwa [show st'.index = st.index from congrArg Gate.inner hgate] at hc)
  container hk := by
    rw [show st'.index = st.index from congrArg Gate.inner hgate]
    exact h.container hk
  changes := h.changes.trans (congrArg (fun g => g.inner.revision) hgate.symm)

theorem countHit (h : Represents x session st l) (k : κ) :
    Represents x session (Store.countHit k st) l :=
  ⟨h.sound.countHit k, h.faithful.countHit k, h.entry, h.container, h.changes⟩

theorem entity (h : Represents x session st l) (hx : x.IsPure) {c : Container κ}
    (hc : st.index.Live c) :
    Represents x session { st with memory := (c.entity x st.memory).2 } l :=
  ⟨h.sound.entity x hc, h.faithful.entity hx h.sound hc, h.entry, h.container, h.changes⟩

theorem store (h : Represents x session st l) {owners : SortedMap Reference κ} {c : Container κ}
    {entry : Entry ε} (hc : st.Reserved c) (hmem : x.Remembers session st.memory c)
    (hexact : (st.index.store owners c).Exact) (hdesc : entry.Describes x session c) :
    Represents x session { st with gate := ⟨st.index.store owners c⟩ } (l.write c.key entry) where
  sound := h.sound.store hc hexact
  faithful := h.faithful.store hmem
  entry {k d} hd := by
    rcases Index.get?_store.1 hd with ⟨rfl, rfl⟩ | ⟨hne, hd⟩
    · exact ⟨entry, SortedMap.find?_insert_self _ _ _, hdesc⟩
    · obtain ⟨e, he, hdesc'⟩ := h.entry hd
      exact ⟨e, by rw [write, SortedMap.find?_insert_of_ne _ _ hne, he], hdesc'⟩
  container {k e} hk := by
    rcases SortedMap.find?_insert_eq_some_iff.1 hk with ⟨rfl, -⟩ | ⟨hne, hk⟩
    · exact ⟨c, Index.get?_store.2 (.inl ⟨rfl, rfl⟩)⟩
    · obtain ⟨d, hd⟩ := h.container hk
      exact ⟨d, Index.get?_store.2 (.inr ⟨hne, hd⟩)⟩
  changes := congrArg (· + 1) h.changes

theorem strike (h : Represents x session st l) {c : Container κ} (hc : st.index.Live c) :
    Represents x session { st with gate := ⟨(st.index.delete c.key).2⟩ } (l.strike c.key) where
  sound := h.sound.delete hc
  faithful := h.faithful.delete hc
  entry {k d} hd := by
    rw [State.index, Index.delete_of_some hc] at hd
    obtain ⟨hne, hd⟩ := SortedMap.find?_erase_eq_some_iff.1 hd
    obtain ⟨e, he, hdesc⟩ := h.entry hd
    exact ⟨e, by rw [Ledger.strike, SortedMap.find?_erase_of_ne _ hne, he], hdesc⟩
  container {k e} hk := by
    obtain ⟨hne, hk⟩ := SortedMap.find?_erase_eq_some_iff.1 hk
    obtain ⟨d, hd⟩ := h.container hk
    refine ⟨d, ?_⟩
    rw [State.index, Index.delete_of_some hc]
    exact SortedMap.find?_erase_eq_some_iff.2 ⟨hne, hd⟩
  changes := by
    rw [State.index, Index.delete_of_some hc]
    exact congrArg (· + 1) h.changes

end Represents

/-! ## Squares -/

/-- A store and its ledger answered alike, and stay in step. -/
def Agree {α : Type} (x : Context ε σ) (session : σ) (r : α × State κ ε σ τ)
    (r' : α × Ledger κ ε) : Prop :=
  r.1 = r'.1 ∧ Represents x session r.2 r'.2

/-- A candidate that is ready to be stored for an entry. -/
structure Ready (x : Context ε σ) (session : σ) (st : State κ ε σ τ) (c : Candidate κ ε) (k : κ)
    (entry : Entry ε) : Prop where
  key : c.container.key = k
  copy : c.copy = entry.copy
  describes : entry.Describes x session c.container
  reserved : st.Reserved c.container
  remembers : x.Remembers session st.memory c.container

theorem Represents.start (x : Context ε σ) (session : σ) (tokens : τ) :
    Represents x session (State.start session tokens : State κ ε σ τ) (empty : Ledger κ ε) where
  sound := State.start_sound session tokens
  faithful := State.start_faithful x session session tokens
  entry hc := by cases hc
  container hk := by cases hk
  changes := rfl

section

variable {s : Store κ ε σ τ}

/-- Where the round trip succeeds the candidate of an entity is ready, whatever the token source
does meanwhile. -/
theorem Represents.candidate_ready (hx : s.context.IsPure) (h : Represents s.context session st l)
    (k : κ) {e copy : ε} (version : Option String) (tokens : τ)
    (hcopy : s.context.copyOf session e = .ok copy) :
    ∃ c m', s.candidate k e version st.memory = (.ok c, m') ∧
      Represents s.context session { st with memory := m', tokens } l ∧
      Ready s.context session { st with memory := m', tokens } c k (entryOf s e version copy) := by
  obtain ⟨blob, m', hblob, hcand, hext, hnext, hfind⟩ :=
    Store.candidate_of_ok hx h.sound.tidy k version hcopy
  refine ⟨_, m', hcand, h.extend rfl hext, rfl, rfl, ⟨hblob, rfl, rfl, rfl⟩, ⟨?_, ?_⟩, ?_⟩
  · change st.memory.next < m'.next
    rw [hnext]
    exact Nat.lt_succ_self _
  · intro d hd
    exact Nat.ne_of_lt (h.sound.handle_lt hd)
  · intro e' he'
    change m'.decoded.find? st.memory.next = some e' at he'
    rw [hfind] at he'
    cases hs : s.eager with
    | true =>
        rw [hs] at he'
        obtain rfl : copy = e' := Option.some.inj he'
        exact hblob
    | false =>
        rw [hs] at he'
        cases he'

theorem Represents.candidate_refused (hx : s.context.IsPure)
    (h : Represents s.context session st l) (k : κ) {e : ε} (version : Option String) (tokens : τ)
    {err : StoreError} (hcopy : s.context.copyOf session e = .error err) :
    ∃ m', s.candidate k e version st.memory = (.error err, m') ∧
      Represents s.context session { st with memory := m', tokens } l := by
  obtain ⟨m', hcand, hext⟩ := Store.candidate_of_error hx h.sound.tidy k version hcopy
  exact ⟨m', hcand, h.extend rfl hext⟩

end

theorem Ready.store {c : Candidate κ ε} {k : κ} {entry : Entry ε}
    (hr : Ready x session st c k entry) (h : Represents x session st l)
    {owners : SortedMap Reference κ} (hexact : (st.index.store owners c.container).Exact) :
    Represents x session { st with gate := ⟨st.index.store owners c.container⟩ }
      (l.write k entry) := by
  have hstore := h.store hr.reserved hr.remembers hexact hr.describes
  rwa [hr.key] at hstore

theorem Ready.accepted_eq {c : Candidate κ ε} {k : κ} {entry : Entry ε}
    (hr : Ready x session st c k entry) (code : ResponseCode) (settings : Option Settings) :
    Store.accepted code c settings = written code k entry settings := by
  rw [Store.accepted, written, hr.key, hr.copy, hr.describes.references]
  rfl

/-- The visits of a creation agree: the ledger refuses what the index refuses. -/
theorem Represents.enter_agree (h : Represents x session st l) {c : Candidate κ ε} {k : κ}
    {entry : Entry ε} (hr : Ready x session st c k entry) (settings : Option Settings) :
    Agree x session (Store.enter c settings st) (enter k entry settings l) := by
  have hkey := h.containsKey_eq k
  have hrefs := h.anyOwned_eq entry.references none
  rcases Store.enter_cases c settings st with ⟨htaken, henter⟩ | ⟨hfree, hfrees, henter⟩
  · have hcond : (l.entries.contains k || entry.references.any (l.isListed none)) = true := by
      rw [← hkey, ← hrefs, ← hr.key, hr.describes.references, Bool.or_eq_true]
      exact htaken
    rw [henter, enter, if_pos hcond, hr.key]
    exact ⟨rfl, h⟩
  · have hnone : st.index.containsKey k = false := by
      rw [← hr.key]
      exact SortedMap.contains_eq_false_iff.2 hfree
    have hnever : st.index.anyOwned entry.references none = false := by
      rw [hr.describes.references, hfrees]
    have hcond : ¬(l.entries.contains k || entry.references.any (l.isListed none)) = true := by
      rw [← hkey, ← hrefs, hnone, hnever]
      exact Bool.false_ne_true
    rw [henter, enter, if_neg hcond]
    exact ⟨hr.accepted_eq _ _, hr.store h (h.sound.exact.store_free hfree hfrees)⟩

/-- The visits of an update agree: both check the key, the references and the token, in this
order. -/
theorem Represents.commit_agree (h : Represents x session st l) {p : PendingUpdate κ ε} {k : κ}
    {entry : Entry ε} (hr : Ready x session st p.toCandidate k entry)
    (settings : Option Settings) :
    Agree x session (Store.commit p settings st) (commit k entry p.presented settings l) := by
  have hrefs : st.index.anyOwned p.container.references (some k) =
      entry.references.any (l.isListed (some k)) := by
    rw [← hr.describes.references]
    exact h.anyOwned_eq entry.references (some k)
  rw [Store.commit_eq]
  rcases PendingUpdate.commit_cases h.sound.exact p with ⟨hnone, hcommit⟩ | ⟨old, hold, hrest⟩
  · rw [hr.key] at hnone
    rw [hcommit, commit, h.get?_eq_none_iff.1 hnone, hr.key]
    exact ⟨rfl, h⟩
  · rw [hr.key] at hold hrest
    obtain ⟨before, hbefore, hdesc⟩ := h.entry hold
    rcases hrest with ⟨htaken, hcommit⟩ | ⟨hfree, hstale, hcommit⟩ | ⟨hfree, hfresh, hcommit⟩
    · rw [hrefs] at htaken
      simp only [hcommit, commit, hbefore, htaken, if_true, hr.key]
      exact ⟨rfl, h⟩
    · rw [hrefs] at hfree
      rw [← hdesc.version] at hstale
      simp only [hcommit, commit, hbefore, hfree, hstale, Bool.false_eq_true, if_false, if_true,
        hr.key]
      exact ⟨rfl, h⟩
    · have hexact : (st.index.store (Index.releasedBy st.index.owners old) p.container).Exact := by
        refine h.sound.exact.store_over ?_ ?_
        · rw [hr.key, hold]
        · rw [hr.key, hfree]
      rw [hrefs] at hfree
      rw [← hdesc.version] at hfresh
      simp only [hcommit, commit, hbefore, hfree, hfresh, Bool.false_eq_true, if_false, if_true]
      exact ⟨hr.accepted_eq _ _, hr.store h hexact⟩

theorem Represents.version_agree (h : Represents x session st l) (target : Target κ)
    (settings : Option Settings) :
    Agree x session (Store.version target settings st)
      (keyed target (l.find? target) (fun entry => entry.version.getD "") settings, l) := by
  rcases h.find?_cases target with ⟨hnone, hl⟩ | ⟨c, entry, hc, -, hl, hdesc⟩
  · rw [Store.version_of_none hnone, hl]
    exact ⟨rfl, h⟩
  · rw [Store.version_of_some hc, hl, keyed, hdesc.version, hdesc.references]
    exact ⟨rfl, h.countHit c.key⟩

theorem Represents.remove_agree (h : Represents x session st l) (target : Target κ)
    (settings : Option Settings) :
    Agree x session (Store.remove target settings st) (delete target settings l) := by
  rcases h.find?_cases target with ⟨hnone, hl⟩ | ⟨c, entry, hc, hlive, hl, hdesc⟩
  · rw [Store.remove_of_none h.sound.exact hnone, delete, hl]
    exact ⟨rfl, h⟩
  · rw [Store.remove_of_some h.sound.exact hc, delete, hl, keyed, hdesc.references]
    exact ⟨rfl, h.strike hlive⟩

section

variable {s : Store κ ε σ τ}

omit [EntityKey κ] in
theorem isIntact_eq {entry : Entry ε} {c : Container κ}
    (hdesc : entry.Describes s.context session c) : isIntact s entry = s.isIntact c entry.copy := by
  rw [isIntact, Store.isIntact]
  cases s.signaturePolicy with
  | none => rfl
  | some p =>
      change entry.signature.any (p.accepts entry.copy entry.version) =
        c.signature.any (p.accepts entry.copy c.version)
      rw [hdesc.signature, hdesc.version]

/-- A read hands out the same copy, whether it was remembered or is decoded now. -/
theorem Represents.read_agree (hx : s.context.IsPure) (h : Represents s.context session st l)
    (target : Target κ) (settings : Option Settings) :
    Agree s.context session (s.read target settings st) (.ok (read s target settings l), l) := by
  rcases h.find?_cases target with ⟨hnone, hl⟩ | ⟨c, entry, hc, hlive, hl, hdesc⟩
  · rw [s.read_of_none hnone, read, hl]
    exact ⟨rfl, h⟩
  · have hentity := c.entity_eq hx (h.faithful c hlive)
    rw [hdesc.copy] at hentity
    have hmem := h.entity hx hlive
    obtain ⟨m', ⟨err, hdec, -⟩ | ⟨e, hdec, hrest⟩⟩ := s.read_cases settings hc
    · rw [hdec] at hentity
      cases hentity
    · rw [hdec] at hentity hmem
      obtain rfl : e = entry.copy := Except.ok.inj hentity
      have hsig := isIntact_eq hdesc
      rw [read, hl]
      rcases hrest with ⟨hfalse, heq⟩ | ⟨htrue, heq⟩
      · simp only [heq, hsig, hfalse, Bool.false_eq_true, if_false]
        exact ⟨rfl, hmem⟩
      · simp only [heq, hsig, htrue, if_true, written, hdesc.references]
        exact ⟨rfl, hmem.countHit c.key⟩

theorem Represents.create_agree (hw : s.readOnly = false) (hx : s.context.IsPure)
    (h : Represents s.context session st l) (e : ε) (settings : Option Settings) :
    Agree s.context session (s.create e settings st)
        (create s (s.context.copyOf session) e settings l) ∧
      (s.create e settings st).2.tokens = st.tokens := by
  rw [Store.create, if_neg (by rw [hw]; exact Bool.false_ne_true), Store.prepareCreate, create]
  cases hcopy : s.context.copyOf session e with
  | error err =>
      obtain ⟨m', hcand, hrep⟩ :=
        h.candidate_refused hx (s.makers.key e) (s.versionOf e) st.tokens hcopy
      rw [hcand]
      exact ⟨⟨rfl, hrep⟩, rfl⟩
  | ok copy =>
      obtain ⟨c, m', hcand, hrep, hready⟩ :=
        h.candidate_ready hx (s.makers.key e) (s.versionOf e) st.tokens hcopy
      obtain ⟨hanswer, hrep'⟩ := hrep.enter_agree hready settings
      rw [hcand]
      exact ⟨⟨congrArg Except.ok hanswer, hrep'⟩, rfl⟩

theorem Represents.update_agree (hw : s.readOnly = false) (hx : s.context.IsPure)
    (h : Represents s.context session st l) (e : ε) (settings : Option Settings) :
    Agree s.context session (s.update e settings st)
        (update s (s.context.copyOf session) e (s.draft e st.tokens).1 settings l) ∧
      (s.update e settings st).2.tokens = (s.draft e st.tokens).2 := by
  rw [Store.update, if_neg (by rw [hw]; exact Bool.false_ne_true), Store.prepareUpdate_eq, update]
  cases hcopy : s.context.copyOf session (s.draft e st.tokens).1.stored with
  | error err =>
      obtain ⟨m', hcand, hrep⟩ := h.candidate_refused hx (s.makers.key e)
        (s.draft e st.tokens).1.version (s.draft e st.tokens).2 hcopy
      simp only [hcand]
      exact ⟨⟨rfl, hrep⟩, rfl⟩
  | ok copy =>
      obtain ⟨c, m', hcand, hrep, hready⟩ := h.candidate_ready hx (s.makers.key e)
        (s.draft e st.tokens).1.version (s.draft e st.tokens).2 hcopy
      obtain ⟨hanswer, hrep'⟩ := hrep.commit_agree
        (p := { c with presented := (s.draft e st.tokens).1.presented }) hready settings
      simp only [hcand]
      exact ⟨⟨congrArg Except.ok hanswer, hrep'⟩, rfl⟩

/-- Observers are told of a deletion before it is looked at, which changes nothing else. -/
theorem Represents.delete_agree (hw : s.readOnly = false) (h : Represents s.context session st l)
    (target : Target κ) (settings : Option Settings) :
    Agree s.context session (s.delete target settings st) (delete target settings l) ∧
      (s.delete target settings st).2.tokens = st.tokens := by
  have hnotified : Represents s.context session
      (st.notify s.observers (.beforeDelete target)) l := h.extend rfl (.refl _)
  rw [Store.delete, if_neg (by rw [hw]; exact Bool.false_ne_true)]
  exact ⟨hnotified.remove_agree target settings, rfl⟩

/-- Each call is answered alike on a writable store and on its ledger, and draws the same tokens. -/
theorem Represents.perform_agree (hw : s.readOnly = false) (hx : s.context.IsPure)
    (h : Represents s.context session st l) (c : EntityCall κ ε) :
    (s.perform c st).1 = (perform s (s.context.copyOf session) c l st.tokens).1 ∧
      Represents s.context session (s.perform c st).2
        (perform s (s.context.copyOf session) c l st.tokens).2.1 ∧
      (s.perform c st).2.tokens = (perform s (s.context.copyOf session) c l st.tokens).2.2 := by
  cases c with
  | create e settings =>
      obtain ⟨⟨hanswer, hrep⟩, htokens⟩ := h.create_agree hw hx e settings
      exact ⟨congrArg EntityAnswer.entity hanswer, hrep, htokens⟩
  | read target settings =>
      obtain ⟨hanswer, hrep⟩ := h.read_agree hx target settings
      exact ⟨congrArg EntityAnswer.entity hanswer, hrep, s.read_tokens target settings st⟩
  | update e settings =>
      obtain ⟨⟨hanswer, hrep⟩, htokens⟩ := h.update_agree hw hx e settings
      exact ⟨congrArg EntityAnswer.entity hanswer, hrep, htokens⟩
  | delete target settings =>
      obtain ⟨⟨hanswer, hrep⟩, htokens⟩ := h.delete_agree hw target settings
      exact ⟨congrArg EntityAnswer.version hanswer, hrep, htokens⟩
  | version target settings =>
      obtain ⟨hanswer, hrep⟩ := h.version_agree target settings
      exact ⟨congrArg EntityAnswer.version hanswer, hrep, Store.version_tokens target settings st⟩

theorem Represents.trace_agree (hw : s.readOnly = false) (hx : s.context.IsPure)
    (calls : List (EntityCall κ ε)) : ∀ {st : State κ ε σ τ} {l : Ledger κ ε},
      Represents s.context session st l →
        s.trace calls st = trace s (s.context.copyOf session) calls l st.tokens := by
  induction calls with
  | nil => intro st l _; rfl
  | cons c rest ih =>
      intro st l h
      obtain ⟨hanswer, hrep, htokens⟩ := h.perform_agree hw hx c
      have hrest := ih hrep
      rw [htokens] at hrest
      exact congrArg₂ List.cons (congrArg₂ Prod.mk hanswer (hrep.observe_eq s)) hrest

/-- A writable store whose context is pure answers every sequence of calls as its ledger does, and
after each call there is the same to be seen of both. -/
theorem store_trace_eq (hw : s.readOnly = false) (hx : s.context.IsPure) (session : σ) (tokens : τ)
    (calls : List (EntityCall κ ε)) :
    s.trace calls (State.start session tokens) =
      trace s (s.context.copyOf session) calls empty tokens :=
  Represents.trace_agree hw hx calls (Represents.start s.context session tokens)

/-- Two documents contend for a reference, and an update carries a token that is not stored. -/
theorem documents_trace_eq :
    Doc.store.readOnly = false ∧ Doc.store.context.IsPure ∧
      (let calls : List (EntityCall String Doc) := [
        .create { id := "a", references := [⟨"isbn", "1"⟩] } none,
        .create { id := "b", references := [⟨"isbn", "1"⟩] } none,
        .update { id := "a", version := some "g0" } none,
        .update { id := "a" } none,
        .read (.reference ⟨"isbn", "1"⟩) none,
        .version (.key "a") none,
        .delete (.key "a") none]
      Doc.store.trace calls (State.start () 0) =
        trace Doc.store (Doc.store.context.copyOf ()) calls empty 0) :=
  ⟨rfl, Doc.store_isPure, store_trace_eq rfl Doc.store_isPure () 0 _⟩

end

end Ledger

end EntityStore
