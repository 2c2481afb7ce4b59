import EntityStore.Index
import EntityStore.Proofs.SortedMap

/-!
# The owners of references are exactly what the containers list

An index keeps two maps, containers by key and keys by reference, and each can
be read off the other. `Exact` says so in both directions: a reference is owned
by a key if and only if the container of that key lists it, and a container
stands under its own key. One direction alone would leave room for a reference
that is forgotten, which no look-up shows until much later.

An operation changes the owners in two passes, each a loop over the references
that a container lists. A list may repeat a reference, so both loops are
described by membership: after the first a listed reference has the key as its
owner, after the second a listed reference that had it has none. In between the
owners are those of the other keys (`Exact.find?_releasedBy`), and that is the
whole invariant of a replacement.
-/

namespace EntityStore.Index

variable {κ : Type} [Ranked κ] {ix : Index κ}

theorem sameKey_iff {a b : κ} : sameKey a b = true ↔ a = b := by
  rw [sameKey, beq_iff_eq, Ranked.rank_eq_iff]

/-- A container that stands under its key. -/
def Live (ix : Index κ) (c : Container κ) : Prop := ix.get? c.key = some c

/-- A container stands under its own key, and a key owns a reference if and only if its container
lists it. -/
structure Exact (ix : Index κ) : Prop where
  key_eq : ∀ {k c}, ix.get? k = some c → c.key = k
  owner_iff : ∀ {r k}, ix.owners.find? r = some k ↔ ∃ c, ix.get? k = some c ∧ r ∈ c.references

theorem Exact.live (h : ix.Exact) {k : κ} {c : Container κ} (hc : ix.get? k = some c) :
    ix.Live c := by
  rw [Live, h.key_eq hc]
  exact hc

theorem Exact.owner_of_live (h : ix.Exact) {c : Container κ} (hc : ix.Live c) {r : Reference}
    (hr : r ∈ c.references) : ix.owners.find? r = some c.key :=
  h.owner_iff.2 ⟨c, hc, hr⟩

/-! ## The two loops over references -/

omit [Ranked κ] in
theorem find?_ownedBy {owners : SortedMap Reference κ} {c : Container κ} {r : Reference} {k : κ} :
    (ownedBy owners c).find? r = some k ↔
      (r ∈ c.references ∧ c.key = k) ∨ (r ∉ c.references ∧ owners.find? r = some k) :=
  SortedMap.find?_foldl_insert c.references c.key k r owners

theorem find?_eraseOwned {owners : SortedMap Reference κ} {k k' : κ} {q r : Reference} :
    (if (owners.find? q).any (sameKey k) then owners.erase q else owners).find? r = some k' ↔
      owners.find? r = some k' ∧ ¬ (r = q ∧ k' = k) := by
  split
  · next hq =>
      cases hfind : owners.find? q with
      | none => simp [hfind] at hq
      | some k₀ =>
          rw [hfind, Option.any_some, sameKey_iff] at hq
          subst hq
          rw [SortedMap.find?_erase_eq_some_iff]
          constructor
          · intro hp
            obtain ⟨hne, hr⟩ := hp
            exact ⟨hr, fun e => hne e.1⟩
          · intro hp
            obtain ⟨hr, hne⟩ := hp
            refine ⟨fun e => hne ⟨e, ?_⟩, hr⟩
            subst e
            exact Option.some.inj (hr.symm.trans hfind)
  · next hq =>
      constructor
      · intro hr
        refine ⟨hr, ?_⟩
        intro hp
        obtain ⟨rfl, rfl⟩ := hp
        exact hq (by rw [hr]; exact sameKey_iff.2 rfl)
      · exact And.left

theorem find?_foldl_erase (rs : List Reference) (k k' : κ) (r : Reference) :
    ∀ owners : SortedMap Reference κ,
      (rs.foldl (fun owners r =>
        if (owners.find? r).any (sameKey k) then owners.erase r else owners) owners).find? r =
          some k' ↔ owners.find? r = some k' ∧ ¬ (r ∈ rs ∧ k' = k) := by
  induction rs with
  | nil => simp
  | cons q rest ih =>
      intro owners
      rw [List.foldl_cons, ih, find?_eraseOwned, List.mem_cons]
      tauto

theorem find?_releasedBy {owners : SortedMap Reference κ} {c : Container κ} {r : Reference}
    {k : κ} : (releasedBy owners c).find? r = some k ↔
      owners.find? r = some k ∧ ¬ (r ∈ c.references ∧ k = c.key) :=
  find?_foldl_erase c.references c.key k r owners

/-- Without what one container owns, the owners are those of the other keys. -/
theorem Exact.find?_releasedBy (h : ix.Exact) {c : Container κ} (hc : ix.Live c) {r : Reference}
    {k : κ} : (releasedBy ix.owners c).find? r = some k ↔
      k ≠ c.key ∧ ∃ d, ix.get? k = some d ∧ r ∈ d.references := by
  rw [Index.find?_releasedBy, h.owner_iff]
  constructor
  · intro hp
    obtain ⟨⟨d, hd, hr⟩, hne⟩ := hp
    refine ⟨fun hk => hne ⟨?_, hk⟩, d, hd, hr⟩
    subst hk
    rwa [← Option.some.inj (hd.symm.trans hc)]
  · intro hp
    obtain ⟨hne, hd⟩ := hp
    exact ⟨hd, fun e => hne e.2⟩

/-! ## What each operation does -/

theorem anyOwned_iff {rs : List Reference} {besides : Option κ} :
    ix.anyOwned rs besides = true ↔
      ∃ r ∈ rs, ∃ k, ix.owners.find? r = some k ∧ besides ≠ some k := by
  rw [anyOwned, List.any_eq_true]
  refine exists_congr fun r => and_congr_right fun _ => ?_
  cases hr : ix.owners.find? r with
  | none => simp
  | some k =>
      cases besides with
      | none => simp
      | some key =>
          simp only [Option.any_some, Bool.not_eq_true', ← Bool.not_eq_true, sameKey_iff,
            Option.some.injEq, exists_eq_left', ne_eq]
          exact not_congr eq_comm

theorem anyOwned_eq_false_iff {rs : List Reference} {besides : Option κ} :
    ix.anyOwned rs besides = false ↔
      ∀ r ∈ rs, ∀ k, ix.owners.find? r = some k → besides = some k := by
  rw [← Bool.not_eq_true, anyOwned_iff]
  push Not
  rfl

theorem add_cases (ix : Index κ) (c : Container κ) :
    (ix.add c = (false, ix) ∧
      (ix.containsKey c.key = true ∨ ix.anyOwned c.references none = true)) ∨
    (ix.add c = (true, ix.store ix.owners c) ∧ ix.get? c.key = none ∧
      ix.anyOwned c.references none = false) := by
  rw [add]
  split
  · next hkey => exact .inl ⟨rfl, .inl hkey⟩
  · next hkey =>
      split
      · next hrefs => exact .inl ⟨rfl, .inr hrefs⟩
      · next hrefs =>
          rw [Bool.not_eq_true] at hkey hrefs
          exact .inr ⟨rfl, SortedMap.contains_eq_false_iff.1 hkey, hrefs⟩

/-- A replacement is refused, or the old container is the one that is stored and the references of
the new one are free or its own. -/
theorem replace_cases (ix : Index κ) (old new : Container κ) :
    ix.replace old new = (false, ix) ∨
    (ix.replace old new = (true, ix.store (releasedBy ix.owners old) new) ∧ new.key = old.key ∧
      (∃ c, ix.get? old.key = some c ∧ c.handle = old.handle) ∧
      ix.anyOwned new.references (some old.key) = false) := by
  rw [replace]
  split
  · exact .inl rfl
  · next hkey =>
      split
      · exact .inl rfl
      · next hold =>
          split
          · exact .inl rfl
          · next hrefs =>
              rw [Bool.not_eq_true', Bool.not_eq_false, sameKey_iff] at hkey
              rw [Bool.not_eq_true] at hrefs
              refine .inr ⟨rfl, hkey, ?_, hrefs⟩
              cases hc : ix.get? old.key with
              | none => simp [hc] at hold
              | some c => exact ⟨c, rfl, by simpa [hc] using hold⟩

theorem get?_store {owners : SortedMap Reference κ} {c d : Container κ} {k : κ} :
    (ix.store owners c).get? k = some d ↔
      (k = c.key ∧ c = d) ∨ (k ≠ c.key ∧ ix.get? k = some d) :=
  SortedMap.find?_insert_eq_some_iff

theorem delete_of_none {k : κ} (h : ix.get? k = none) : ix.delete k = (none, ix) := by
  rw [delete, h]

theorem delete_of_some {k : κ} {c : Container κ} (h : ix.get? k = some c) :
    ix.delete k = (some c, {
      containers := ix.containers.erase k
      owners := releasedBy ix.owners c
      hits := ix.hits.remove k
      revision := ix.revision + 1 }) := by
  rw [delete, h]

/-! ## Exactness is kept -/

/-- Whatever the index is like, a removal takes out one container and counts as one change, or does
nothing. -/
theorem remove_cases (ix : Index κ) (target : Target κ) :
    ix.remove target = (none, ix) ∨
    ∃ c, (ix.remove target).1 = some c ∧ (ix.remove target).2.revision = ix.revision + 1 := by
  have hdelete : ∀ k, ix.delete k = (none, ix) ∨
      ∃ c, (ix.delete k).1 = some c ∧ (ix.delete k).2.revision = ix.revision + 1 := by
    intro k
    cases hc : ix.get? k with
    | none => exact .inl (delete_of_none hc)
    | some c => exact .inr ⟨c, by rw [delete_of_some hc], by rw [delete_of_some hc]⟩
  cases target with
  | key k => exact hdelete k
  | reference r =>
      rw [remove, deleteByReference]
      cases ix.owners.find? r with
      | none => exact .inl rfl
      | some k => exact hdelete k

theorem empty_exact : (empty : Index κ).Exact where
  key_eq h := by cases h
  owner_iff := by
    intro r k
    constructor
    · intro h
      cases h
    · intro hp
      obtain ⟨c, hc, -⟩ := hp
      cases hc

/-- Storing a container keeps exactness if the owners beforehand are those of the other keys and
own none of its references. -/
theorem Exact.store (h : ix.Exact) {owners : SortedMap Reference κ} {c : Container κ}
    (hothers : ∀ r k, owners.find? r = some k ↔
      k ≠ c.key ∧ ∃ d, ix.get? k = some d ∧ r ∈ d.references)
    (hfree : ∀ r ∈ c.references, owners.find? r = none) : (ix.store owners c).Exact where
  key_eq {k d} hd := by
    rcases get?_store.1 hd with ⟨rfl, rfl⟩ | ⟨-, hd⟩
    · rfl
    · exact h.key_eq hd
  owner_iff {r k} := by
    change (ownedBy owners c).find? r = some k ↔ _
    rw [find?_ownedBy, hothers]
    constructor
    · intro hp
      rcases hp with ⟨hr, rfl⟩ | ⟨-, hne, d, hd, hr⟩
      · exact ⟨c, get?_store.2 (.inl ⟨rfl, rfl⟩), hr⟩
      · exact ⟨d, get?_store.2 (.inr ⟨hne, hd⟩), hr⟩
    · intro hp
      obtain ⟨d, hd, hr⟩ := hp
      rcases get?_store.1 hd with ⟨rfl, rfl⟩ | ⟨hne, hd⟩
      · exact .inl ⟨hr, rfl⟩
      · refine .inr ⟨fun hrc => ?_, hne, d, hd, hr⟩
        have hown := (hothers r k).2 ⟨hne, d, hd, hr⟩
        rw [hfree r hrc] at hown
        cases hown

theorem Exact.store_free (h : ix.Exact) {c : Container κ} (hkey : ix.get? c.key = none)
    (hrefs : ix.anyOwned c.references none = false) : (ix.store ix.owners c).Exact := by
  refine h.store (fun r k => ?_) fun r hr => ?_
  · rw [h.owner_iff]
    constructor
    · intro hp
      obtain ⟨d, hd, hr⟩ := hp
      refine ⟨?_, d, hd, hr⟩
      rintro rfl
      rw [hkey] at hd
      cases hd
    · exact And.right
  · cases hk : ix.owners.find? r with
    | none => rfl
    | some k => cases anyOwned_eq_false_iff.1 hrefs r hr k hk

theorem Exact.add (h : ix.Exact) (c : Container κ) : (ix.add c).2.Exact := by
  rcases add_cases ix c with ⟨hadd, -⟩ | ⟨hadd, hkey, hrefs⟩
  · rw [hadd]
    exact h
  · rw [hadd]
    exact h.store_free hkey hrefs

/-- Storing a container in place of the one under its key keeps exactness if its references are
free or its own. -/
theorem Exact.store_over (h : ix.Exact) {old new : Container κ} (hold : ix.get? new.key = some old)
    (hrefs : ix.anyOwned new.references (some new.key) = false) :
    (ix.store (releasedBy ix.owners old) new).Exact := by
  have hkey := h.key_eq hold
  have hlive := h.live hold
  refine h.store (fun r k => ?_) fun r hr => ?_
  · rw [h.find?_releasedBy hlive, hkey]
  · cases hk : (releasedBy ix.owners old).find? r with
    | none => rfl
    | some k =>
        have hne := ((h.find?_releasedBy hlive).1 hk).1
        rw [Index.find?_releasedBy] at hk
        have hown := Option.some.inj (anyOwned_eq_false_iff.1 hrefs r hr k hk.1)
        exact absurd hown.symm (hkey ▸ hne)

/-- A replacement keeps exactness if no other stored container has the handle of the old one. -/
theorem Exact.replace (h : ix.Exact) {old : Container κ} (new : Container κ)
    (hsame : ∀ c, ix.get? old.key = some c → c.handle = old.handle → c = old) :
    (ix.replace old new).2.Exact := by
  rcases replace_cases ix old new with hrep | ⟨hrep, hkey, ⟨c, hc, hhandle⟩, hrefs⟩
  · rw [hrep]
    exact h
  · rw [hrep]
    obtain rfl := hsame c hc hhandle
    rw [← hkey] at hc hrefs
    exact h.store_over hc hrefs

theorem Exact.delete (h : ix.Exact) (k : κ) : (ix.delete k).2.Exact := by
  cases hc : ix.get? k with
  | none =>
      rw [delete_of_none hc]
      exact h
  | some c =>
      have hkey := h.key_eq hc
      have hget : ∀ {k' d}, (ix.containers.erase k).find? k' = some d ↔
          k' ≠ k ∧ ix.get? k' = some d := SortedMap.find?_erase_eq_some_iff
      rw [delete_of_some hc]
      refine ⟨fun hd => h.key_eq (hget.1 hd).2, fun {r k'} => ?_⟩
      change (releasedBy ix.owners c).find? r = some k' ↔ _
      rw [h.find?_releasedBy (h.live hc), hkey]
      constructor
      · intro hp
        obtain ⟨hne, d, hd, hr⟩ := hp
        exact ⟨d, hget.2 ⟨hne, hd⟩, hr⟩
      · intro hp
        obtain ⟨d, hd, hr⟩ := hp
        exact ⟨(hget.1 hd).1, d, (hget.1 hd).2, hr⟩

theorem Exact.recordHit (h : ix.Exact) (k : κ) : (ix.recordHit k).2.Exact :=
  ⟨h.key_eq, h.owner_iff⟩

/-! ## What exactness answers

Every look-up that goes through the owners can be read off the live containers. -/

/-- A snapshot holds the live containers. -/
theorem Exact.mem_snapshot_iff (h : ix.Exact) {etag : String} {c : Container κ} :
    c ∈ (ix.snapshot etag).containers ↔ ix.Live c := by
  refine SortedMap.mem_values_iff.trans ⟨fun hp => ?_, fun hc => ⟨c.key, hc⟩⟩
  obtain ⟨k, hk⟩ := hp
  exact h.live hk

/-- The keys of a snapshot are those of the index, in its order. -/
theorem Exact.keys_snapshot (h : ix.Exact) (etag : String) :
    (ix.snapshot etag).containers.map (·.key) = ix.containers.keys := by
  change (ix.containers.entries.map Prod.snd).map (·.key) = _
  rw [List.map_map]
  refine List.map_congr_left fun p hp => ?_
  exact h.key_eq (SortedMap.find?_eq_some_iff.2 hp)

/-- The references that the live containers list, repetitions included. -/
def listed (ix : Index κ) : List Reference := ix.containers.values.flatMap fun c => c.references

theorem mem_listed_iff {r : Reference} :
    r ∈ ix.listed ↔ ∃ k c, ix.get? k = some c ∧ r ∈ c.references := by
  simp only [listed, List.mem_flatMap, SortedMap.mem_values_iff, get?]
  constructor
  · intro hp
    obtain ⟨c, ⟨k, hk⟩, hr⟩ := hp
    exact ⟨k, c, hk, hr⟩
  · intro hp
    obtain ⟨k, c, hk, hr⟩ := hp
    exact ⟨c, ⟨k, hk⟩, hr⟩

theorem Exact.referenceCount_eq (h : ix.Exact) :
    ix.referenceCount = ix.listed.dedup.length := by
  refine SortedMap.size_eq_length_dedup fun r => ?_
  rw [mem_listed_iff]
  exact exists_congr fun k => h.owner_iff

theorem Exact.live_unique (h : ix.Exact) {c d : Container κ} (hc : ix.Live c) (hd : ix.Live d)
    {r : Reference} (hrc : r ∈ c.references) (hrd : r ∈ d.references) : c = d := by
  have hkey : some c.key = some d.key :=
    (h.owner_of_live hc hrc).symm.trans (h.owner_of_live hd hrd)
  rw [Live, Option.some.inj hkey] at hc
  exact Option.some.inj (hc.symm.trans hd)

theorem Exact.owner_eq_none_iff (h : ix.Exact) {r : Reference} :
    ix.owners.find? r = none ↔ ∀ c, ix.Live c → r ∉ c.references := by
  rw [Option.eq_none_iff_forall_ne_some]
  constructor
  · intro hnone c hc hr
    exact hnone _ (h.owner_of_live hc hr)
  · intro hfree k hk
    obtain ⟨c, hc, hr⟩ := h.owner_iff.1 hk
    exact hfree c (h.live hc) hr

theorem Exact.getByReference?_eq_some_iff (h : ix.Exact) {r : Reference} {c : Container κ} :
    ix.getByReference? r = some c ↔ ix.Live c ∧ r ∈ c.references := by
  rw [getByReference?, Option.bind_eq_some_iff]
  constructor
  · intro hp
    obtain ⟨k, hk, hc⟩ := hp
    obtain ⟨d, hd, hr⟩ := h.owner_iff.1 hk
    obtain rfl := Option.some.inj (hd.symm.trans hc)
    exact ⟨h.live hc, hr⟩
  · intro hp
    obtain ⟨hc, hr⟩ := hp
    exact ⟨c.key, h.owner_of_live hc hr, hc⟩

theorem Exact.getByReference?_eq_none_iff (h : ix.Exact) {r : Reference} :
    ix.getByReference? r = none ↔ ∀ c, ix.Live c → r ∉ c.references := by
  simp only [Option.eq_none_iff_forall_ne_some, ne_eq, h.getByReference?_eq_some_iff, not_and]

theorem Exact.anyOwned_iff (h : ix.Exact) {rs : List Reference} {besides : Option κ} :
    ix.anyOwned rs besides = true ↔
      ∃ r ∈ rs, ∃ c, ix.Live c ∧ r ∈ c.references ∧ besides ≠ some c.key := by
  rw [Index.anyOwned_iff]
  refine exists_congr fun r => and_congr_right fun _ => ?_
  constructor
  · intro hp
    obtain ⟨k, hk, hne⟩ := hp
    obtain ⟨c, hc, hr⟩ := h.owner_iff.1 hk
    refine ⟨c, h.live hc, hr, ?_⟩
    rwa [h.key_eq hc]
  · intro hp
    obtain ⟨c, hc, hr, hne⟩ := hp
    exact ⟨c.key, h.owner_of_live hc hr, hne⟩

theorem Exact.anyOwned_eq_false_iff (h : ix.Exact) {rs : List Reference} {k : κ} :
    ix.anyOwned rs (some k) = false ↔
      ∀ r ∈ rs, ∀ c, ix.Live c → r ∈ c.references → c.key = k := by
  rw [← Bool.not_eq_true, h.anyOwned_iff]
  simp only [not_exists, not_and, not_not, ne_eq, Option.some.injEq]
  exact forall₅_congr fun _ _ _ _ _ => eq_comm

/-- A call finds a container only under its key. -/
theorem Exact.live_of_find? (h : ix.Exact) {target : Target κ} {c : Container κ}
    (hc : ix.find? target = some c) : ix.Live c := by
  cases target with
  | key k => exact h.live hc
  | reference r => exact (h.getByReference?_eq_some_iff.1 hc).1

theorem Exact.remove_of_none (h : ix.Exact) {target : Target κ} (hc : ix.find? target = none) :
    ix.remove target = (none, ix) := by
  cases target with
  | key k => exact delete_of_none hc
  | reference r =>
      rw [Index.remove, Index.deleteByReference,
        h.owner_eq_none_iff.2 (h.getByReference?_eq_none_iff.1 hc)]

theorem Exact.remove_of_some (h : ix.Exact) {target : Target κ} {c : Container κ}
    (hc : ix.find? target = some c) : ix.remove target = ix.delete c.key := by
  cases target with
  | key k => rw [h.key_eq hc, Index.remove]
  | reference r =>
      obtain ⟨hlive, hr⟩ := h.getByReference?_eq_some_iff.1 hc
      rw [Index.remove, Index.deleteByReference, h.owner_of_live hlive hr]

theorem live_delete_iff {c d : Container κ} (hc : ix.Live c) :
    (ix.delete c.key).2.Live d ↔ ix.Live d ∧ d ≠ c := by
  rw [delete_of_some hc]
  change (ix.containers.erase c.key).find? d.key = some d ↔ _
  rw [SortedMap.find?_erase_eq_some_iff]
  constructor
  · intro hp
    obtain ⟨hne, hd⟩ := hp
    exact ⟨hd, fun e => hne (congrArg (·.key) e)⟩
  · intro hp
    obtain ⟨hd, hne⟩ := hp
    refine ⟨fun e => hne ?_, hd⟩
    rw [Live, e] at hd
    exact Option.some.inj (hd.symm.trans hc)

/-- What is stored after a removal was stored before. -/
theorem Exact.live_of_remove (h : ix.Exact) (target : Target κ) {d : Container κ}
    (hd : (ix.remove target).2.Live d) : ix.Live d := by
  cases hc : ix.find? target with
  | none =>
      rw [h.remove_of_none hc] at hd
      exact hd
  | some c =>
      rw [h.remove_of_some hc] at hd
      exact ((live_delete_iff (h.live_of_find? hc)).1 hd).1

end EntityStore.Index
