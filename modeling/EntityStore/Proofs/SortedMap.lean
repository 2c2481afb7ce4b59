import EntityStore.SortedMap
import Mathlib.Data.List.Dedup

/-!
# What a sorted map holds, as equivalences

The look-up equations of `SortedMap` decide on `rank`, which is what a
computation wants. An invariant asks the question the other way round: given
that a look-up answered, what was written? So each operation is restated here
as an equivalence between look-ups, with plain equality of keys, and the lists
that a map shows (its keys, its values, its size) are described by look-ups
alone.
-/

namespace EntityStore.SortedMap

variable {κ α : Type} [Ranked κ]

theorem find?_insert_eq_some_iff {m : SortedMap κ α} {k k' : κ} {a b : α} :
    (m.insert k a).find? k' = some b ↔
      (k' = k ∧ a = b) ∨ (k' ≠ k ∧ m.find? k' = some b) := by
  by_cases h : k' = k
  · subst h
    simp
  · rw [find?_insert_of_ne m a h]
    simp [h]

theorem find?_erase_eq_some_iff {m : SortedMap κ α} {k k' : κ} {b : α} :
    (m.erase k).find? k' = some b ↔ k' ≠ k ∧ m.find? k' = some b := by
  by_cases h : k' = k
  · subst h
    simp
  · rw [find?_erase_of_ne m h]
    simp [h]

theorem contains_iff {m : SortedMap κ α} {k : κ} :
    m.contains k = true ↔ ∃ a, m.find? k = some a := Option.isSome_iff_exists

theorem contains_eq_false_iff {m : SortedMap κ α} {k : κ} :
    m.contains k = false ↔ m.find? k = none := by
  rw [contains, Option.isSome_eq_false_iff, Option.isNone_iff_eq_none]

/-- Writing one value under every key of a list, however often the list names a key. -/
theorem find?_foldl_insert (l : List κ) (a b : α) (k : κ) : ∀ m : SortedMap κ α,
    (l.foldl (fun m k => m.insert k a) m).find? k = some b ↔
      (k ∈ l ∧ a = b) ∨ (k ∉ l ∧ m.find? k = some b) := by
  induction l with
  | nil => simp
  | cons q rest ih =>
      intro m
      rw [List.foldl_cons, ih, find?_insert_eq_some_iff, List.mem_cons]
      tauto

/-! ## Writing a value or nothing -/

/-- Maps a key to a value, or to nothing. -/
def put (m : SortedMap κ α) (k : κ) : Option α → SortedMap κ α
  | some a => m.insert k a
  | none => m.erase k

@[simp] theorem find?_put_self (m : SortedMap κ α) (k : κ) (a : Option α) :
    (m.put k a).find? k = a := by
  cases a <;> simp [put]

theorem find?_put_of_ne (m : SortedMap κ α) {k k' : κ} (a : Option α) (h : k' ≠ k) :
    (m.put k a).find? k' = m.find? k' := by
  cases a with
  | none => exact find?_erase_of_ne m h
  | some a => exact find?_insert_of_ne m a h

theorem put_put (m : SortedMap κ α) (k : κ) (a b : Option α) :
    (m.put k a).put k b = m.put k b := by
  refine ext_find? fun q => ?_
  by_cases h : q = k
  · simp [h]
  · simp only [find?_put_of_ne _ _ h]

/-- Writing what stands there already. -/
theorem put_find? {m : SortedMap κ α} {k : κ} {a : Option α} (h : m.find? k = a) :
    m.put k a = m := by
  refine ext_find? fun q => ?_
  by_cases hq : q = k
  · simp [hq, h]
  · exact find?_put_of_ne m a hq

theorem put_comm (m : SortedMap κ α) {k k' : κ} (a b : Option α) (h : k ≠ k') :
    (m.put k a).put k' b = (m.put k' b).put k a := by
  refine ext_find? fun q => ?_
  by_cases hq : q = k
  · subst hq
    simp [find?_put_of_ne _ _ h]
  · by_cases hq' : q = k'
    · subst hq'
      simp [find?_put_of_ne _ _ hq]
    · simp only [find?_put_of_ne _ _ hq, find?_put_of_ne _ _ hq']

/-! ## Writing twice -/

theorem insert_insert (m : SortedMap κ α) (k : κ) (a b : α) :
    (m.insert k a).insert k b = m.insert k b := m.put_put k (some a) (some b)

theorem insert_comm (m : SortedMap κ α) {k k' : κ} (a b : α) (h : k ≠ k') :
    (m.insert k a).insert k' b = (m.insert k' b).insert k a := m.put_comm (some a) (some b) h

theorem erase_insert (m : SortedMap κ α) (k : κ) (a : α) : (m.insert k a).erase k = m.erase k :=
  m.put_put k (some a) none

/-! ## Keys, values and size -/

theorem mem_keys_iff {m : SortedMap κ α} {k : κ} :
    k ∈ m.keys ↔ ∃ a, m.find? k = some a := by
  simp only [keys, List.mem_map, find?_eq_some_iff]
  constructor
  · intro hp
    obtain ⟨p, hp, rfl⟩ := hp
    exact ⟨p.2, hp⟩
  · intro hp
    obtain ⟨a, ha⟩ := hp
    exact ⟨(k, a), ha, rfl⟩

theorem mem_values_iff {m : SortedMap κ α} {a : α} :
    a ∈ m.values ↔ ∃ k, m.find? k = some a := by
  simp only [values, List.mem_map, find?_eq_some_iff]
  constructor
  · intro hp
    obtain ⟨p, hp, rfl⟩ := hp
    exact ⟨p.1, hp⟩
  · intro hp
    obtain ⟨k, hk⟩ := hp
    exact ⟨(k, a), hk, rfl⟩

theorem nodup_keys (m : SortedMap κ α) : m.keys.Nodup := by
  rw [keys, List.Nodup, List.pairwise_map]
  exact m.ascending.imp fun h => Ranked.ne_of_rank_lt h

theorem length_keys (m : SortedMap κ α) : m.keys.length = m.size := List.length_map _

theorem size_eq_length_dedup [DecidableEq κ] {m : SortedMap κ α} {l : List κ}
    (h : ∀ k, (∃ a, m.find? k = some a) ↔ k ∈ l) : m.size = l.dedup.length := by
  have hperm : m.keys.Perm l.dedup := by
    rw [List.perm_ext_iff_of_nodup m.nodup_keys (List.nodup_dedup l)]
    intro k
    rw [mem_keys_iff, List.mem_dedup, h]
  rw [← length_keys, hperm.length_eq]

/-! ## Entries -/

theorem eq_empty {m : SortedMap κ α} (h : m.isEmpty = true) : m = empty := by
  have hentries : m.entries = [] := List.isEmpty_iff.1 h
  refine ext_find? fun k => ?_
  rw [find?, hentries]
  rfl

/-- Writing entries, of which no two have one key. -/
theorem find?_foldl_entries {l : List (κ × α)} (h : (l.map Prod.fst).Nodup) (k : κ) (a : α) :
    ∀ m : SortedMap κ α, (l.foldl (fun m p => m.insert p.1 p.2) m).find? k = some a ↔
      (k, a) ∈ l ∨ (k ∉ l.map Prod.fst ∧ m.find? k = some a) := by
  induction l with
  | nil => simp
  | cons p rest ih =>
      intro m
      obtain ⟨hp, hrest⟩ := List.nodup_cons.1 h
      have hkey : (k, a) ∈ rest → k ≠ p.1 := by
        rintro hmem rfl
        exact hp (List.mem_map.2 ⟨_, hmem, rfl⟩)
      rw [List.foldl_cons, ih hrest, find?_insert_eq_some_iff, List.map_cons, List.mem_cons,
        List.mem_cons, Prod.ext_iff]
      by_cases hk : k = p.1
      · subst hk
        tauto
      · tauto

/-- A map is made from its entries. -/
theorem ofList_entries (m : SortedMap κ α) : ofList m.entries = m := by
  refine ext_find? fun k => Option.ext fun a => ?_
  rw [ofList, find?_foldl_entries m.nodup_keys, find?_empty, find?_eq_some_iff]
  simp

end EntityStore.SortedMap
