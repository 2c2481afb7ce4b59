import EntityStore.Ranked

/-!
# Maps that list their keys in order

A `SortedMap` is the list of its entries, strictly ascending by key. The list
is the map: two maps that answer every look-up alike are equal (`ext_find?`),
so "the same contents" is plain equality and needs no second notion.

What each operation does is said by how look-ups read afterwards:
`find?_empty`, `find?_insert`, `find?_erase`.
-/

namespace EntityStore

/-- A finite map, as the list of its entries in strictly ascending key order. -/
structure SortedMap (κ α : Type) [Ranked κ] where
  entries : List (κ × α)
  ascending : entries.Pairwise fun p q => rank p.1 q.1 = .lt

namespace SortedMap

variable {κ α β : Type} [Ranked κ]

/-! ## Entry lists -/

/-- Puts an entry at its place, in place of one with the same key. -/
def insertEntry (k : κ) (a : α) : List (κ × α) → List (κ × α)
  | [] => [(k, a)]
  | p :: rest =>
    match rank k p.1 with
    | .lt => (k, a) :: p :: rest
    | .eq => (k, a) :: rest
    | .gt => p :: insertEntry k a rest

/-- Leaves out the entry with the given key. -/
def eraseEntry (k : κ) : List (κ × α) → List (κ × α)
  | [] => []
  | p :: rest =>
    match rank k p.1 with
    | .lt => p :: rest
    | .eq => rest
    | .gt => p :: eraseEntry k rest

/-- The value of the entry with the given key. -/
def valueIn? (k : κ) : List (κ × α) → Option α
  | [] => none
  | p :: rest => if rank k p.1 = .eq then some p.2 else valueIn? k rest

theorem mem_insertEntry {k : κ} {a : α} {p : κ × α} {l : List (κ × α)}
    (h : p ∈ insertEntry k a l) : p = (k, a) ∨ p ∈ l := by
  induction l with
  | nil => simpa [insertEntry] using h
  | cons q rest ih =>
    rw [insertEntry] at h
    cases hq : rank k q.1 <;> simp only [hq] at h
    · simpa using h
    · rcases List.mem_cons.1 h with h | h
      · exact .inl h
      · exact .inr (List.mem_cons_of_mem _ h)
    · rcases List.mem_cons.1 h with h | h
      · exact .inr (h ▸ List.mem_cons_self)
      · rcases ih h with h | h
        · exact .inl h
        · exact .inr (List.mem_cons_of_mem _ h)

theorem mem_of_mem_eraseEntry {k : κ} {p : κ × α} {l : List (κ × α)}
    (h : p ∈ eraseEntry k l) : p ∈ l := by
  induction l with
  | nil => simp [eraseEntry] at h
  | cons q rest ih =>
    rw [eraseEntry] at h
    cases hq : rank k q.1 <;> simp only [hq] at h
    · exact h
    · exact List.mem_cons_of_mem _ h
    · rcases List.mem_cons.1 h with h | h
      · exact h ▸ List.mem_cons_self
      · exact List.mem_cons_of_mem _ (ih h)

theorem insertEntry_ascending (k : κ) (a : α) {l : List (κ × α)}
    (h : l.Pairwise fun p q => rank p.1 q.1 = .lt) :
    (insertEntry k a l).Pairwise fun p q => rank p.1 q.1 = .lt := by
  induction l with
  | nil => simp [insertEntry]
  | cons q rest ih =>
    obtain ⟨hhead, htail⟩ := List.pairwise_cons.1 h
    rw [insertEntry]
    cases hq : rank k q.1 with
    | lt =>
      refine List.pairwise_cons.2 ⟨fun p hp => ?_, h⟩
      rcases List.mem_cons.1 hp with rfl | hp
      · exact hq
      · exact Ranked.rank_lt_trans _ _ _ hq (hhead p hp)
    | eq =>
      obtain rfl := (Ranked.rank_eq_iff _ _).1 hq
      exact List.pairwise_cons.2 ⟨hhead, htail⟩
    | gt =>
      refine List.pairwise_cons.2 ⟨fun p hp => ?_, ih htail⟩
      rcases mem_insertEntry hp with rfl | hp
      · exact (Ranked.rank_gt_iff _ _).1 hq
      · exact hhead p hp

theorem eraseEntry_ascending (k : κ) {l : List (κ × α)}
    (h : l.Pairwise fun p q => rank p.1 q.1 = .lt) :
    (eraseEntry k l).Pairwise fun p q => rank p.1 q.1 = .lt := by
  induction l with
  | nil => simp [eraseEntry]
  | cons q rest ih =>
    obtain ⟨hhead, htail⟩ := List.pairwise_cons.1 h
    rw [eraseEntry]
    cases rank k q.1 with
    | lt => exact h
    | eq => exact htail
    | gt => exact List.pairwise_cons.2 ⟨fun p hp => hhead p (mem_of_mem_eraseEntry hp), ih htail⟩

/-! ## Maps -/

def empty : SortedMap κ α := ⟨[], .nil⟩

instance : EmptyCollection (SortedMap κ α) := ⟨empty⟩

instance : Inhabited (SortedMap κ α) := ⟨empty⟩

/-- Maps a key to a value, whatever it was mapped to before. -/
def insert (m : SortedMap κ α) (k : κ) (a : α) : SortedMap κ α :=
  ⟨insertEntry k a m.entries, insertEntry_ascending k a m.ascending⟩

def erase (m : SortedMap κ α) (k : κ) : SortedMap κ α :=
  ⟨eraseEntry k m.entries, eraseEntry_ascending k m.ascending⟩

def find? (m : SortedMap κ α) (k : κ) : Option α := valueIn? k m.entries

def contains (m : SortedMap κ α) (k : κ) : Bool := (m.find? k).isSome

def size (m : SortedMap κ α) : Nat := m.entries.length

def isEmpty (m : SortedMap κ α) : Bool := m.entries.isEmpty

def keys (m : SortedMap κ α) : List κ := m.entries.map Prod.fst

def values (m : SortedMap κ α) : List α := m.entries.map Prod.snd

/-- The map of the given entries; of two with one key the later counts. -/
def ofList (entries : List (κ × α)) : SortedMap κ α :=
  entries.foldl (fun m p => m.insert p.1 p.2) empty

/-! ## Look-ups -/

theorem valueIn?_eq_none_of_lt {k : κ} {l : List (κ × α)}
    (h : ∀ p ∈ l, rank k p.1 = .lt) : valueIn? k l = none := by
  induction l with
  | nil => rfl
  | cons q rest ih =>
    have hq := h q List.mem_cons_self
    simp [valueIn?, hq, ih fun p hp => h p (List.mem_cons_of_mem _ hp)]

theorem valueIn?_insertEntry (k k' : κ) (a : α) (l : List (κ × α)) :
    valueIn? k' (insertEntry k a l) = if rank k' k = .eq then some a else valueIn? k' l := by
  induction l with
  | nil => simp [insertEntry, valueIn?]
  | cons q rest ih =>
    rw [insertEntry]
    cases hq : rank k q.1 with
    | lt => simp [valueIn?]
    | eq =>
      obtain rfl := (Ranked.rank_eq_iff _ _).1 hq
      simp only [valueIn?]
      split <;> simp [*]
    | gt =>
      simp only [valueIn?, ih]
      by_cases hk : rank k' k = .eq
      · obtain rfl := (Ranked.rank_eq_iff _ _).1 hk
        simp [hq]
      · simp [hk]

theorem valueIn?_eraseEntry (k k' : κ) {l : List (κ × α)}
    (h : l.Pairwise fun p q => rank p.1 q.1 = .lt) :
    valueIn? k' (eraseEntry k l) = if rank k' k = .eq then none else valueIn? k' l := by
  induction l with
  | nil => simp [eraseEntry, valueIn?]
  | cons q rest ih =>
    obtain ⟨hhead, htail⟩ := List.pairwise_cons.1 h
    rw [eraseEntry]
    by_cases hk : rank k' k = .eq
    · obtain rfl := (Ranked.rank_eq_iff _ _).1 hk
      rw [if_pos hk]
      cases hq : rank k' q.1 with
      | lt =>
        refine valueIn?_eq_none_of_lt fun p hp => ?_
        rcases List.mem_cons.1 hp with rfl | hp
        · exact hq
        · exact Ranked.rank_lt_trans _ _ _ hq (hhead p hp)
      | eq =>
        obtain rfl := (Ranked.rank_eq_iff _ _).1 hq
        exact valueIn?_eq_none_of_lt hhead
      | gt =>
        have := ih htail
        rw [if_pos hk] at this
        simp [valueIn?, hq, this]
    · rw [if_neg hk]
      cases hq : rank k q.1 with
      | lt => rfl
      | eq =>
        obtain rfl := (Ranked.rank_eq_iff _ _).1 hq
        simp [valueIn?, hk]
      | gt =>
        have := ih htail
        rw [if_neg hk] at this
        simp [valueIn?, this]

@[simp] theorem find?_empty (k : κ) : (empty : SortedMap κ α).find? k = none := rfl

theorem find?_insert (m : SortedMap κ α) (k k' : κ) (a : α) :
    (m.insert k a).find? k' = if rank k' k = .eq then some a else m.find? k' :=
  valueIn?_insertEntry k k' a m.entries

theorem find?_erase (m : SortedMap κ α) (k k' : κ) :
    (m.erase k).find? k' = if rank k' k = .eq then none else m.find? k' :=
  valueIn?_eraseEntry k k' m.ascending

@[simp] theorem find?_insert_self (m : SortedMap κ α) (k : κ) (a : α) :
    (m.insert k a).find? k = some a := by
  simp [find?_insert]

theorem find?_insert_of_ne (m : SortedMap κ α) {k k' : κ} (a : α) (h : k' ≠ k) :
    (m.insert k a).find? k' = m.find? k' := by
  rw [find?_insert, if_neg fun e => h ((Ranked.rank_eq_iff _ _).1 e)]

@[simp] theorem find?_erase_self (m : SortedMap κ α) (k : κ) : (m.erase k).find? k = none := by
  simp [find?_erase]

theorem find?_erase_of_ne (m : SortedMap κ α) {k k' : κ} (h : k' ≠ k) :
    (m.erase k).find? k' = m.find? k' := by
  rw [find?_erase, if_neg fun e => h ((Ranked.rank_eq_iff _ _).1 e)]

theorem valueIn?_eq_some_iff {k : κ} {a : α} {l : List (κ × α)}
    (h : l.Pairwise fun p q => rank p.1 q.1 = .lt) :
    valueIn? k l = some a ↔ (k, a) ∈ l := by
  induction l with
  | nil => simp [valueIn?]
  | cons q rest ih =>
    obtain ⟨hhead, htail⟩ := List.pairwise_cons.1 h
    rw [valueIn?]
    split
    next hq =>
      obtain rfl := (Ranked.rank_eq_iff _ _).1 hq
      constructor
      · intro e
        exact (Option.some.inj e) ▸ List.mem_cons_self
      · intro hmem
        rcases List.mem_cons.1 hmem with e | hmem
        · rw [← e]
        · exact absurd (hhead (q.1, a) hmem) (by simp)
    next hq =>
      rw [ih htail, List.mem_cons]
      constructor
      · exact .inr
      · rintro (rfl | hmem)
        · exact absurd (Ranked.rank_self _) hq
        · exact hmem

/-- A look-up finds exactly the listed entries. -/
theorem find?_eq_some_iff {m : SortedMap κ α} {k : κ} {a : α} :
    m.find? k = some a ↔ (k, a) ∈ m.entries :=
  valueIn?_eq_some_iff m.ascending

/-! ## Equality -/

theorem eq_of_valueIn?_eq {l₁ l₂ : List (κ × α)}
    (h₁ : l₁.Pairwise fun p q => rank p.1 q.1 = .lt)
    (h₂ : l₂.Pairwise fun p q => rank p.1 q.1 = .lt)
    (h : ∀ k, valueIn? k l₁ = valueIn? k l₂) : l₁ = l₂ := by
  have mem : ∀ p, p ∈ l₁ ↔ p ∈ l₂ := fun p => by
    rw [← valueIn?_eq_some_iff (k := p.1) (a := p.2) h₁,
      ← valueIn?_eq_some_iff (k := p.1) (a := p.2) h₂, h]
  clear h
  induction l₁ generalizing l₂ with
  | nil =>
    cases l₂ with
    | nil => rfl
    | cons q rest => exact absurd ((mem q).2 List.mem_cons_self) (by simp)
  | cons p rest₁ ih =>
    cases l₂ with
    | nil => exact absurd ((mem p).1 List.mem_cons_self) (by simp)
    | cons q rest₂ =>
      obtain ⟨hhead₁, htail₁⟩ := List.pairwise_cons.1 h₁
      obtain ⟨hhead₂, htail₂⟩ := List.pairwise_cons.1 h₂
      have hpq : p = q := by
        rcases List.mem_cons.1 ((mem p).1 List.mem_cons_self) with e | hp
        · exact e
        · rcases List.mem_cons.1 ((mem q).2 List.mem_cons_self) with e | hq
          · exact e.symm
          · have := Ranked.rank_lt_trans _ _ _ (hhead₁ q hq) (hhead₂ p hp)
            simp at this
      subst hpq
      have : rest₁ = rest₂ := ih htail₁ htail₂ fun r => by
        constructor
        · intro hr
          rcases List.mem_cons.1 ((mem r).1 (List.mem_cons_of_mem _ hr)) with rfl | hr'
          · exact absurd rfl (Ranked.ne_of_rank_lt (hhead₁ _ hr))
          · exact hr'
        · intro hr
          rcases List.mem_cons.1 ((mem r).2 (List.mem_cons_of_mem _ hr)) with rfl | hr'
          · exact absurd rfl (Ranked.ne_of_rank_lt (hhead₂ _ hr))
          · exact hr'
      rw [this]

/-- Maps that answer every look-up alike are the same map. -/
theorem ext_find? {m₁ m₂ : SortedMap κ α} (h : ∀ k, m₁.find? k = m₂.find? k) : m₁ = m₂ := by
  cases m₁ with
  | mk l₁ h₁ =>
    cases m₂ with
    | mk l₂ h₂ =>
      have : l₁ = l₂ := eq_of_valueIn?_eq h₁ h₂ h
      subst this
      rfl

end SortedMap

end EntityStore
