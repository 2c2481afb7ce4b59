import EntityStore.Proofs.Index.Exact

/-!
# Every index that operations can lead to is exact

A run starts from the empty index and applies operations in any order, on any
containers, accepted or not. Containers are told apart by their handles alone,
so what the handles of a run stand for is a function, a `Heap`: one container
may be added, removed and added again, and containers alike in every part may
be many.

One step keeps the index exact. A replacement asks for one fact more, that the
container stored under the key is the old one if it has the old one's handle;
so the invariant of a run says besides that whatever is stored came from the
heap (`Sound`).
-/

namespace EntityStore.Index

variable {κ : Type} [Ranked κ] {ix : Index κ}

/-- What handles stand for. -/
structure Heap (κ : Type) where
  container : Handle → Container κ
  handle_eq : ∀ h, (container h).handle = h

/-- An operation on an index, its containers given by their handles. -/
inductive Operation (κ : Type) where
  | add (c : Handle)
  | replace (old new : Handle)
  | delete (k : κ)
  | deleteByReference (r : Reference)
  | recordHit (k : κ)
  | snapshot (etag : String)

/-- The index after an operation. -/
def Operation.applied (heap : Heap κ) (ix : Index κ) : Operation κ → Index κ
  | .add c => (ix.add (heap.container c)).2
  | .replace old new => (ix.replace (heap.container old) (heap.container new)).2
  | .delete k => (ix.delete k).2
  | .deleteByReference r => (ix.deleteByReference r).2
  | .recordHit k => (ix.recordHit k).2
  | .snapshot _ => ix

/-- The index that operations lead to, one after another from the empty one. -/
def reached (heap : Heap κ) (ops : List (Operation κ)) : Index κ :=
  ops.foldl (Operation.applied heap) empty

/-- What every step of a run keeps: the index is exact, and what it stores came from the heap. -/
structure Sound (heap : Heap κ) (ix : Index κ) : Prop where
  exact : ix.Exact
  container_eq : ∀ {k c}, ix.get? k = some c → heap.container c.handle = c

theorem Sound.store {heap : Heap κ} (h : Sound heap ix) {owners : SortedMap Reference κ}
    {c : Handle} {k : κ} {d : Container κ}
    (hd : (ix.store owners (heap.container c)).get? k = some d) :
    heap.container d.handle = d := by
  rcases get?_store.1 hd with ⟨-, rfl⟩ | ⟨-, hd⟩
  · rw [heap.handle_eq]
  · exact h.container_eq hd

theorem Sound.delete {heap : Heap κ} (h : Sound heap ix) (k : κ) : Sound heap (ix.delete k).2 := by
  refine ⟨h.exact.delete k, fun {k' d} hd => ?_⟩
  cases hc : ix.get? k with
  | none =>
      rw [delete_of_none hc] at hd
      exact h.container_eq hd
  | some c =>
      rw [delete_of_some hc] at hd
      exact h.container_eq (SortedMap.find?_erase_eq_some_iff.1 hd).2

theorem Sound.applied {heap : Heap κ} (h : Sound heap ix) (op : Operation κ) :
    Sound heap (op.applied heap ix) := by
  cases op with
  | add c =>
      refine ⟨h.exact.add _, fun {k d} hd => ?_⟩
      rcases add_cases ix (heap.container c) with ⟨hadd, -⟩ | ⟨hadd, -⟩
      · rw [Operation.applied, hadd] at hd
        exact h.container_eq hd
      · rw [Operation.applied, hadd] at hd
        exact h.store hd
  | replace old new =>
      refine ⟨h.exact.replace _ fun c hc hhandle => ?_, fun {k d} hd => ?_⟩
      · rw [← h.container_eq hc, hhandle, heap.handle_eq]
      · rcases replace_cases ix (heap.container old) (heap.container new) with hrep | ⟨hrep, -⟩
        · rw [Operation.applied, hrep] at hd
          exact h.container_eq hd
        · rw [Operation.applied, hrep] at hd
          exact h.store hd
  | delete k => exact h.delete k
  | deleteByReference r =>
      rw [Operation.applied, Index.deleteByReference]
      cases ix.owners.find? r with
      | none => exact h
      | some k => exact h.delete k
  | recordHit k => exact ⟨h.exact.recordHit k, h.container_eq⟩
  | snapshot etag => exact h

theorem Sound.foldl {heap : Heap κ} (ops : List (Operation κ)) (h : Sound heap ix) :
    Sound heap (ops.foldl (Operation.applied heap) ix) := by
  induction ops generalizing ix with
  | nil => exact h
  | cons op rest ih => exact ih (h.applied op)

theorem reached_sound (heap : Heap κ) (ops : List (Operation κ)) :
    Sound heap (reached heap ops) :=
  Sound.foldl ops ⟨empty_exact, fun hd => by cases hd⟩

theorem reached_exact (heap : Heap κ) (ops : List (Operation κ)) : (reached heap ops).Exact :=
  (reached_sound heap ops).exact

/-- After any operations the owners are exactly what the live containers list, and every answer
that goes through the owners is the one that the live containers give. -/
theorem reached_owners_exact (heap : Heap κ) (ops : List (Operation κ)) :
    let ix := reached heap ops
    (∀ r k, ix.owners.find? r = some k ↔ ∃ c, ix.get? k = some c ∧ r ∈ c.references) ∧
    (∀ k c, ix.get? k = some c → c.key = k) ∧
    (∀ r c d, ix.Live c → ix.Live d → r ∈ c.references → r ∈ d.references → c = d) ∧
    ix.referenceCount = ix.listed.dedup.length ∧
    (∀ r c, ix.getByReference? r = some c ↔ ix.Live c ∧ r ∈ c.references) ∧
    (∀ r, ix.getByReference? r = none ↔ ∀ c, ix.Live c → r ∉ c.references) ∧
    (∀ r c, ix.Live c → r ∈ c.references →
      (ix.deleteByReference r).1 = some c ∧
      ∀ d, (ix.deleteByReference r).2.Live d ↔ ix.Live d ∧ d ≠ c) ∧
    (∀ r, (∀ c, ix.Live c → r ∉ c.references) → ix.deleteByReference r = (none, ix)) ∧
    (∀ rs besides, ix.anyOwned rs besides = true ↔
      ∃ r ∈ rs, ∃ c, ix.Live c ∧ r ∈ c.references ∧ besides ≠ some c.key) := by
  intro ix
  have h : ix.Exact := reached_exact heap ops
  refine ⟨fun _ _ => h.owner_iff, fun _ _ => h.key_eq,
    fun _ _ _ hc hd hrc hrd => h.live_unique hc hd hrc hrd, h.referenceCount_eq,
    fun _ _ => h.getByReference?_eq_some_iff, fun _ => h.getByReference?_eq_none_iff,
    fun r c hc hr => ?_, fun r hfree => ?_, fun _ _ => h.anyOwned_iff⟩
  · have hfind : ix.find? (.reference r) = some c := h.getByReference?_eq_some_iff.2 ⟨hc, hr⟩
    have hdel : ix.deleteByReference r = ix.delete c.key := h.remove_of_some hfind
    refine ⟨?_, fun d => ?_⟩
    · rw [hdel, delete_of_some hc]
    · rw [hdel]
      exact live_delete_iff hc
  · have hfind : ix.find? (.reference r) = none := h.getByReference?_eq_none_iff.2 hfree
    exact h.remove_of_none hfind

/-- Containers that contend for one reference, each listing it twice. -/
def contending : Heap UInt32 where
  container h := {
    key := h.toUInt32
    references := [⟨"isbn", "1"⟩, ⟨"isbn", "1"⟩]
    handle := h
    id := ""
    blob := [] }
  handle_eq _ := rfl

/-- The reference passes to another container once its owner is deleted. -/
theorem contending_deleteByReference :
    let ix := reached contending [.add 0, .add 1, .delete 0, .add 1, .add 0]
    let c := contending.container 1
    ix.Live c ∧ ⟨"isbn", "1"⟩ ∈ c.references ∧
      (ix.deleteByReference ⟨"isbn", "1"⟩).1 = some c := by
  intro ix c
  have hlive : ix.Live c := rfl
  have hlisted : ⟨"isbn", "1"⟩ ∈ c.references := List.mem_cons_self
  have h := reached_owners_exact contending [.add 0, .add 1, .delete 0, .add 1, .add 0]
  exact ⟨hlive, hlisted, (h.2.2.2.2.2.2.1 ⟨"isbn", "1"⟩ c hlive hlisted).1⟩

end EntityStore.Index
