import EntityStore.Proofs.Index.Patches
import EntityStore.Proofs.Index.Runs

/-!
# Additions and removals undo each other

An addition puts a container where nothing was and a removal takes it away
again, so that on the containers one undoes the other whatever the index is
like. The owners are another matter, since both loops over the references of a
container look at them one by one, and a list may repeat a reference.

Adding takes references that nobody owned, for else it would have been refused,
and removing gives up those that are owned by the key: all of them, and no
others. So an addition is undone in any index (`delete_add`). A removal gives up
the references that the container lists and its key owns, which are all that it
lists only if the index is exact; then adding the container takes them back
(`Exact.add_delete`).

What is not restored is what counts changes: the revision is two larger, and the
key has no hits, or zero, whatever it had before.
-/

namespace EntityStore.Index

variable {κ : Type} [Ranked κ] {ix : Index κ} {c : Container κ}

theorem releasedBy_ownedBy {owners : SortedMap Reference κ}
    (h : ∀ r ∈ c.references, owners.find? r = none) :
    releasedBy (ownedBy owners c) c = owners := by
  refine SortedMap.ext_find? fun r => ?_
  by_cases hr : r ∈ c.references
  · rw [h r hr, find?_releasedBy_of_owned hr (find?_ownedBy_of_mem hr)]
  · rw [find?_releasedBy_of_notMem hr, find?_ownedBy_of_notMem hr]

theorem ownedBy_releasedBy {owners : SortedMap Reference κ}
    (h : ∀ r ∈ c.references, owners.find? r = some c.key) :
    ownedBy (releasedBy owners c) c = owners := by
  refine SortedMap.ext_find? fun r => ?_
  by_cases hr : r ∈ c.references
  · rw [h r hr, find?_ownedBy_of_mem hr]
  · rw [find?_ownedBy_of_notMem hr, find?_releasedBy_of_notMem hr]

theorem add_of_free (hkey : ix.get? c.key = none)
    (hfree : ∀ r ∈ c.references, ix.owners.find? r = none) :
    ix.add c = (true, ix.store ix.owners c) := by
  rw [Write.add_eq, Write.patch?_add_eq_some_iff.2 ⟨hkey, hfree, rfl⟩]
  rfl

theorem free_of_added (h : (ix.add c).1 = true) :
    ix.get? c.key = none ∧ ∀ r ∈ c.references, ix.owners.find? r = none := by
  rcases add_cases ix c with ⟨hadd, -⟩ | ⟨-, hkey, hrefs⟩
  · rw [hadd] at h
    cases h
  · exact ⟨hkey, anyOwned_none_eq_false_iff.1 hrefs⟩

/-- A container that was added is removed again, and only hits and revision show it. -/
theorem delete_add (h : (ix.add c).1 = true) :
    (ix.add c).2.delete c.key =
      (some c, { ix with hits := ix.hits.remove c.key, revision := ix.revision + 2 }) := by
  obtain ⟨hkey, hfree⟩ := free_of_added h
  have hfound : (ix.store ix.owners c).get? c.key = some c := get?_store.2 (.inl ⟨rfl, rfl⟩)
  have hcontainers : (ix.containers.insert c.key c).erase c.key = ix.containers :=
    (SortedMap.put_put _ _ (some c) none).trans (SortedMap.put_find? hkey)
  have howners : releasedBy (ownedBy ix.owners c) c = ix.owners := releasedBy_ownedBy hfree
  have hhits : (ix.hits.reset c.key).remove c.key = ix.hits.remove c.key :=
    congrArg ReadHits.mk (SortedMap.put_put _ _ (some 0) none)
  rw [add_of_free hkey hfree, delete_of_some hfound]
  simp only [store, hcontainers, howners, hhits]

/-- A container that was removed can be added again, and only hits and revision show it. -/
theorem Exact.add_delete (h : ix.Exact) {k : κ} (hc : ix.get? k = some c) :
    (ix.delete k).2.add c =
      (true, { ix with hits := ix.hits.reset k, revision := ix.revision + 2 }) := by
  obtain rfl := h.key_eq hc
  -- a reference that the key does not own would stay with its owner, and refuse the addition
  have howned : ∀ r ∈ c.references, ix.owners.find? r = some c.key :=
    fun r hr => h.owner_of_live hc hr
  have hkey : (ix.delete c.key).2.get? c.key = none := by
    rw [delete_of_some hc]
    exact SortedMap.find?_erase_self _ _
  have hfree : ∀ r ∈ c.references, (ix.delete c.key).2.owners.find? r = none := by
    intro r hr
    rw [delete_of_some hc]
    exact find?_releasedBy_of_owned hr (howned r hr)
  have hcontainers : (ix.containers.erase c.key).insert c.key c = ix.containers :=
    (SortedMap.put_put _ _ none (some c)).trans (SortedMap.put_find? hc)
  have hhits : (ix.hits.remove c.key).reset c.key = ix.hits.reset c.key :=
    congrArg ReadHits.mk (SortedMap.put_put _ _ none (some 0))
  rw [add_of_free hkey hfree, delete_of_some hc]
  simp only [Index.store, hcontainers, ownedBy_releasedBy howned, hhits]

/-! ## What look-ups show of it -/

/-- Two indices that answer every look-up alike, hits and revision apart. -/
structure AnswersAs (ix ix' : Index κ) : Prop where
  get?_eq : ∀ k, ix.get? k = ix'.get? k
  getByReference?_eq : ∀ r, ix.getByReference? r = ix'.getByReference? r
  containsKey_eq : ∀ k, ix.containsKey k = ix'.containsKey k
  containsReference_eq : ∀ r, ix.containsReference r = ix'.containsReference r
  anyOwned_eq : ∀ rs besides, ix.anyOwned rs besides = ix'.anyOwned rs besides
  size_eq : ix.size = ix'.size
  referenceCount_eq : ix.referenceCount = ix'.referenceCount
  snapshot_eq : ∀ etag, ix.snapshot etag = ix'.snapshot etag

theorem answersAs_of_counts (ix : Index κ) (hits : ReadHits κ) (revision : Nat) :
    AnswersAs { ix with hits, revision } ix where
  get?_eq _ := rfl
  getByReference?_eq _ := rfl
  containsKey_eq _ := rfl
  containsReference_eq _ := rfl
  anyOwned_eq _ _ := rfl
  size_eq := rfl
  referenceCount_eq := rfl
  snapshot_eq _ := rfl

/-- In every index that operations can lead to, an addition and a removal undo each other. What is
removed, by key or by reference, can be added again, and what is added comes back from the removal
as the very container that it was, and leaves its references free. Either way every look-up is
answered as before, the revision is two larger, and no hits but those of the key are touched: they
start from zero in the first case and are forgotten in the second. -/
theorem reached_writes_undo (heap : Heap κ) (ops : List (Operation κ)) :
    let ix := reached heap ops
    (∀ target c, (ix.remove target).1 = some c →
      let back := (ix.remove target).2.add c
      back.1 = true ∧ AnswersAs back.2 ix ∧ back.2.revision = ix.revision + 2 ∧
      back.2.readHits c.key = some 0 ∧ ∀ k, k ≠ c.key → back.2.readHits k = ix.readHits k) ∧
    (∀ c, (ix.add c).1 = true →
      let back := (ix.add c).2.delete c.key
      back.1 = some c ∧ AnswersAs back.2 ix ∧
      (∀ r ∈ c.references, back.2.containsReference r = false) ∧
      back.2.revision = ix.revision + 2 ∧
      back.2.readHits c.key = none ∧ ∀ k, k ≠ c.key → back.2.readHits k = ix.readHits k) := by
  intro ix
  have h : ix.Exact := reached_exact heap ops
  constructor
  · intro target c hremoved
    cases hfind : ix.find? target with
    | none =>
        rw [h.remove_of_none hfind] at hremoved
        cases hremoved
    | some d =>
        have hlive := h.live_of_find? hfind
        rw [h.remove_of_some hfind, delete_of_some hlive] at hremoved
        obtain rfl := Option.some.inj hremoved
        rw [h.remove_of_some hfind, h.add_delete hlive]
        refine ⟨rfl, answersAs_of_counts _ _ _, rfl, ?_, fun k hk => ?_⟩
        · exact SortedMap.find?_insert_self _ _ _
        · exact SortedMap.find?_insert_of_ne _ _ hk
  · intro c hadded
    rw [delete_add hadded]
    refine ⟨rfl, answersAs_of_counts _ _ _, fun r hr => ?_, rfl, ?_, fun k hk => ?_⟩
    · exact SortedMap.contains_eq_false_iff.2 ((free_of_added hadded).2 r hr)
    · exact SortedMap.find?_erase_self _ _
    · exact SortedMap.find?_erase_of_ne _ hk

/-- The owner of a contended reference, which it lists twice, goes and comes back; and while it is
gone another one comes and goes. -/
theorem contending_undone :
    let ix := reached contending [.add 0, .recordHit 0]
    let c := contending.container 0
    let d := contending.container 1
    let without := reached contending [.add 0, .recordHit 0, .delete 0]
    AnswersAs ((ix.remove (.reference ⟨"isbn", "1"⟩)).2.add c).2 ix ∧
      ((without.add d).2.delete 1).2.containsReference ⟨"isbn", "1"⟩ = false := by
  intro ix c d without
  have hremoved : (ix.remove (.reference ⟨"isbn", "1"⟩)).1 = some c := rfl
  have hadded : (without.add d).1 = true := rfl
  obtain ⟨-, hback, -⟩ := (reached_writes_undo contending [.add 0, .recordHit 0]).1 _ c hremoved
  obtain ⟨-, -, hfree, -⟩ :=
    (reached_writes_undo contending [.add 0, .recordHit 0, .delete 0]).2 d hadded
  exact ⟨hback, hfree ⟨"isbn", "1"⟩ List.mem_cons_self⟩

end EntityStore.Index
