import EntityStore.Proofs.ByReference
import EntityStore.Proofs.Index.Patches
import EntityStore.Proofs.Index.Runs

/-!
# When a replacement is accepted, and what it leaves

A replacement names the container that it is to replace, and means that very
one: a container that is alike in every part but was stored at another time has
another handle. It is accepted if that one still stands under its key, the new
one has the same key, and no other key's container lists a reference of the new
one. What the old one lists does not matter, so the two lists may overlap, or be
the same.

The owners afterwards are described by the containers (`Replaced`). First the
references of the old container are given up, then those of the new one taken.
A reference that both list passes through nobody's hands in between, which is
why giving up has to come first.

An update looks at the stored container in the visit in which it replaces it,
and checks the references itself. So on the index of a store the replacement
that it ends with cannot be refused (`PendingUpdate.replace_of_checked`).
-/

namespace EntityStore

namespace Index

section

variable {κ : Type} [Ranked κ] {ix next : Index κ} {old new : Container κ}

/-- One container took the place of another: it stands under the key and owns its references, those
that only the other one listed are free, the key has no hits yet, and no other key notices. -/
structure Replaced (ix next : Index κ) (old new : Container κ) : Prop where
  get?_key : next.get? old.key = some new
  freed : ∀ r ∈ old.references, r ∉ new.references → next.containsReference r = false
  owned : ∀ r ∈ new.references,
    next.owners.find? r = some old.key ∧ next.getByReference? r = some new
  readHits_key : next.readHits old.key = some 0
  others : ∀ k, k ≠ old.key → next.get? k = ix.get? k ∧ next.readHits k = ix.readHits k ∧
    ∀ r, next.owners.find? r = some k ↔ ix.owners.find? r = some k
  revision_eq : next.revision = ix.revision + 1

theorem Exact.replace_eq_true_iff (h : ix.Exact) :
    (ix.replace old new).1 = true ↔
      new.key = old.key ∧ (∃ c, ix.get? old.key = some c ∧ c.handle = old.handle) ∧
      ∀ r ∈ new.references, ∀ c, ix.Live c → r ∈ c.references → c.key = old.key := by
  rw [← h.anyOwned_eq_false_iff, Write.replace_eq, Option.isSome_iff_exists]
  simp only [Write.patch?_replace_eq_some_iff]
  constructor
  · intro hp
    obtain ⟨p, hkey, hold, hrefs, -⟩ := hp
    exact ⟨hkey, hold, hrefs⟩
  · intro hp
    obtain ⟨hkey, hold, hrefs⟩ := hp
    exact ⟨_, hkey, hold, hrefs, rfl⟩

theorem replace_of_accepted (h : (ix.replace old new).1 = true) :
    ix.replace old new = (true, ix.store (releasedBy ix.owners old) new) := by
  rcases replace_cases ix old new with hrep | ⟨hrep, -⟩
  · rw [hrep] at h
    cases h
  · exact hrep

theorem replace_of_refused (h : (ix.replace old new).1 = false) :
    (ix.replace old new).2 = ix := by
  rcases replace_cases ix old new with hrep | ⟨hrep, -⟩
  · rw [hrep]
  · rw [hrep] at h
    cases h

theorem Exact.replaced (h : ix.Exact) (hold : ix.get? old.key = some old)
    (haccepted : (ix.replace old new).1 = true) : Replaced ix (ix.replace old new).2 old new := by
  obtain ⟨hkey, -, hrefs⟩ := h.replace_eq_true_iff.1 haccepted
  have hnext : (ix.replace old new).2 = (⟨new.key, some old, some new⟩ : Patch κ).apply ix := by
    rw [replace_of_accepted haccepted]
    rfl
  have howners : (ix.replace old new).2.owners = ownedBy (releasedBy ix.owners old) new := by
    rw [replace_of_accepted haccepted]
    rfl
  have hget : (ix.replace old new).2.get? old.key = some new := by
    rw [hnext, ← hkey, Patch.get?_apply_self]
  have howned : ∀ r ∈ new.references, (ix.replace old new).2.owners.find? r = some old.key := by
    intro r hr
    rw [howners, find?_ownedBy_of_mem hr, hkey]
  refine ⟨hget, fun r hro hrn => ?_, fun r hr => ⟨howned r hr, ?_⟩, ?_, fun k hk => ⟨?_, ?_, ?_⟩, ?_⟩
  · rw [containsReference, SortedMap.contains_eq_false_iff, howners, find?_ownedBy_of_notMem hrn]
    exact find?_releasedBy_of_owned hro (h.owner_of_live hold hro)
  · rw [getByReference?, howned r hr, Option.bind_some, hget]
  · rw [hnext, ← hkey, Patch.readHits_apply_self]
    rfl
  · rw [hnext, Patch.get?_apply_of_ne (hkey ▸ hk)]
  · rw [hnext, Patch.readHits_apply_of_ne (hkey ▸ hk)]
  · intro r
    rw [howners, find?_ownedBy, Index.find?_releasedBy, hkey]
    constructor
    · intro hp
      rcases hp with ⟨-, rfl⟩ | ⟨-, hr, -⟩
      · exact absurd rfl hk
      · exact hr
    · intro hr
      -- what another key owns, its container lists, so the new one does not
      obtain ⟨c, hc, hrc⟩ := h.owner_iff.1 hr
      refine .inr ⟨fun hrn => hk ?_, hr, fun hp => hk hp.2⟩
      rw [← h.key_eq hc]
      exact hrefs r hrn c (h.live hc) hrc
  · rw [hnext]
    rfl

end

end Index

/-- An update that finds its key live, its references free or its own and its token the stored one
is not refused any more. -/
theorem PendingUpdate.replace_of_checked {κ ε : Type} [Ranked κ] {ix : Index κ} (h : ix.Exact)
    {p : PendingUpdate κ ε} {c : Container κ} (hc : ix.get? p.container.key = some c)
    (hrefs : ix.anyOwned p.container.references (some p.container.key) = false)
    (hfresh : p.presented.any (· ≠ c.version) = false) :
    (ix.replace c p.container).1 = true ∧
      p.commit ix = (.replaced, (ix.replace c p.container).2) := by
  have hkey := h.key_eq hc
  have haccepted : (ix.replace c p.container).1 = true := by
    rw [h.replace_eq_true_iff, hkey, ← h.anyOwned_eq_false_iff]
    exact ⟨rfl, ⟨c, hc, rfl⟩, hrefs⟩
  refine ⟨haccepted, ?_⟩
  rcases p.commit_cases h with ⟨hnone, -⟩ |
    ⟨old, hold, ⟨htaken, -⟩ | ⟨-, hstale, -⟩ | ⟨-, -, hcommit⟩⟩
  · rw [hc] at hnone
    cases hnone
  · rw [hrefs] at htaken
    cases htaken
  · obtain rfl := Option.some.inj (hc.symm.trans hold)
    rw [hfresh] at hstale
    cases hstale
  · obtain rfl := Option.some.inj (hc.symm.trans hold)
    rw [hcommit, Index.replace_of_accepted haccepted]

theorem PendingUpdate.anyOwned_of_taken {κ ε : Type} [Ranked κ] {ix : Index κ} (h : ix.Exact)
    {p : PendingUpdate κ ε} (htaken : (p.commit ix).1 = .taken) :
    ix.anyOwned p.container.references (some p.container.key) = true := by
  rcases p.commit_cases h with ⟨-, hcommit⟩ |
    ⟨old, -, ⟨hrefs, -⟩ | ⟨-, -, hcommit⟩ | ⟨-, -, hcommit⟩⟩
  · rw [hcommit] at htaken
    cases htaken
  · exact hrefs
  · rw [hcommit] at htaken
    cases htaken
  · rw [hcommit] at htaken
    cases htaken

namespace Index

variable {κ ε σ τ : Type} [EntityKey κ]

/-- In every index that operations can lead to, a replacement is accepted exactly if the new
container has the key of the old one, the very old one is stored, and no other key's container lists
a reference of the new one. An accepted one leaves what it should, and a refused one changes
nothing. So in every state that clients can lead a store to, an update that has passed its own checks does
replace, and one that is answered for a taken reference has found one. -/
theorem reached_replace_exact :
    (∀ (heap : Heap κ) (ops : List (Operation κ)) (old new : Handle),
      let ix := reached heap ops
      let o := heap.container old
      let n := heap.container new
      ((ix.replace o n).1 = true ↔
        n.key = o.key ∧ (∃ c, ix.get? o.key = some c ∧ c.handle = old) ∧
        ∀ r ∈ n.references, ∀ c, ix.Live c → r ∈ c.references → c.key = o.key) ∧
      ((ix.replace o n).1 = true → Replaced ix (ix.replace o n).2 o n) ∧
      ((ix.replace o n).1 = false → (ix.replace o n).2 = ix)) ∧
    ∀ {s : Store κ ε σ τ} {st : State κ ε σ τ}, s.Reaches st → ∀ p : PendingUpdate κ ε,
      (∀ c, st.index.get? p.container.key = some c →
        st.index.anyOwned p.container.references (some p.container.key) = false →
        p.presented.any (· ≠ c.version) = false →
        (st.index.replace c p.container).1 = true ∧
          p.commit st.index = (.replaced, (st.index.replace c p.container).2)) ∧
      ((p.commit st.index).1 = .taken →
        st.index.anyOwned p.container.references (some p.container.key) = true) := by
  constructor
  · intro heap ops old new ix o n
    have h : Sound heap ix := reached_sound heap ops
    have hhandle : o.handle = old := heap.handle_eq old
    refine ⟨?_, fun haccepted => ?_, replace_of_refused⟩
    · rw [h.exact.replace_eq_true_iff, hhandle]
    · obtain ⟨-, ⟨c, hc, hsame⟩, -⟩ := h.exact.replace_eq_true_iff.1 haccepted
      obtain rfl : c = o := by rw [← h.container_eq hc, hsame, hhandle]
      exact h.exact.replaced hc haccepted
  · intro s st hst p
    exact ⟨fun c hc hrefs hfresh => p.replace_of_checked hst.exact hc hrefs hfresh,
      p.anyOwned_of_taken hst.exact⟩

/-- Two lists that overlap and repeat references; a third container stands under a key of its own,
and the fourth is alike the first. -/
def relisting : Heap UInt32 where
  container h := {
    key := if h = 2 then 1 else 0
    references :=
      if h = 1 then [⟨"isbn", "2"⟩, ⟨"isbn", "3"⟩, ⟨"isbn", "2"⟩]
      else if h = 2 then [⟨"isbn", "4"⟩]
      else [⟨"isbn", "1"⟩, ⟨"isbn", "1"⟩, ⟨"isbn", "2"⟩]
    handle := h
    id := ""
    blob := [] }
  handle_eq _ := rfl

/-- The state after a document was created. -/
def created :=
  (World.reached Doc.store () 0 [
    .call 0 (.entity (.create { id := "a", references := [⟨"isbn", "1"⟩] } none)), .go 0]).state

def relisted : PendingUpdate String Doc where
  container := {
    key := "a"
    references := [⟨"isbn", "2"⟩, ⟨"isbn", "1"⟩, ⟨"isbn", "2"⟩]
    handle := 2
    id := "a"
    blob := [] }
  copy := { id := "a" }
  presented := none

/-- One replaces the other where it is stored, and does not where the other is only alike what is
stored. The update of the document replaces what is stored. -/
theorem relisting_replaced :
    let ix := reached relisting [.add 0, .add 2, .recordHit 0]
    let next := (ix.replace (relisting.container 0) (relisting.container 1)).2
    (next.containsReference ⟨"isbn", "1"⟩ = false ∧
      next.owners.find? ⟨"isbn", "2"⟩ = some 0 ∧
      next.readHits 0 = some 0) ∧
    (ix.replace (relisting.container 3) (relisting.container 1)).2 = ix ∧
    (relisted.commit created.index).1 = .replaced := by
  intro ix next
  have h := reached_replace_exact (κ := UInt32) (ε := Doc) (σ := Unit) (τ := Nat)
  have hreplaced := (h.1 relisting [.add 0, .add 2, .recordHit 0] 0 1).2.1 rfl
  have hkept := (h.1 relisting [.add 0, .add 2, .recordHit 0] 3 1).2.2 rfl
  have hreaches : Doc.store.Reaches created := Store.reaches_reached () 0 _
  obtain ⟨c, hc⟩ : ∃ c, created.index.get? "a" = some c :=
    Option.isSome_iff_exists.1 (by decide +kernel)
  obtain ⟨-, hcommit⟩ :=
    (reached_replace_exact.2 hreaches relisted).1 c hc (by decide +kernel) rfl
  exact ⟨⟨hreplaced.freed _ List.mem_cons_self (by decide),
    (hreplaced.owned _ List.mem_cons_self).1, hreplaced.readHits_key⟩, hkept, by rw [hcommit]⟩

end Index

end EntityStore
