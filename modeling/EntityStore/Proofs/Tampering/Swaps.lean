import EntityStore.Proofs.Store.Calls
import EntityStore.Proofs.Tampering.Basic

/-!
# Who notices that a container was swapped

The signature is looked at by nothing but a read of the key. So when a container
is swapped for a copy of it, no call that finds another container is answered
otherwise, nor is a version query, a deletion or an update of the key itself.

An update or a deletion writes over all that is kept under the key, and then
nothing tells that there was a swap but the revision, which has counted one
change more (`State.later`).
-/

namespace EntityStore

variable {κ ε σ τ : Type} [EntityKey κ]

/-! ## A swap shows in no other answer -/

namespace Index

variable {ix : Index κ} {c copy : Container κ}

theorem find?_swapped (h : ix.Exact) (hcopy : copy.IsCopyOf c) {target : Target κ}
    (hfind : ix.find? target = some c) : (ix.swapped copy).find? target = some copy := by
  cases target with
  | key k =>
      obtain rfl := h.key_eq hfind
      exact get?_swapped hcopy
  | reference r =>
      obtain ⟨hc, hr⟩ := h.getByReference?_eq_some_iff.1 hfind
      have howner : (ix.swapped copy).owners.find? r = some c.key := h.owner_of_live hc hr
      rw [find?, getByReference?, howner]
      exact get?_swapped hcopy

theorem find?_swapped_of_ne (hc : ix.Live c) (hcopy : copy.IsCopyOf c)
    {target : Target κ} (hfind : ix.find? target ≠ some c) :
    (ix.swapped copy).find? target = ix.find? target := by
  cases target with
  | key k =>
      refine get?_swapped_of_ne hcopy fun hk => hfind ?_
      rw [hk]
      exact hc
  | reference r =>
      change (ix.owners.find? r).bind (ix.swapped copy).get? = (ix.owners.find? r).bind ix.get?
      cases howner : ix.owners.find? r with
      | none => rfl
      | some k =>
          refine get?_swapped_of_ne hcopy fun hk => hfind ?_
          change (ix.owners.find? r).bind ix.get? = some c
          rw [howner, hk]
          exact hc

theorem swapped_recordHit (hcopy : copy.IsCopyOf c) {k : κ} (h : k ≠ c.key) :
    (ix.recordHit k).2.swapped copy = ((ix.swapped copy).recordHit k).2 := by
  rw [← hcopy.key_eq] at h
  have hcount : (ix.hits.reset copy.key).get? k = ix.hits.get? k :=
    SortedMap.find?_insert_of_ne _ _ h
  have hhits : (ix.hits.record k).2.reset copy.key = ((ix.hits.reset copy.key).record k).2 := by
    rw [ReadHits.record, ReadHits.record, hcount]
    exact congrArg ReadHits.mk (SortedMap.insert_comm _ _ _ h)
  rw [recordHit, recordHit, swapped, hhits]
  rfl

/-- Once a container is stored under the key nothing is left of a swap but its revision. -/
theorem store_swapped (hcopy : copy.IsCopyOf c) {new : Container κ} (hkey : new.key = c.key) :
    (ix.swapped copy).store (releasedBy ix.owners copy) new =
      { ix.store (releasedBy ix.owners c) new with revision := ix.revision + 1 + 1 } := by
  obtain ⟨signature, handle, rfl⟩ := hcopy
  have hcontainers : (ix.containers.insert c.key { c with signature, handle }).insert new.key new =
      ix.containers.insert new.key new := by
    rw [hkey, SortedMap.insert_insert]
  have hhits : (ix.hits.reset c.key).reset new.key = ix.hits.reset new.key := by
    rw [hkey]
    exact congrArg ReadHits.mk (SortedMap.insert_insert _ _ _ _)
  rw [store, store, swapped, hcontainers, hhits]
  rfl

/-- Nor is anything left of it once the key is deleted. -/
theorem delete_swapped (hc : ix.Live c) (hcopy : copy.IsCopyOf c) :
    ((ix.swapped copy).delete c.key).2 =
      { (ix.delete c.key).2 with revision := (ix.delete c.key).2.revision + 1 } := by
  rw [delete_of_some (get?_swapped hcopy), delete_of_some hc]
  obtain ⟨signature, handle, rfl⟩ := hcopy
  have hcontainers : (ix.containers.insert c.key { c with signature, handle }).erase c.key =
      ix.containers.erase c.key := SortedMap.erase_insert _ _ _
  have hhits : (ix.hits.reset c.key).remove c.key = ix.hits.remove c.key :=
    congrArg ReadHits.mk (SortedMap.erase_insert _ _ _)
  rw [swapped, hcontainers, hhits]
  rfl

end Index

/-- An update does not see a swap, for the copy shows the same token. -/
theorem PendingUpdate.outcome_swapped {ix : Index κ} {c copy : Container κ} (h : ix.Exact)
    (hc : ix.Live c) (hcopy : copy.IsCopyOf c) (p : PendingUpdate κ ε) :
    (p.commit (ix.swapped copy)).1 = (p.commit ix).1 := by
  rw [outcome_eq (h.swapped hc hcopy), outcome_eq h]
  by_cases hkey : p.container.key = c.key
  · have hlive : ix.get? c.key = some c := hc
    rw [hkey, Index.get?_swapped hcopy, hlive]
    obtain ⟨signature, handle, rfl⟩ := hcopy
    rfl
  · rw [Index.get?_swapped_of_ne hcopy hkey]
    rfl

/-- The state with another revision, one change later. -/
def State.later (st : State κ ε σ τ) : State κ ε σ τ :=
  { st with gate := ⟨{ st.index with revision := st.index.revision + 1 }⟩ }

namespace Store

variable {s : Store κ ε σ τ} {st : State κ ε σ τ} {c copy : Container κ}

theorem countHit_swap (h : st.index.Exact) (hc : st.index.Live c) (hcopy : copy.IsCopyOf c) {k : κ}
    (hk : k ≠ c.key) : countHit k (st.swap c copy) = (countHit k st).swap c copy := by
  have hlive : (countHit k st).index.Live c := hc
  rw [State.swap_eq h hc hcopy, State.swap_eq (h.recordHit k) hlive hcopy]
  have hix : (st.index.recordHit k).2.swapped copy = ((st.index.swapped copy).recordHit k).2 :=
    Index.swapped_recordHit hcopy hk
  exact congrArg (fun ix : Index κ => ({ st with gate := ⟨ix⟩ } : State κ ε σ τ)) hix.symm

theorem find?_swap (h : st.index.Exact) (hc : st.index.Live c) (hcopy : copy.IsCopyOf c)
    {target : Target κ} (hfind : st.index.find? target ≠ some c) :
    (st.swap c copy).index.find? target = st.index.find? target := by
  rw [State.swap_eq h hc hcopy]
  exact Index.find?_swapped_of_ne hc hcopy hfind

/-- A read that does not find the container takes no notice of a swap, and may as well be made
before it. -/
theorem read_swap (s : Store κ ε σ τ) (h : st.index.Exact) (hc : st.index.Live c)
    (hcopy : copy.IsCopyOf c) {target : Target κ} (hfind : st.index.find? target ≠ some c)
    (settings : Option Settings) :
    s.read target settings (st.swap c copy) =
      ((s.read target settings st).1, (s.read target settings st).2.swap c copy) := by
  have hsame := find?_swap h hc hcopy hfind
  cases hd : st.index.find? target with
  | none => rw [s.read_of_none hd, s.read_of_none (hsame.trans hd)]
  | some d =>
      have hdc : d.key ≠ c.key := by
        intro hdc
        have hlive := h.live_of_find? hd
        rw [Index.Live, hdc] at hlive
        exact hfind (hd.trans (hlive.symm.trans hc))
      cases hent : d.entity s.context st.memory with
      | mk r m =>
          cases r with
          | error err =>
              rw [s.read_of_error settings hd hent, s.read_of_error settings (hsame.trans hd) hent]
              rfl
          | ok e =>
              rw [s.read_of_ok settings hd hent, s.read_of_ok settings (hsame.trans hd) hent]
              cases s.isIntact d e with
              | false => rfl
              | true =>
                  have hexact : ({ st with memory := m } : State κ ε σ τ).index.Exact := h
                  exact congrArg (Prod.mk _) (countHit_swap hexact hc hcopy hdc)

/-- What a call finds after a swap is what it found before, or the copy of it. -/
theorem find?_swap_cases (h : st.index.Exact) (hc : st.index.Live c) (hcopy : copy.IsCopyOf c)
    (target : Target κ) :
    (st.index.find? target = some c ∧ (st.swap c copy).index.find? target = some copy) ∨
    (st.swap c copy).index.find? target = st.index.find? target := by
  by_cases hfind : st.index.find? target = some c
  · refine .inl ⟨hfind, ?_⟩
    rw [State.swap_eq h hc hcopy]
    exact Index.find?_swapped h hcopy hfind
  · exact .inr (find?_swap h hc hcopy hfind)

theorem version_swap (h : st.index.Exact) (hc : st.index.Live c) (hcopy : copy.IsCopyOf c)
    (target : Target κ) (settings : Option Settings) :
    (version target settings (st.swap c copy)).1 = (version target settings st).1 := by
  rcases find?_swap_cases h hc hcopy target with ⟨hfind, hfind'⟩ | hsame
  · rw [version_of_some hfind, version_of_some hfind']
    obtain ⟨signature, handle, rfl⟩ := hcopy
    rfl
  · cases hd : st.index.find? target with
    | none => rw [version_of_none hd, version_of_none (hsame.trans hd)]
    | some d => rw [version_of_some hd, version_of_some (hsame.trans hd)]

theorem remove_swap (h : st.index.Exact) (hc : st.index.Live c) (hcopy : copy.IsCopyOf c)
    (target : Target κ) (settings : Option Settings) :
    (remove target settings (st.swap c copy)).1 = (remove target settings st).1 := by
  have hexact : (st.swap c copy).index.Exact := by
    rw [State.swap_eq h hc hcopy]
    exact h.swapped hc hcopy
  rcases find?_swap_cases h hc hcopy target with ⟨hfind, hfind'⟩ | hsame
  · rw [remove_of_some h hfind, remove_of_some hexact hfind']
    obtain ⟨signature, handle, rfl⟩ := hcopy
    rfl
  · cases hd : st.index.find? target with
    | none => rw [remove_of_none h hd, remove_of_none hexact (hsame.trans hd)]
    | some d => rw [remove_of_some h hd, remove_of_some hexact (hsame.trans hd)]

theorem delete_swap (s : Store κ ε σ τ) (h : st.index.Exact) (hc : st.index.Live c)
    (hcopy : copy.IsCopyOf c) (target : Target κ) (settings : Option Settings) :
    (s.delete target settings (st.swap c copy)).1 = (s.delete target settings st).1 := by
  rw [delete, delete]
  cases s.readOnly with
  | true => rfl
  | false =>
      have hexact : (st.notify s.observers (.beforeDelete target)).index.Exact := h
      exact remove_swap hexact hc hcopy target settings

theorem prepareUpdate_swap (s : Store κ ε σ τ) (e : ε) :
    s.prepareUpdate e (st.swap c copy) =
      ((s.prepareUpdate e st).1, (s.prepareUpdate e st).2.swap c copy) := by
  rw [prepareUpdate_eq, prepareUpdate_eq]
  rfl

theorem commit_swap (h : st.index.Exact) (hc : st.index.Live c) (hcopy : copy.IsCopyOf c)
    (p : PendingUpdate κ ε) (settings : Option Settings) :
    (commit p settings (st.swap c copy)).1 = (commit p settings st).1 := by
  rw [commit_eq, commit_eq, State.swap_eq h hc hcopy, p.outcome_swapped h hc hcopy]

theorem update_swap (s : Store κ ε σ τ) (h : st.index.Exact) (hc : st.index.Live c)
    (hcopy : copy.IsCopyOf c) (e : ε) (settings : Option Settings) :
    (s.update e settings (st.swap c copy)).1 = (s.update e settings st).1 := by
  cases hreadOnly : s.readOnly with
  | true => rw [update, update, hreadOnly]; rfl
  | false =>
      rw [update_of_writable hreadOnly _ _ (st.swap c copy), prepareUpdate_swap]
      obtain ⟨err, st', hprep, hupdate⟩ | ⟨p, st', hprep, hix, -, hupdate⟩ :=
        update_cases hreadOnly e settings st
      · rw [hupdate, hprep]
      · rw [hupdate, hprep]
        exact congrArg Except.ok (commit_swap (hix ▸ h) (hix ▸ hc) hcopy p settings)

/-! ## A swap is gone once its key is written -/

theorem commit_later (h : st.index.Exact) (hc : st.index.Live c) (hcopy : copy.IsCopyOf c)
    {p : PendingUpdate κ ε} (hkey : p.container.key = c.key) (settings : Option Settings)
    (hcode : (commit p settings st).1.code = .ok) :
    (commit p settings (st.swap c copy)).2 = (commit p settings st).2.later := by
  have houtcome := commit_code_eq_ok_iff.1 hcode
  have houtcome' := (p.outcome_swapped h hc hcopy).trans houtcome
  have hget : st.index.get? p.container.key = some c := hkey ▸ hc
  have hget' : (st.index.swapped copy).get? p.container.key = some copy :=
    hkey ▸ Index.get?_swapped hcopy
  have hindex : (st.index.swapped copy).store (Index.releasedBy st.index.owners copy) p.container =
      { st.index.store (Index.releasedBy st.index.owners c) p.container with
        revision := st.index.revision + 1 + 1 } := Index.store_swapped hcopy hkey
  rw [commit_eq, commit_eq, State.swap_eq h hc hcopy]
  dsimp only
  rw [PendingUpdate.commit_of_replaced h hget houtcome,
    PendingUpdate.commit_of_replaced (h.swapped hc hcopy) hget' houtcome']
  exact congrArg (fun ix : Index κ => ({ st with gate := ⟨ix⟩ } : State κ ε σ τ)) hindex

theorem update_later (h : st.index.Exact) (hc : st.index.Live c) (hcopy : copy.IsCopyOf c) {e : ε}
    (hkey : s.makers.key e = c.key) (settings : Option Settings)
    (hcode : (EntityAnswer.entity (s.update e settings st).1).code? = some .ok) :
    (s.update e settings (st.swap c copy)).2 = (s.update e settings st).2.later := by
  cases hreadOnly : s.readOnly with
  | true =>
      rw [update, hreadOnly] at hcode
      cases hcode
  | false =>
      rw [update_of_writable hreadOnly _ _ (st.swap c copy), prepareUpdate_swap]
      obtain ⟨err, st', hprep, hupdate⟩ | ⟨p, st', hprep, hix, hpkey, hupdate⟩ :=
        update_cases hreadOnly e settings st
      · rw [hupdate] at hcode
        cases hcode
      · rw [hupdate] at hcode
        rw [hupdate, hprep]
        exact commit_later (hix ▸ h) (hix ▸ hc) hcopy (hpkey.trans hkey) settings
          (Option.some.inj hcode)

theorem delete_later (hwritable : s.readOnly = false) (h : st.index.Exact) (hc : st.index.Live c)
    (hcopy : copy.IsCopyOf c) (settings : Option Settings) :
    (s.delete (.key c.key) settings (st.swap c copy)).2 =
      (s.delete (.key c.key) settings st).2.later := by
  have hfind : st.index.find? (.key c.key) = some c := hc
  have hindex := Index.delete_swapped hc hcopy
  rw [State.swap_eq h hc hcopy, delete_of_found hwritable h hfind,
    delete_of_found hwritable (h.swapped hc hcopy) (Index.find?_swapped h hcopy hfind), hcopy.key_eq]
  exact congrArg (fun ix : Index κ =>
    ({ st.notify s.observers (.beforeDelete (.key c.key)) with gate := ⟨ix⟩ } : State κ ε σ τ))
    hindex

/-! ## A copy that is not stored -/

/-- No read notices that a copy is made. -/
theorem read_resign (s : Store κ ε σ τ) {made : Container κ → Prop} (h : st.Bounded made)
    (c : Container κ) (signature : Option String) (target : Target κ)
    (settings : Option Settings) :
    (s.read target settings (st.resign c signature).2).1 = (s.read target settings st).1 := by
  obtain ⟨hext, -, -, hsession⟩ := c.resigned_extends signature st.memory
  have hsame : (st.resign c signature).2.index.find? target = st.index.find? target := rfl
  cases hd : st.index.find? target with
  | none => rw [s.read_of_none hd, s.read_of_none (hsame.trans hd)]
  | some d =>
      have hfind := hext.find?_eq d.handle (h.handle_lt (h.live (h.exact.live_of_find? hd)))
      have hentity : (d.entity s.context (c.resigned signature st.memory).2).1 =
          (d.entity s.context st.memory).1 := Container.entity_congr hfind hsession
      cases hent : d.entity s.context st.memory with
      | mk r m =>
          rw [hent] at hentity
          obtain ⟨m', hent'⟩ : ∃ m', d.entity s.context (c.resigned signature st.memory).2 =
              (r, m') :=
            ⟨(d.entity s.context (c.resigned signature st.memory).2).2, Prod.ext hentity rfl⟩
          cases r with
          | error err =>
              rw [s.read_of_error settings hd hent, s.read_of_error settings (hsame.trans hd) hent']
          | ok e =>
              rw [s.read_of_ok settings hd hent, s.read_of_ok settings (hsame.trans hd) hent']
              cases s.isIntact d e <;> rfl

end Store

end EntityStore
