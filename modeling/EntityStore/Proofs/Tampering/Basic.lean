import EntityStore.Proofs.Interleaving.ReadHits

/-!
# Worlds that are tampered with

Whoever gets at the index can take a stored container, copy it with another
signature or with none, and swap it for the copy. Clients go on meanwhile
(`Store.Tampered`).

A copy lists the references of its original under the same key, so a swap leaves
the owners alone and the index exact (`Index.Exact.replace_copy`), and the only
count that it moves is that of the key, which begins anew. A key has a count if
and only if it is live, so that much is kept by clients and by swaps alike.
-/

namespace EntityStore

variable {κ ε σ τ : Type}

/-! ## Copies and swaps -/

/-- A container is a copy of another, but for the signature. -/
def Container.IsCopyOf (copy c : Container κ) : Prop :=
  ∃ signature handle, copy = { c with signature, handle }

theorem Container.IsCopyOf.key_eq {copy c : Container κ} (h : copy.IsCopyOf c) :
    copy.key = c.key := by
  obtain ⟨signature, handle, rfl⟩ := h
  rfl

theorem Container.resigned_isCopyOf (c : Container κ) (signature : Option String)
    (m : Memory ε σ) : (c.resigned signature m).1.IsCopyOf c := by
  rw [resigned]
  cases m.decoded.find? c.handle <;> exact ⟨signature, m.next, rfl⟩

namespace Index

variable [Ranked κ] {ix : Index κ} {c copy : Container κ}

/-- The index with a container in the place of the one under its key, of which it is a copy. -/
def swapped (ix : Index κ) (copy : Container κ) : Index κ where
  containers := ix.containers.insert copy.key copy
  owners := ix.owners
  hits := ix.hits.reset copy.key
  revision := ix.revision + 1

theorem Exact.replace_copy (h : ix.Exact) (hc : ix.Live c) (hcopy : copy.IsCopyOf c) :
    ix.replace c copy = (true, ix.swapped copy) := by
  obtain ⟨signature, handle, rfl⟩ := hcopy
  have hkey : sameKey c.key c.key = true := sameKey_iff.2 rfl
  have hstored : (ix.get? c.key).any (·.handle == c.handle) = true := by
    rw [show ix.get? c.key = some c from hc]
    simp
  have hrefs : ix.anyOwned c.references (some c.key) = false := by
    refine h.anyOwned_eq_false_iff.2 fun r hr d hd hrd => ?_
    rw [h.live_unique hd hc hrd hr]
  have howners : ownedBy (releasedBy ix.owners c) { c with signature, handle } = ix.owners := by
    refine SortedMap.ext_find? fun r => Option.ext fun k => ?_
    rw [find?_ownedBy, Index.find?_releasedBy]
    constructor
    · rintro (⟨hr, rfl⟩ | ⟨-, hk, -⟩)
      · exact h.owner_of_live hc hr
      · exact hk
    · intro hk
      by_cases hr : r ∈ c.references
      · exact .inl ⟨hr, Option.some.inj ((h.owner_of_live hc hr).symm.trans hk)⟩
      · exact .inr ⟨hr, hk, fun hp => hr hp.1⟩
  simp only [Index.replace, hkey, hstored, hrefs, Bool.not_true, Bool.false_eq_true, if_false]
  rw [Index.store, howners, Index.swapped]

theorem Exact.swapped (h : ix.Exact) (hc : ix.Live c) (hcopy : copy.IsCopyOf c) :
    (ix.swapped copy).Exact := by
  have hexact := h.replace copy fun d (hd : ix.get? c.key = some d) _ =>
    Option.some.inj (hd.symm.trans hc)
  rwa [h.replace_copy hc hcopy] at hexact

theorem get?_swapped (hcopy : copy.IsCopyOf c) : (ix.swapped copy).get? c.key = some copy := by
  rw [← hcopy.key_eq]
  exact SortedMap.find?_insert_self _ _ _

theorem get?_swapped_of_ne (hcopy : copy.IsCopyOf c) {k : κ} (h : k ≠ c.key) :
    (ix.swapped copy).get? k = ix.get? k := by
  rw [← hcopy.key_eq] at h
  exact SortedMap.find?_insert_of_ne _ _ h

theorem live_of_swapped {d : Container κ} (h : (ix.swapped copy).Live d) :
    d = copy ∨ ix.Live d := by
  rcases SortedMap.find?_insert_eq_some_iff.1 h with ⟨-, rfl⟩ | ⟨-, hd⟩
  · exact .inl rfl
  · exact .inr hd

end Index

variable [EntityKey κ]

namespace State

/-- A copy of a container with another signature, which is not stored, and the state with it. -/
def resign (c : Container κ) (signature : Option String) (st : State κ ε σ τ) :
    Container κ × State κ ε σ τ :=
  let (copy, memory) := c.resigned signature st.memory
  (copy, { st with memory })

/-- The state with a container in place of another. -/
def swap (old new : Container κ) (st : State κ ε σ τ) : State κ ε σ τ :=
  { st with gate := (st.gate.write (·.replace old new)).2 }

theorem swap_eq {st : State κ ε σ τ} {c copy : Container κ} (h : st.index.Exact)
    (hc : st.index.Live c) (hcopy : copy.IsCopyOf c) :
    st.swap c copy = { st with gate := ⟨st.index.swapped copy⟩ } := by
  have hswap : st.swap c copy = { st with gate := ⟨(st.index.replace c copy).2⟩ } := rfl
  rw [hswap, h.replace_copy hc hcopy]

/-- The keys that have a count are those that are live. -/
def Tracks (st : State κ ε σ τ) : Prop := ∀ k, (st.readHits k).isSome = st.containsKey k

end State

/-! ## Worlds that are tampered with -/

/-- A world that clients lead a store to while stored containers are copied with other signatures
and swapped for the copies. The copies that were made are listed behind what they were made of. -/
inductive Store.Tampered (s : Store κ ε σ τ) :
    World κ ε σ τ → List (Container κ × Container κ) → Prop where
  | lives {w : World κ ε σ τ} (h : s.Lives w) : Tampered s w []
  | step {w : World κ ε σ τ} {copies : List (Container κ × Container κ)}
      (h : Tampered s w copies) (m : Move κ ε) : Tampered s (w.step s m) copies
  | resign {w : World κ ε σ τ} {copies : List (Container κ × Container κ)} {c : Container κ}
      (h : Tampered s w copies) (hc : w.state.index.Live c) (signature : Option String) :
      Tampered s { w with state := (w.state.resign c signature).2 }
        ((c, (w.state.resign c signature).1) :: copies)
  | swap {w : World κ ε σ τ} {copies : List (Container κ × Container κ)} {c copy : Container κ}
      (h : Tampered s w copies) (hcopy : (c, copy) ∈ copies) (hc : w.state.index.Live c) :
      Tampered s { w with state := w.state.swap c copy } copies

namespace World

variable {s : Store κ ε σ τ} {w : World κ ε σ τ}

/-- What is stored under a key is copied with another signature and at once swapped for the copy. -/
def forged (k : κ) (signature : Option String) (w : World κ ε σ τ) : World κ ε σ τ :=
  match w.state.index.get? k with
  | none => w
  | some c =>
    let (copy, st) := w.state.resign c signature
    { w with state := st.swap c copy }

theorem Orderly.with_state (h : w.Orderly s) {st : State κ ε σ τ} (hexact : st.index.Exact) :
    ({ w with state := st } : World κ ε σ τ).Orderly s := ⟨hexact, h.fits, h.begun⟩

theorem Counted.tracks (h : w.Counted s) : w.state.Tracks := by
  intro k
  rw [h k]
  cases w.state.containsKey k <;> rfl

theorem step_tracks (horderly : w.Orderly s) (h : w.state.Tracks) (m : Move κ ε) :
    (w.step s m).state.Tracks := by
  rcases step_counts horderly m with hsame | ⟨entry, -, hcounts⟩
  · rw [hsame]
    exact h
  · intro k
    change ((w.step s m).state.index.readHits k).isSome = (w.step s m).state.index.containsKey k
    cases hcounts k with
    | written _ hlive hhits => rw [hlive, hhits]; rfl
    | deleted _ hgone hhits => rw [hgone, hhits]; rfl
    | found _ _ _ hlive hhits => rw [hlive, hhits]; rfl
    | passed _ hlive hhits =>
        rw [hlive, hhits]
        exact h k

end World

theorem State.Tracks.swap {st : State κ ε σ τ} (h : st.Tracks) {c copy : Container κ}
    (hexact : st.index.Exact) (hc : st.index.Live c) (hcopy : copy.IsCopyOf c) :
    (st.swap c copy).Tracks := by
  intro k
  rw [swap_eq hexact hc hcopy]
  change ((st.index.hits.counts.insert copy.key 0).find? k).isSome =
    ((st.index.containers.insert copy.key copy).find? k).isSome
  by_cases hk : k = copy.key
  · rw [hk, SortedMap.find?_insert_self, SortedMap.find?_insert_self]
    rfl
  · rw [SortedMap.find?_insert_of_ne _ _ hk, SortedMap.find?_insert_of_ne _ _ hk]
    exact h k

namespace Store

variable {s : Store κ ε σ τ}

/-- However a world was tampered with, its index is exact and counts the keys that are live. -/
theorem Tampered.orderly {w : World κ ε σ τ} {copies : List (Container κ × Container κ)}
    (h : s.Tampered w copies) :
    w.Orderly s ∧ w.state.Tracks ∧ ∀ p ∈ copies, p.2.IsCopyOf p.1 := by
  induction h with
  | lives h =>
      obtain ⟨horderly, hcounted⟩ := h.counted
      exact ⟨horderly, hcounted.tracks, nofun⟩
  | step _ m ih =>
      obtain ⟨horderly, htracks, hcopies⟩ := ih
      exact ⟨World.step_orderly horderly m, World.step_tracks horderly htracks m, hcopies⟩
  | @resign w copies c _ _ signature ih =>
      obtain ⟨horderly, htracks, hcopies⟩ := ih
      exact ⟨horderly.with_state horderly.exact, htracks,
        List.forall_mem_cons.2 ⟨c.resigned_isCopyOf signature w.state.memory, hcopies⟩⟩
  | swap _ hcopy hc ih =>
      obtain ⟨horderly, htracks, hcopies⟩ := ih
      have hexact := horderly.exact
      refine ⟨horderly.with_state ?_, htracks.swap hexact hc (hcopies _ hcopy), hcopies⟩
      rw [State.swap_eq hexact hc (hcopies _ hcopy)]
      exact hexact.swapped hc (hcopies _ hcopy)

/-- However a world was tampered with, the copies have handles of their own. -/
theorem Tampered.bounded (hs : s.searches.OnlyDecodes) {w : World κ ε σ τ}
    {copies : List (Container κ × Container κ)} (h : s.Tampered w copies) :
    ∃ made, w.Bounded s made ∧ ∀ p ∈ copies, made p.2 := by
  induction h with
  | lives h =>
      obtain ⟨made, hmade⟩ := h.grounded hs
      exact ⟨made, hmade.bounded, nofun⟩
  | step _ m ih =>
      obtain ⟨made, hmade, hcopies⟩ := ih
      obtain ⟨made', hle, hstep⟩ := World.step_bounded hs hmade m
      exact ⟨made', hstep, fun p hp => hle _ (hcopies p hp)⟩
  | @resign w copies c _ _ signature ih =>
      obtain ⟨made, hmade, hcopies⟩ := ih
      obtain ⟨hext, hhandle, hnext, -⟩ := c.resigned_extends signature w.state.memory
      have hgate : (w.state.resign c signature).2.gate = w.state.gate := rfl
      exact ⟨_, ⟨hmade.state.given hgate hext hhandle hnext,
          fun hf => (hmade.flights hf).mono fun _ => .inl⟩,
        List.forall_mem_cons.2 ⟨.inr rfl, fun p hp => .inl (hcopies p hp)⟩⟩
  | @swap w copies c copy h hcopy hc ih =>
      obtain ⟨made, hmade, hcopies⟩ := ih
      obtain ⟨horderly, -, hare⟩ := h.orderly
      refine ⟨made, ⟨?_, hmade.flights⟩, hcopies⟩
      rw [State.swap_eq horderly.exact hc (hare _ hcopy)]
      refine hmade.state.visit (horderly.exact.swapped hc (hare _ hcopy)) fun hd => ?_
      rcases Index.live_of_swapped hd with rfl | hd
      · exact hcopies _ hcopy
      · exact hmade.state.live hd

theorem Tampered.forged {w : World κ ε σ τ} {copies : List (Container κ × Container κ)}
    (h : s.Tampered w copies) (k : κ) (signature : Option String) :
    ∃ copies', s.Tampered (w.forged k signature) copies' := by
  rw [World.forged]
  cases hget : w.state.index.get? k with
  | none => exact ⟨copies, h⟩
  | some c =>
      have hc : w.state.index.Live c := h.orderly.1.exact.live hget
      exact ⟨_, .swap (.resign h hc signature) List.mem_cons_self hc⟩

end Store

end EntityStore
