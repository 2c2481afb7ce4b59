import EntityStore.Proofs.Tampering.Reads
import EntityStore.Proofs.Tampering.Swaps

/-!
# How calls come out when containers are tampered with

However a world was tampered with, its index is exact and counts the keys that
are live. That is all that is asked of a state here, so each part of the result
is shown of such states first, and then of tampered worlds.
-/

namespace EntityStore

variable {κ ε σ τ : Type} [EntityKey κ]

namespace Store

variable {s : Store κ ε σ τ} {st : State κ ε σ τ} {c copy : Container κ}

/-- Calls for a key that look at no signature: a version query and a deletion of what is stored are
answered 200, and so is an update if only its entity comes back, lists no reference of another key
and carries the stored token where one is asked for. -/
structure StillServes (s : Store κ ε σ τ) (st : State κ ε σ τ) (c : Container κ)
    (settings : Option Settings) : Prop where
  version : (version (.key c.key) settings st).1 =
    { code := .ok, key := some c.key, entity := some (c.key, c.version.getD ""),
      reference := c.references.head?, settings }
  delete : s.readOnly = false → (s.delete (.key c.key) settings st).1 =
    { code := .ok, key := some c.key, entity := some (c.key, ""),
      reference := c.references.head?, settings }
  update : s.readOnly = false → ∀ e, s.makers.key e = c.key →
    ((EntityAnswer.entity (s.update e settings st).1).code? = some .ok ↔
      ∃ p st', s.prepareUpdate e st = (.ok p, st') ∧
        (∀ r ∈ p.container.references, ∀ d, st.index.Live d → r ∈ d.references → d.key = c.key) ∧
        ∀ token, p.presented = some token → token = c.version)

/-- A swap of a container for a copy is seen by reads of the container alone, whose hits are counted
anew. All other calls are answered as without it, and a write of the key leaves nothing of it but
the number of changes. -/
structure SwapUnseen (s : Store κ ε σ τ) (st : State κ ε σ τ) (c copy : Container κ)
    (settings : Option Settings) : Prop where
  stored : (st.swap c copy).index.get? c.key = some copy
  isCopyOf : copy.IsCopyOf c
  recounted : (st.swap c copy).readHits c.key = some 0
  counts : ∀ j, j ≠ c.key → (st.swap c copy).readHits j = st.readHits j
  read : ∀ target, st.index.find? target ≠ some c → s.read target settings (st.swap c copy) =
    ((s.read target settings st).1, (s.read target settings st).2.swap c copy)
  version : ∀ target,
    (version target settings (st.swap c copy)).1 = (version target settings st).1
  delete : ∀ target,
    (s.delete target settings (st.swap c copy)).1 = (s.delete target settings st).1
  update : ∀ e, (s.update e settings (st.swap c copy)).1 = (s.update e settings st).1
  deleted : s.readOnly = false → (s.delete (.key c.key) settings (st.swap c copy)).2 =
    (s.delete (.key c.key) settings st).2.later
  updated : ∀ e, s.makers.key e = c.key →
    (EntityAnswer.entity (s.update e settings st).1).code? = some .ok →
    (s.update e settings (st.swap c copy)).2 = (s.update e settings st).2.later

theorem stillServes_of_live (hexact : st.index.Exact) (hc : st.index.Live c)
    (settings : Option Settings) : s.StillServes st c settings := by
  have hfind : st.index.find? (.key c.key) = some c := hc
  refine ⟨by rw [version_of_some hfind]; rfl,
    fun hwritable => by rw [delete_of_found hwritable hexact hfind]; rfl,
    fun hwritable e hkey => ?_⟩
  obtain ⟨err, st', hprep, hupdate⟩ | ⟨p, st', hprep, hix, hpkey, hupdate⟩ :=
    update_cases hwritable e settings st
  · rw [hupdate, hprep]
    refine ⟨nofun, ?_⟩
    rintro ⟨p, st'', hok, -⟩
    cases hok
  · have hiff := commit_ok_iff (hix ▸ hexact) (hix ▸ hc) (hpkey.trans hkey) settings
    rw [hix] at hiff
    rw [hupdate, hprep]
    constructor
    · intro hcode
      exact ⟨p, st', rfl, hiff.1 (Option.some.inj hcode)⟩
    · rintro ⟨p', st'', hok, hready⟩
      cases hok
      exact congrArg some (hiff.2 hready)

theorem swapUnseen_of_live (hexact : st.index.Exact) (hc : st.index.Live c) (hcopy : copy.IsCopyOf c)
    (settings : Option Settings) : s.SwapUnseen st c copy settings where
  stored := by
    rw [State.swap_eq hexact hc hcopy]
    exact Index.get?_swapped hcopy
  isCopyOf := hcopy
  recounted := by
    rw [State.swap_eq hexact hc hcopy, ← hcopy.key_eq]
    exact SortedMap.find?_insert_self _ _ _
  counts j hj := by
    rw [State.swap_eq hexact hc hcopy]
    rw [← hcopy.key_eq] at hj
    exact SortedMap.find?_insert_of_ne _ _ hj
  read target hfind := s.read_swap hexact hc hcopy hfind settings
  version target := version_swap hexact hc hcopy target settings
  delete target := s.delete_swap hexact hc hcopy target settings
  update e := s.update_swap hexact hc hcopy e settings
  deleted hwritable := delete_later hwritable hexact hc hcopy settings
  updated e hkey hcode := update_later hexact hc hcopy hkey settings hcode

/-- To forge the signature of one key changes no read of another. -/
theorem Tampered.read_forged (hs : s.searches.OnlyDecodes) {w : World κ ε σ τ}
    {copies : List (Container κ × Container κ)} (h : s.Tampered w copies) {k : κ}
    {target : Target κ} (hother : ∀ d, w.state.index.find? target = some d → d.key ≠ k)
    (signature : Option String) (settings : Option Settings) :
    (s.read target settings (w.forged k signature).state).1 =
      (s.read target settings w.state).1 := by
  obtain ⟨made, hmade, -⟩ := h.bounded hs
  rw [World.forged]
  cases hget : w.state.index.get? k with
  | none => rfl
  | some c =>
      have hexact := h.orderly.1.exact
      have hne : w.state.index.find? target ≠ some c :=
        fun hfind => hother c hfind (hexact.key_eq hget)
      have hexact' : (w.state.resign c signature).2.index.Exact := hexact
      have hswap := s.read_swap hexact' (hexact.live hget)
        (c.resigned_isCopyOf signature w.state.memory) hne settings
      exact (congrArg Prod.fst hswap).trans
        (s.read_resign hmade.state c signature target settings)

/-- Whatever a store was tampered with by swapping stored containers for copies with other
signatures, a read is answered 404 if nothing is stored under the key, fails if what is stored has
not been decoded and does not decode, is answered 403 if the signature is rejected, and 200
otherwise, in this order, and counts only in the last case. A policy that signs anew rejects every
signature but the one it would make. The key still answers version queries, updates and deletions.
And a swap is seen by reads of the container that was swapped, and by nobody else. If searches do no
more to the memory than decode, reads of other keys do not notice either that a copy is made. -/
theorem Tampered.outcomes {w : World κ ε σ τ} {copies : List (Container κ × Container κ)}
    (h : s.Tampered w copies) (settings : Option Settings) :
    (∀ k, s.ReadOutcome w.state k settings) ∧
    (∀ p, s.signaturePolicy = some p → p.Recomputes → ∀ c e,
      s.Rejects c e ↔ c.signature ≠ some (p.sign e c.version)) ∧
    (∀ c, w.state.index.Live c → s.StillServes w.state c settings) ∧
    (∀ c copy, (c, copy) ∈ copies → w.state.index.Live c →
      s.SwapUnseen w.state c copy settings) ∧
    (s.searches.OnlyDecodes → ∀ k target,
      (∀ d, w.state.index.find? target = some d → d.key ≠ k) → ∀ signature,
      (s.read target settings (w.forged k signature).state).1 =
        (s.read target settings w.state).1) := by
  obtain ⟨horderly, htracks, hcopies⟩ := h.orderly
  have hexact := horderly.exact
  exact ⟨fun k => readOutcome_of_exact hexact htracks k settings,
    fun p hpolicy hp c e => rejects_iff_of_recomputes hpolicy hp,
    fun c hc => stillServes_of_live hexact hc settings,
    fun c copy hcopy hc => swapUnseen_of_live hexact hc (hcopies _ hcopy) settings,
    fun hs k target hother signature => h.read_forged hs hother signature settings⟩

/-- Three documents are stored. The signature of one is forged, and that of another taken away. -/
def tampered := ((World.reached Doc.store () 0 [
  .call 0 (.entity (.create { id := "a" } none)), .go 0,
  .call 0 (.entity (.create { id := "b" } none)), .go 0,
  .call 0 (.entity (.create { id := "c" } none)), .go 0]).forged "a" (some "forged")).forged "b" none

/-- Reads of the two are refused and not counted, but what is refused can still be deleted. The third
is found, and would be whatever else was done to the others. -/
theorem tampered_outcomes :
    (["a", "b", "c", "d"].map fun k =>
      (EntityAnswer.entity (Doc.store.read (.key k) none tampered.state).1).code?) =
        [some .forbidden, some .forbidden, some .ok, some .notFound] ∧
    (∃ c e, tampered.state.index.get? "a" = some c ∧
      c.ReadsAs Doc.store.context tampered.state.memory e ∧
      c.signature ≠ some ((Doc.fieldSignature ["id", "n", "version"] true).policy.sign e c.version) ∧
      (Doc.store.delete (.key c.key) none tampered.state).1.code = .ok) ∧
    (Doc.store.read (.key "a") none tampered.state).2.readHits "a" =
      tampered.state.readHits "a" ∧
    (∃ n, tampered.state.readHits "c" = some n ∧
      (Doc.store.read (.key "c") none tampered.state).2.readHits "c" = some (n + 1)) ∧
    (Doc.store.read (.key "c") none (tampered.forged "a" none).state).1 =
      (Doc.store.read (.key "c") none tampered.state).1 := by
  obtain ⟨copies, h⟩ : ∃ copies, Doc.store.Tampered tampered copies := by
    obtain ⟨copies, h⟩ := (Tampered.lives (lives_reached () 0 _)).forged "a" (some "forged")
    exact h.forged "b" none
  have hexact := h.orderly.1.exact
  obtain ⟨hreads, hrejects, hserves, -, hforged⟩ := h.outcomes none
  have hcodes : (["a", "b", "c", "d"].map fun k =>
      (EntityAnswer.entity (Doc.store.read (.key k) none tampered.state).1).code?) =
        [some .forbidden, some .forbidden, some .ok, some .notFound] := by decide +kernel
  obtain ⟨hrefused, -, hfound, -⟩ := by simpa only [List.map_cons, List.cons.injEq] using hcodes
  obtain ⟨c, e, hc, he, hrejected⟩ := (hreads "a").forbidden_iff.1 hrefused
  have hrecomputes : (Doc.fieldSignature ["id", "n", "version"] true).policy.Recomputes :=
    SignaturePolicy.ofSign_recomputes _
  refine ⟨hcodes, ⟨c, e, hc, he, (hrejects _ rfl hrecomputes c e).1 hrejected, ?_⟩,
    (hreads "a").uncounted ?_, (hreads "c").counted hfound,
    hforged Doc.store_onlyDecodes "a" (.key "c") (fun d hd => ?_) none⟩
  · rw [(hserves c (hexact.live hc)).delete rfl]
  · rw [hrefused]
    decide
  · rw [hexact.key_eq hd]
    decide

end Store

end EntityStore
