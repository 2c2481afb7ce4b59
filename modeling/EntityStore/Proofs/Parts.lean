import EntityStore.Proofs.Store.Memory
import EntityStore.Proofs.Store.Visits

/-!
# What a visit looks at

A visit to the gate looks at what stands beside the blob of a container, and at
a handle only to tell whether a container is the one that is stored. In an exact
index the key tells that as well. So if two indexes look the same through a
function that keeps the parts of containers, a visit has the same answer in both
and leaves indexes that look the same again (`Store.enter_agree` and its kind).

Two such functions are of use: one that takes away the handle, since handles
differ from run to run, and one that takes away the blob too, since blobs differ
from codec to codec.
-/

namespace EntityStore

variable {κ ε σ τ : Type}

namespace SortedMap

variable [Ranked κ] {α β : Type}

/-- The map with a function applied to its values. -/
def map (f : α → β) (m : SortedMap κ α) : SortedMap κ β :=
  ⟨m.entries.map fun p => (p.1, f p.2), List.pairwise_map.2 m.ascending⟩

theorem valueIn?_map (f : α → β) (k : κ) (l : List (κ × α)) :
    valueIn? k (l.map fun p => (p.1, f p.2)) = (valueIn? k l).map f := by
  induction l with
  | nil => rfl
  | cons p rest ih =>
      rw [List.map_cons, valueIn?, valueIn?]
      split
      · rfl
      · exact ih

theorem find?_map (f : α → β) (m : SortedMap κ α) (k : κ) :
    (m.map f).find? k = (m.find? k).map f := valueIn?_map f k m.entries

theorem map_insert (f : α → β) (m : SortedMap κ α) (k : κ) (a : α) :
    (m.insert k a).map f = (m.map f).insert k (f a) := by
  refine ext_find? fun k' => ?_
  rw [find?_map, find?_insert, find?_insert, find?_map]
  split <;> rfl

theorem map_erase (f : α → β) (m : SortedMap κ α) (k : κ) :
    (m.erase k).map f = (m.map f).erase k := by
  refine ext_find? fun k' => ?_
  rw [find?_map, find?_erase, find?_erase, find?_map]
  split <;> rfl

theorem values_map (f : α → β) (m : SortedMap κ α) : (m.map f).values = m.values.map f := by
  rw [values, values, map, List.map_map, List.map_map]
  rfl

theorem size_map (f : α → β) (m : SortedMap κ α) : (m.map f).size = m.size := List.length_map _

end SortedMap

/-! ## Functions that keep parts -/

/-- A function that changes at most the handle, the id and the blob of a container. -/
def Container.KeepsParts (f : Container κ → Container κ) : Prop :=
  ∀ c, (f c).toContainerParts = c.toContainerParts

theorem Container.KeepsParts.parts_eq {f : Container κ → Container κ} (hf : KeepsParts f)
    {c c' : Container κ} (h : f c = f c') : c.toContainerParts = c'.toContainerParts := by
  rw [← hf c, h, hf c']

/-- The containers of a moment, seen through a function. -/
def Snapshot.map (f : Container κ → Container κ) (s : Snapshot κ) : Snapshot κ :=
  ⟨s.containers.map f, s.etag⟩

/-- Hits, seen through a function. -/
def Hits.map (f : Container κ → Container κ) (h : Hits κ) : Hits κ :=
  { h with items := h.items.map f }

/-- A candidate, seen through a function. -/
def Candidate.map (f : Container κ → Container κ) (c : Candidate κ ε) : Candidate κ ε :=
  { c with container := f c.container }

/-- A pending update, seen through a function. -/
def PendingUpdate.map (f : Container κ → Container κ) (p : PendingUpdate κ ε) :
    PendingUpdate κ ε := { p with toCandidate := p.toCandidate.map f }

/-- An index, seen through a function. -/
def Index.map [Ranked κ] (f : Container κ → Container κ) (ix : Index κ) : Index κ :=
  { ix with containers := ix.containers.map f }

/-- What comes to the same through a function is the same failure, or values that do. -/
theorem Except.cases_of_map_eq {α β φ : Type} {f : α → β} {r r' : Except φ α}
    (h : r.map f = r'.map f) :
    (∃ err, r = .error err ∧ r' = .error err) ∨
    ∃ a a', r = .ok a ∧ r' = .ok a' ∧ f a = f a' := by
  cases r with
  | error err =>
      cases r' with
      | error err' =>
          obtain rfl : err = err' := Except.error.inj h
          exact .inl ⟨err, rfl, rfl⟩
      | ok a' => cases h
  | ok a =>
      cases r' with
      | error err' => cases h
      | ok a' => exact .inr ⟨a, a', rfl, rfl, Except.ok.inj h⟩

/-! ## Operations on an index -/

namespace Index

variable [Ranked κ] {f : Container κ → Container κ} {ix ix' : Index κ}

theorem get?_map (f : Container κ → Container κ) (ix : Index κ) (k : κ) :
    (ix.map f).get? k = (ix.get? k).map f := SortedMap.find?_map _ _ _

theorem find?_map (f : Container κ → Container κ) (ix : Index κ) (target : Target κ) :
    (ix.map f).find? target = (ix.find? target).map f := by
  cases target with
  | key k => exact ix.get?_map f k
  | reference r =>
      change (ix.owners.find? r).bind (ix.map f).get? =
        ((ix.owners.find? r).bind ix.get?).map f
      cases ix.owners.find? r with
      | none => rfl
      | some k => exact ix.get?_map f k

theorem containsKey_map (f : Container κ → Container κ) (ix : Index κ) (k : κ) :
    (ix.map f).containsKey k = ix.containsKey k := by
  change ((ix.map f).get? k).isSome = (ix.get? k).isSome
  rw [get?_map, Option.isSome_map]

theorem snapshot_map (f : Container κ → Container κ) (ix : Index κ) (etag : String) :
    (ix.map f).snapshot etag = (ix.snapshot etag).map f := by
  rw [snapshot, Snapshot.map, snapshot, map, SortedMap.values_map]

theorem store_map (hf : Container.KeepsParts f) (ix : Index κ) (owners : SortedMap Reference κ)
    (c : Container κ) : (ix.store owners c).map f = (ix.map f).store owners (f c) := by
  rw [map, store, store, SortedMap.map_insert, ownedBy, ownedBy, hf c]
  rfl

theorem releasedBy_keeps (hf : Container.KeepsParts f) (owners : SortedMap Reference κ)
    (c : Container κ) : releasedBy owners (f c) = releasedBy owners c := by
  rw [releasedBy, releasedBy, hf c]

theorem add_map (hf : Container.KeepsParts f) (ix : Index κ) (c : Container κ) :
    (ix.map f).add (f c) = ((ix.add c).1, (ix.add c).2.map f) := by
  rw [add, add, hf c, containsKey_map]
  split
  · rfl
  · change (if ix.anyOwned c.references none = true then _ else _) = _
    split
    · rfl
    · rw [store_map hf]
      rfl

theorem delete_map (hf : Container.KeepsParts f) (ix : Index κ) (k : κ) :
    (ix.map f).delete k = ((ix.delete k).1.map f, (ix.delete k).2.map f) := by
  rw [delete, delete, get?_map]
  cases ix.get? k with
  | none => rfl
  | some c =>
      simp only [Option.map_some, map, SortedMap.map_erase, releasedBy_keeps hf]

theorem remove_map (hf : Container.KeepsParts f) (ix : Index κ) (target : Target κ) :
    (ix.map f).remove target = ((ix.remove target).1.map f, (ix.remove target).2.map f) := by
  cases target with
  | key k => exact ix.delete_map hf k
  | reference r =>
      rw [remove, remove, deleteByReference, deleteByReference,
        show (ix.map f).owners = ix.owners from rfl]
      cases ix.owners.find? r with
      | none => rfl
      | some k => exact ix.delete_map hf k

end Index

/-- On an exact index the container that an update replaces is told by its key. -/
theorem PendingUpdate.commit_map [Ranked κ] {f : Container κ → Container κ}
    (hf : Container.KeepsParts f) {ix : Index κ} (h : ix.Exact) (p : PendingUpdate κ ε) :
    (p.map f).commit (ix.map f) = ((p.commit ix).1, (p.commit ix).2.map f) := by
  have hparts : (p.map f).container.toContainerParts = p.container.toContainerParts :=
    hf p.container
  have hget : (ix.map f).get? p.container.key = (ix.get? p.container.key).map f := ix.get?_map f _
  have howned : (ix.map f).anyOwned p.container.references (some p.container.key) =
      ix.anyOwned p.container.references (some p.container.key) := rfl
  rcases commit_cases h p with ⟨hnone, hcommit⟩ |
    ⟨old, hold, ⟨hrefs, hcommit⟩ | ⟨hrefs, hstale, hcommit⟩ | ⟨hrefs, hfresh, hcommit⟩⟩
  · rw [hcommit, commit, hparts, hget, hnone]
    rfl
  · rw [hcommit, commit, hparts, hget, hold, howned, hrefs]
    rfl
  · have hstale' : (p.map f).presented.any (· ≠ (f old).version) = true := by
      rw [hf old]
      exact hstale
    rw [hcommit, commit, hparts, hget, hold, howned, hrefs]
    exact if_pos hstale'
  · have hfresh' : (p.map f).presented.any (· ≠ (f old).version) = false := by
      rw [hf old]
      exact hfresh
    have hkey : p.container.key = (f old).key := by
      rw [hf old]
      exact (h.key_eq hold).symm
    have hsame : Index.sameKey (p.map f).container.key (f old).key = true := by
      rw [hparts]
      exact Index.sameKey_iff.2 hkey
    have hfound : ((ix.map f).get? (f old).key).any (·.handle == (f old).handle) = true := by
      rw [← hkey, hget, hold]
      exact beq_self_eq_true _
    have hfree : (ix.map f).anyOwned (p.map f).container.references (some (f old).key) = false := by
      rw [← hkey, hparts]
      exact hrefs
    rw [hcommit, commit, hparts, hget, hold, howned, hrefs, Index.store_map hf]
    change (if (p.map f).presented.any (· ≠ (f old).version) = true then _ else _) = _
    rw [if_neg (by rw [hfresh']; exact Bool.false_ne_true), Index.replace, hsame, hfound, hfree,
      Index.releasedBy_keeps hf]
    rfl

/-! ## Preparing in two states -/

namespace Store

variable [EntityKey κ] {f : Container κ → Container κ}

/-- Updates that draw the same tokens are prepared alike if their candidates are. -/
theorem prepareUpdate_agree {s s' : Store κ ε σ τ} {st st' : State κ ε σ τ} {e : ε}
    (hdraft : (s.draft e st.tokens).1 = (s'.draft e st'.tokens).1)
    (hcandidate :
      (s.candidate (s.makers.key e) (s.draft e st.tokens).1.stored
          (s.draft e st.tokens).1.version st.memory).1.map (Candidate.map f) =
        (s'.candidate (s'.makers.key e) (s'.draft e st'.tokens).1.stored
          (s'.draft e st'.tokens).1.version st'.memory).1.map (Candidate.map f)) :
    (s.prepareUpdate e st).1.map (PendingUpdate.map f) =
      (s'.prepareUpdate e st').1.map (PendingUpdate.map f) := by
  rw [prepareUpdate_eq, prepareUpdate_eq]
  dsimp only
  rcases Except.cases_of_map_eq hcandidate with ⟨err, hc, hc'⟩ | ⟨c, c', hc, hc', hsame⟩
  · rw [hc, hc']
    rfl
  · have hpending :=
      congrArg (fun c => PendingUpdate.mk c (s'.draft e st'.tokens).1.presented) hsame
    rw [hc, hc', hdraft]
    exact congrArg Except.ok hpending

end Store

/-! ## Visits in two states -/

namespace Store

variable [EntityKey κ] {f : Container κ → Container κ} {st st' : State κ ε σ τ}

omit [EntityKey κ] in
theorem accepted_map (hf : Container.KeepsParts f) (code : ResponseCode) (c : Candidate κ ε)
    (settings : Option Settings) : accepted code (c.map f) settings = accepted code c settings := by
  simp only [accepted, Candidate.map, Container.reference, hf c.container]

theorem countHit_map (k : κ) (st : State κ ε σ τ) :
    (countHit k st).index.map f = ((st.index.map f).recordHit k).2 := rfl

variable (hf : Container.KeepsParts f) (hix : st.index.map f = st'.index.map f)

include hf hix

theorem enter_agree {c c' : Candidate κ ε} (hc : c.map f = c'.map f)
    (settings : Option Settings) :
    (enter c settings st).1 = (enter c' settings st').1 ∧
      (enter c settings st).2.index.map f = (enter c' settings st').2.index.map f := by
  have hadd := (st.index.add_map hf c.container).symm
  have hcontainer : f c.container = f c'.container := congrArg Candidate.container hc
  rw [hix, hcontainer, st'.index.add_map hf c'.container] at hadd
  obtain ⟨hadded, hindex⟩ := Prod.mk.inj hadd
  have hanswer : ∀ (c : Candidate κ ε) (st : State κ ε σ τ), (enter c settings st).1 =
      if (st.index.add c.container).1 then accepted .created c settings
      else { code := .conflict, key := some c.container.key, settings } := fun _ _ => rfl
  refine ⟨?_, hindex⟩
  rw [hanswer, hanswer, hadded, ← accepted_map hf _ c, hc, accepted_map hf,
    hf.parts_eq hcontainer]

theorem commit_agree (hexact : st.index.Exact) (hexact' : st'.index.Exact)
    {p p' : PendingUpdate κ ε} (hp : p.map f = p'.map f) (settings : Option Settings) :
    (commit p settings st).1 = (commit p' settings st').1 ∧
      (commit p settings st).2.index.map f = (commit p' settings st').2.index.map f := by
  have hcommit := (p.commit_map hf hexact).symm
  rw [hix, hp, p'.commit_map hf hexact'] at hcommit
  obtain ⟨houtcome, hindex⟩ := Prod.mk.inj hcommit
  have hcandidate : p.toCandidate.map f = p'.toCandidate.map f :=
    congrArg PendingUpdate.toCandidate hp
  have hcontainer : f p.container = f p'.container := congrArg Candidate.container hcandidate
  refine ⟨?_, hindex⟩
  rw [commit_eq, commit_eq]
  dsimp only
  rw [houtcome, ← accepted_map hf _ p.toCandidate, hcandidate, accepted_map hf,
    hf.parts_eq hcontainer]

theorem remove_agree (target : Target κ) (settings : Option Settings) :
    (remove target settings st).1 = (remove target settings st').1 ∧
      (remove target settings st).2.index.map f = (remove target settings st').2.index.map f := by
  have hremove := (st.index.remove_map hf target).symm
  rw [hix, st'.index.remove_map hf target] at hremove
  obtain ⟨hremoved, hindex⟩ := Prod.mk.inj hremove
  refine ⟨?_, hindex⟩
  rw [remove_eq, remove_eq]
  dsimp only
  cases hc : (st.index.remove target).1 with
  | none =>
      rw [hc] at hremoved
      cases hc' : (st'.index.remove target).1 with
      | none => rfl
      | some c' =>
          rw [hc'] at hremoved
          cases hremoved
  | some c =>
      rw [hc] at hremoved
      cases hc' : (st'.index.remove target).1 with
      | none =>
          rw [hc'] at hremoved
          cases hremoved
      | some c' =>
          rw [hc'] at hremoved
          have hparts := hf.parts_eq (Option.some.inj hremoved)
          simp only [Container.reference, hparts]

omit hf in
theorem find?_agree (target : Target κ) :
    (st.index.find? target = none ∧ st'.index.find? target = none) ∨
    ∃ c c', st.index.find? target = some c ∧ st'.index.find? target = some c' ∧ f c = f c' := by
  have hfind := (st.index.find?_map f target).symm
  rw [hix, st'.index.find?_map] at hfind
  cases hc : st.index.find? target with
  | none =>
      rw [hc] at hfind
      exact .inl ⟨rfl, Option.map_eq_none_iff.1 hfind.symm⟩
  | some c =>
      rw [hc] at hfind
      obtain ⟨c', hc', hsame⟩ := Option.map_eq_some_iff.1 hfind.symm
      exact .inr ⟨c, c', rfl, hc', hsame.symm⟩

theorem version_agree (target : Target κ) (settings : Option Settings) :
    (version target settings st).1 = (version target settings st').1 ∧
      (version target settings st).2.index.map f = (version target settings st').2.index.map f := by
  rcases find?_agree hix target with ⟨hc, hc'⟩ | ⟨c, c', hc, hc', hsame⟩
  · rw [version_of_none hc, version_of_none hc']
    exact ⟨rfl, hix⟩
  · have hparts := hf.parts_eq hsame
    rw [version_of_some hc, version_of_some hc']
    refine ⟨by simp only [Container.reference, hparts], ?_⟩
    rw [countHit_map, countHit_map, hix, hparts]

/-- A read leads to the same if what is found reads as the same. -/
theorem read_agree {s s' : Store κ ε σ τ} (hsignature : s.signaturePolicy = s'.signaturePolicy)
    {target : Target κ}
    (hentity : ∀ c c', st.index.find? target = some c → st'.index.find? target = some c' →
      f c = f c' → (c.entity s.context st.memory).1 = (c'.entity s'.context st'.memory).1)
    (settings : Option Settings) :
    (s.read target settings st).1 = (s'.read target settings st').1 ∧
      (s.read target settings st).2.index.map f = (s'.read target settings st').2.index.map f := by
  rcases find?_agree hix target with ⟨hc, hc'⟩ | ⟨c, c', hc, hc', hsame⟩
  · rw [s.read_of_none hc, s'.read_of_none hc']
    exact ⟨rfl, hix⟩
  · have hparts := hf.parts_eq hsame
    have hread := hentity c c' hc hc' hsame
    have hintact : ∀ e, s.isIntact c e = s'.isIntact c' e := by
      intro e
      rw [isIntact, isIntact, hparts, hsignature]
    cases hent : c.entity s.context st.memory with
    | mk r m =>
        cases hent' : c'.entity s'.context st'.memory with
        | mk r' m' =>
            rw [hent, hent'] at hread
            obtain rfl : r = r' := hread
            cases r with
            | error err =>
                rw [s.read_of_error settings hc hent, s'.read_of_error settings hc' hent']
                exact ⟨rfl, hix⟩
            | ok e =>
                rw [s.read_of_ok settings hc hent, s'.read_of_ok settings hc' hent', hintact]
                simp only [Container.reference, hparts]
                split
                · exact ⟨rfl, congrArg (fun ix : Index κ => (ix.recordHit c'.key).2) hix⟩
                · exact ⟨rfl, hix⟩

end Store

end EntityStore
