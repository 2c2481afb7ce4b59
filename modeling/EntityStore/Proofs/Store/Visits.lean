import EntityStore.Proofs.Index.Exact
import EntityStore.Proofs.Store.Calls
import EntityStore.Proofs.Store.Memory

/-!
# What a visit to the gate can do

Every decision about the contents is made in one visit, so what is said here of
the visits is all that a later argument needs to know of them: which checks
passed, what is answered, and what the index is afterwards. A refused write
hands back the state it found.
-/

namespace EntityStore

variable {κ ε σ τ : Type}

section

variable [Ranked κ] {ix : Index κ}

/-- An update ends in one of four ways. The stored container is the one that is replaced, so on an
exact index the replacement itself is never refused. -/
theorem PendingUpdate.commit_cases (h : ix.Exact) (p : PendingUpdate κ ε) :
    (ix.get? p.container.key = none ∧ p.commit ix = (.missing, ix)) ∨
    ∃ old, ix.get? p.container.key = some old ∧
      ((ix.anyOwned p.container.references (some p.container.key) = true ∧
          p.commit ix = (.taken, ix)) ∨
        (ix.anyOwned p.container.references (some p.container.key) = false ∧
          p.presented.any (· ≠ old.version) = true ∧ p.commit ix = (.stale, ix)) ∨
        (ix.anyOwned p.container.references (some p.container.key) = false ∧
          p.presented.any (· ≠ old.version) = false ∧
          p.commit ix =
            (.replaced, ix.store (Index.releasedBy ix.owners old) p.container))) := by
  rw [PendingUpdate.commit]
  cases hold : ix.get? p.container.key with
  | none => exact .inl ⟨rfl, rfl⟩
  | some old =>
      refine .inr ⟨old, rfl, ?_⟩
      have hkey := h.key_eq hold
      cases hrefs : ix.anyOwned p.container.references (some p.container.key) with
      | true => exact .inl ⟨rfl, by simp only [if_true]⟩
      | false =>
          refine .inr ?_
          cases hstale : p.presented.any (· ≠ old.version) with
          | true =>
              refine .inl ⟨rfl, rfl, ?_⟩
              simp only [Bool.false_eq_true, if_false]
              exact if_pos hstale
          | false =>
              refine .inr ⟨rfl, rfl, ?_⟩
              have hsame : Index.sameKey p.container.key old.key = true :=
                Index.sameKey_iff.2 hkey.symm
              have hfound : (ix.get? old.key).any (·.handle == old.handle) = true := by
                rw [hkey, hold]
                simp
              have hfree : ix.anyOwned p.container.references (some old.key) = false := by
                rw [hkey]
                exact hrefs
              simp only [Index.replace, hsame, hfound, hfree, Bool.not_true, Bool.false_eq_true,
                if_false]
              exact if_neg (by rw [hstale]; exact Bool.false_ne_true)

/-- How an update ends: its key has to be live, its references free or its own, and its token the
stored one. -/
theorem PendingUpdate.outcome_eq (h : ix.Exact) (p : PendingUpdate κ ε) :
    (p.commit ix).1 = match ix.get? p.container.key with
      | none => .missing
      | some old =>
        if ix.anyOwned p.container.references (some p.container.key) then .taken
        else if p.presented.any (· ≠ old.version) then .stale
        else .replaced := by
  rcases commit_cases h p with ⟨hnone, hcommit⟩ |
    ⟨old, hold, ⟨hrefs, hcommit⟩ | ⟨hrefs, hstale, hcommit⟩ | ⟨hrefs, hfresh, hcommit⟩⟩
  · rw [hcommit, hnone]
  · rw [hcommit, hold, hrefs]
    rfl
  · rw [hcommit, hold, hrefs]
    exact (if_pos hstale).symm
  · rw [hcommit, hold, hrefs]
    exact (if_neg (by rw [hfresh]; exact Bool.false_ne_true)).symm

theorem PendingUpdate.commit_of_replaced (h : ix.Exact) {p : PendingUpdate κ ε}
    {old : Container κ} (hold : ix.get? p.container.key = some old)
    (houtcome : (p.commit ix).1 = .replaced) :
    p.commit ix = (.replaced, ix.store (Index.releasedBy ix.owners old) p.container) := by
  rcases commit_cases h p with ⟨-, hcommit⟩ |
    ⟨old', hold', ⟨-, hcommit⟩ | ⟨-, -, hcommit⟩ | ⟨-, -, hcommit⟩⟩
  · rw [hcommit] at houtcome
    cases houtcome
  · rw [hcommit] at houtcome
    cases houtcome
  · rw [hcommit] at houtcome
    cases houtcome
  · obtain rfl := Option.some.inj (hold.symm.trans hold')
    exact hcommit

/-- Whatever the index is like, only an accepted update changes it, and counts as one change. -/
theorem PendingUpdate.commit_revision (p : PendingUpdate κ ε) (ix : Index κ) :
    ((p.commit ix).1 = .replaced ∧ (p.commit ix).2.revision = ix.revision + 1) ∨
    ((p.commit ix).1 ≠ .replaced ∧ (p.commit ix).2 = ix) := by
  rw [PendingUpdate.commit]
  cases hold : ix.get? p.container.key with
  | none => exact .inr ⟨by simp, rfl⟩
  | some old =>
      dsimp only
      split
      · exact .inr ⟨by simp, rfl⟩
      · split
        · exact .inr ⟨by simp, rfl⟩
        · rcases Index.replace_cases ix old p.container with hrep | ⟨hrep, -⟩
          · rw [hrep]
            exact .inr ⟨by simp, rfl⟩
          · rw [hrep]
            exact .inl ⟨rfl, rfl⟩

end

variable [EntityKey κ]

theorem State.exists_find?_of_containsKey {st : State κ ε σ τ} {k : κ}
    (h : st.containsKey k = true) : ∃ c, st.index.find? (.key k) = some c :=
  SortedMap.contains_iff.1 h

namespace Store

/-! ## Writes -/

section

variable {s : Store κ ε σ τ} (hwritable : s.readOnly = false)

include hwritable

theorem create_of_writable (e : ε) (settings : Option Settings) (st : State κ ε σ τ) :
    s.create e settings st = match s.prepareCreate e st with
      | (.error err, st) => (.error err, st)
      | (.ok c, st) => (enter c settings st).map .ok id := by
  rw [create, hwritable]
  rfl

theorem update_of_writable (e : ε) (settings : Option Settings) (st : State κ ε σ τ) :
    s.update e settings st = match s.prepareUpdate e st with
      | (.error err, st) => (.error err, st)
      | (.ok p, st) => (commit p settings st).map .ok id := by
  rw [update, hwritable]
  rfl

/-- An update fails while it is prepared, or what was prepared is committed to the index as it
was. -/
theorem update_cases (e : ε) (settings : Option Settings) (st : State κ ε σ τ) :
    (∃ err st', s.prepareUpdate e st = (.error err, st') ∧
      s.update e settings st = (.error err, st')) ∨
    ∃ p st', s.prepareUpdate e st = (.ok p, st') ∧ st'.index = st.index ∧
      p.container.key = s.makers.key e ∧
      s.update e settings st = (commit p settings st').map .ok id := by
  have hgate := s.prepareUpdate_gate e st
  rw [update_of_writable hwritable]
  cases hprep : s.prepareUpdate e st with
  | mk r st' =>
      rw [hprep] at hgate
      cases r with
      | error err => exact .inl ⟨err, st', rfl, rfl⟩
      | ok p =>
          obtain ⟨-, blob, hp⟩ := prepareUpdate_container hprep
          exact .inr ⟨p, st', rfl, congrArg Gate.inner hgate, by rw [hp]; rfl, rfl⟩

theorem delete_of_writable (target : Target κ) (settings : Option Settings)
    (st : State κ ε σ τ) : s.delete target settings st =
      remove target settings (st.notify s.observers (.beforeDelete target)) := by
  rw [delete, hwritable]
  rfl

end

/-- A creation is answered 409 or it stores its candidate. -/
theorem enter_cases (c : Candidate κ ε) (settings : Option Settings) (st : State κ ε σ τ) :
    ((st.index.containsKey c.container.key = true ∨
        st.index.anyOwned c.container.references none = true) ∧
      enter c settings st = ({ code := .conflict, key := some c.container.key, settings }, st)) ∨
    (st.index.get? c.container.key = none ∧
      st.index.anyOwned c.container.references none = false ∧
      enter c settings st = (accepted .created c settings,
        { st with gate := ⟨st.index.store st.index.owners c.container⟩ })) := by
  have henter : enter c settings st =
      (if (st.index.add c.container).1 then accepted .created c settings
        else { code := .conflict, key := some c.container.key, settings },
        { st with gate := ⟨(st.index.add c.container).2⟩ }) := rfl
  rcases Index.add_cases st.index c.container with ⟨hadd, htaken⟩ | ⟨hadd, hkey, hrefs⟩
  · exact .inl ⟨htaken, by rw [henter, hadd]; rfl⟩
  · exact .inr ⟨hkey, hrefs, by rw [henter, hadd]; rfl⟩

theorem commit_eq (p : PendingUpdate κ ε) (settings : Option Settings) (st : State κ ε σ τ) :
    commit p settings st =
      (if (p.commit st.index).1 = .replaced then
          accepted (p.commit st.index).1.code p.toCandidate settings
        else { code := (p.commit st.index).1.code, key := some p.container.key, settings },
        { st with gate := ⟨(p.commit st.index).2⟩ }) := rfl

/-- An update that is not accepted is answered 409, or 404 if its key is not live, and changes
nothing. -/
theorem commit_refused {st : State κ ε σ τ} (h : st.index.Exact) (p : PendingUpdate κ ε)
    (settings : Option Settings) :
    (commit p settings st).1.code = .ok ∨
    (((commit p settings st).1.code = .conflict ∨
        (commit p settings st).1.code = .notFound ∧ st.index.get? p.container.key = none) ∧
      (commit p settings st).2 = st) := by
  rw [commit_eq]
  rcases PendingUpdate.commit_cases h p with ⟨hnone, hcommit⟩ |
    ⟨old, hold, ⟨-, hcommit⟩ | ⟨-, -, hcommit⟩ | ⟨-, -, hcommit⟩⟩
  · rw [hcommit]
    exact .inr ⟨.inr ⟨rfl, hnone⟩, rfl⟩
  · rw [hcommit]
    exact .inr ⟨.inl rfl, rfl⟩
  · rw [hcommit]
    exact .inr ⟨.inl rfl, rfl⟩
  · rw [hcommit]
    exact .inl rfl

theorem commit_code_eq_ok_iff {p : PendingUpdate κ ε} {settings : Option Settings}
    {st : State κ ε σ τ} :
    (commit p settings st).1.code = .ok ↔ (p.commit st.index).1 = .replaced := by
  rw [commit_eq]
  cases (p.commit st.index).1 <;> simp [UpdateOutcome.code, accepted]

/-- A prepared update of what is stored is accepted if its references are free or its own and its
token is the stored one. -/
theorem commit_ok_iff {st : State κ ε σ τ} {c : Container κ} (hexact : st.index.Exact)
    (hc : st.index.Live c) {p : PendingUpdate κ ε} (hkey : p.container.key = c.key)
    (settings : Option Settings) :
    (commit p settings st).1.code = .ok ↔
      (∀ r ∈ p.container.references, ∀ d, st.index.Live d → r ∈ d.references → d.key = c.key) ∧
      ∀ token, p.presented = some token → token = c.version := by
  have hget : st.index.get? c.key = some c := hc
  have hfresh : p.presented.any (· ≠ c.version) = false ↔
      ∀ token, p.presented = some token → token = c.version := by
    cases p.presented <;> simp
  rw [commit_code_eq_ok_iff, p.outcome_eq hexact, hkey, hget, ← hexact.anyOwned_eq_false_iff,
    ← hfresh]
  dsimp only
  cases st.index.anyOwned p.container.references (some c.key) <;>
    cases p.presented.any (· ≠ c.version) <;> simp

section

variable {target : Target κ} {settings : Option Settings} {st : State κ ε σ τ} {c : Container κ}

theorem remove_eq (target : Target κ) (settings : Option Settings) (st : State κ ε σ τ) :
    remove target settings st =
      ((match (st.index.remove target).1 with
        | some c => { code := .ok, key := some c.key, entity := some (c.key, ""),
                      reference := c.reference, settings }
        | none => { code := .notFound, key := target.key?, entity := requested target, settings }),
        { st with gate := ⟨(st.index.remove target).2⟩ }) := rfl

theorem remove_of_none (h : st.index.Exact) (hnone : st.index.find? target = none) :
    remove target settings st =
      ({ code := .notFound, key := target.key?, entity := requested target, settings }, st) := by
  rw [remove_eq, h.remove_of_none hnone]

theorem remove_of_some (h : st.index.Exact) (hc : st.index.find? target = some c) :
    remove target settings st =
      ({ code := .ok, key := some c.key, entity := some (c.key, ""), reference := c.reference,
         settings }, { st with gate := ⟨(st.index.delete c.key).2⟩ }) := by
  rw [remove_eq, h.remove_of_some hc, Index.delete_of_some (h.live_of_find? hc)]

theorem delete_of_found {s : Store κ ε σ τ} (hwritable : s.readOnly = false) (hexact : st.index.Exact)
    (hc : st.index.find? target = some c) (settings : Option Settings) :
    s.delete target settings st =
      ({ code := .ok, key := some c.key, entity := some (c.key, ""), reference := c.reference,
         settings }, { st.notify s.observers (.beforeDelete target) with
           gate := ⟨(st.index.delete c.key).2⟩ }) := by
  rw [delete_of_writable hwritable]
  exact remove_of_some hexact hc

/-! ## Look-ups -/

theorem read_of_none (s : Store κ ε σ τ) (hnone : st.index.find? target = none) :
    s.read target settings st = (.ok { code := .notFound, settings }, st) := by
  rw [read, show st.gate.read (·.find? target) = none from hnone]

theorem read_of_error (s : Store κ ε σ τ) (settings : Option Settings) {err : StoreError}
    {m : Memory ε σ} (hc : st.index.find? target = some c)
    (hent : c.entity s.context st.memory = (.error err, m)) :
    s.read target settings st = (.error err, { st with memory := m }) := by
  rw [read, show st.gate.read (·.find? target) = some c from hc]
  simp only [hent]

theorem read_of_ok (s : Store κ ε σ τ) (settings : Option Settings) {e : ε} {m : Memory ε σ}
    (hc : st.index.find? target = some c)
    (hent : c.entity s.context st.memory = (.ok e, m)) :
    s.read target settings st =
      if s.isIntact c e then
        (.ok { code := .ok, key := some c.key, entity := some e, reference := c.reference,
               settings }, countHit c.key { st with memory := m })
      else
        (.ok { code := .forbidden, key := some c.key, settings }, { st with memory := m }) := by
  rw [read, show st.gate.read (·.find? target) = some c from hc]
  simp only [hent]

/-- What is found does not decode, or its signature does not fit, or it is handed out and
counted. -/
theorem read_cases (s : Store κ ε σ τ) (settings : Option Settings)
    (hc : st.index.find? target = some c) :
    ∃ m', (∃ err, c.entity s.context st.memory = (.error err, m') ∧
        s.read target settings st = (.error err, { st with memory := m' })) ∨
      ∃ e, c.entity s.context st.memory = (.ok e, m') ∧
        ((s.isIntact c e = false ∧ s.read target settings st =
            (.ok { code := .forbidden, key := some c.key, settings },
              { st with memory := m' })) ∨
          (s.isIntact c e = true ∧ s.read target settings st =
            (.ok { code := .ok, key := some c.key, entity := some e, reference := c.reference,
                   settings },
              countHit c.key { st with memory := m' }))) := by
  cases hent : c.entity s.context st.memory with
  | mk r m' =>
      refine ⟨m', ?_⟩
      cases r with
      | error err => exact .inl ⟨err, rfl, s.read_of_error settings hc hent⟩
      | ok e =>
          have hread := s.read_of_ok settings hc hent
          cases hsig : s.isIntact c e with
          | false => exact .inr ⟨e, rfl, .inl ⟨hsig, by rw [hread, hsig]; rfl⟩⟩
          | true => exact .inr ⟨e, rfl, .inr ⟨hsig, by rw [hread, hsig]; rfl⟩⟩

theorem version_of_none (hnone : st.index.find? target = none) :
    version target settings st =
      ({ code := .notFound, key := target.key?, entity := requested target, settings }, st) := by
  rw [version, show st.gate.read (·.find? target) = none from hnone]

theorem version_of_some (hc : st.index.find? target = some c) :
    version target settings st =
      ({ code := .ok, key := some c.key, entity := some (c.key, c.version.getD ""),
         reference := c.reference, settings }, countHit c.key st) := by
  rw [version, show st.gate.read (·.find? target) = some c from hc]

/-- A read counts a hit and remembers an entity, at most. -/
theorem read_state (s : Store κ ε σ τ) (target : Target κ) (settings : Option Settings)
    (st : State κ ε σ τ) : ∃ hits memory, (s.read target settings st).2 =
      { st with gate := ⟨{ st.index with hits }⟩, memory } := by
  cases hc : st.index.find? target with
  | none => exact ⟨st.index.hits, st.memory, by rw [s.read_of_none hc]⟩
  | some c =>
      obtain ⟨m', ⟨err, -, heq⟩ | ⟨e, -, ⟨-, heq⟩ | ⟨-, heq⟩⟩⟩ := s.read_cases settings hc
      · exact ⟨st.index.hits, m', by rw [heq]⟩
      · exact ⟨st.index.hits, m', by rw [heq]⟩
      · exact ⟨(st.index.hits.record c.key).2, m', by rw [heq]; rfl⟩

theorem version_state (target : Target κ) (settings : Option Settings) (st : State κ ε σ τ) :
    ∃ hits, (version target settings st).2 = { st with gate := ⟨{ st.index with hits }⟩ } := by
  cases hc : st.index.find? target with
  | none => exact ⟨st.index.hits, by rw [version_of_none hc]⟩
  | some c => exact ⟨(st.index.hits.record c.key).2, by rw [version_of_some hc]; rfl⟩

theorem read_index (s : Store κ ε σ τ) (target : Target κ) (settings : Option Settings)
    (st : State κ ε σ τ) :
    ∃ hits, (s.read target settings st).2.index = { st.index with hits } := by
  obtain ⟨hits, memory, hread⟩ := s.read_state target settings st
  exact ⟨hits, by rw [hread]⟩

theorem version_index (target : Target κ) (settings : Option Settings) (st : State κ ε σ τ) :
    ∃ hits, (version target settings st).2.index = { st.index with hits } := by
  obtain ⟨hits, hversion⟩ := version_state target settings st
  exact ⟨hits, by rw [hversion]⟩

theorem read_tokens (s : Store κ ε σ τ) (target : Target κ) (settings : Option Settings)
    (st : State κ ε σ τ) : (s.read target settings st).2.tokens = st.tokens := by
  obtain ⟨hits, memory, hread⟩ := s.read_state target settings st
  rw [hread]

theorem version_tokens (target : Target κ) (settings : Option Settings) (st : State κ ε σ τ) :
    (version target settings st).2.tokens = st.tokens := by
  obtain ⟨hits, hversion⟩ := version_state target settings st
  rw [hversion]

end

/-! ## Searches -/

variable {ρ : Type} [Paged ρ]

/-- The answer to a search that came to an outcome on contents with a tag. -/
def searched (s : Store κ ε σ τ) (etag : String) (request : SearchRequest)
    (settings : Option Settings) : Except Breakdown ρ → Response SearchRequest ρ
  | .ok found =>
    { code := .ok
      key := some request
      entity := some (Paged.onPage etag request found)
      settings }
  | .error breakdown =>
    { code := .internalError
      key := some request
      message := some (searchMessage (s.searchId request) "unexpected exception.")
      error := some (.search breakdown.toError)
      settings }

/-- What observers are told of the outcome of a search. -/
def afterOutcome (request : SearchRequest) : Except Breakdown ρ → Event κ
  | .ok found => .afterSearch request .ok (Paged.size found)
  | .error _ => .afterSearch request .internalError 0

/-- The answer and what observers are told hang on the outcome of the run and on the tag. -/
theorem searchIn_eq (s : Store κ ε σ τ) (load : Loader κ ε σ ρ) (a : Algorithm κ ε σ)
    (snapshot : Snapshot κ) (request : SearchRequest) (settings : Option Settings)
    (st : State κ ε σ τ) : s.searchIn load a snapshot request settings st =
      (s.searched snapshot.etag request settings
          (a.run s.context load snapshot request st.memory).1,
        { st with memory := (a.run s.context load snapshot request st.memory).2 }.notify s.observers
          (afterOutcome request (a.run s.context load snapshot request st.memory).1)) := by
  simp only [searchIn]
  cases a.run s.context load snapshot request st.memory with
  | mk r m => cases r <;> rfl

/-- The algorithm runs outside the gate, whatever it does. -/
theorem searchIn_gate (s : Store κ ε σ τ) (load : Loader κ ε σ ρ) (a : Algorithm κ ε σ)
    (snapshot : Snapshot κ) (request : SearchRequest) (settings : Option Settings)
    (st : State κ ε σ τ) : (s.searchIn load a snapshot request settings st).2.gate = st.gate := by
  rw [searchIn_eq]
  rfl

end Store

end EntityStore
