import EntityStore.Proofs.Interleaving.Grounded

/-!
# When an update is accepted

With optimistic locking an update is decided by its token once nothing else is
in its way: its key is live, what it is about to store is written and read back,
and nobody else lists its references (`Store.Offers`). It is then answered 200 if
it carries the stored token and 409 if it does not, and never fails
(`Store.update_of_offers`).

What is stored then carries the token that was drawn. That an entity carries the
token of the container it came from is up to the policy, which has to find what
it has put there (`Store.Stamps`).
-/

namespace EntityStore

variable {κ ε σ τ : Type} [EntityKey κ]

namespace Store

/-- With optimistic locking an entity shows the token that was put on it, and keeps its key. -/
structure Stamps (s : Store κ ε σ τ) : Prop where
  versionOf_renew : ∀ {p}, s.versionPolicy = some p → p.optimistic = true → ∀ e tokens,
    p.versionOf (p.renew e tokens).1.2 = some (p.renew e tokens).1.1
  key_renew : ∀ {p}, s.versionPolicy = some p → p.optimistic = true → ∀ e tokens,
    s.makers.key (p.renew e tokens).1.2 = s.makers.key e

/-- What an update by an entity is about to store is written, and read back as a copy. -/
def ComesBack (s : Store κ ε σ τ) (st : State κ ε σ τ) (e copy : ε) : Prop :=
  ∃ blob session,
    s.context.encode (s.draft e st.tokens).1.stored st.memory.session = (.ok blob, session) ∧
      (s.context.decode blob session).1 = .ok copy

/-- An update of a key by an entity has nothing against it but maybe its token. What it is about to
store comes back, and lists no reference that is listed under another key. -/
structure Offers (s : Store κ ε σ τ) (st : State κ ε σ τ) (k : κ) (e copy : ε) : Prop where
  key_eq : s.makers.key e = k
  comesBack : s.ComesBack st e copy
  own : ∀ r ∈ s.makers.references (s.draft e st.tokens).1.stored, ∀ c, st.index.Live c →
    r ∈ c.references → c.key = k

variable {s : Store κ ε σ τ} {st : State κ ε σ τ} {policy : VersionPolicy ε τ}

omit [EntityKey κ] in
theorem draft_eq (hpolicy : s.versionPolicy = some policy) (hoptimistic : policy.optimistic = true)
    (e : ε) (tokens : τ) :
    (s.draft e tokens).1 = ⟨(policy.renew e tokens).1.2, some (policy.renew e tokens).1.1,
      some (policy.versionOf e)⟩ := by
  simp [draft, hpolicy, hoptimistic]

omit [EntityKey κ] in
/-- A draft carries the token that it is stored with, and has the key that it is stored under. -/
theorem Stamps.of_drafts (h : s.Stamps) {call : Call κ ε} {key : κ} {d : Draft ε}
    (hdrafts : s.Drafts call key d) :
    d.version = s.versionOf d.stored ∧ s.makers.key d.stored = key := by
  cases hdrafts with
  | create e settings => exact ⟨rfl, rfl⟩
  | update e settings tokens =>
      cases hpolicy : s.versionPolicy with
      | none => simp [draft, versionOf, hpolicy]
      | some p =>
          by_cases hoptimistic : p.optimistic = true
          · have hshown := h.versionOf_renew hpolicy hoptimistic e tokens
            have hkey := h.key_renew hpolicy hoptimistic e tokens
            rw [draft_eq hpolicy hoptimistic]
            simp [versionOf, hpolicy, hshown, hkey]
          · simp [draft, versionOf, hpolicy, hoptimistic]

theorem prepareUpdate_of_comesBack (ht : st.memory.Tidy) {e copy : ε}
    (h : s.ComesBack st e copy) :
    ∃ p st', s.prepareUpdate e st = (.ok p, st') ∧ p.copy = copy := by
  obtain ⟨blob, session, henc, hdec⟩ := h
  rcases candidate_cases (s := s) ht (s.makers.key e) (s.draft e st.tokens).1.stored
      (s.draft e st.tokens).1.version with
    ⟨err, m', -, -, herr | ⟨blob', session', henc', hdec'⟩⟩ |
      ⟨blob', session', copy', m', henc', hdec', hcand, -⟩
  · rw [henc] at herr
    cases herr
  · rw [henc] at henc'
    cases henc'
    rw [hdec] at hdec'
    cases hdec'
  · rw [henc] at henc'
    cases henc'
    rw [hdec] at hdec'
    cases hdec'
    rw [prepareUpdate_eq]
    simp only [hcand]
    exact ⟨_, _, rfl, rfl⟩

/-- An update that is ready visits the gate, with the index as it was, the token of its entity and
a candidate that carries the one that was drawn. -/
theorem update_of_prepared (hwritable : s.readOnly = false)
    (hpolicy : s.versionPolicy = some policy) (hoptimistic : policy.optimistic = true) {e : ε}
    {p : PendingUpdate κ ε} {st' : State κ ε σ τ} (h : s.prepareUpdate e st = (.ok p, st'))
    (settings : Option Settings) :
    s.update e settings st = (.ok (commit p settings st').1, (commit p settings st').2) ∧
      st'.gate = st.gate ∧ p.presented = some (policy.versionOf e) ∧
      ∃ blob, p.container = s.containerOf (s.makers.key e) (policy.renew e st.tokens).1.2
        (some (policy.renew e st.tokens).1.1) st.memory.next blob := by
  obtain ⟨hpresented, blob, hp⟩ := prepareUpdate_container h
  rw [draft_eq hpolicy hoptimistic] at hpresented hp
  have hgate := s.prepareUpdate_gate e st
  rw [h] at hgate
  exact ⟨by simp [update, hwritable, h], hgate, hpresented, blob, hp⟩

/-- With a pure context it is enough to write and read in any one session. -/
theorem comesBack_of_copyOf (hx : s.context.IsPure) (session : σ) {e copy : ε}
    (h : s.context.copyOf session (s.draft e st.tokens).1.stored = .ok copy) :
    s.ComesBack st e copy := by
  rw [Context.copyOf, hx.encode_eq _ session st.memory.session] at h
  cases henc : s.context.encode (s.draft e st.tokens).1.stored st.memory.session with
  | mk r next =>
      rw [henc] at h
      cases r with
      | error err => cases h
      | ok blob => exact ⟨blob, next, henc, (hx.decode_eq blob next session).trans h⟩

/-- An update that has nothing else against it is decided by its token. It is accepted, and what is
stored carries the token that was drawn, if it carries the stored one; and is refused otherwise. -/
theorem update_of_offers (hwritable : s.readOnly = false)
    (hpolicy : s.versionPolicy = some policy) (hoptimistic : policy.optimistic = true)
    (hexact : st.index.Exact) (ht : st.memory.Tidy) {k : κ} {old : Container κ}
    (hold : st.index.get? k = some old) {e copy : ε} (h : s.Offers st k e copy)
    (settings : Option Settings) :
    (policy.versionOf e = old.version ∧ ∃ c : Container κ,
      (s.update e settings st).1 = .ok (accepted .ok ⟨c, copy⟩ settings) ∧
      (s.update e settings st).2.index.get? k = some c ∧ c.key = k ∧
      c.version = some (policy.renew e st.tokens).1.1) ∨
    (policy.versionOf e ≠ old.version ∧
      (s.update e settings st).1 = .ok { code := .conflict, key := some k, settings }) := by
  obtain ⟨p, st', hprep, hcopy⟩ := prepareUpdate_of_comesBack ht h.comesBack
  obtain ⟨hupdate, hgate, hpresented, blob, hp⟩ :=
    update_of_prepared hwritable hpolicy hoptimistic hprep settings
  have hix : st'.index = st.index := congrArg Gate.inner hgate
  have hkey : p.container.key = k := by
    rw [hp]
    exact h.key_eq
  have hfree : st.index.anyOwned p.container.references (some p.container.key) = false := by
    have hown := h.own
    rw [draft_eq hpolicy hoptimistic] at hown
    rw [hkey, hp]
    exact hexact.anyOwned_eq_false_iff.2 hown
  rw [hupdate, commit_eq, hix]
  rcases PendingUpdate.commit_cases hexact p with ⟨hnone, -⟩ |
    ⟨old', hold', ⟨htaken, -⟩ | ⟨-, hstale, hcommit⟩ | ⟨-, hfresh, hcommit⟩⟩
  · rw [hkey, hold] at hnone
    cases hnone
  · rw [hfree] at htaken
    cases htaken
  · rw [hkey, hold] at hold'
    cases hold'
    refine .inr ⟨by simpa [hpresented] using hstale, ?_⟩
    rw [hcommit, hkey]
    rfl
  · rw [hkey, hold] at hold'
    cases hold'
    refine .inl ⟨by simpa [hpresented] using hfresh, p.container, ?_, ?_, hkey, ?_⟩
    · rw [hcommit, ← hcopy]
      rfl
    · rw [hcommit]
      exact Index.get?_store.2 (.inl ⟨hkey.symm, rfl⟩)
    · rw [hp]
      rfl

/-- An update that presents another token than the stored one is answered 409, or 404 if its key is
not live, and changes nothing. -/
theorem commit_of_stale {st : State κ ε σ τ} (hexact : st.index.Exact) {p : PendingUpdate κ ε}
    {token : Option String} (hpresented : p.presented = some token)
    (hstale : ∀ c, st.index.get? p.container.key = some c → c.version ≠ token)
    (settings : Option Settings) :
    (commit p settings st).1.code =
        (if st.containsKey p.container.key then .conflict else .notFound) ∧
      (commit p settings st).2 = st := by
  rw [commit_eq]
  rcases PendingUpdate.commit_cases hexact p with ⟨hnone, hcommit⟩ |
    ⟨old, hold, ⟨-, hcommit⟩ | ⟨-, -, hcommit⟩ | ⟨-, hfresh, hcommit⟩⟩
  · have hkey : st.containsKey p.container.key = false := SortedMap.contains_eq_false_iff.2 hnone
    rw [hcommit, hkey]
    exact ⟨rfl, rfl⟩
  · have hkey : st.containsKey p.container.key = true := SortedMap.contains_iff.2 ⟨old, hold⟩
    rw [hcommit, hkey]
    exact ⟨rfl, rfl⟩
  · have hkey : st.containsKey p.container.key = true := SortedMap.contains_iff.2 ⟨old, hold⟩
    rw [hcommit, hkey]
    exact ⟨rfl, rfl⟩
  · rw [hpresented] at hfresh
    exact absurd (by simpa using hfresh : token = old.version).symm (hstale old hold)

/-- An update that presents another token than the stored one stores nothing, and is answered unless
what it would store does not come back. -/
theorem update_of_stale (hwritable : s.readOnly = false) (hpolicy : s.versionPolicy = some policy)
    (hoptimistic : policy.optimistic = true) (hexact : st.index.Exact) (ht : st.memory.Tidy) {e : ε}
    (hstale : ∀ c, st.index.get? (s.makers.key e) = some c → c.version ≠ policy.versionOf e)
    (settings : Option Settings) :
    (s.update e settings st).2.index = st.index ∧
      (∀ r, (s.update e settings st).1 = .ok r →
        r.code = if st.containsKey (s.makers.key e) then .conflict else .notFound) ∧
      ∀ copy, s.ComesBack st e copy → ∃ r, (s.update e settings st).1 = .ok r := by
  cases hprep : s.prepareUpdate e st with
  | mk prepared st' =>
      cases prepared with
      | error err =>
          have hupdate : s.update e settings st = (.error err, st') := by
            simp [update, hwritable, hprep]
          have hgate := s.prepareUpdate_gate e st
          rw [hprep] at hgate
          rw [hupdate]
          refine ⟨congrArg Gate.inner hgate, fun r hr => ?_, fun copy hcopy => ?_⟩
          · cases hr
          · obtain ⟨p, st'', hok, -⟩ := prepareUpdate_of_comesBack ht hcopy
            rw [hprep] at hok
            cases hok
      | ok p =>
          obtain ⟨hupdate, hgate, hpresented, blob, hp⟩ :=
            update_of_prepared hwritable hpolicy hoptimistic hprep settings
          have hix : st'.index = st.index := congrArg Gate.inner hgate
          have hkey : p.container.key = s.makers.key e := by
            rw [hp]
            rfl
          have hcontains : st'.containsKey p.container.key = st.containsKey (s.makers.key e) := by
            rw [hkey, State.containsKey, hgate]
            rfl
          rw [← hkey, ← hix] at hstale
          rw [← hix] at hexact
          obtain ⟨hcode, hkept⟩ := commit_of_stale hexact hpresented hstale settings
          rw [hupdate]
          refine ⟨by rw [hkept, hix], fun r hr => ?_, fun _ _ => ⟨_, rfl⟩⟩
          obtain rfl := Except.ok.inj hr
          rw [hcode, hcontains]

end Store

end EntityStore
