import EntityStore.Proofs.Store.Memory
import EntityStore.Proofs.Store.Visits

/-!
# Sound states

A state is sound if its index is exact and its handles are in order: every
stored container has a handle that was given out, no two have the same one, and
nothing is remembered under handles that are still free. It is faithful to a
pure context if what is remembered of a stored container is what its blob
decodes to.

Work outside the gate only extends the memory, and extending the memory touches
no handle of a stored container, so both properties survive it whatever the
context does. At the gate a write brings in one container, whose handle was
reserved when it was built.
-/

namespace EntityStore

variable {κ ε σ τ : Type}

theorem Index.live_store_iff [Ranked κ] {ix : Index κ} {owners : SortedMap Reference κ}
    {c d : Container κ} :
    (ix.store owners c).Live d ↔ d = c ∨ (d.key ≠ c.key ∧ ix.Live d) := by
  rw [Live, get?_store]
  constructor
  · intro h
    rcases h with ⟨-, rfl⟩ | h
    · exact .inl rfl
    · exact .inr h
  · intro h
    rcases h with rfl | h
    · exact .inl ⟨rfl, rfl⟩
    · exact .inr h

namespace State

variable [EntityKey κ] {st st' : State κ ε σ τ}

/-- The index is exact, and handles are given out once. -/
structure Sound (st : State κ ε σ τ) : Prop where
  exact : st.index.Exact
  handle_lt : ∀ {c}, st.index.Live c → c.handle < st.memory.next
  handle_inj : ∀ {c d}, st.index.Live c → st.index.Live d → c.handle = d.handle → c = d
  tidy : st.memory.Tidy

/-- A container that can be stored: its handle was given out, and to no stored container. -/
structure Reserved (st : State κ ε σ τ) (c : Container κ) : Prop where
  lt : c.handle < st.memory.next
  ne : ∀ {d}, st.index.Live d → d.handle ≠ c.handle

/-- What is remembered of stored containers is what their blobs decode to. -/
def Faithful (x : Context ε σ) (session : σ) (st : State κ ε σ τ) : Prop :=
  ∀ c, st.index.Live c → x.Remembers session st.memory c

theorem start_sound (session : σ) (tokens : τ) : (start session tokens : State κ ε σ τ).Sound where
  exact := Index.empty_exact
  handle_lt h := by cases h
  handle_inj h := by cases h
  tidy := Memory.start_tidy session

theorem start_faithful (x : Context ε σ) (session' session : σ) (tokens : τ) :
    (start session tokens : State κ ε σ τ).Faithful x session' := by
  intro c h
  cases h

/-! ## Work outside the gate -/

theorem Sound.extend (h : st.Sound) (hgate : st'.gate = st.gate)
    (hmem : st.memory.Extends st'.memory) : st'.Sound := by
  have hix : st'.index = st.index := congrArg Gate.inner hgate
  refine ⟨?_, fun hc => ?_, fun hc hd => ?_, hmem.tidy h.tidy⟩
  · rw [hix]
    exact h.exact
  · rw [hix] at hc
    exact Nat.lt_of_lt_of_le (h.handle_lt hc) hmem.next_le
  · rw [hix] at hc hd
    exact h.handle_inj hc hd

theorem Faithful.extend {x : Context ε σ} {session : σ} (hf : st.Faithful x session) (h : st.Sound)
    (hgate : st'.gate = st.gate) (hmem : st.memory.Extends st'.memory) :
    st'.Faithful x session := by
  intro c hc e he
  have hix : st'.index = st.index := congrArg Gate.inner hgate
  rw [hix] at hc
  rw [hmem.find?_eq _ (h.handle_lt hc)] at he
  exact hf c hc he

/-! ## At the gate -/

theorem Sound.store (h : st.Sound) {owners : SortedMap Reference κ} {c : Container κ}
    (hc : st.Reserved c) (hexact : (st.index.store owners c).Exact) :
    ({ st with gate := ⟨st.index.store owners c⟩ } : State κ ε σ τ).Sound where
  exact := hexact
  handle_lt hd := by
    rcases Index.live_store_iff.1 hd with rfl | ⟨-, hd⟩
    · exact hc.lt
    · exact h.handle_lt hd
  handle_inj hd hd' heq := by
    rcases Index.live_store_iff.1 hd with rfl | ⟨-, hold⟩
    · rcases Index.live_store_iff.1 hd' with rfl | ⟨-, hold'⟩
      · rfl
      · exact absurd heq.symm (hc.ne hold')
    · rcases Index.live_store_iff.1 hd' with rfl | ⟨-, hold'⟩
      · exact absurd heq (hc.ne hold)
      · exact h.handle_inj hold hold' heq
  tidy := h.tidy

theorem Faithful.store {x : Context ε σ} {session : σ} (hf : st.Faithful x session)
    {owners : SortedMap Reference κ} {c : Container κ}
    (hc : x.Remembers session st.memory c) :
    ({ st with gate := ⟨st.index.store owners c⟩ } : State κ ε σ τ).Faithful x session := by
  intro d hd
  rcases Index.live_store_iff.1 hd with rfl | ⟨-, hd⟩
  · exact hc
  · exact hf d hd

theorem Sound.delete (h : st.Sound) {c : Container κ} (hc : st.index.Live c) :
    ({ st with gate := ⟨(st.index.delete c.key).2⟩ } : State κ ε σ τ).Sound where
  exact := h.exact.delete c.key
  handle_lt hd := h.handle_lt ((Index.live_delete_iff hc).1 hd).1
  handle_inj hd hd' :=
    h.handle_inj ((Index.live_delete_iff hc).1 hd).1 ((Index.live_delete_iff hc).1 hd').1
  tidy := h.tidy

theorem Faithful.delete {x : Context ε σ} {session : σ} (hf : st.Faithful x session)
    {c : Container κ} (hc : st.index.Live c) :
    ({ st with gate := ⟨(st.index.delete c.key).2⟩ } : State κ ε σ τ).Faithful x session :=
  fun d hd => hf d ((Index.live_delete_iff hc).1 hd).1

theorem Sound.countHit (h : st.Sound) (k : κ) : (Store.countHit k st).Sound :=
  ⟨h.exact.recordHit k, h.handle_lt, h.handle_inj, h.tidy⟩

theorem Faithful.countHit {x : Context ε σ} {session : σ} (hf : st.Faithful x session) (k : κ) :
    (Store.countHit k st).Faithful x session := hf

theorem Sound.entity (h : st.Sound) (x : Context ε σ) {c : Container κ} (hc : st.index.Live c) :
    ({ st with memory := (c.entity x st.memory).2 } : State κ ε σ τ).Sound := by
  obtain ⟨hnext, hfind⟩ := c.entity_memory (x := x) st.memory
  refine ⟨h.exact, fun hd => ?_, h.handle_inj, fun {k e} he => ?_⟩
  · exact hnext ▸ h.handle_lt hd
  · change k < (c.entity x st.memory).2.next
    rw [hnext]
    rcases hfind he with he | ⟨rfl, -⟩
    · exact h.tidy he
    · exact h.handle_lt hc

theorem Faithful.entity {x : Context ε σ} (hx : x.IsPure) {session : σ}
    (hf : st.Faithful x session) (h : st.Sound) {c : Container κ} (hc : st.index.Live c) :
    ({ st with memory := (c.entity x st.memory).2 } : State κ ε σ τ).Faithful x session := by
  intro d hd e he
  rcases (c.entity_memory (x := x) st.memory).2 he with he | ⟨heq, hdec⟩
  · exact hf d hd he
  · obtain rfl := h.handle_inj hd hc heq
    rw [Context.entityOf, hx.decode_eq d.blob session st.memory.session, hdec]

end State

end EntityStore
