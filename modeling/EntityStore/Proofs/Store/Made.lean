import EntityStore.Codec.Metered
import EntityStore.Proofs.Store.Decoding
import EntityStore.Proofs.Store.Sound

/-!
# Where containers come from

Every container that a store ever holds was made for a call, from a draft of
what the call is about to store (`Store.Drafts`), and its blob was read back
once before anything else was done with it (`Store.Makes`). A context is steady
if what it has written and read back once reads the same ever after. Pure
contexts are steady, and so are those whose serializer is pure and whose codec
loses nothing, even if it refuses to write at times.

A state is bounded by a set of containers that were made so far if it stores
only such, and all of them have handles that were given out. It is grounded on
the set if no two of them have the same handle and what is remembered under a
handle is what the blob of its container reads as, if the context is steady. An
eager store remembers something of all of them. The set is larger than what is
stored, for containers are held by calls under way and by snapshots too. Work
outside the gate adds one container to the set, and a visit adds none.

What a visit does to the index only has to be looked at for the bound. For the
rest it is enough that it fills in no more of the memory than containers of the
set read as (`State.Grounded.of_bounded`).
-/

namespace EntityStore

variable {κ ε σ τ : Type}

/-! ## Steady contexts -/

namespace Context

/-- A blob reads as an entity, whatever the session. -/
def Reads (x : Context ε σ) (blob : Bytes) (e : ε) : Prop :=
  ∀ session, (x.decode blob session).1 = .ok e

/-- An entity was written as a blob, and the blob was read as a copy. -/
structure Stores (x : Context ε σ) (e : ε) (blob : Bytes) (copy : ε) : Prop where
  encoded : ∃ session, (x.encode e session).1 = .ok blob
  decoded : ∃ session, (x.decode blob session).1 = .ok copy

/-- What was written and read back once reads the same ever after. -/
def IsSteady (x : Context ε σ) : Prop :=
  ∀ {e blob copy}, x.Stores e blob copy → x.Reads blob copy

variable {x : Context ε σ}

theorem Reads.unique {blob : Bytes} {e e' : ε} (session : σ) (h : x.Reads blob e)
    (h' : (x.decode blob session).1 = .ok e') : e = e' :=
  Except.ok.inj ((h session).symm.trans h')

theorem IsPure.isSteady (h : x.IsPure) : x.IsSteady := by
  intro e blob copy hstores session
  obtain ⟨a, ha⟩ := hstores.decoded
  rw [h.decode_eq blob session a, ha]

end Context

/-- A codec that reads in every session what it wrote in any. It may refuse to write. -/
structure Codec.IsLossless (c : Codec σ) : Prop where
  decode_eq : ∀ {raw blob a}, (c.encode raw a).1 = .ok blob → ∀ b, (c.decode blob b).1 = .ok raw

theorem Codec.identity_isLossless : (Codec.identity : Codec σ).IsLossless := by
  refine ⟨fun {raw blob a} h b => ?_⟩
  obtain rfl : raw = blob := Except.ok.inj h
  rfl

/-- Refusing to write some bytes loses nothing. -/
theorem Codec.metered_isLossless {inner : Codec Meter} (h : inner.IsLossless)
    (poison : Option Bytes) : (Codec.metered inner { poison }).IsLossless := by
  refine ⟨fun {raw blob a} hencoded b => ?_⟩
  simp only [metered] at hencoded
  split at hencoded
  · cases hencoded
  · exact h.decode_eq hencoded { b with decodes := b.decodes + 1 }

namespace Context

variable {x : Context ε σ}

/-- Behind a codec that loses nothing a blob holds what the serializer wrote, and is read as the
serializer reads that. -/
theorem serialized_of_encoded (hcodec : x.codec.IsLossless) {e : ε} {blob : Bytes} {a : σ}
    (h : (x.encode e a).1 = .ok blob) :
    ∃ raw, (x.serializer.serialize e a).1 = .ok raw ∧
      (∀ session, (x.codec.decode blob session).1 = .ok raw) ∧
      ∀ session, ∃ b, x.decode blob session = x.serializer.deserialize raw b := by
  rw [encode] at h
  cases hser : x.serializer.serialize e a with
  | mk r a' =>
      rw [hser] at h
      cases r with
      | error err => cases h
      | ok raw =>
          have hblob : (x.codec.encode raw a').1 = .ok blob := by
            cases henc : x.codec.encode raw a' with
            | mk r' a'' =>
                simp only [henc] at h
                cases r' with
                | error err => cases h
                | ok b =>
                    obtain rfl := Except.ok.inj h
                    rfl
          refine ⟨raw, rfl, hcodec.decode_eq hblob, fun session => ?_⟩
          have hdec := hcodec.decode_eq hblob session
          cases hd : x.codec.decode blob session with
          | mk r' a'' =>
              rw [hd] at hdec
              obtain rfl : r' = .ok raw := hdec
              exact ⟨a'', by rw [decode, hd]⟩

theorem Stores.serialized (hcodec : x.codec.IsLossless) {e : ε} {blob : Bytes} {copy : ε}
    (h : x.Stores e blob copy) :
    ∃ raw, (∃ a, (x.serializer.serialize e a).1 = .ok raw) ∧
      (∃ a, (x.serializer.deserialize raw a).1 = .ok copy) ∧
      (∀ session, (x.codec.decode blob session).1 = .ok raw) ∧
      ∀ session, ∃ a, x.decode blob session = x.serializer.deserialize raw a := by
  obtain ⟨⟨a, hencoded⟩, ⟨b, hdecoded⟩⟩ := h
  obtain ⟨raw, hser, hdec, hread⟩ := serialized_of_encoded hcodec hencoded
  obtain ⟨c, hc⟩ := hread b
  exact ⟨raw, ⟨a, hser⟩, ⟨c, by rw [← hc, hdecoded]⟩, hdec, hread⟩

theorem isSteady_of_lossless (hcodec : x.codec.IsLossless) (hserializer : x.serializer.IsPure) :
    x.IsSteady := by
  intro e blob copy h session
  obtain ⟨raw, -, ⟨a, ha⟩, -, hread⟩ := h.serialized hcodec
  obtain ⟨b, hb⟩ := hread session
  rw [hb, hserializer.deserialize_eq raw b a, ha]

end Context

/-! ## Drafts and what is made of them -/

namespace Store

variable [EntityKey κ]

/-- What a call may be about to store, and under which key. -/
inductive Drafts (s : Store κ ε σ τ) : Call κ ε → κ → Draft ε → Prop where
  | create (e : ε) (settings : Option Settings) :
      Drafts s (.entity (.create e settings)) (s.makers.key e) ⟨e, s.versionOf e, none⟩
  | update (e : ε) (settings : Option Settings) (tokens : τ) :
      Drafts s (.entity (.update e settings)) (s.makers.key e) (s.draft e tokens).1

/-- A candidate was made from a draft, under the given key. -/
structure Makes (s : Store κ ε σ τ) (key : κ) (d : Draft ε) (c : Candidate κ ε) : Prop where
  container_eq : c.container =
    s.containerOf key d.stored d.version c.container.handle c.container.blob
  stores : s.context.Stores d.stored c.container.blob c.copy

theorem Makes.key_eq {s : Store κ ε σ τ} {key : κ} {d : Draft ε} {c : Candidate κ ε}
    (h : s.Makes key d c) : c.container.key = key := by
  rw [h.container_eq]
  rfl

theorem Makes.reads {s : Store κ ε σ τ} (hx : s.context.IsSteady) {key : κ} {d : Draft ε}
    {c : Candidate κ ε} (h : s.Makes key d c) : s.context.Reads c.container.blob c.copy :=
  hx h.stores

/-- A candidate was made from a draft of a call. -/
def MakesFor (s : Store κ ε σ τ) (call : Call κ ε) (c : Candidate κ ε) : Prop :=
  ∃ key d, s.Drafts call key d ∧ s.Makes key d c

/-- The store while it is open for writing, as it is when it is set up. -/
def opened (s : Store κ ε σ τ) : Store κ ε σ τ := { s with readOnly := false }

/-- What is made for a call is the same whether or not the store is closed later. -/
theorem MakesFor.of_opened {s : Store κ ε σ τ} {call : Call κ ε} {c : Candidate κ ε}
    (h : s.opened.MakesFor call c) : s.MakesFor call c := by
  obtain ⟨key, d, hdrafts, hmakes⟩ := h
  refine ⟨key, d, ?_, hmakes.container_eq, hmakes.stores⟩
  cases hdrafts with
  | create e settings => exact .create e settings
  | update e settings tokens => exact .update e settings tokens

/-- A container was made for some call. -/
def Made (s : Store κ ε σ τ) (c : Container κ) : Prop :=
  ∃ call copy, s.MakesFor call ⟨c, copy⟩

/-- A candidate was prepared for a call, from one state to another. -/
structure Prepares (s : Store κ ε σ τ) (call : Call κ ε) (c : Candidate κ ε)
    (st st' : State κ ε σ τ) : Prop where
  makes : s.MakesFor call c
  handle_eq : c.container.handle = st.memory.next
  next_eq : st'.memory.next = st.memory.next + 1
  find?_eq : st'.memory.decoded.find? st.memory.next = if s.eager then some c.copy else none

variable {s : Store κ ε σ τ}

theorem candidate_extends {m : Memory ε σ} (ht : m.Tidy) (key : κ) (e : ε)
    (version : Option String) : m.Extends (s.candidate key e version m).2 := by
  rcases candidate_cases (s := s) ht key e version with
    ⟨err, m', hcand, hext, -⟩ | ⟨blob, session, copy, m', -, -, hcand, hext, -⟩
  · rw [hcand]
    exact hext
  · rw [hcand]
    exact hext

theorem candidate_makes {m m' : Memory ε σ} (ht : m.Tidy) {key : κ} {d : Draft ε}
    {c : Candidate κ ε} (h : s.candidate key d.stored d.version m = (.ok c, m')) :
    s.Makes key d c ∧ c.container.handle = m.next ∧ m'.next = m.next + 1 ∧
      m'.decoded.find? m.next = if s.eager then some c.copy else none := by
  rcases candidate_cases (s := s) ht key d.stored d.version with
    ⟨err, m'', hcand, -⟩ | ⟨blob, session, copy, m'', henc, hdec, hcand, -, hnext, hfind⟩
  · rw [hcand] at h
    cases h
  · rw [hcand] at h
    obtain ⟨hc, rfl⟩ := Prod.mk.inj h
    obtain rfl := Except.ok.inj hc
    exact ⟨⟨rfl, ⟨m.session, congrArg Prod.fst henc⟩, ⟨session, hdec⟩⟩, rfl, hnext, hfind⟩

theorem prepareCreate_prepares {e : ε} (settings : Option Settings) {st st' : State κ ε σ τ}
    {c : Candidate κ ε} (ht : st.memory.Tidy) (h : s.prepareCreate e st = (.ok c, st')) :
    s.Prepares (.entity (.create e settings)) c st st' := by
  obtain ⟨hc, rfl⟩ := Prod.mk.inj h
  obtain ⟨hmakes, hhandle, hnext, hfind⟩ :=
    candidate_makes (d := ⟨e, s.versionOf e, none⟩) ht (Prod.ext hc rfl)
  exact ⟨⟨_, _, .create e settings, hmakes⟩, hhandle, hnext, hfind⟩

theorem prepareUpdate_prepares {e : ε} (settings : Option Settings) {st st' : State κ ε σ τ}
    {p : PendingUpdate κ ε} (ht : st.memory.Tidy) (h : s.prepareUpdate e st = (.ok p, st')) :
    s.Prepares (.entity (.update e settings)) p.toCandidate st st' := by
  rw [prepareUpdate_eq] at h
  obtain ⟨hp, rfl⟩ := Prod.mk.inj h
  cases hc : (s.candidate (s.makers.key e) (s.draft e st.tokens).1.stored
      (s.draft e st.tokens).1.version st.memory).1 with
  | error err =>
      rw [hc] at hp
      cases hp
  | ok c =>
      rw [hc] at hp
      obtain rfl := Except.ok.inj hp
      obtain ⟨hmakes, hhandle, hnext, hfind⟩ := candidate_makes ht (Prod.ext hc rfl)
      exact ⟨⟨_, _, .update e settings st.tokens, hmakes⟩, hhandle, hnext, hfind⟩

end Store

/-! ## Bounded states -/

namespace State

variable [EntityKey κ]

/-- What is stored is among given containers, and all of these have handles that were given out. -/
structure Bounded (made : Container κ → Prop) (st : State κ ε σ τ) : Prop where
  exact : st.index.Exact
  tidy : st.memory.Tidy
  live : ∀ {c}, st.index.Live c → made c
  handle_lt : ∀ {c}, made c → c.handle < st.memory.next

namespace Bounded

variable {made : Container κ → Prop} {st st' : State κ ε σ τ}

theorem fills {x : Context ε σ} (h : st.Bounded made) (hgate : st'.gate = st.gate)
    (hfills : Memory.Fills x made st.memory st'.memory) : st'.Bounded made := by
  have hix : st'.index = st.index := congrArg Gate.inner hgate
  exact ⟨hix ▸ h.exact, hfills.tidy h.tidy, fun hc => h.live (hix ▸ hc),
    fun hc => Nat.lt_of_lt_of_le (h.handle_lt hc) hfills.next_le⟩

/-- The next handle is given to one more container. -/
theorem given (h : st.Bounded made) (hgate : st'.gate = st.gate)
    (hext : st.memory.Extends st'.memory) {c : Container κ} (hhandle : c.handle = st.memory.next)
    (hnext : st'.memory.next = st.memory.next + 1) : st'.Bounded fun d => made d ∨ d = c := by
  have hix : st'.index = st.index := congrArg Gate.inner hgate
  refine ⟨hix ▸ h.exact, hext.tidy h.tidy, fun hd => .inl (h.live (hix ▸ hd)), fun hd => ?_⟩
  rcases hd with hd | rfl
  · exact Nat.lt_of_lt_of_le (h.handle_lt hd) hext.next_le
  · rw [hhandle, hnext]
    exact Nat.lt_succ_self _

/-- Whatever a visit does, it keeps a state bounded if it keeps the index exact and stores only what
was made. -/
theorem visit (h : st.Bounded made) {ix : Index κ} (hexact : ix.Exact)
    (hlive : ∀ {c}, ix.Live c → made c) :
    ({ st with gate := ⟨ix⟩ } : State κ ε σ τ).Bounded made :=
  ⟨hexact, h.tidy, hlive, h.handle_lt⟩

theorem store (h : st.Bounded made) {owners : SortedMap Reference κ} {c : Container κ}
    (hc : made c) (hexact : (st.index.store owners c).Exact) :
    ({ st with gate := ⟨st.index.store owners c⟩ } : State κ ε σ τ).Bounded made := by
  refine h.visit hexact fun hd => ?_
  rcases Index.live_store_iff.1 hd with rfl | ⟨-, hd⟩
  · exact hc
  · exact h.live hd

theorem delete (h : st.Bounded made) {c : Container κ} (hc : st.index.Live c) :
    ({ st with gate := ⟨(st.index.delete c.key).2⟩ } : State κ ε σ τ).Bounded made :=
  h.visit (h.exact.delete c.key) fun hd => h.live ((Index.live_delete_iff hc).1 hd).1

theorem countHit (h : st.Bounded made) (k : κ) : (Store.countHit k st).Bounded made :=
  h.visit (h.exact.recordHit k) h.live

end Bounded

/-! ## Grounded states -/

/-- A state stands on the containers that were made so far. -/
structure Grounded (s : Store κ ε σ τ) (made : Container κ → Prop) (st : State κ ε σ τ) :
    Prop where
  exact : st.index.Exact
  tidy : st.memory.Tidy
  live : ∀ {c}, st.index.Live c → made c
  handle_lt : ∀ {c}, made c → c.handle < st.memory.next
  handle_inj : ∀ {c d}, made c → made d → c.handle = d.handle → c = d
  origin : ∀ {c}, made c → s.Made c
  recalls : s.context.IsSteady → ∀ {c e}, made c → st.memory.decoded.find? c.handle = some e →
    s.context.Reads c.blob e
  decoded : s.eager = true → ∀ {c}, made c → c.isDecoded st.memory = true

variable {s : Store κ ε σ τ} {made : Container κ → Prop} {st st' : State κ ε σ τ}

theorem start_grounded (s : Store κ ε σ τ) (session : σ) (tokens : τ) :
    (start session tokens).Grounded s fun _ => False where
  exact := Index.empty_exact
  tidy := Memory.start_tidy session
  live h := by cases h
  handle_lt h := h.elim
  handle_inj h := h.elim
  origin h := h.elim
  recalls _ _ _ h := h.elim
  decoded _ _ h := h.elim

namespace Grounded

theorem of_opened (h : st.Grounded s.opened made) : st.Grounded s made where
  exact := h.exact
  tidy := h.tidy
  live := h.live
  handle_lt := h.handle_lt
  handle_inj := h.handle_inj
  origin hc := by
    obtain ⟨call, copy, hmakes⟩ := h.origin hc
    exact ⟨call, copy, hmakes.of_opened⟩
  recalls := h.recalls
  decoded := h.decoded

/-- What a steady context reads a made container as. -/
theorem exists_reads (h : st.Grounded s made) (hx : s.context.IsSteady) {c : Container κ}
    (hc : made c) : ∃ copy, s.context.Reads c.blob copy := by
  obtain ⟨call, copy, key, d, -, hmakes⟩ := h.origin hc
  exact ⟨copy, hmakes.reads hx⟩

/-- With a steady context a made container reads as its blob does, remembered or not. -/
theorem entity_eq (h : st.Grounded s made) (hx : s.context.IsSteady) {c : Container κ}
    (hc : made c) {e : ε} (he : s.context.Reads c.blob e) :
    (c.entity s.context st.memory).1 = .ok e := by
  rw [Container.entity]
  cases hfind : st.memory.decoded.find? c.handle with
  | some e' =>
      have hsame := (h.recalls hx hc hfind).unique st.memory.session (he st.memory.session)
      rw [hsame]
  | none =>
      have hread := he st.memory.session
      cases hdec : s.context.decode c.blob st.memory.session with
      | mk r session =>
          rw [hdec] at hread
          obtain rfl : r = .ok e := hread
          simp only [Container.decodeBlob, hdec]

theorem bounded (h : st.Grounded s made) : st.Bounded made :=
  ⟨h.exact, h.tidy, h.live, h.handle_lt⟩

/-- What keeps a state bounded, and does no more to the memory than to fill in what made containers
read as, keeps it grounded. -/
theorem of_bounded (h : st.Grounded s made) (hst : st'.Bounded made)
    (hfills : Memory.Fills s.context made st.memory st'.memory) : st'.Grounded s made := by
  refine ⟨hst.exact, hst.tidy, hst.live, hst.handle_lt, h.handle_inj, h.origin,
    fun hx {c e} hc he => ?_, fun heager {c} hc => ?_⟩
  · rcases hfills.find?_cases (h.handle_lt hc) with
      hsame | ⟨-, d, e', session, hd, hhandle, he', hdec⟩
    · rw [hsame] at he
      exact h.recalls hx hc he
    · obtain rfl := h.handle_inj hd hc hhandle
      obtain rfl := Option.some.inj (he.symm.trans he')
      obtain ⟨copy, hcopy⟩ := h.exists_reads hx hc
      obtain rfl := hcopy.unique session hdec
      exact hcopy
  · obtain ⟨e, he⟩ := SortedMap.contains_iff.1 (h.decoded heager hc)
    exact SortedMap.contains_iff.2 ⟨e, hfills.find?_of_some (h.handle_lt hc) he⟩

theorem fills (h : st.Grounded s made) (hgate : st'.gate = st.gate)
    (hfills : Memory.Fills s.context made st.memory st'.memory) : st'.Grounded s made :=
  h.of_bounded (h.bounded.fills hgate hfills) hfills

theorem entity (h : st.Grounded s made) {c : Container κ} (hc : made c) :
    ({ st with memory := (c.entity s.context st.memory).2 } : State κ ε σ τ).Grounded s made :=
  h.fills rfl (.entity hc (h.handle_lt hc))

/-- Preparing a candidate adds its container to those that were made. -/
theorem prepared (h : st.Grounded s made) (hgate : st'.gate = st.gate)
    (hext : st.memory.Extends st'.memory) {call : Call κ ε} {cand : Candidate κ ε}
    (hcand : s.Prepares call cand st st') :
    st'.Grounded s fun c => made c ∨ c = cand.container := by
  have h' : st'.Grounded s made := h.fills hgate hext.fills
  have hst := h.bounded.given hgate hext hcand.handle_eq hcand.next_eq
  obtain ⟨key, d, -, hmakes⟩ := hcand.makes
  have hnew : ∀ {c}, made c → c.handle ≠ cand.container.handle := by
    intro c hc
    rw [hcand.handle_eq]
    exact Nat.ne_of_lt (h.handle_lt hc)
  refine ⟨hst.exact, hst.tidy, hst.live, hst.handle_lt, fun hc hd heq => ?_, fun hc => ?_,
    fun hx {c e} hc he => ?_, fun heager {c} hc => ?_⟩
  · rcases hc with hc | rfl
    · rcases hd with hd | rfl
      · exact h'.handle_inj hc hd heq
      · exact absurd heq (hnew hc)
    · rcases hd with hd | rfl
      · exact absurd heq.symm (hnew hd)
      · rfl
  · rcases hc with hc | rfl
    · exact h'.origin hc
    · exact ⟨call, cand.copy, hcand.makes⟩
  · rcases hc with hc | rfl
    · exact h'.recalls hx hc he
    · rw [hcand.handle_eq, hcand.find?_eq] at he
      split at he
      · obtain rfl := Option.some.inj he
        exact hmakes.reads hx
      · cases he
  · rcases hc with hc | rfl
    · exact h'.decoded heager hc
    · refine SortedMap.contains_iff.2 ⟨cand.copy, ?_⟩
      rw [hcand.handle_eq, hcand.find?_eq, if_pos heager]

end Grounded

end State

end EntityStore
