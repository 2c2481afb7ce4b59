import EntityStore.Proofs.SortedMap
import EntityStore.Proofs.Store.Calls

/-!
# What is remembered of a container is what its blob decodes to

Decoded entities are remembered under handles, and a handle is given out once.
So memory only ever grows (`Memory.Extends`): what work outside the gate does
to it, it does under handles that are new, and what it finds under older ones it
leaves alone. That is true of any context, failing ones included.

If serializer and codec are functions of what they are handed (`IsPure`), then
writing and reading can be described by what they answer in any one session,
and a candidate is the copy that its blob decodes to, whether or not it was
decoded eagerly.
-/

namespace EntityStore

variable {κ ε σ τ : Type}

/-! ## Contexts whose answers do not hang on the session -/

/-- A serializer that answers alike in every session. -/
structure Serializer.IsPure (z : Serializer ε σ) : Prop where
  serialize_eq : ∀ e a b, (z.serialize e a).1 = (z.serialize e b).1
  deserialize_eq : ∀ bytes a b, (z.deserialize bytes a).1 = (z.deserialize bytes b).1

/-- A codec that answers alike in every session. -/
structure Codec.IsPure (c : Codec σ) : Prop where
  encode_eq : ∀ bytes a b, (c.encode bytes a).1 = (c.encode bytes b).1
  decode_eq : ∀ bytes a b, (c.decode bytes a).1 = (c.decode bytes b).1

/-- A context of a pure serializer and a pure codec. -/
structure Context.IsPure (x : Context ε σ) : Prop where
  serializer : x.serializer.IsPure
  codec : x.codec.IsPure

namespace Context

variable {x : Context ε σ}

theorem IsPure.encode_eq (h : x.IsPure) (e : ε) (a b : σ) :
    (x.encode e a).1 = (x.encode e b).1 := by
  have hs := h.serializer.serialize_eq e a b
  simp only [encode]
  cases ha : x.serializer.serialize e a with
  | mk ra a' =>
      cases hb : x.serializer.serialize e b with
      | mk rb b' =>
          rw [ha, hb] at hs
          obtain rfl : ra = rb := hs
          cases ra with
          | error err => rfl
          | ok raw =>
              have hc := h.codec.encode_eq raw a' b'
              simp only []
              cases hca : x.codec.encode raw a' with
              | mk ca _ =>
                  cases hcb : x.codec.encode raw b' with
                  | mk cb _ =>
                      rw [hca, hcb] at hc
                      obtain rfl : ca = cb := hc
                      cases ca <;> rfl

theorem IsPure.decode_eq (h : x.IsPure) (blob : Bytes) (a b : σ) :
    (x.decode blob a).1 = (x.decode blob b).1 := by
  have hc := h.codec.decode_eq blob a b
  simp only [decode]
  cases hca : x.codec.decode blob a with
  | mk ca a' =>
      cases hcb : x.codec.decode blob b with
      | mk cb b' =>
          rw [hca, hcb] at hc
          obtain rfl : ca = cb := hc
          cases ca with
          | error err => rfl
          | ok raw => exact h.serializer.deserialize_eq raw a' b'

/-- The entity that a blob decodes to. -/
def entityOf (x : Context ε σ) (session : σ) (blob : Bytes) : Except StoreError ε :=
  (x.decode blob session).1

/-- What an entity comes back as once it is written and read again. -/
def copyOf (x : Context ε σ) (session : σ) (e : ε) : Except StoreError ε :=
  match (x.encode e session).1 with
  | .error err => .error err
  | .ok blob => x.entityOf session blob

end Context

/-! ## Memory grows under new handles -/

/-- Nothing is remembered under a handle that is still free. -/
def Memory.Tidy (m : Memory ε σ) : Prop := ∀ {h e}, m.decoded.find? h = some e → h < m.next

/-- A later memory: handles were given out since, and what was remembered was remembered under
those. -/
structure Memory.Extends (m m' : Memory ε σ) : Prop where
  next_le : m.next ≤ m'.next
  find?_eq : ∀ h, h < m.next → m'.decoded.find? h = m.decoded.find? h
  tidy : m.Tidy → m'.Tidy

theorem Memory.Extends.refl (m : Memory ε σ) : m.Extends m :=
  ⟨Nat.le_refl _, fun _ _ => rfl, id⟩

/-- Whatever a call does to the session, it remembers nothing by that. -/
theorem Memory.Extends.session {m : Memory ε σ} (session : σ) :
    m.Extends { m with session } :=
  ⟨Nat.le_refl _, fun _ _ => rfl, fun ht _ _ he => ht he⟩

theorem Memory.start_tidy (session : σ) : (Memory.start session : Memory ε σ).Tidy := by
  intro h e he
  cases he

namespace Memory

theorem Extends.given {m : Memory ε σ} (session : σ) :
    m.Extends { m with session, next := m.next + 1 } :=
  ⟨Nat.le_succ _, fun _ _ => rfl, fun ht _ _ he => Nat.lt_succ_of_lt (ht he)⟩

/-- A memory in which the next handle is given out and something is remembered under it. -/
theorem Extends.givenFor {m : Memory ε σ} (session : σ) (e : ε) :
    m.Extends { decoded := m.decoded.insert m.next e, session, next := m.next + 1 } where
  next_le := Nat.le_succ _
  find?_eq h hh := SortedMap.find?_insert_of_ne _ _ (Nat.ne_of_lt hh)
  tidy ht h e' he := by
    rcases SortedMap.find?_insert_eq_some_iff.1 he with ⟨rfl, -⟩ | ⟨-, he⟩
    · exact Nat.lt_succ_self _
    · exact Nat.lt_succ_of_lt (ht he)

theorem Tidy.find?_next {m : Memory ε σ} (ht : m.Tidy) : m.decoded.find? m.next = none := by
  cases h : m.decoded.find? m.next with
  | none => rfl
  | some e => exact absurd (ht h) (Nat.lt_irrefl _)

end Memory

/-! ## Reading a container -/

/-- What is remembered of a container is what its blob decodes to. -/
def Context.Remembers (x : Context ε σ) (session : σ) (m : Memory ε σ) (c : Container κ) : Prop :=
  ∀ {e}, m.decoded.find? c.handle = some e → x.entityOf session c.blob = .ok e

namespace Container

variable {x : Context ε σ}

/-- Reading a container gives out no handle, and remembers at most what its blob decodes to. -/
theorem entity_memory (c : Container κ) (m : Memory ε σ) :
    (c.entity x m).2.next = m.next ∧
      ∀ {h e}, (c.entity x m).2.decoded.find? h = some e →
        m.decoded.find? h = some e ∨
          (h = c.handle ∧ (x.decode c.blob m.session).1 = .ok e) := by
  rw [entity]
  cases hfind : m.decoded.find? c.handle with
  | some e => exact ⟨rfl, .inl⟩
  | none =>
      cases hdec : x.decode c.blob m.session with
      | mk r session =>
          cases r with
          | error err =>
              simp only [decodeBlob, hdec]
              exact ⟨trivial, .inl⟩
          | ok e =>
              simp only [decodeBlob, hdec]
              refine ⟨rfl, fun {h e'} he => ?_⟩
              rcases SortedMap.find?_insert_eq_some_iff.1 he with ⟨rfl, rfl⟩ | ⟨-, he⟩
              · exact .inr ⟨rfl, rfl⟩
              · exact .inl he

/-- Decoding a copy remembers nothing. -/
theorem decodeCopy_extends (c : Container κ) (x : Context ε σ) (m : Memory ε σ) :
    m.Extends (c.decodeCopy x m).2 := by
  rw [decodeCopy]
  cases m.decoded.find? c.handle with
  | some e => exact .refl m
  | none => exact .session _

/-- With a pure context a container reads as what its blob decodes to, remembered or not. -/
theorem entity_eq (hx : x.IsPure) {session : σ} {m : Memory ε σ} {c : Container κ}
    (hc : x.Remembers session m c) : (c.entity x m).1 = x.entityOf session c.blob := by
  rw [entity]
  cases hfind : m.decoded.find? c.handle with
  | some e => exact (hc hfind).symm
  | none =>
      have heq := hx.decode_eq c.blob m.session session
      rw [Context.entityOf, ← heq]
      cases hdec : x.decode c.blob m.session with
      | mk r session' => cases r <;> simp only [decodeBlob, hdec]

/-- What a container reads as hangs on what is remembered of it and on the session. -/
theorem entity_congr {c : Container κ} {m m' : Memory ε σ}
    (hfind : m'.decoded.find? c.handle = m.decoded.find? c.handle)
    (hsession : m'.session = m.session) : (c.entity x m').1 = (c.entity x m).1 := by
  rw [entity, entity, hfind]
  cases m.decoded.find? c.handle with
  | some e => rfl
  | none =>
      rw [decodeBlob, decodeBlob, hsession]
      cases x.decode c.blob m.session with
      | mk r session => cases r <;> rfl

end Container

/-! ## Copying a container -/

/-- Making a copy works under a new handle, and leaves the session alone. -/
theorem Container.resigned_extends (c : Container κ) (signature : Option String)
    (m : Memory ε σ) : m.Extends (c.resigned signature m).2 ∧
      (c.resigned signature m).1.handle = m.next ∧
      (c.resigned signature m).2.next = m.next + 1 ∧
      (c.resigned signature m).2.session = m.session := by
  rw [resigned]
  cases m.decoded.find? c.handle with
  | none => exact ⟨.given m.session, rfl, rfl, rfl⟩
  | some e => exact ⟨.givenFor m.session e, rfl, rfl, rfl⟩

/-! ## Building a candidate -/

/-- Whatever the context does, a container that is made has its parts and the next free handle. -/
theorem Container.make_eq_ok [EntityKey κ] {parts : ContainerParts κ} {e : ε} {x : Context ε σ}
    {eager : Bool} {m m' : Memory ε σ} {c : Container κ}
    (h : Container.make parts e x eager m = (.ok c, m')) :
    ∃ blob, c = { parts with handle := m.next, id := EntityKey.text parts.key, blob } := by
  rw [make] at h
  split at h
  · cases h
  · next blob session _ =>
      refine ⟨blob, ?_⟩
      cases eager with
      | false =>
          obtain ⟨hc, -⟩ := Prod.mk.inj h
          exact (Except.ok.inj hc).symm
      | true =>
          dsimp only at h
          rw [if_pos rfl] at h
          split at h
          · cases h
          · obtain ⟨hc, -⟩ := Prod.mk.inj h
            exact (Except.ok.inj hc).symm

/-- Making a container works under a new handle, which is that of the container. -/
theorem Container.make_extends [EntityKey κ] (parts : ContainerParts κ) (e : ε) (x : Context ε σ)
    (eager : Bool) (m : Memory ε σ) : m.Extends (Container.make parts e x eager m).2 ∧
      ∀ {c}, (Container.make parts e x eager m).1 = .ok c →
        c.handle = m.next ∧ (Container.make parts e x eager m).2.next = m.next + 1 := by
  rw [make]
  cases x.encode e m.session with
  | mk r session =>
      cases r with
      | error err => exact ⟨.session session, fun h => by cases h⟩
      | ok blob =>
          cases eager with
          | false =>
              refine ⟨.given session, fun h => ?_⟩
              obtain rfl := Except.ok.inj h
              exact ⟨rfl, rfl⟩
          | true =>
              simp only [decodeBlob, if_true]
              cases x.decode blob session with
              | mk d session' =>
                  cases d with
                  | error err => exact ⟨.given session', fun h => by cases h⟩
                  | ok copy =>
                      refine ⟨.givenFor session' copy, fun h => ?_⟩
                      obtain rfl := Except.ok.inj h
                      exact ⟨rfl, rfl⟩

namespace Store

variable [EntityKey κ] {s : Store κ ε σ τ} {m : Memory ε σ}

/-- The container of an entity. -/
def containerOf (s : Store κ ε σ τ) (key : κ) (e : ε) (version : Option String) (handle : Handle)
    (blob : Bytes) : Container κ :=
  { s.parts key e version with handle, id := EntityKey.text key, blob }

theorem candidate_container {key : κ} {e : ε} {version : Option String} {c : Candidate κ ε}
    {m' : Memory ε σ} (h : s.candidate key e version m = (.ok c, m')) :
    ∃ blob, c.container = s.containerOf key e version m.next blob := by
  rw [candidate] at h
  split at h
  · cases h
  · next container m₁ hmake =>
      obtain ⟨blob, rfl⟩ := Container.make_eq_ok hmake
      split at h
      · cases h
      · obtain ⟨hc, -⟩ := Prod.mk.inj h
        obtain rfl := Except.ok.inj hc
        exact ⟨blob, rfl⟩

/-- Building a candidate fails with what the context failed with, or the entity was written, the
blob read once, and the copy is what came out. An eager store remembers that copy. -/
theorem candidate_cases (ht : m.Tidy) (key : κ) (e : ε) (version : Option String) :
    (∃ err m', s.candidate key e version m = (.error err, m') ∧ m.Extends m' ∧
      ((s.context.encode e m.session).1 = .error err ∨
        ∃ blob session, s.context.encode e m.session = (.ok blob, session) ∧
          (s.context.decode blob session).1 = .error err)) ∨
    ∃ blob session copy m', s.context.encode e m.session = (.ok blob, session) ∧
      (s.context.decode blob session).1 = .ok copy ∧
      s.candidate key e version m =
        (.ok ⟨s.containerOf key e version m.next blob, copy⟩, m') ∧
      m.Extends m' ∧ m'.next = m.next + 1 ∧
      m'.decoded.find? m.next = if s.eager then some copy else none := by
  have hfree := ht.find?_next
  cases henc : s.context.encode e m.session with
  | mk r session =>
      cases r with
      | error err =>
          refine .inl ⟨err, { m with session }, ?_, .session session, .inl rfl⟩
          rw [candidate, Container.make, henc]
      | ok blob =>
          cases hdec : s.context.decode blob session with
          | mk d session' =>
              cases d with
              | error err =>
                  refine .inl ⟨err, { m with session := session', next := m.next + 1 }, ?_,
                    .given session', .inr ⟨blob, session, rfl, by rw [hdec]⟩⟩
                  cases heager : s.eager <;>
                    simp only [candidate, Container.make, henc, heager, Container.decodeBlob,
                      Container.decodeCopy, hdec, hfree, Bool.false_eq_true, if_false, if_true]
              | ok copy =>
                  refine .inr ?_
                  cases heager : s.eager with
                  | true =>
                      refine ⟨blob, session, copy, _, rfl, by rw [hdec], ?_,
                        .givenFor session' copy, rfl, SortedMap.find?_insert_self _ _ _⟩
                      simp only [candidate, Container.make, henc, heager, Container.decodeBlob,
                        Container.decodeCopy, hdec, Container.remember, if_true,
                        SortedMap.find?_insert_self]
                      rfl
                  | false =>
                      refine ⟨blob, session, copy, _, rfl, by rw [hdec], ?_, .given session', rfl,
                        hfree⟩
                      simp only [candidate, Container.make, henc, heager, Container.decodeBlob,
                        Container.decodeCopy, hdec, hfree, Bool.false_eq_true, if_false]
                      rfl

variable {session : σ}

/-- With a pure context a candidate fails as the round trip fails. -/
theorem candidate_of_error (hx : s.context.IsPure) (ht : m.Tidy) (key : κ) {e : ε}
    (version : Option String) {err : StoreError} (h : s.context.copyOf session e = .error err) :
    ∃ m', s.candidate key e version m = (.error err, m') ∧ m.Extends m' := by
  rw [Context.copyOf, hx.encode_eq e session m.session] at h
  rcases candidate_cases (s := s) ht key e version with
    ⟨err', m', hcand, hext, henc | ⟨blob, next, henc, hdec⟩⟩ |
      ⟨blob, next, copy, m', henc, hdec, -⟩
  · rw [henc] at h
    obtain rfl : err' = err := Except.error.inj h
    exact ⟨m', hcand, hext⟩
  · rw [henc] at h
    simp only [Context.entityOf, hx.decode_eq blob session next, hdec] at h
    obtain rfl : err' = err := Except.error.inj h
    exact ⟨m', hcand, hext⟩
  · rw [henc] at h
    simp only [Context.entityOf, hx.decode_eq blob session next, hdec] at h
    cases h

/-- With a pure context a candidate is made whenever the round trip succeeds, and nothing but its
copy is remembered of it. -/
theorem candidate_of_ok (hx : s.context.IsPure) (ht : m.Tidy) (key : κ) {e : ε}
    (version : Option String) {copy : ε} (h : s.context.copyOf session e = .ok copy) :
    ∃ blob m', s.context.entityOf session blob = .ok copy ∧
      s.candidate key e version m =
        (.ok ⟨s.containerOf key e version m.next blob, copy⟩, m') ∧
      m.Extends m' ∧ m'.next = m.next + 1 ∧
      m'.decoded.find? m.next = if s.eager then some copy else none := by
  rw [Context.copyOf, hx.encode_eq e session m.session] at h
  rcases candidate_cases (s := s) ht key e version with
    ⟨err', m', hcand, hext, henc | ⟨blob, next, henc, hdec⟩⟩ |
      ⟨blob, next, copy', m', henc, hdec, hcand, hext, hnext, hfind⟩
  · rw [henc] at h
    cases h
  · rw [henc] at h
    simp only [Context.entityOf, hx.decode_eq blob session next, hdec] at h
    cases h
  · rw [henc] at h
    simp only [Context.entityOf, hx.decode_eq blob session next, hdec] at h
    obtain rfl : copy' = copy := Except.ok.inj h
    refine ⟨blob, m', ?_, hcand, hext, hnext, hfind⟩
    rw [Context.entityOf, hx.decode_eq blob session next, hdec]

/-! ## Drafts -/

/-- What an update is about to store: the entity, its token, and the token that is presented. -/
structure Draft (ε : Type) where
  stored : ε
  version : Option String
  presented : Option (Option String)

/-- The draft of an update, and the token source once the draft is made. -/
def draft (s : Store κ ε σ τ) (e : ε) (tokens : τ) : Draft ε × τ :=
  match s.versionPolicy with
  | some p =>
    if p.optimistic then
      let ((token, next), tokens) := p.renew e tokens
      (⟨next, some token, some (p.versionOf e)⟩, tokens)
    else (⟨e, p.versionOf e, none⟩, tokens)
  | none => (⟨e, none, none⟩, tokens)

/-- Every update prepares the candidate of its draft, under the key of the entity as it was
given. -/
theorem prepareUpdate_eq (e : ε) (st : State κ ε σ τ) :
    s.prepareUpdate e st =
      let d := (s.draft e st.tokens).1
      let r := s.candidate (s.makers.key e) d.stored d.version st.memory
      (r.1.map fun c => { c with presented := d.presented },
        { st with memory := r.2, tokens := (s.draft e st.tokens).2 }) := by
  rw [prepareUpdate, draft]
  cases s.versionPolicy with
  | none => rfl
  | some p =>
      cases hopt : p.optimistic with
      | true => simp only [hopt, if_true]
      | false => simp only [hopt, Bool.false_eq_true, if_false]

theorem prepareUpdate_gate (s : Store κ ε σ τ) (e : ε) (st : State κ ε σ τ) :
    (s.prepareUpdate e st).2.gate = st.gate := by
  rw [prepareUpdate_eq]

theorem prepareCreate_container {e : ε} {st st' : State κ ε σ τ} {c : Candidate κ ε}
    (h : s.prepareCreate e st = (.ok c, st')) :
    ∃ blob, c.container =
      s.containerOf (s.makers.key e) e (s.versionOf e) st.memory.next blob := by
  obtain ⟨hc, -⟩ := Prod.mk.inj h
  exact candidate_container (Prod.ext hc rfl)

theorem prepareUpdate_container {e : ε} {st st' : State κ ε σ τ} {p : PendingUpdate κ ε}
    (h : s.prepareUpdate e st = (.ok p, st')) :
    p.presented = (s.draft e st.tokens).1.presented ∧
      ∃ blob, p.container = s.containerOf (s.makers.key e) (s.draft e st.tokens).1.stored
        (s.draft e st.tokens).1.version st.memory.next blob := by
  rw [prepareUpdate_eq] at h
  obtain ⟨hp, -⟩ := Prod.mk.inj h
  cases hc : (s.candidate (s.makers.key e) (s.draft e st.tokens).1.stored
      (s.draft e st.tokens).1.version st.memory).1 with
  | error err =>
      rw [hc] at hp
      cases hp
  | ok c =>
      rw [hc] at hp
      obtain rfl := Except.ok.inj hp
      exact ⟨rfl, candidate_container (Prod.ext hc rfl)⟩

end Store

end EntityStore
