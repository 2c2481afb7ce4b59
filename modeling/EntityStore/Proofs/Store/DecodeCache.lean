import EntityStore.Codec.Metered
import EntityStore.Proofs.Store.Decoding

/-!
# A container is decoded once

What is done with containers at hand, as data: they are made, read, copied under
another signature, and asked whether they are decoded, in any order, while
others may use what serializer and codec use (`Use.elsewhere`). Containers are
named by their places in the order in which they came to hand.

Two containers at hand never have one handle (`Pool.Sound`), so a use of one says
nothing of another, and the only use that makes a container remember something
is one that reads it and succeeds. From then on nothing is asked of the context
for it, nor for the copies that are made of it (`Pool.Descends`). A copy made
before that remembers for itself.

A write decodes its blob once as well. Whether that happens when the container
is made or when the copy for the answer is, serializer and codec cannot tell.
-/

namespace EntityStore

variable {κ ε σ τ : Type}

/-! ## Uses of containers at hand -/

/-- Containers at hand, by their places, and the memory beside them. -/
structure Pool (κ ε σ : Type) where
  containers : List (Container κ)
  memory : Memory ε σ

/-- What is done with containers at hand. At a place that holds none nothing is done. -/
inductive Use (κ ε σ : Type) where
  | make (parts : ContainerParts κ) (e : ε) (eager : Bool)
  | entity (i : Nat)
  | copy (i : Nat)
  | isDecoded (i : Nat)
  | resign (i : Nat) (signature : Option String)
  /-- Others use what serializer and codec use. -/
  | elsewhere (session : σ)

inductive Seen (ε : Type) where
  | nothing
  | refused (err : StoreError)
  | value (r : Except StoreError ε)
  | decoded (b : Bool)

namespace Pool

def start (session : σ) : Pool κ ε σ := ⟨[], .start session⟩

def remembered (p : Pool κ ε σ) (c : Container κ) : Option ε := p.memory.decoded.find? c.handle

def useAt (p : Pool κ ε σ) (i : Nat) (use : Container κ → Seen ε × Pool κ ε σ) :
    Seen ε × Pool κ ε σ :=
  match p.containers[i]? with
  | some c => use c
  | none => (.nothing, p)

theorem useAt_of_some {p : Pool κ ε σ} {i : Nat} {c : Container κ} (h : p.containers[i]? = some c)
    (use : Container κ → Seen ε × Pool κ ε σ) : p.useAt i use = use c := by
  rw [useAt, h]

variable [EntityKey κ]

def answer (x : Context ε σ) (u : Use κ ε σ) (p : Pool κ ε σ) : Seen ε × Pool κ ε σ :=
  match u with
  | .make parts e eager =>
    match Container.make parts e x eager p.memory with
    | (.error err, memory) => (.refused err, { p with memory })
    | (.ok c, memory) => (.nothing, ⟨p.containers ++ [c], memory⟩)
  | .entity i => p.useAt i fun c =>
    let (r, memory) := c.entity x p.memory
    (.value r, { p with memory })
  | .copy i => p.useAt i fun c =>
    let (r, memory) := c.decodeCopy x p.memory
    (.value r, { p with memory })
  | .isDecoded i => p.useAt i fun c => (.decoded (c.isDecoded p.memory), p)
  | .resign i signature => p.useAt i fun c =>
    let (copy, memory) := c.resigned signature p.memory
    (.nothing, ⟨p.containers ++ [copy], memory⟩)
  | .elsewhere session => (.nothing, { p with memory := { p.memory with session } })

def after (x : Context ε σ) (uses : List (Use κ ε σ)) (p : Pool κ ε σ) : Pool κ ε σ :=
  uses.foldl (fun p u => (p.answer x u).2) p

/-- A later pool and a place in it that holds the container at a place of the first pool, or a copy
made since of it or of such a copy. -/
inductive Descends (x : Context ε σ) (p : Pool κ ε σ) (i : Nat) : Pool κ ε σ → Nat → Prop where
  | itself : Descends x p i p i
  | later {q : Pool κ ε σ} {j : Nat} (h : Descends x p i q j) (u : Use κ ε σ) :
      Descends x p i (q.answer x u).2 j
  | copied {q : Pool κ ε σ} {j : Nat} (h : Descends x p i q j) (signature : Option String) :
      Descends x p i (q.answer x (.resign j signature)).2 q.containers.length

/-- The container at a place shows an entity, and whoever asks for it changes nothing and asks
nothing of any context. -/
def Shows (p : Pool κ ε σ) (i : Nat) (e : ε) : Prop :=
  ∀ x : Context ε σ, p.answer x (.entity i) = (.value (.ok e), p) ∧
    p.answer x (.copy i) = (.value (.ok e), p) ∧ p.answer x (.isDecoded i) = (.decoded true, p)

/-- The pool once the context was asked for the entity of a container and gave an answer. -/
def asked (p : Pool κ ε σ) (c : Container κ) (r : Except StoreError ε) (session : σ) :
    Pool κ ε σ :=
  let memory : Memory ε σ := { p.memory with session }
  match r with
  | .ok e => { p with memory := c.remember e memory }
  | .error _ => { p with memory }

/-! ## Containers at hand are told apart -/

/-- Containers at different places have different handles, and those are not free. -/
structure Sound (p : Pool κ ε σ) : Prop where
  tidy : p.memory.Tidy
  handle_lt : ∀ {i : Nat} {c : Container κ}, p.containers[i]? = some c → c.handle < p.memory.next
  place_eq : ∀ {i j : Nat} {c d : Container κ}, p.containers[i]? = some c →
    p.containers[j]? = some d → c.handle = d.handle → i = j

variable {x : Context ε σ} {u : Use κ ε σ} {p q : Pool κ ε σ} {i j : Nat} {c : Container κ} {e : ε}

omit [EntityKey κ] in
theorem start_sound (session : σ) : (start session : Pool κ ε σ).Sound :=
  ⟨Memory.start_tidy session, nofun, nofun⟩

/-- What a use can do: it works under new handles and hands out one container or none, or it reads
one that is at hand. -/
theorem answer_cases (x : Context ε σ) (u : Use κ ε σ) (p : Pool κ ε σ) :
    (∃ memory, p.memory.Extends memory ∧ (p.answer x u).2 = { p with memory }) ∨
    (∃ c memory, p.memory.Extends memory ∧ c.handle = p.memory.next ∧
      memory.next = p.memory.next + 1 ∧ (p.answer x u).2 = ⟨p.containers ++ [c], memory⟩) ∨
    ∃ i c, u = .entity i ∧ p.containers[i]? = some c ∧
      (p.answer x u).2 = { p with memory := (c.entity x p.memory).2 } := by
  have hsame : ∃ memory, p.memory.Extends memory ∧ p = { p with memory } :=
    ⟨p.memory, .refl _, rfl⟩
  cases u with
  | make parts e eager =>
      obtain ⟨hext, hmade⟩ := Container.make_extends parts e x eager p.memory
      rw [answer]
      cases hmake : Container.make parts e x eager p.memory with
      | mk r memory =>
          rw [hmake] at hext hmade
          cases r with
          | error err => exact .inl ⟨memory, hext, rfl⟩
          | ok c =>
              obtain ⟨hhandle, hnext⟩ := hmade rfl
              exact .inr (.inl ⟨c, memory, hext, hhandle, hnext, rfl⟩)
  | entity i =>
      rw [answer, useAt]
      cases hc : p.containers[i]? with
      | none => exact .inl hsame
      | some c => exact .inr (.inr ⟨i, c, rfl, hc, rfl⟩)
  | copy i =>
      rw [answer, useAt]
      cases hc : p.containers[i]? with
      | none => exact .inl hsame
      | some c => exact .inl ⟨_, c.decodeCopy_extends x p.memory, rfl⟩
  | isDecoded i =>
      rw [answer, useAt]
      cases p.containers[i]? <;> exact .inl hsame
  | resign i signature =>
      rw [answer, useAt]
      cases hc : p.containers[i]? with
      | none => exact .inl hsame
      | some c =>
          obtain ⟨hext, hhandle, hnext, -⟩ := c.resigned_extends signature p.memory
          exact .inr (.inl ⟨_, _, hext, hhandle, hnext, rfl⟩)
  | elsewhere session => exact .inl ⟨_, .session session, rfl⟩

theorem containers_answer (h : p.containers[i]? = some c) :
    (p.answer x u).2.containers[i]? = some c := by
  rcases answer_cases x u p with ⟨_, -, h'⟩ | ⟨_, _, -, -, -, h'⟩ | ⟨_, _, -, -, h'⟩
  · rw [h']
    exact h
  · rw [h']
    exact List.getElem?_append_left (List.getElem?_eq_some_iff.1 h).1 ▸ h
  · rw [h']
    exact h

omit [EntityKey κ] in
theorem Sound.extends (h : p.Sound) {memory : Memory ε σ} (hext : p.memory.Extends memory) :
    Sound { p with memory } where
  tidy := hext.tidy h.tidy
  handle_lt hc := Nat.lt_of_lt_of_le (h.handle_lt hc) hext.next_le
  place_eq := h.place_eq

omit [EntityKey κ] in
theorem Sound.append (h : p.Sound) {memory : Memory ε σ} (hext : p.memory.Extends memory)
    (hhandle : c.handle = p.memory.next) (hnext : memory.next = p.memory.next + 1) :
    Sound ⟨p.containers ++ [c], memory⟩ := by
  have hplace : ∀ {i : Nat} {d : Container κ}, (p.containers ++ [c])[i]? = some d →
      p.containers[i]? = some d ∧ d.handle < p.memory.next ∨
        i = p.containers.length ∧ d.handle = p.memory.next := by
    intro i d hd
    rcases Nat.lt_or_ge i p.containers.length with hi | hi
    · rw [List.getElem?_append_left hi] at hd
      exact .inl ⟨hd, h.handle_lt hd⟩
    · rw [List.getElem?_append_right hi, List.getElem?_singleton] at hd
      split at hd
      · next hzero =>
          obtain rfl := Option.some.inj hd
          exact .inr ⟨by omega, hhandle⟩
      · cases hd
  have hapart : ∀ {d d' : Container κ}, d.handle < p.memory.next → d'.handle = p.memory.next →
      d.handle ≠ d'.handle := fun hlt hd' heq => Nat.ne_of_lt hlt (heq.trans hd')
  refine ⟨hext.tidy h.tidy, fun {i d} hd => ?_, fun {i j d d'} hd hd' heq => ?_⟩
  · rcases hplace hd with ⟨-, hlt⟩ | ⟨-, hd⟩
    · exact Nat.lt_of_lt_of_le hlt hext.next_le
    · exact hd ▸ hnext ▸ Nat.lt_succ_self _
  · rcases hplace hd with ⟨hold, hlt⟩ | ⟨rfl, hnew⟩ <;>
      rcases hplace hd' with ⟨hold', hlt'⟩ | ⟨rfl, hnew'⟩
    · exact h.place_eq hold hold' heq
    · exact absurd heq (hapart hlt hnew')
    · exact absurd heq.symm (hapart hlt' hnew)
    · rfl

theorem Sound.answer (h : p.Sound) (x : Context ε σ) (u : Use κ ε σ) : (p.answer x u).2.Sound := by
  rcases answer_cases x u p with ⟨memory, hext, h'⟩ | ⟨c, memory, hext, hhandle, hnext, h'⟩ |
    ⟨i, c, rfl, hc, h'⟩
  · rw [h']
    exact h.extends hext
  · rw [h']
    exact h.append hext hhandle hnext
  · have hfills : Memory.Fills x (· = c) p.memory (c.entity x p.memory).2 :=
      .entity rfl (h.handle_lt hc)
    rw [h']
    exact ⟨hfills.tidy h.tidy, fun hd => Nat.lt_of_lt_of_le (h.handle_lt hd) hfills.next_le,
      h.place_eq⟩

theorem Sound.after (h : p.Sound) (x : Context ε σ) (uses : List (Use κ ε σ)) :
    (p.after x uses).Sound := by
  induction uses generalizing p with
  | nil => exact h
  | cons u rest ih => exact ih (h.answer x u)

/-! ## What is remembered -/

/-- A container remembers something new only by being read. -/
theorem Sound.remembered_answer (h : p.Sound) (hc : p.containers[i]? = some c)
    (hu : u ≠ .entity i) : (p.answer x u).2.remembered c = p.remembered c := by
  rcases answer_cases x u p with ⟨memory, hext, h'⟩ | ⟨_, memory, hext, -, -, h'⟩ |
    ⟨j, d, rfl, hd, h'⟩
  · rw [h']
    exact hext.find?_eq _ (h.handle_lt hc)
  · rw [h']
    exact hext.find?_eq _ (h.handle_lt hc)
  · rw [h']
    rcases d.entity_find? x p.memory c.handle with hsame | ⟨heq, -⟩
    · exact hsame
    · -- two places with one handle are one place
      exact absurd (h.place_eq hc hd heq) fun hij => hu (hij ▸ rfl)

theorem Sound.remembered_stays (h : p.Sound) (hc : p.containers[i]? = some c)
    (he : p.remembered c = some e) (x : Context ε σ) (u : Use κ ε σ) :
    (p.answer x u).2.remembered c = some e := by
  by_cases hu : u = .entity i
  · subst hu
    have hfind : p.memory.decoded.find? c.handle = some e := he
    rw [Pool.answer, useAt_of_some hc, Container.entity, hfind]
    exact he
  · rw [h.remembered_answer hc hu, he]

/-- A copy under another signature is like its original in everything else, remembers what that
does, and nothing else changes. -/
theorem Sound.resign (h : p.Sound) (hc : p.containers[i]? = some c) (x : Context ε σ)
    (signature : Option String) : ∃ memory,
      let copy := { c with signature, handle := p.memory.next }
      p.answer x (.resign i signature) = (.nothing, ⟨p.containers ++ [copy], memory⟩) ∧
      memory.session = p.memory.session ∧
      memory.decoded.find? copy.handle = p.remembered c ∧
      ∀ {j : Nat} {d : Container κ}, p.containers[j]? = some d →
        memory.decoded.find? d.handle = p.remembered d := by
  have hext := (c.resigned_extends signature p.memory).1
  refine ⟨(c.resigned signature p.memory).2, ?_, ?_, ?_, fun {j d} hd => ?_⟩
  · rw [Pool.answer, useAt_of_some hc, Container.resigned]
    cases p.memory.decoded.find? c.handle <;> rfl
  · exact (c.resigned_extends signature p.memory).2.2.2
  · rw [remembered, Container.resigned]
    cases hfind : p.memory.decoded.find? c.handle with
    | some e => exact SortedMap.find?_insert_self _ _ _
    | none => exact Memory.Tidy.find?_next h.tidy
  · exact hext.find?_eq _ (h.handle_lt hd)

theorem shows_of_remembered (hc : p.containers[i]? = some c) (he : p.remembered c = some e) :
    p.Shows i e := by
  have hfind : p.memory.decoded.find? c.handle = some e := he
  intro x
  refine ⟨?_, ?_, ?_⟩
  · rw [answer, useAt_of_some hc, Container.entity, hfind]
  · rw [answer, useAt_of_some hc, Container.decodeCopy, hfind]
  · rw [answer, useAt_of_some hc, Container.isDecoded, SortedMap.contains_iff.2 ⟨e, hfind⟩]

/-- What is remembered of a container is remembered of the copies made since. -/
theorem Sound.remembered_of_descends (h : p.Sound) (hc : p.containers[i]? = some c)
    (he : p.remembered c = some e) (hq : Descends x p i q j) :
    q.Sound ∧ ∃ d, q.containers[j]? = some d ∧ q.remembered d = some e := by
  induction hq with
  | itself => exact ⟨h, c, hc, he⟩
  | later _ u ih =>
      obtain ⟨hsound, d, hd, hed⟩ := ih
      exact ⟨hsound.answer x u, d, containers_answer hd, hsound.remembered_stays hd hed x u⟩
  | @copied q j _ signature ih =>
      obtain ⟨hsound, d, hd, hed⟩ := ih
      obtain ⟨memory, hanswer, -, hcopy, -⟩ := hsound.resign hd x signature
      refine ⟨hsound.answer x _, { d with signature, handle := q.memory.next }, ?_, ?_⟩
      · rw [hanswer]
        exact List.getElem?_concat_length
      · rw [hanswer]
        exact hcopy.trans hed

/-- A container that remembers nothing is read by asking the context once, and so is a copy of its
entity, which is not remembered. -/
theorem answer_of_not_remembered (hc : p.containers[i]? = some c) (hnone : p.remembered c = none)
    {r : Except StoreError ε} {session : σ}
    (hdec : x.decode c.blob p.memory.session = (r, session)) :
    p.answer x (.isDecoded i) = (.decoded false, p) ∧
    p.answer x (.copy i) = (.value r, { p with memory := { p.memory with session } }) ∧
    p.answer x (.entity i) = (.value r, p.asked c r session) := by
  have hfind : p.memory.decoded.find? c.handle = none := hnone
  refine ⟨?_, ?_, ?_⟩
  · rw [answer, useAt_of_some hc, Container.isDecoded, SortedMap.contains_eq_false_iff.2 hfind]
  · rw [answer, useAt_of_some hc, Container.decodeCopy, hfind]
    simp only [Container.decodeBlob, hdec]
  · rw [answer, useAt_of_some hc, Container.entity, hfind]
    simp only [Container.decodeBlob, hdec]
    cases r <;> rfl

/-- A container that was read remembers what it was read as, and nothing if that failed. -/
theorem remembered_of_value (hc : p.containers[i]? = some c) {r : Except StoreError ε}
    (h : p.answer x (.entity i) = (.value r, q)) : q.remembered c = r.toOption := by
  cases hp : p.remembered c with
  | some e =>
      rw [(shows_of_remembered hc hp x).1] at h
      obtain ⟨hr, rfl⟩ := Prod.mk.inj h
      obtain rfl := Seen.value.inj hr
      exact hp
  | none =>
      cases hdec : x.decode c.blob p.memory.session with
      | mk r' session =>
          rw [(answer_of_not_remembered hc hp hdec).2.2] at h
          obtain ⟨hr, rfl⟩ := Prod.mk.inj h
          obtain rfl := Seen.value.inj hr
          cases r' with
          | ok e => exact SortedMap.find?_insert_self _ _ _
          | error err => exact hp

/-- Nothing is remembered of a container while it is not read. -/
theorem Sound.not_remembered_after (h : p.Sound) (hc : p.containers[i]? = some c)
    (hnone : p.remembered c = none) (x : Context ε σ) {uses : List (Use κ ε σ)}
    (huses : ∀ u ∈ uses, u ≠ .entity i) :
    (p.after x uses).containers[i]? = some c ∧ (p.after x uses).remembered c = none := by
  induction uses generalizing p with
  | nil => exact ⟨hc, hnone⟩
  | cons u rest ih =>
      have hu := h.remembered_answer (x := x) hc (huses u List.mem_cons_self)
      exact ih (h.answer x u) (containers_answer hc) (hu.trans hnone)
        fun v hv => huses v (List.mem_cons_of_mem u hv)

theorem Sound.read (h : p.Sound) (hc : p.containers[i]? = some c) {r : Except StoreError ε}
    (hread : p.answer x (.entity i) = (.value r, q)) :
    q.Sound ∧ q.containers[i]? = some c ∧ q.remembered c = r.toOption := by
  have hsound := h.answer x (.entity i)
  have hsame := containers_answer (x := x) (u := .entity i) hc
  rw [hread] at hsound hsame
  exact ⟨hsound, hsame, remembered_of_value hc hread⟩

/-- What becomes of the container at a place. -/
structure DecodesOnce (x : Context ε σ) (p : Pool κ ε σ) (i : Nat) (c : Container κ) : Prop where
  /-- What it was read as once, it and the copies made since show ever after. -/
  shows : ∀ {e q}, p.answer x (.entity i) = (.value (.ok e), q) →
    ∀ {q' j}, Descends x q i q' j → q'.Shows j e
  /-- If it could not be read, then it is not decoded until it is read again, which is tried. -/
  tries : ∀ {err q}, p.answer x (.entity i) = (.value (.error err), q) →
    ∀ more, (∀ u ∈ more, u ≠ .entity i) →
      ((q.after x more).answer x (.isDecoded i)).1 = .decoded false ∧
      ((q.after x more).answer x (.entity i)).1 =
        .value (x.decode c.blob (q.after x more).memory.session).1
  /-- While it is not decoded, the context is asked once by each that asks for its entity. -/
  asks : (p.answer x (.isDecoded i)).1 = .decoded false →
    ∀ {r session}, x.decode c.blob p.memory.session = (r, session) →
      p.answer x (.copy i) = (.value r, { p with memory := { p.memory with session } }) ∧
      p.answer x (.entity i) = (.value r, p.asked c r session)
  /-- No use changes it, and nothing but reading it changes what it remembers. -/
  stays : ∀ u, (p.answer x u).2.containers[i]? = some c ∧
    (u ≠ .entity i → (p.answer x u).2.remembered c = p.remembered c)
  /-- A copy has another signature, and another handle to go with it, and remembers the same. -/
  resigns : ∀ signature, ∃ memory,
    let copy := { c with signature, handle := p.memory.next }
    p.answer x (.resign i signature) = (.nothing, ⟨p.containers ++ [copy], memory⟩) ∧
    memory.session = p.memory.session ∧
    memory.decoded.find? copy.handle = p.remembered c ∧
    ∀ {j : Nat} {d : Container κ}, p.containers[j]? = some d →
      memory.decoded.find? d.handle = p.remembered d

theorem Sound.decodesOnce (h : p.Sound) (hc : p.containers[i]? = some c) (x : Context ε σ) :
    DecodesOnce x p i c where
  shows {e q} hread {q' j} hlater := by
    obtain ⟨hsound, hsame, he⟩ := h.read hc hread
    obtain ⟨-, d, hd, hed⟩ := hsound.remembered_of_descends hsame he hlater
    exact shows_of_remembered hd hed
  tries {err q} hread more hmore := by
    obtain ⟨hsound, hsame, hnone⟩ := h.read hc hread
    obtain ⟨hplace, hnone⟩ := hsound.not_remembered_after hsame hnone x hmore
    obtain ⟨hdecoded, -, hvalue⟩ := answer_of_not_remembered (x := x) hplace hnone (Eq.refl _)
    exact ⟨congrArg Prod.fst hdecoded, congrArg Prod.fst hvalue⟩
  asks hdecoded {r session} hdec := by
    have hnone : p.remembered c = none := by
      rw [Pool.answer, useAt_of_some hc] at hdecoded
      exact SortedMap.contains_eq_false_iff.1 (Seen.decoded.inj hdecoded)
    exact (answer_of_not_remembered hc hnone hdec).2
  stays u := ⟨containers_answer hc, h.remembered_answer hc⟩
  resigns signature := h.resign hc x signature

end Pool

/-! ## Writes -/

/-- A context with a list of the blobs that it was asked to read. -/
def Context.logging (x : Context ε σ) : Context ε (σ × List Bytes) where
  serializer :=
    { formatId := x.serializer.formatId
      serialize := fun e s =>
        let (r, session) := x.serializer.serialize e s.1
        (r, session, s.2)
      deserialize := fun bytes s =>
        let (r, session) := x.serializer.deserialize bytes s.1
        (r, session, s.2) }
  codec :=
    { id := x.codec.id
      encode := fun bytes s =>
        let (r, session) := x.codec.encode bytes s.1
        (r, session, s.2)
      decode := fun blob s =>
        let (r, session) := x.codec.decode blob s.1
        (r, session, s.2 ++ [blob]) }

theorem Context.logging_encode (x : Context ε σ) (e : ε) (s : σ × List Bytes) :
    x.logging.encode e s = ((x.encode e s.1).1, (x.encode e s.1).2, s.2) := by
  cases hz : x.serializer.serialize e s.1 with
  | mk r a =>
      cases r with
      | error err => simp only [encode, logging, hz]
      | ok raw =>
          cases hc : x.codec.encode raw a with
          | mk r b => cases r <;> simp only [encode, logging, hz, hc]

theorem Context.logging_decode (x : Context ε σ) (blob : Bytes) (s : σ × List Bytes) :
    x.logging.decode blob s =
      ((x.decode blob s.1).1, (x.decode blob s.1).2, s.2 ++ [blob]) := by
  cases hc : x.codec.decode blob s.1 with
  | mk r a => cases r <;> simp only [decode, logging, hc]

variable [EntityKey κ]

/-- A candidate whose entity is written reads the blob once, whenever it does, and fails with that
reading alone. -/
theorem Store.candidate_of_encoded {s : Store κ ε σ τ} {m : Memory ε σ} (ht : m.Tidy) {key : κ}
    {e : ε} {version : Option String} {blob : Bytes} {session : σ}
    (h : s.context.encode e m.session = (.ok blob, session)) :
    (s.candidate key e version m).1 = (s.context.decode blob session).1.map
        (⟨s.containerOf key e version m.next blob, ·⟩) ∧
      (s.candidate key e version m).2.session = (s.context.decode blob session).2 := by
  have hfree := ht.find?_next
  cases hdec : s.context.decode blob session with
  | mk r session' =>
      cases heager : s.eager <;> cases r <;>
        simp only [candidate, Container.make, h, heager, Container.decodeBlob,
          Container.decodeCopy, hdec, hfree, Container.remember, SortedMap.find?_insert_self,
          Bool.false_eq_true, if_false, if_true] <;> exact ⟨rfl, trivial⟩

/-- Entities are decoded once. Whatever is done with containers at hand over any context, and
whatever others do meanwhile, once a container was read, it and the copies made of it since show the
entity it was read as, and no context is asked for it. A container that could not be read is tried
again; decoding a copy, asking and making copies under other signatures change nothing about any
container. Free handles stay free of memories, and in any memory like that a candidate whose entity
is written reads its blob exactly once, in an eager store and in one that is not, and whether that
fails is whether the candidate fails: so say the session that is left, and the list of blobs where
such a list is kept. -/
theorem Pool.decoded_once (x : Context ε σ) (session : σ) (uses : List (Use κ ε σ)) :
    (Pool.after x uses (.start session : Pool κ ε σ)).memory.Tidy ∧
    (∀ {i : Nat} {c : Container κ}, (Pool.after x uses (.start session)).containers[i]? = some c →
      DecodesOnce x (Pool.after x uses (.start session)) i c) ∧
    (∀ (s : Store κ ε σ τ) (m : Memory ε σ), s.context = x → m.Tidy →
      ∀ key e version {blob session'}, x.encode e m.session = (.ok blob, session') →
        (s.candidate key e version m).1 = (x.decode blob session').1.map
            (⟨s.containerOf key e version m.next blob, ·⟩) ∧
          (s.candidate key e version m).2.session = (x.decode blob session').2) ∧
    ∀ (s : Store κ ε (σ × List Bytes) τ) (m : Memory ε (σ × List Bytes)),
      s.context = x.logging → m.Tidy →
      ∀ key e version {blob}, (x.encode e m.session.1).1 = .ok blob →
        (s.candidate key e version m).2.session.2 = m.session.2 ++ [blob] := by
  have hsound : (Pool.after x uses (.start session)).Sound := (start_sound session).after x uses
  refine ⟨hsound.tidy, fun hc => hsound.decodesOnce hc x,
    fun s m hs ht key e version blob session' hencoded => ?_,
    fun s m hs ht key e version blob hencoded => ?_⟩
  · subst hs
    exact Store.candidate_of_encoded ht hencoded
  · have hlogged : s.context.encode e m.session =
        (.ok blob, (x.encode e m.session.1).2, m.session.2) := by
      rw [hs, Context.logging_encode, hencoded]
    rw [(Store.candidate_of_encoded ht hlogged).2, hs, Context.logging_decode]

/-- Bytes as they are, behind a codec that reads once. -/
def readingOnce : Context Bytes Meter where
  serializer :=
    { formatId := "bytes"
      serialize := fun e s => (.ok e, s)
      deserialize := fun bytes s => (.ok bytes, s) }
  codec := .metered .identity { decodeLimit := some 1 }

/-- A store of bytes that keeps the blobs it reads. -/
def loggingStore (eager : Bool) : Store String Bytes (Meter × List Bytes) Unit where
  collectionId := "c"
  readOnly := false
  eager
  makers := { key := fun _ => "k" }
  versionPolicy := none
  signaturePolicy := none
  context := readingOnce.logging
  searches := .empty
  observers := []

/-- Looking at a copy leaves nothing for the reading that follows, which fails; copied, and once
others have reset the codec, the container is read, and a copy made after that shows what was read.
The earlier copy is not decoded. -/
theorem decoded_once_after_failure :
    let attempt : List (Use String Bytes Meter) := [.make { key := "k" } [1] false, .copy 0]
    let more : List (Use String Bytes Meter) := [.resign 0 none, .elsewhere {}]
    let p := Pool.after readingOnce attempt (.start {})
    let q := (p.answer readingOnce (.entity 0)).2.after readingOnce more
    let r := (q.answer readingOnce (.entity 0)).2
    (p.answer readingOnce (.entity 0)).1 =
      .value (.error (CodecError.decode "injected exhaustion").toStoreError) ∧
    (q.answer readingOnce (.isDecoded 0)).1 = .decoded false ∧
    (q.answer readingOnce (.entity 0)).1 = .value (.ok [1]) ∧
    (r.answer readingOnce (.resign 0 (some "s"))).2.Shows 2 [1] ∧
    (r.answer readingOnce (.isDecoded 1)).1 = .decoded false ∧
    ((loggingStore true).candidate "k" [1] none (.start ({}, []))).2.session.2 = [[1]] ∧
    ((loggingStore false).candidate "k" [1] none (.start ({}, []))).2.session.2 = [[1]] := by
  intro attempt more p q r
  obtain ⟨-, hpool, -, hwrite⟩ := Pool.decoded_once (τ := Unit) readingOnce {} attempt
  have hplace : p.containers[0]? = some ⟨{ key := "k" }, 0, "k", [1]⟩ := rfl
  obtain ⟨hdecoded, hvalue⟩ := (hpool hplace).tries rfl more (by simp [more])
  obtain ⟨-, hread, -, -⟩ := Pool.decoded_once (τ := Unit) readingOnce {}
    (attempt ++ .entity 0 :: more)
  have hplace' : q.containers[0]? = some ⟨{ key := "k" }, 0, "k", [1]⟩ := rfl
  have hshows := (hread hplace').shows (e := [1]) (q := r) rfl (.copied .itself (some "s"))
  refine ⟨rfl, hdecoded, hvalue, hshows, rfl, ?_, ?_⟩
  · exact hwrite (loggingStore true) _ rfl (Memory.start_tidy _) "k" [1] none rfl
  · exact hwrite (loggingStore false) _ rfl (Memory.start_tidy _) "k" [1] none rfl

end EntityStore
