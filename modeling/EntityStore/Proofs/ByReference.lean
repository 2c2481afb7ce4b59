import EntityStore.Proofs.Interleaving.ReadHits

/-!
# A reference stands for the key that owns it

A call by reference goes by way of the owners, and a deletion goes that way a
second time, at the index that it changes. What either finds there is the
container that lists the reference, first or last, once or twice, since owners
and containers say the same in every state that clients can lead to
(`Index.Exact`). From there on nothing depends on how the container was found:
a call looks at its target again only when it has found nothing, and observers
are told what a deletion was aimed at before it looks at all.
-/

namespace EntityStore

variable {κ ε σ τ : Type} [EntityKey κ]

namespace Index.Exact

variable {ix : Index κ} {c : Container κ} {k : κ} {r : Reference}

/-- A reference of a live container finds what its key finds. -/
theorem find?_reference (h : ix.Exact) (hc : ix.get? k = some c) (hr : r ∈ c.references) :
    ix.find? (.reference r) = some c :=
  h.getByReference?_eq_some_iff.2 ⟨h.live hc, hr⟩

/-- A deletion frees every reference of the container, named or not. -/
theorem containsReference_delete (h : ix.Exact) (hc : ix.Live c) (hr : r ∈ c.references) :
    (ix.delete c.key).2.containsReference r = false := by
  refine SortedMap.contains_eq_false_iff.2 ((h.delete c.key).owner_eq_none_iff.2 fun d hd hrd => ?_)
  obtain ⟨hlive, hne⟩ := (live_delete_iff hc).1 hd
  exact hne (h.live_unique hlive hc hrd hr)

end Index.Exact

namespace Store

variable {s : Store κ ε σ τ} {st : State κ ε σ τ} {target target' : Target κ}
  {settings : Option Settings} {c : Container κ}

theorem Reaches.exact (h : s.Reaches st) : st.index.Exact := by
  obtain ⟨w, hw, rfl⟩ := h
  exact hw.counted.1.exact

/-! ## How a container was found does not matter -/

theorem read_congr (s : Store κ ε σ τ) (settings : Option Settings)
    (h : st.index.find? target = st.index.find? target') :
    s.read target settings st = s.read target' settings st := by
  have hsame : st.gate.read (·.find? target) = st.gate.read (·.find? target') := h
  rw [read, hsame, ← read]

theorem version_congr (h : st.index.find? target = some c) (h' : st.index.find? target' = some c) :
    version target settings st = version target' settings st :=
  (version_of_some h).trans (version_of_some h').symm

theorem remove_congr (hexact : st.index.Exact) (h : st.index.find? target = some c)
    (h' : st.index.find? target' = some c) :
    remove target settings st = remove target' settings st :=
  (remove_of_some hexact h).trans (remove_of_some hexact h').symm

/-- Two deletions that find the same differ in what observers are told. -/
theorem delete_congr (hwritable : s.readOnly = false) (hexact : st.index.Exact)
    (h : st.index.find? target = some c) (h' : st.index.find? target' = some c) :
    s.delete target settings st = ((s.delete target' settings st).1,
      { (s.delete target' settings st).2 with
        deliveries := (st.notify s.observers (.beforeDelete target)).deliveries }) := by
  rw [delete_of_found hwritable hexact h, delete_of_found hwritable hexact h']
  rfl

/-- Where a read hands out an entity it names the key and the first reference of the container. -/
theorem read_names (s : Store κ ε σ τ) (hc : st.index.find? target = some c)
    {answer : Response κ ε} (h : (s.read target settings st).1 = .ok answer)
    (hcode : answer.code = .ok) : answer.key = some c.key ∧ answer.reference = c.reference := by
  obtain ⟨m', ⟨err, -, hread⟩ | ⟨e, -, ⟨-, hread⟩ | ⟨-, hread⟩⟩⟩ := s.read_cases settings hc
  · rw [hread] at h
    cases h
  · rw [hread] at h
    obtain rfl := Except.ok.inj h
    cases hcode
  · rw [hread] at h
    obtain rfl := Except.ok.inj h
    exact ⟨rfl, rfl⟩

/-- A reference stands for the key that owns it. In every state that clients can lead a store to, a
reference of a live entity, its first or any other, is as good as the key: a read, a version query
and the visit of a deletion do the same and answer the same, the reference shown being the first. A
deletion frees all references of the entity and takes away no other one; only observers are told
which of the two it was given. A reference that no live entity lists is answered 404 without a key,
and nothing is changed. -/
theorem Reaches.reference_stands_for_key (h : s.Reaches st) (hwritable : s.readOnly = false)
    (r : Reference) (settings : Option Settings) :
    (∀ k c, st.index.get? k = some c → r ∈ c.references →
      (s.read (.reference r) settings st = s.read (.key k) settings st ∧
        ∀ answer, (s.read (.reference r) settings st).1 = .ok answer → answer.code = .ok →
          answer.key = some k ∧ answer.reference = c.references.head?) ∧
      (version (.reference r) settings st = version (.key k) settings st ∧
        (version (.reference r) settings st).1 =
          { code := .ok, key := some k, entity := some (k, c.version.getD ""),
            reference := c.references.head?, settings }) ∧
      remove (.reference r) settings st = remove (.key k) settings st ∧
      s.delete (.reference r) settings st = ((s.delete (.key k) settings st).1,
        { (s.delete (.key k) settings st).2 with
          deliveries := (st.notify s.observers (.beforeDelete (.reference r))).deliveries }) ∧
      (s.delete (.reference r) settings st).1 =
        { code := .ok, key := some k, entity := some (k, ""), reference := c.references.head?,
          settings } ∧
      (∀ q ∈ c.references, (s.delete (.reference r) settings st).2.containsReference q = false) ∧
      ∀ d, (s.delete (.reference r) settings st).2.index.Live d ↔ st.index.Live d ∧ d ≠ c) ∧
    ((∀ c, st.index.Live c → r ∉ c.references) →
      s.read (.reference r) settings st = (.ok { code := .notFound, settings }, st) ∧
      version (.reference r) settings st = ({ code := .notFound, settings }, st) ∧
      remove (.reference r) settings st = ({ code := .notFound, settings }, st) ∧
      s.delete (.reference r) settings st = ({ code := .notFound, settings },
        st.notify s.observers (.beforeDelete (.reference r)))) := by
  have hexact := h.exact
  refine ⟨fun k c hc hr => ?_, fun hfree => ?_⟩
  · have hkey : st.index.find? (.key k) = some c := hc
    have hreference := hexact.find?_reference hc hr
    obtain rfl := hexact.key_eq hc
    have hdelete := delete_of_found hwritable hexact hreference settings
    refine ⟨⟨s.read_congr settings (hreference.trans hkey.symm), fun _ => s.read_names hreference⟩,
      ⟨version_congr hreference hkey, by rw [version_of_some hreference]; rfl⟩,
      remove_congr hexact hreference hkey, delete_congr hwritable hexact hreference hkey,
      by rw [hdelete]; rfl, fun q hq => ?_, fun d => ?_⟩
    · rw [hdelete]
      exact hexact.containsReference_delete hc hq
    · rw [hdelete]
      exact Index.live_delete_iff hc
  · have hnone := hexact.getByReference?_eq_none_iff.2 hfree
    refine ⟨s.read_of_none hnone, version_of_none hnone, remove_of_none hexact hnone, ?_⟩
    rw [delete_of_writable hwritable]
    exact remove_of_none hexact hnone

/-- Two documents are created, and the first gives one of its references up to the second, which
lists it last and twice. -/
def handover : List (Move String Doc) := [
  .call 0 (.entity (.create { id := "a", references := [⟨"r", "1"⟩, ⟨"r", "2"⟩] } none)), .go 0,
  .call 1 (.entity (.create { id := "b", references := [⟨"r", "3"⟩] } none)), .go 1,
  .call 0 (.entity (.update { id := "a", references := [⟨"r", "2"⟩] } none)), .go 0,
  .call 1 (.entity (.update
    { id := "b", references := [⟨"r", "3"⟩, ⟨"r", "1"⟩, ⟨"r", "1"⟩] } none)), .go 1]

def handedOver := (World.reached Doc.store () 0 handover).state

/-- The reference that was handed over stands for the second document, whose first reference is shown
and freed with it. A reference that nobody lists finds nothing. -/
theorem handedOver_reference :
    Doc.store.read (.reference ⟨"r", "1"⟩) none handedOver =
        Doc.store.read (.key "b") none handedOver ∧
      (version (.reference ⟨"r", "1"⟩) none handedOver).1.reference = some ⟨"r", "3"⟩ ∧
      (Doc.store.delete (.reference ⟨"r", "1"⟩) none handedOver).1 =
        (Doc.store.delete (.key "b") none handedOver).1 ∧
      (Doc.store.delete (.reference ⟨"r", "1"⟩) none handedOver).2.containsReference ⟨"r", "3"⟩ =
        false ∧
      (Doc.store.delete (.reference ⟨"r", "4"⟩) none handedOver).1.code = .notFound := by
  have hreaches : Doc.store.Reaches handedOver := reaches_reached () 0 handover
  obtain ⟨c, hc, hlists⟩ : ∃ c, handedOver.index.get? "b" = some c ∧
      (c.references == [⟨"r", "3"⟩, ⟨"r", "1"⟩, ⟨"r", "1"⟩]) = true :=
    (Option.any_eq_true ..).1 (by decide +kernel)
  have hrefs := eq_of_beq hlists
  obtain ⟨⟨hread, -⟩, ⟨-, hversion⟩, -, hdelete, -, hfreed, -⟩ :=
    (hreaches.reference_stands_for_key rfl ⟨"r", "1"⟩ none).1 "b" c hc (by rw [hrefs]; decide)
  have hnone : handedOver.index.getByReference? ⟨"r", "4"⟩ = none := by decide +kernel
  obtain ⟨-, -, -, hmissing⟩ := (hreaches.reference_stands_for_key rfl ⟨"r", "4"⟩ none).2
    (hreaches.exact.getByReference?_eq_none_iff.1 hnone)
  exact ⟨hread, by rw [hversion, hrefs]; rfl, by rw [hdelete], hfreed _ (by rw [hrefs]; decide),
    by rw [hmissing]⟩

end Store

end EntityStore
