import EntityStore.Proofs.Signatures
import EntityStore.Proofs.Tampering.Basic

/-!
# What a read comes to when containers are tampered with

A read looks at the container under its key, at what is remembered of it and at
the policy, and not at how the container came there. So what it comes to is said
by the same four rules wherever the index is exact (`Store.ReadsTo`), and they
leave no choice: what cannot be decoded is never checked, and what does not pass
the check is not shown.
-/

namespace EntityStore

variable {κ ε σ τ : Type}

/-! ## What a container reads as, and whether it is rejected -/

namespace Container

variable {x : Context ε σ} {m : Memory ε σ} {c : Container κ} {e : ε}

/-- What a container reads as: the entity that is remembered of it, or else what its blob decodes
to. -/
def ReadsAs (c : Container κ) (x : Context ε σ) (m : Memory ε σ) (e : ε) : Prop :=
  m.decoded.find? c.handle = some e ∨
    c.isDecoded m = false ∧ (x.decode c.blob m.session).1 = .ok e

theorem entity_eq_ok_iff : (c.entity x m).1 = .ok e ↔ c.ReadsAs x m e := by
  rw [entity, ReadsAs, isDecoded, SortedMap.contains_eq_false_iff]
  cases m.decoded.find? c.handle with
  | some e' => simp
  | none =>
      cases hdec : x.decode c.blob m.session with
      | mk r session => cases r <;> simp [decodeBlob, hdec]

theorem entity_eq_error_iff {err : StoreError} : (c.entity x m).1 = .error err ↔
    c.isDecoded m = false ∧ (x.decode c.blob m.session).1 = .error err := by
  rw [entity, isDecoded, SortedMap.contains_eq_false_iff]
  cases m.decoded.find? c.handle with
  | some e' => simp
  | none =>
      cases hdec : x.decode c.blob m.session with
      | mk r session => cases r <;> simp [decodeBlob, hdec]

end Container

namespace Store

variable {s : Store κ ε σ τ} {c : Container κ} {e : ε}

/-- There is a policy, and what the container has of a signature is not accepted. -/
def Rejects (s : Store κ ε σ τ) (c : Container κ) (e : ε) : Prop :=
  ∃ p, s.signaturePolicy = some p ∧
    ∀ signature, c.signature = some signature → p.accepts e c.version signature = false

theorem isIntact_eq_false_iff : s.isIntact c e = false ↔ s.Rejects c e := by
  rw [isIntact, Rejects]
  cases s.signaturePolicy with
  | none => simp
  | some p => cases c.signature <;> simp

/-- A policy that signs anew accepts one signature only. -/
theorem rejects_iff_of_recomputes {p : SignaturePolicy ε} (hpolicy : s.signaturePolicy = some p)
    (hp : p.Recomputes) : s.Rejects c e ↔ c.signature ≠ some (p.sign e c.version) := by
  rw [← isIntact_eq_false_iff, isIntact, hpolicy]
  cases c.signature with
  | none => simp
  | some signature =>
      change p.accepts e c.version signature = false ↔ _
      rw [hp, beq_eq_false_iff_ne, Ne, Ne, Option.some.injEq, eq_comm]

end Store

/-! ## What a read comes to -/

variable [EntityKey κ]

namespace Store

variable {s : Store κ ε σ τ} {st : State κ ε σ τ} {k : κ} {settings : Option Settings}
  {c : Container κ} {e : ε}

/-- What a read of a key comes to in a state. -/
inductive ReadsTo (s : Store κ ε σ τ) (st : State κ ε σ τ) (k : κ) (settings : Option Settings) :
    Except StoreError (Response κ ε) → Prop where
  | missing (hnone : st.index.get? k = none) :
      ReadsTo s st k settings (.ok { code := .notFound, settings })
  | undecodable {c : Container κ} {err : StoreError} (hc : st.index.get? k = some c)
      (hnew : c.isDecoded st.memory = false)
      (herr : (s.context.decode c.blob st.memory.session).1 = .error err) :
      ReadsTo s st k settings (.error err)
  | forbidden {c : Container κ} {e : ε} (hc : st.index.get? k = some c)
      (he : c.ReadsAs s.context st.memory e) (hrejects : s.Rejects c e) :
      ReadsTo s st k settings (.ok { code := .forbidden, key := some k, settings })
  | found {c : Container κ} {e : ε} (hc : st.index.get? k = some c)
      (he : c.ReadsAs s.context st.memory e) (haccepts : ¬ s.Rejects c e) :
      ReadsTo s st k settings (.ok {
        code := .ok
        key := some k
        entity := some e
        reference := c.references.head?
        settings })

/-- The rules say of every read what it comes to, and nothing else. -/
theorem readsTo_iff (h : st.index.Exact) {a : Except StoreError (Response κ ε)} :
    s.ReadsTo st k settings a ↔ (s.read (.key k) settings st).1 = a := by
  constructor
  · intro ha
    cases ha with
    | missing hnone =>
        have hfind : st.index.find? (.key k) = none := hnone
        rw [s.read_of_none hfind]
    | @undecodable c err hc hnew herr =>
        obtain ⟨m, hent⟩ : ∃ m, c.entity s.context st.memory = (.error err, m) :=
          ⟨_, Prod.ext (Container.entity_eq_error_iff.2 ⟨hnew, herr⟩) rfl⟩
        have hfind : st.index.find? (.key k) = some c := hc
        rw [s.read_of_error settings hfind hent]
    | @forbidden c e hc he hrejects =>
        obtain ⟨m, hent⟩ : ∃ m, c.entity s.context st.memory = (.ok e, m) :=
          ⟨_, Prod.ext (Container.entity_eq_ok_iff.2 he) rfl⟩
        have hfind : st.index.find? (.key k) = some c := hc
        rw [s.read_of_ok settings hfind hent, isIntact_eq_false_iff.2 hrejects, h.key_eq hc]
        rfl
    | @found c e hc he haccepts =>
        obtain ⟨m, hent⟩ : ∃ m, c.entity s.context st.memory = (.ok e, m) :=
          ⟨_, Prod.ext (Container.entity_eq_ok_iff.2 he) rfl⟩
        rw [← isIntact_eq_false_iff, Bool.not_eq_false] at haccepts
        have hfind : st.index.find? (.key k) = some c := hc
        rw [s.read_of_ok settings hfind hent, haccepts, h.key_eq hc]
        rfl
  · rintro rfl
    cases hc : st.index.find? (.key k) with
    | none =>
        rw [s.read_of_none hc]
        exact .missing hc
    | some c =>
        have hkey := h.key_eq hc
        obtain ⟨m', ⟨err, hent, hread⟩ | ⟨e, hent, ⟨hintact, hread⟩ | ⟨hintact, hread⟩⟩⟩ :=
          s.read_cases settings hc
        · obtain ⟨hnew, herr⟩ := Container.entity_eq_error_iff.1 (congrArg Prod.fst hent)
          rw [hread]
          exact .undecodable hc hnew herr
        · rw [hread, hkey]
          exact .forbidden hc (Container.entity_eq_ok_iff.1 (congrArg Prod.fst hent))
            (isIntact_eq_false_iff.1 hintact)
        · rw [hread, hkey]
          refine .found hc (Container.entity_eq_ok_iff.1 (congrArg Prod.fst hent)) ?_
          rw [← isIntact_eq_false_iff, hintact]
          decide

/-- A read moves no count but that of its key, and that by one if it is answered 200. -/
theorem read_counts (s : Store κ ε σ τ) (hexact : st.index.Exact) (htracks : st.Tracks) (k : κ)
    (settings : Option Settings) :
    (∀ j, j ≠ k → (s.read (.key k) settings st).2.readHits j = st.readHits j) ∧
    ((EntityAnswer.entity (s.read (.key k) settings st).1).code? = some .ok →
      ∃ n, st.readHits k = some n ∧
        (s.read (.key k) settings st).2.readHits k = some (n + 1)) ∧
    ((EntityAnswer.entity (s.read (.key k) settings st).1).code? ≠ some .ok →
      (s.read (.key k) settings st).2.readHits k = st.readHits k) := by
  cases hc : st.index.find? (.key k) with
  | none =>
      rw [s.read_of_none hc]
      exact ⟨fun _ _ => rfl, nofun, fun _ => rfl⟩
  | some c =>
      obtain rfl : c.key = k := hexact.key_eq hc
      obtain ⟨m', ⟨err, -, hread⟩ | ⟨e, -, ⟨-, hread⟩ | ⟨-, hread⟩⟩⟩ := s.read_cases settings hc
      · rw [hread]
        exact ⟨fun _ _ => rfl, nofun, fun _ => rfl⟩
      · rw [hread]
        exact ⟨fun _ _ => rfl, nofun, fun _ => rfl⟩
      · rw [hread]
        have hlive : (st.readHits c.key).isSome = true := by
          rw [htracks c.key]
          exact SortedMap.contains_iff.2 ⟨c, hc⟩
        obtain ⟨n, hn⟩ := Option.isSome_iff_exists.1 hlive
        refine ⟨fun j hj => Index.readHits_recordHit_of_ne hj, fun _ => ⟨n, hn, ?_⟩,
          fun hcode => absurd rfl hcode⟩
        have hcount : (st.index.readHits c.key).getD 0 = n := congrArg (Option.getD · 0) hn
        rw [← hcount]
        exact Index.readHits_recordHit c.key

/-- What a read of a key comes to, outcome by outcome, and what it does to the counts. -/
structure ReadOutcome (s : Store κ ε σ τ) (st : State κ ε σ τ) (k : κ)
    (settings : Option Settings) : Prop where
  answer_iff : ∀ a, (s.read (.key k) settings st).1 = a ↔ s.ReadsTo st k settings a
  notFound_iff : (EntityAnswer.entity (s.read (.key k) settings st).1).code? = some .notFound ↔
    st.index.get? k = none
  error_iff : (EntityAnswer.entity (s.read (.key k) settings st).1).code? = none ↔
    ∃ c, st.index.get? k = some c ∧ c.isDecoded st.memory = false ∧
      ∃ err, (s.context.decode c.blob st.memory.session).1 = .error err
  forbidden_iff : (EntityAnswer.entity (s.read (.key k) settings st).1).code? = some .forbidden ↔
    ∃ c e, st.index.get? k = some c ∧ c.ReadsAs s.context st.memory e ∧ s.Rejects c e
  ok_iff : (EntityAnswer.entity (s.read (.key k) settings st).1).code? = some .ok ↔
    ∃ c e, st.index.get? k = some c ∧ c.ReadsAs s.context st.memory e ∧ ¬ s.Rejects c e
  counted : (EntityAnswer.entity (s.read (.key k) settings st).1).code? = some .ok →
    ∃ n, st.readHits k = some n ∧ (s.read (.key k) settings st).2.readHits k = some (n + 1)
  uncounted : (EntityAnswer.entity (s.read (.key k) settings st).1).code? ≠ some .ok →
    (s.read (.key k) settings st).2.readHits k = st.readHits k
  others : ∀ j, j ≠ k → (s.read (.key k) settings st).2.readHits j = st.readHits j

theorem readOutcome_of_exact (hexact : st.index.Exact) (htracks : st.Tracks) (k : κ)
    (settings : Option Settings) : s.ReadOutcome st k settings := by
  have hrules : s.ReadsTo st k settings (s.read (.key k) settings st).1 :=
    (readsTo_iff hexact).2 rfl
  have hanswer {a : Except StoreError (Response κ ε)} (ha : s.ReadsTo st k settings a) :
      (s.read (.key k) settings st).1 = a := (readsTo_iff hexact).1 ha
  obtain ⟨hothers, hcounted, huncounted⟩ := s.read_counts hexact htracks k settings
  refine ⟨fun a => (readsTo_iff hexact).symm, ?_, ?_, ?_, ?_, hcounted, huncounted, hothers⟩
  · refine ⟨fun hcode => ?_, fun hnone => by rw [hanswer (.missing hnone)]; rfl⟩
    generalize (s.read (.key k) settings st).1 = a at hcode hrules
    cases hrules with
    | missing hnone => exact hnone
    | _ => cases hcode
  · refine ⟨fun hcode => ?_, ?_⟩
    · generalize (s.read (.key k) settings st).1 = a at hcode hrules
      cases hrules with
      | undecodable hc hnew herr => exact ⟨_, hc, hnew, _, herr⟩
      | _ => cases hcode
    · rintro ⟨c, hc, hnew, err, herr⟩
      rw [hanswer (.undecodable hc hnew herr)]
      rfl
  · refine ⟨fun hcode => ?_, ?_⟩
    · generalize (s.read (.key k) settings st).1 = a at hcode hrules
      cases hrules with
      | forbidden hc he hrejects => exact ⟨_, _, hc, he, hrejects⟩
      | _ => cases hcode
    · rintro ⟨c, e, hc, he, hrejects⟩
      rw [hanswer (.forbidden hc he hrejects)]
      rfl
  · refine ⟨fun hcode => ?_, ?_⟩
    · generalize (s.read (.key k) settings st).1 = a at hcode hrules
      cases hrules with
      | found hc he haccepts => exact ⟨_, _, hc, he, haccepts⟩
      | _ => cases hcode
    · rintro ⟨c, e, hc, he, haccepts⟩
      rw [hanswer (.found hc he haccepts)]
      rfl

end Store

end EntityStore
