import EntityStore.Proofs.Doc.RoundTrip

/-!
# When a signed entity is refused

A signature is made of the entity that a write was given and checked on the copy
that storage gives back. So a read of a live entity is answered 403 if what is
signed reads otherwise on the copy than on the entity, and in no other case
(`Doc.signed_read`), whatever version policy there is: the token that is checked
is the one that was signed. Signatures of what comes back as it was are never
refused. A memo is not serialized, and a float of many digits need not come back
from JSON, so a signature of one of them can be (`Doc.signedMemo_refused`).
-/

namespace EntityStore

variable {κ ε σ τ : Type} [EntityKey κ]

namespace SignaturePolicy

/-- A policy that accepts exactly the signature it would make. -/
def Recomputes (p : SignaturePolicy ε) : Prop :=
  ∀ e version signature, p.accepts e version signature = (p.sign e version == signature)

/-- A policy whose signatures differ only where those of another do. -/
def Refines (p q : SignaturePolicy ε) : Prop :=
  ∀ {e e' version}, q.sign e version = q.sign e' version → p.sign e version = p.sign e' version

theorem ofSign_recomputes (sign : ε → Option String → String) : (ofSign sign).Recomputes :=
  fun _ _ _ => rfl

theorem hashed_refines (p : SignaturePolicy ε) : p.hashed.Refines p := by
  intro e e' version h
  exact congrArg (fun text => Base64.encode (Sha256.digest (Utf8.encode text))) h

theorem hashedTimes_recomputes (n : Nat) : ∀ {p : SignaturePolicy ε}, p.Recomputes →
    (hashedTimes n p).Recomputes := by
  induction n with
  | zero => exact fun h => h
  | succ n ih => exact fun _ => ih (ofSign_recomputes _)

/-- Entities that are signed alike are signed alike however often that is hashed. -/
theorem hashedTimes_refines (n : Nat) : ∀ p : SignaturePolicy ε, (hashedTimes n p).Refines p := by
  induction n with
  | zero => exact fun p {e e' version} h => h
  | succ n ih => exact fun p {e e' version} h => ih p.hashed (p.hashed_refines h)

end SignaturePolicy

theorem FieldSignature.policy_sign_eq (f : FieldSignature ε) {e e' : ε} {version : Option String}
    (h : f.format e = f.format e') : f.policy.sign e version = f.policy.sign e' version := by
  change (if f.includesVersion then f.format e ++ ":" ++ version.getD "" else f.format e) =
    (if f.includesVersion then f.format e' ++ ":" ++ version.getD "" else f.format e')
  rw [h]

/-- A container is intact with an entity if the entity is signed as what it was made from. -/
theorem Store.Makes.isIntact_eq {s : Store κ ε σ τ} {p : SignaturePolicy ε}
    (hpolicy : s.signaturePolicy = some p) (hp : p.Recomputes) {key : κ} {d : Draft ε}
    {c : Candidate κ ε} (h : s.Makes key d c) (e : ε) :
    s.isIntact c.container e = (p.sign e d.version == p.sign d.stored d.version) := by
  have hsignature : c.container.signature = some (p.sign d.stored d.version) := by
    rw [h.container_eq, containerOf, parts, hpolicy]
    rfl
  have hversion : c.container.version = d.version := by
    rw [h.container_eq, containerOf, parts]
  simp only [isIntact, hpolicy, hsignature, hversion, Option.any_some]
  exact hp _ _ _

namespace Doc

/-- A read of a live document that is signed. The log tells of the write that stored it, and so of
the draft that was signed and of the copy that came back from the format: the draft without its
memo, if the format is sure to keep its float. The read shows the copy if it is signed as the draft
was, and is refused otherwise; it is not refused if the signed fields of the copy are those of the
draft. -/
theorem signed_read (s : Store κ Doc σ τ) (format : Format)
    (hserializer : s.context.serializer = format.serializer)
    (hcodec : s.context.codec.IsLossless) (hs : s.searches.OnlyDecodes) (f : FieldSignature Doc)
    (n : Nat) (hpolicy : s.signaturePolicy = some (f.policy.hashedTimes n))
    {w : World κ Doc σ τ} (hw : s.Lives w) {target : Target κ} {c : Container κ}
    (hfind : w.state.index.find? target = some c) :
    ∃ before entry since draft copy, w.log = before ++ entry :: since ∧
      entry.Wrote s ⟨c, copy⟩ ∧ (∀ later ∈ since, later.writes s c.key = false) ∧
      s.Drafts entry.call c.key draft ∧
      (format.Holds draft.stored → (∃ float, format.readFloat? draft.stored.float = some float ∧
        copy = { draft.stored.stored with float }) ∧
        (format.Keeps draft.stored.float → copy = draft.stored.stored)) ∧
      (∀ settings, (s.read target settings w.state).1 = .ok (
        if (f.policy.hashedTimes n).sign copy draft.version =
            (f.policy.hashedTimes n).sign draft.stored draft.version then
          Store.handedOut c copy settings
        else Store.forbidden c settings)) ∧
      (f.format copy = f.format draft.stored → ∀ settings,
        (s.read target settings w.state).1 = .ok (Store.handedOut c copy settings)) := by
  have hx : s.context.IsSteady :=
    Context.isSteady_of_lossless hcodec (hserializer ▸ format.serializer_isPure)
  obtain ⟨before, entry, since, copy, hlog, hwrote, hsince, hread⟩ := hw.read_of_find hs hx hfind
  obtain ⟨key, draft, hdrafts, hmakes⟩ := hwrote.makes
  obtain rfl := hmakes.key_eq
  have hrecomputes : (f.policy.hashedTimes n).Recomputes :=
    SignaturePolicy.hashedTimes_recomputes n (SignaturePolicy.ofSign_recomputes _)
  -- the token that is checked is the one that was signed, for both are that of the draft
  have hintact := hmakes.isIntact_eq hpolicy hrecomputes copy
  refine ⟨before, entry, since, draft, copy, hlog, hwrote, hsince, hdrafts,
    fun hholds => ?_, fun settings => ?_, fun hformat settings => ?_⟩
  · obtain ⟨float, hfloat, hcopy⟩ := copy_eq hserializer hcodec hholds hmakes.stores
    refine ⟨⟨float, hfloat, hcopy⟩, fun hkeeps => ?_⟩
    rw [Format.readFloat?_of_keeps hkeeps] at hfloat
    obtain rfl := Option.some.inj hfloat
    exact hcopy
  · rw [hread]
    simp only [hintact, beq_iff_eq]
  · have hsign := SignaturePolicy.hashedTimes_refines n f.policy
      (f.policy_sign_eq hformat : f.policy.sign copy draft.version = _)
    rw [hread]
    simp only [hintact, hsign, beq_self_eq_true, if_true]

/-- What the document store signs is serialized, and is found as it was signed. -/
theorem kept_signed_read :
    ∃ c, (afterCreation store () 0 kept).state.index.find? (.key "a") = some c ∧ ∀ settings,
      (store.read (.key "a") settings (afterCreation store () 0 kept).state).1 =
        .ok (Store.handedOut c kept.stored settings) := by
  have hlives : store.Lives (afterCreation store () 0 kept) := Store.lives_reached () 0 _
  have hlive : (afterCreation store () 0 kept).state.containsKey "a" = true := by decide +kernel
  obtain ⟨c, hfind⟩ := State.exists_find?_of_containsKey hlive
  obtain ⟨before, entry, since, draft, copy, hlog, -, -, hdrafts, hcopy, -, hread⟩ :=
    signed_read store .json rfl Codec.identity_isLossless store_onlyDecodes
      (fieldSignature ["id", "n", "version"] true) 0 rfl hlives hfind
  have hcalls : ∀ entry ∈ (afterCreation store () 0 kept).log,
      entry.call.created? = some kept := by decide +kernel
  have hcall := hcalls entry (hlog ▸ List.mem_append_right _ List.mem_cons_self)
  generalize entry.call = call at hcall hdrafts
  generalize c.key = key at hdrafts
  cases hdrafts with
  | update e settings tokens => cases hcall
  | create e settings =>
      obtain rfl : e = kept := Option.some.inj hcall
      obtain rfl : copy = kept.stored :=
        (hcopy trivial).2 ⟨by decide +kernel, by decide +kernel, by decide +kernel⟩
      exact ⟨c, hfind, hread rfl⟩

/-- The document store with signatures that cover the memo. -/
def memoStore : Store String Doc Unit Nat :=
  { store with signaturePolicy := some (fieldSignature ["id", "memo"] false).policy }

/-- A memo is signed when a document is created, and gone when the signature is checked. -/
theorem signedMemo_refused :
    (afterCreation memoStore () 0 kept).log.map LogEntry.isAccepted = [false, true] ∧
      (match (memoStore.read (.key "a") none (afterCreation memoStore () 0 kept).state).1 with
        | .ok r => r.code
        | .error _ => .internalError) = .forbidden := by
  decide +kernel

end Doc

end EntityStore
