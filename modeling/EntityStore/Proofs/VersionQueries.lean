import EntityStore.Proofs.Store.Documents
import EntityStore.Proofs.Store.Updates

/-!
# What a reported token is good for

A version query reports the stored token, and the empty text if there is none.
An update is compared with what is stored, where an empty token is one and no
token is none. So a token that was reported is good for an update unless it is
empty, and an empty one is good for it if it is what is stored
(`Store.reported_token_accepted`). If no token is stored it is not, and only an
entity without a token is accepted (`Store.reported_token_refused`).
-/

namespace EntityStore.Store

variable {κ ε σ τ : Type} [EntityKey κ]

theorem find?_key_of_version {target : Target κ} {settings : Option Settings}
    {st : State κ ε σ τ} (hexact : st.index.Exact) {k : κ} {t : String}
    (hok : (version target settings st).1.code = .ok)
    (hreport : (version target settings st).1.entity = some (k, t)) :
    ∃ c, st.index.find? target = some c ∧ st.index.get? k = some c ∧ c.version.getD "" = t := by
  cases hfind : st.index.find? target with
  | none =>
      rw [version_of_none hfind] at hok
      cases hok
  | some c =>
      rw [version_of_some hfind] at hreport
      have hlive := hexact.live_of_find? hfind
      simp only [Option.some.injEq, Prod.mk.injEq] at hreport
      obtain ⟨rfl, ht⟩ := hreport
      exact ⟨c, rfl, hlive, ht⟩

/-- A version query reports the stored token. Whenever one is answered 200, an update of the
reported key that comes next and has nothing else against it is answered: 200 if its entity carries
what is stored, and 409 if not. What is stored is the reported token, or nothing if that is the
empty text. -/
theorem reported_token_accepted (s : Store κ ε σ τ) {policy : VersionPolicy ε τ}
    (hs : s.searches.OnlyDecodes) (hwritable : s.readOnly = false)
    (hpolicy : s.versionPolicy = some policy) (hoptimistic : policy.optimistic = true)
    {st : State κ ε σ τ} (hst : s.Reaches st) (target : Target κ) (settings : Option Settings)
    {k : κ} {t : String} (hok : (version target settings st).1.code = .ok)
    (hreport : (version target settings st).1.entity = some (k, t)) :
    ∃ stored, (st.index.get? k).map (fun c => c.version) = some stored ∧
      (stored = some t ∨ stored = none ∧ t = "") ∧
      ∀ e copy settings', s.Offers (version target settings st).2 k e copy →
        ∃ r, (s.update e settings' (version target settings st).2).1 = .ok r ∧
          r.code = if policy.versionOf e = stored then .ok else .conflict := by
  obtain ⟨made, hmade⟩ := hst.grounded hs
  have hnext := version_grounded hmade target settings
  obtain ⟨c, hfind, hc, ht⟩ := find?_key_of_version hmade.exact hok hreport
  refine ⟨c.version, by rw [hc]; rfl, ?_, fun e copy settings' hoffers => ?_⟩
  · cases hversion : c.version with
    | none =>
        rw [hversion] at ht
        exact .inr ⟨rfl, ht.symm⟩
    | some token =>
        rw [hversion] at ht
        exact .inl (congrArg some ht)
  · -- the query counts a hit, and the container stays where it is
    obtain ⟨hits, hix⟩ := version_index target settings st
    have hold : (version target settings st).2.index.get? k = some c := by
      rw [hix]
      exact hc
    rcases update_of_offers hwritable hpolicy hoptimistic hnext.exact hnext.tidy hold hoffers
      settings' with ⟨hsame, d, hupdate, -⟩ | ⟨hother, hupdate⟩
    · exact ⟨_, hupdate, by rw [if_pos hsame]; rfl⟩
    · exact ⟨_, hupdate, by rw [if_neg hother]⟩

/-- The state after a document was created with or without a token. -/
def createdWith (version : Option String) : State String Doc Unit Nat :=
  (World.reached Doc.store () 0
    [.call 0 (.entity (.create { id := "a", version } none)), .go 0]).state

theorem unversioned_update_accepted :
    (version (.key "a") none (createdWith none)).1.entity = some ("a", "") ∧
      ∃ r, (Doc.store.update { id := "a", number := 1 } none
          (version (.key "a") none (createdWith none)).2).1 = .ok r ∧ r.code = .ok := by
  have hreaches : Doc.store.Reaches (createdWith none) := reaches_reached () 0 _
  have hok : (version (.key "a") none (createdWith none)).1.code = .ok := by decide +kernel
  have hreport : (version (.key "a") none (createdWith none)).1.entity = some ("a", "") := by
    decide +kernel
  have hcopy : Doc.store.context.copyOf ()
      (Doc.store.draft { id := "a", number := 1 }
        (version (.key "a") none (createdWith none)).2.tokens).1.stored =
      .ok { id := "a", number := 1, version := some "g1" } := by
    decide +kernel
  have hreferences : Doc.store.makers.references (Doc.store.draft { id := "a", number := 1 }
      (version (.key "a") none (createdWith none)).2.tokens).1.stored = [] := by
    decide +kernel
  have hoffers : Doc.store.Offers (version (.key "a") none (createdWith none)).2 "a"
      { id := "a", number := 1 } { id := "a", number := 1, version := some "g1" } :=
    ⟨rfl, comesBack_of_copyOf Doc.store_isPure () hcopy, by rw [hreferences]; exact nofun⟩
  obtain ⟨stored, hstored, rfl | ⟨rfl, -⟩, haccepted⟩ :=
    reported_token_accepted Doc.store Doc.store_onlyDecodes rfl rfl rfl hreaches (.key "a") none
      hok hreport
  · exact absurd hstored (by decide +kernel)
  · obtain ⟨r, hupdate, hcode⟩ := haccepted _ _ none hoffers
    exact ⟨hreport, r, hupdate, hcode⟩

/-- The empty text that is reported for no token is refused as a token, and with any token an update
fails if what it would store is written but not read back, as a float that is no number. -/
theorem reported_token_refused :
    (version (.key "a") none (createdWith none)).1.code = .ok ∧
      (version (.key "a") none (createdWith none)).1.entity = some ("a", "") ∧
      (EntityAnswer.entity (Doc.store.update { id := "a", version := some "" } none
        (version (.key "a") none (createdWith none)).2).1).code? = some .conflict ∧
    (version (.key "a") none (createdWith (some "v"))).1.entity = some ("a", "v") ∧
      (Doc.store.context.encode
        { id := "a", version := some "v", float := ⟨0x7FF8000000000000⟩ } ()).1.isOk = true ∧
      (EntityAnswer.entity (Doc.store.update
        { id := "a", version := some "v", float := ⟨0x7FF8000000000000⟩ } none
        (version (.key "a") none (createdWith (some "v"))).2).1).code? = none := by
  decide +kernel

end EntityStore.Store
