import EntityStore.Proofs.Doc.Metadata

/-!
# Reading, editing and updating in turn

Whoever reads a document, edits it and updates it before anybody else does is
never refused, and can go on from the document that the update answers with, as
often as they like. What makes it so is that a document which was handed out
carries the token of its container (`Doc.IsCurrent`). That is so of a document
that was read, for its container describes it, and of one that an update answers
with, for it carries the token that was drawn. In between a version query may
be asked; it reports that very token and changes nothing of this.

All this hangs on what an update does with an edit: it stores it under the key
of the edit as it came, but with a new token on it, and hands out what that
comes back as. So the key has to be the same with the new token, key and token
have to be kept by the format, and it is with the new token that the edit must
come back and list no reference of another document. There is a store for each
of these in which all else holds and the client is refused
(`Doc.readModifyWrite_refused`).
-/

namespace EntityStore.Doc

variable {κ σ τ : Type} [EntityKey κ]

/-- An edit of a document that keeps its key and its token. What is about to be stored comes back
but for the float and the memo, and lists no reference that is listed under another key. -/
structure Edits (s : Store κ Doc σ τ) (policy : VersionPolicy Doc τ) (st : State κ Doc σ τ)
    (e d copy : Doc) : Prop where
  offers : s.Offers st (s.makers.key e) d copy
  version_eq : policy.versionOf d = policy.versionOf e
  kept : ∃ float, copy = { (s.draft d st.tokens).1.stored with float, memo := "" }

/-- Updates of a document are accepted so many times in turn, each by any edit of what the last one
answered with. After each of them a version query reports the token of what was answered, and the
next may come before or after that query. -/
def Accepts (s : Store κ Doc σ τ) (policy : VersionPolicy Doc τ) :
    Nat → Doc → State κ Doc σ τ → Prop
  | 0, _, _ => True
  | n + 1, e, st => ∀ d copy settings, Edits s policy st e d copy →
      ∃ r token, (s.update d settings st).1 = .ok r ∧ r.code = .ok ∧
        r.key = some (s.makers.key e) ∧ r.entity = some copy ∧
        policy.versionOf copy = some token ∧
        Accepts s policy n copy (s.update d settings st).2 ∧
        ∀ settings', (Store.version (.key (s.makers.key e)) settings'
            (s.update d settings st).2).1.code = .ok ∧
          (Store.version (.key (s.makers.key e)) settings'
            (s.update d settings st).2).1.entity = some (s.makers.key e, token) ∧
          Accepts s policy n copy (Store.version (.key (s.makers.key e)) settings'
            (s.update d settings st).2).2

/-- A document carries the token that is stored under its key. -/
structure IsCurrent (s : Store κ Doc σ τ) (policy : VersionPolicy Doc τ) (e : Doc)
    (st : State κ Doc σ τ) : Prop where
  grounded : ∃ made, st.Grounded s made
  stored : ∃ c, st.index.get? (s.makers.key e) = some c ∧ c.version = policy.versionOf e

section

variable {s : Store κ Doc σ τ} {policy : VersionPolicy Doc τ} {st : State κ Doc σ τ} {e : Doc}

theorem IsCurrent.version (h : IsCurrent s policy e st) (target : Target κ)
    (settings : Option Settings) :
    IsCurrent s policy e (Store.version target settings st).2 := by
  obtain ⟨made, hmade⟩ := h.grounded
  obtain ⟨hits, hix⟩ := Store.version_index target settings st
  refine ⟨⟨made, Store.version_grounded hmade target settings⟩, ?_⟩
  rw [hix]
  exact h.stored

theorem IsCurrent.read (h : IsCurrent s policy e st) (target : Target κ)
    (settings : Option Settings) : IsCurrent s policy e (s.read target settings st).2 := by
  obtain ⟨made, hmade⟩ := h.grounded
  obtain ⟨hits, hix⟩ := s.read_index target settings st
  refine ⟨⟨made, Store.read_grounded hmade target settings⟩, ?_⟩
  rw [hix]
  exact h.stored

/-- What is written and read back is kept, unless it is too long for the format to count. -/
theorem exists_kept (format : Format) (hserializer : s.context.serializer = format.serializer)
    (hcodec : s.context.codec.IsLossless) {d copy : Doc}
    (hcounted : ∀ blob, (s.context.encode (s.draft d st.tokens).1.stored st.memory.session).1 =
      .ok blob → IsCounted format s.context blob)
    (h : s.ComesBack st d copy) :
    ∃ float, copy = { (s.draft d st.tokens).1.stored with float, memo := "" } := by
  obtain ⟨blob, session, hencoded, hdecoded⟩ := h
  have hblob := congrArg Prod.fst hencoded
  exact copy_kept hserializer hcodec (hcounted blob hblob)
    ⟨⟨st.memory.session, hblob⟩, ⟨session, hdecoded⟩⟩

/-- What comes back of an edit has the key of the document and carries the token that was drawn. -/
theorem Edits.copy_eq (hpolicy : s.versionPolicy = some policy)
    (hoptimistic : policy.optimistic = true) (hkey : LooksAtKept s.makers.key)
    (hversion : LooksAtKept policy.versionOf) (hstamps : s.Stamps) {d copy : Doc}
    (h : Edits s policy st e d copy) :
    s.makers.key copy = s.makers.key e ∧
      policy.versionOf copy = some (policy.renew d st.tokens).1.1 := by
  obtain ⟨float, hcopy⟩ := h.kept
  rw [Store.draft_eq hpolicy hoptimistic] at hcopy
  constructor
  · rw [hcopy, hkey, hstamps.key_renew hpolicy hoptimistic, h.offers.key_eq]
  · rw [hcopy, hversion, hstamps.versionOf_renew hpolicy hoptimistic]

theorem accepts_of_isCurrent (hs : s.searches.OnlyDecodes) (hwritable : s.readOnly = false)
    (hpolicy : s.versionPolicy = some policy) (hoptimistic : policy.optimistic = true)
    (hkey : LooksAtKept s.makers.key) (hversion : LooksAtKept policy.versionOf)
    (hstamps : s.Stamps) (n : Nat) :
    ∀ {e : Doc} {st : State κ Doc σ τ}, IsCurrent s policy e st → Accepts s policy n e st := by
  induction n with
  | zero =>
      intro e st _
      trivial
  | succ n ih =>
      intro e st h d copy settings hedits
      obtain ⟨made, hmade⟩ := h.grounded
      obtain ⟨old, hold, htoken⟩ := h.stored
      obtain ⟨hcopykey, hcopyversion⟩ :=
        hedits.copy_eq hpolicy hoptimistic hkey hversion hstamps
      rcases Store.update_of_offers hwritable hpolicy hoptimistic hmade.exact hmade.tidy hold
          hedits.offers settings with ⟨-, c, hupdate, hc, hckey, hcversion⟩ | ⟨hstale, -⟩
      · -- what is stored now carries the token that the answer shows
        obtain ⟨made', -, hmade', -⟩ :=
          Store.answer_grounded hs hmade (.entity (.update d settings))
        have hnext : IsCurrent s policy copy (s.update d settings st).2 := by
          refine ⟨⟨made', hmade'⟩, c, ?_, hcversion.trans hcopyversion.symm⟩
          rw [hcopykey]
          exact hc
        have hfind : (s.update d settings st).2.index.find? (.key (s.makers.key e)) = some c := hc
        refine ⟨_, _, hupdate, rfl, congrArg some hckey, rfl, hcopyversion, ih hnext,
          fun settings' => ⟨?_, ?_, ih (hnext.version _ _)⟩⟩
        · rw [Store.version_of_some hfind]
        · rw [Store.version_of_some hfind, hckey, hcversion]
          rfl
      · exact absurd (hedits.version_eq.trans htoken.symm) hstale

end

/-- Read-modify-write is never falsely refused. In every state that a writable store with optimistic
locking can be in, if a read by key or by reference is answered 200, then an update by any edit of
the document that was read, which comes next and keeps key and token, is answered 200; a version
query then reports the token of the document that was answered, and so it goes on from that one, as
often as you like. For this the document that was read has to be short enough for its format to
count, every format has to keep what makers and policy look at, and stamping must not move keys. -/
theorem readModifyWrite_accepted (s : Store κ Doc σ τ) (format : Format)
    (hserializer : s.context.serializer = format.serializer)
    (hcodec : s.context.codec.IsLossless) (hs : s.searches.OnlyDecodes)
    (hwritable : s.readOnly = false) {policy : VersionPolicy Doc τ}
    (hpolicy : s.versionPolicy = some policy) (hoptimistic : policy.optimistic = true)
    (hkey : LooksAtKept s.makers.key) (hversion : LooksAtKept policy.versionOf)
    (hstamps : s.Stamps) {st : State κ Doc σ τ} (hst : s.Reaches st) (target : Target κ)
    (settings : Option Settings)
    (hcounted : ∀ c, st.index.find? target = some c → IsCounted format s.context c.blob)
    {r : Response κ Doc} (hread : (s.read target settings st).1 = .ok r) (hok : r.code = .ok)
    {e : Doc} (he : r.entity = some e) (n : Nat) :
    r.key = some (s.makers.key e) ∧ Accepts s policy n e (s.read target settings st).2 := by
  obtain ⟨made, hmade⟩ := hst.grounded hs
  cases hfind : st.index.find? target with
  | none =>
      rw [s.read_of_none hfind] at hread
      obtain rfl := Except.ok.inj hread
      cases hok
  | some c =>
      have hlive := hmade.exact.live_of_find? hfind
      obtain ⟨d, float, hdraft, -, hentity⟩ :=
        exists_draft hserializer hcodec hstamps hmade hlive (hcounted c hfind)
      rw [Store.read_of_entity hfind hentity] at hread
      obtain rfl := Except.ok.inj hread
      by_cases hintact : s.isIntact c { d with float, memo := "" } = true
      · rw [if_pos hintact] at he ⊢
        obtain rfl : { d with float, memo := "" } = e := Option.some.inj he
        have hckey : s.makers.key { d with float, memo := "" } = c.key :=
          (hkey d float "").trans hdraft.key_eq.symm
        have hcurrent : IsCurrent s policy { d with float, memo := "" } st := by
          refine ⟨⟨made, hmade⟩, c, ?_, ?_⟩
          · rw [hckey]
            exact hlive
          · rw [hversion d float "", hdraft.version_eq, Store.versionOf, hpolicy]
            rfl
        refine ⟨congrArg some hckey.symm, ?_⟩
        exact accepts_of_isCurrent hs hwritable hpolicy hoptimistic hkey hversion hstamps n
          (hcurrent.read target settings)
      · rw [if_neg hintact] at hok
        cases hok

/-- A document that was read is edited and updated, under its own reference. -/
theorem kept_edit_accepted :
    ∃ r r', (store.read (.key "a") none (afterCreation store () 0 kept).state).1 = .ok r ∧
      r.entity = some kept.stored ∧
      (store.update { kept.stored with number := 1 } none
        (store.read (.key "a") none (afterCreation store () 0 kept).state).2).1 = .ok r' ∧
      r'.code = .ok := by
  have hreaches : store.Reaches (afterCreation store () 0 kept).state :=
    Store.reaches_reached () 0 _
  have hfound : (store.read (.key "a") none (afterCreation store () 0 kept).state).1.toOption.map
      (fun r => (r.code, r.entity)) = some (.ok, some kept.stored) := by decide +kernel
  have hcopy : store.context.copyOf () (store.draft { kept.stored with number := 1 }
      (store.read (.key "a") none (afterCreation store () 0 kept).state).2.tokens).1.stored =
      .ok { kept.stored with number := 1, version := some "g1" } := by decide +kernel
  obtain ⟨made, hmade⟩ := hreaches.grounded store_onlyDecodes
  have hexact := (Store.read_grounded hmade (.key "a") none).exact
  have hcomesBack := Store.comesBack_of_copyOf store_isPure () hcopy
  cases hread : (store.read (.key "a") none (afterCreation store () 0 kept).state).1 with
  | error err =>
      rw [hread] at hfound
      cases hfound
  | ok r =>
      rw [hread] at hfound
      obtain ⟨hok, he⟩ := Prod.mk.inj (Option.some.inj hfound)
      obtain ⟨-, haccepts⟩ := readModifyWrite_accepted store .json rfl Codec.identity_isLossless
        store_onlyDecodes rfl rfl rfl store_readsKept.key store_readsKept.versionOf store_stamps
        hreaches (.key "a") none (fun _ _ _ _ _ => trivial) hread hok he 1
      obtain ⟨r', token, hupdate, hcode, -⟩ := haccepts { kept.stored with number := 1 } _ none
        ⟨⟨rfl, hcomesBack, hexact.anyOwned_eq_false_iff.1 (by decide +kernel)⟩, rfl,
          exists_kept .json rfl Codec.identity_isLossless (fun _ _ _ _ _ => trivial) hcomesBack⟩
      exact ⟨r, r', rfl, he, hupdate, hcode⟩

/-! ## Where the client is refused -/

/-- The code of an answer, that of an update by an edit of the document in it, and so on from what
this one answers with, so many times. -/
def cycleCodes (s : Store κ Doc σ τ) (edit : Doc → Doc) : Nat →
    Except StoreError (Response κ Doc) × State κ Doc σ τ → List (Option ResponseCode)
  | 0, (r, _) => [r.toOption.map (·.code)]
  | n + 1, (r, st) =>
    r.toOption.map (·.code) :: match r.toOption.bind (·.entity) with
      | some e => cycleCodes s edit n (s.update (edit e) none st)
      | none => []

/-- An edit that leaves everything but the number alone. -/
def renumbered (d : Doc) : Doc := { d with number := 1 }

def keyedBy (key : Doc → String) : Store String Doc Unit Nat :=
  { store with makers := { store.makers with key } }

/-- The number of a document, in digits. -/
def numeral (d : Doc) : String := Decimal.intText d.number.toInt

/-- Tokens that are written into the memo, and read off it. -/
def memoPolicy : VersionPolicy Doc Nat :=
  .ofAccessors (fun d => some d.memo) (fun d token => { d with memo := token }) .counter true

def tokenInMemo : Store String Doc Unit Nat := { store with versionPolicy := some memoPolicy }

/-- A store of documents that list their tokens among the references. -/
def listedByToken : Store String Doc Unit Nat := { store with
  makers := { store.makers with
    references := fun d => d.version.toList.map fun token => ⟨"token", token⟩ } }

/-- Two documents, of which the second came with the token that is drawn first. -/
def foreseen : State String Doc Unit Nat :=
  (World.reached listedByToken () 0 [
    .call 0 (.entity (.create labelled none)), .go 0,
    .call 0 (.entity (.create { id := "b", version := some "g1" } none)), .go 0]).state

/-- A store whose codec refuses to write the token that is drawn first. -/
def censored : Store String Doc Meter Nat :=
  storeOver ⟨Serializer.json, Codec.metered Codec.identity { poison := some (Utf8.encode "g1") }⟩

/-- Read-modify-write is refused where what is assumed fails. Under their tokens documents are found
by the first update and not by the second, under their memos or under numbers that an edit changes
not even by the first. Tokens that are kept in the memo are stale once they were read, although the
policy reads what it wrote. A reference made of the new token is another document's. And an edit
that comes back as it is does not with the new token in it, although the codec loses nothing. -/
theorem readModifyWrite_refused :
    cycleCodes keyedByToken renumbered 2
        (keyedByToken.read (.key "v") none (afterCreation keyedByToken () 0 labelled).state) =
      [some .ok, some .ok, some .notFound] ∧
    cycleCodes (keyedBy memo) renumbered 1
        ((keyedBy memo).read (.key "x") none (afterCreation (keyedBy memo) () 0 kept).state) =
      [some .ok, some .notFound] ∧
    cycleCodes (keyedBy numeral) renumbered 1
        ((keyedBy numeral).read (.key "0") none (afterCreation (keyedBy numeral) () 0 kept).state) =
      [some .ok, some .notFound] ∧
    (∀ d tokens, memoPolicy.versionOf (memoPolicy.renew d tokens).1.2 =
        some (memoPolicy.renew d tokens).1.1) ∧
      cycleCodes tokenInMemo renumbered 1
          (tokenInMemo.read (.key "a") none (afterCreation tokenInMemo () 0 kept).state) =
        [some .ok, some .conflict] ∧
    cycleCodes listedByToken renumbered 1 (listedByToken.read (.key "a") none foreseen) =
      [some .ok, some .conflict] ∧
    censored.context.codec.IsLossless ∧
      censored.context.copyOf {} (renumbered kept.stored) = .ok (renumbered kept.stored) ∧
      cycleCodes censored renumbered 1
          (censored.read (.key "a") none (afterCreation censored {} 0 kept).state) =
        [some .ok, none] := by
  refine ⟨by decide +kernel, by decide +kernel, by decide +kernel, fun _ _ => rfl,
    by decide +kernel, by decide +kernel, ?_, by decide +kernel, by decide +kernel⟩
  exact Codec.metered_isLossless Codec.identity_isLossless _

end EntityStore.Doc
