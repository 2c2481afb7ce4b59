import EntityStore.Proofs.Doc.RoundTrip
import EntityStore.Proofs.Store.Updates

/-!
# What stands beside a blob is what its document says

Keys, references, properties and tokens are read off the document that a write
is about to store, and the document that anybody sees later is what its blob
decodes to. They differ in the memo, which is not serialized, and may differ in
the float. Makers and policies that look at neither read the same off both
(`Doc.LooksAtKept`), and then every stored container describes the document that
its blob decodes to (`Doc.metadata_agrees`): what look-ups, tables and version
queries report is what a read hands out.

A key is the exception. It is read off the document as the caller gave it, and
an update with optimistic locking stores that document with a new token. So it
is the key of what is stored only if stamping a document does not move it
(`Doc.metadata_disagrees`).
-/

namespace EntityStore

variable {κ ε σ τ : Type} [EntityKey κ]

namespace Store

/-- What stands beside the blob of a container is read off an entity. -/
structure Describes (s : Store κ ε σ τ) (c : Container κ) (e : ε) : Prop where
  key_eq : c.key = s.makers.key e
  id_eq : c.id = EntityKey.text c.key
  references_eq : c.references = s.makers.references e
  properties_eq : c.properties = s.makers.properties e
  version_eq : c.version = s.versionOf e

variable {s : Store κ ε σ τ}

theorem Makes.describes (hstamps : s.Stamps) {call : Call κ ε} {key : κ} {d : Draft ε}
    {c : Candidate κ ε} (hdrafts : s.Drafts call key d) (h : s.Makes key d c) :
    s.Describes c.container d.stored := by
  obtain ⟨hversion, hkey⟩ := hstamps.of_drafts hdrafts
  constructor <;> rw [h.container_eq]
  · exact hkey.symm
  · rfl
  · rfl
  · rfl
  · exact hversion

namespace Describes

variable {c : Container κ} {e : ε}

/-- A look-up finds a container by what its entity says of itself, and by nothing else. -/
theorem find?_iff {st : State κ ε σ τ} (h : s.Describes c e) (hexact : st.index.Exact)
    (hc : st.index.Live c) (target : Target κ) :
    st.index.find? target = some c ↔
      target = .key (s.makers.key e) ∨ ∃ r ∈ s.makers.references e, target = .reference r := by
  rw [← h.key_eq, ← h.references_eq]
  cases target with
  | key k =>
      constructor
      · intro hfind
        exact .inl (congrArg Target.key (hexact.key_eq hfind).symm)
      · rintro (heq | ⟨r, -, heq⟩)
        · cases heq
          exact hc
        · cases heq
  | reference r =>
      refine hexact.getByReference?_eq_some_iff.trans ?_
      simp [hc]

theorem row_eq (h : s.Describes c e) (select : List String) :
    Hits.row select c = some (EntityKey.text (s.makers.key e)) ::
      select.map (Property.first? (s.makers.properties e)) := by
  have hproperty : c.property = Property.first? (s.makers.properties e) := by
    funext name
    rw [Container.property, h.properties_eq]
  rw [Hits.row, h.id_eq, h.key_eq, hproperty]

/-- A version query that finds a container reports the token of its entity, and the empty text if
it has none. -/
theorem version_entity {st : State κ ε σ τ} (h : s.Describes c e) {target : Target κ}
    (hfind : st.index.find? target = some c) (settings : Option Settings) :
    (version target settings st).1.entity = some (s.makers.key e, (s.versionOf e).getD "") := by
  rw [version_of_some hfind, ← h.key_eq, ← h.version_eq]

end Describes

end Store

namespace Doc

/-- A function that looks only at what every format keeps of a document: all but the float and the
memo. -/
def LooksAtKept {α : Type} (f : Doc → α) : Prop := ∀ d float memo, f { d with float, memo } = f d

/-- What a store of documents reads off a document, every format keeps. -/
structure ReadsKept (s : Store κ Doc σ τ) : Prop where
  key : LooksAtKept s.makers.key
  references : LooksAtKept s.makers.references
  properties : LooksAtKept s.makers.properties
  versionOf : LooksAtKept s.versionOf

/-- Whether bytes are few enough for a format to count them: MessagePack has four bytes for a
length. -/
def Format.Counts : Format → Bytes → Prop
  | .json, _ => True
  | .messagePack, raw => raw.length < 0x100000000

/-- What was serialized into a blob is few enough bytes for a format to count. -/
def IsCounted (format : Format) (x : Context Doc σ) (blob : Bytes) : Prop :=
  ∀ raw session, (x.codec.decode blob session).1 = .ok raw → format.Counts raw

/-- A copy is the document that was stored but for its float and its memo. -/
theorem copy_kept {x : Context Doc σ} {format : Format}
    (hserializer : x.serializer = format.serializer) (hcodec : x.codec.IsLossless) {d copy : Doc}
    {blob : Bytes} (hcounted : IsCounted format x blob) (h : x.Stores d blob copy) :
    ∃ float, copy = { d with float, memo := "" } := by
  obtain ⟨raw, ⟨a, hser⟩, -, hraw, -⟩ := h.serialized hcodec
  have hholds : format.Holds d := by
    cases format with
    | json => trivial
    | messagePack =>
        rw [hserializer] at hser
        obtain rfl : (toPack d).render = raw := Except.ok.inj hser
        exact isSized_of_length (hcounted _ a (hraw a))
  obtain ⟨float, -, hcopy⟩ := copy_eq hserializer hcodec hholds h
  exact ⟨float, hcopy⟩

theorem ReadsKept.describes {s : Store κ Doc σ τ} (h : ReadsKept s) {c : Container κ}
    {d : Doc} (hd : s.Describes c d) (float : Binary64) (memo : String) :
    s.Describes c { d with float, memo } where
  key_eq := hd.key_eq.trans (h.key d float memo).symm
  id_eq := hd.id_eq
  references_eq := hd.references_eq.trans (h.references d float memo).symm
  properties_eq := hd.properties_eq.trans (h.properties d float memo).symm
  version_eq := hd.version_eq.trans (h.versionOf d float memo).symm

/-- A live container was made from a draft that it describes, and reads as that draft but for the
float and the memo. -/
theorem exists_draft {s : Store κ Doc σ τ} {format : Format}
    (hserializer : s.context.serializer = format.serializer)
    (hcodec : s.context.codec.IsLossless) (hstamps : s.Stamps) {made : Container κ → Prop}
    {st : State κ Doc σ τ} (hmade : st.Grounded s made) {c : Container κ} (hc : st.index.Live c)
    (hcounted : IsCounted format s.context c.blob) :
    ∃ (d : Doc) (float : Binary64), s.Describes c d ∧
      s.context.Reads c.blob { d with float, memo := "" } ∧
      (c.entity s.context st.memory).1 = .ok { d with float, memo := "" } := by
  have hx : s.context.IsSteady :=
    Context.isSteady_of_lossless hcodec (hserializer ▸ format.serializer_isPure)
  obtain ⟨call, copy, key, d, hdrafts, hmakes⟩ := hmade.origin (hmade.live hc)
  obtain ⟨float, rfl⟩ : ∃ float, copy = { d.stored with float, memo := "" } :=
    copy_kept hserializer hcodec hcounted hmakes.stores
  have hreads := hmakes.reads hx
  exact ⟨d.stored, float, hmakes.describes hstamps hdrafts, hreads,
    hmade.entity_eq hx (hmade.live hc) hreads⟩

/-- Stored metadata agrees with the stored document. In every state that a store can be in, every
live container stands under the key of the document that its blob decodes to, and its id,
references, properties and token are those of that document. So look-ups find the container by what
the document says of itself, a read hands out the document if its signature fits, a version query
reports the token that it carries, the empty text if it carries none, and the rows of tables show
its properties. -/
theorem metadata_agrees (s : Store κ Doc σ τ) (format : Format)
    (hserializer : s.context.serializer = format.serializer)
    (hcodec : s.context.codec.IsLossless) (hs : s.searches.OnlyDecodes) (hkept : ReadsKept s)
    (hstamps : s.Stamps) {st : State κ Doc σ τ} (hst : s.Reaches st) {k : κ} {c : Container κ}
    (hc : st.index.get? k = some c) (hcounted : IsCounted format s.context c.blob) :
    ∃ e, s.context.Reads c.blob e ∧ c.key = k ∧ s.Describes c e ∧
      (∀ target, st.index.find? target = some c ↔
        target = .key (s.makers.key e) ∨ ∃ r ∈ s.makers.references e, target = .reference r) ∧
      (∀ target settings, st.index.find? target = some c →
        (s.read target settings st).1 = .ok (if s.isIntact c e then
          Store.handedOut c e settings else Store.forbidden c settings) ∧
        (Store.version target settings st).1.entity =
          some (s.makers.key e, (s.versionOf e).getD "")) ∧
      ∀ select, Hits.row select c = some (EntityKey.text (s.makers.key e)) ::
        select.map (Property.first? (s.makers.properties e)) := by
  obtain ⟨made, hmade⟩ := hst.grounded hs
  have hlive := hmade.exact.live hc
  obtain ⟨d, float, hdraft, hreads, hentity⟩ :=
    exists_draft hserializer hcodec hstamps hmade hlive hcounted
  have hdescribes := hkept.describes hdraft float ""
  refine ⟨_, hreads, hmade.exact.key_eq hc, hdescribes,
    hdescribes.find?_iff hmade.exact hlive, fun target settings hfind => ⟨?_, ?_⟩,
    hdescribes.row_eq⟩
  · exact Store.read_of_entity hfind hentity settings
  · exact hdescribes.version_entity hfind settings

theorem store_readsKept : ReadsKept store where
  key _ _ _ := rfl
  references _ _ _ := rfl
  properties _ _ _ := rfl
  versionOf _ _ _ := rfl

theorem store_stamps : store.Stamps := by
  constructor
  · intro p hpolicy _ d tokens
    obtain rfl := Option.some.inj hpolicy
    rfl
  · intro p hpolicy _ d tokens
    obtain rfl := Option.some.inj hpolicy
    rfl

def labelled : Doc where
  id := "a"
  references := [⟨"isbn", "1"⟩]
  properties := [⟨"color", "red"⟩]
  version := some "v"

/-- The state after a document was created in a store and then updated. -/
def afterUpdate (s : Store κ Doc σ τ) (session : σ) (tokens : τ) (d : Doc) : State κ Doc σ τ :=
  (World.reached s session tokens [.call 0 (.entity (.create d none)), .go 0,
    .call 0 (.entity (.update d none)), .go 0]).state

theorem labelled_metadata_agrees :
    ∃ c e, (afterUpdate store () 0 labelled).index.find? (.key "a") = some c ∧
      store.context.Reads c.blob e ∧ store.Describes c e := by
  have hreaches : store.Reaches (afterUpdate store () 0 labelled) :=
    Store.reaches_reached () 0 _
  have hlive : (afterUpdate store () 0 labelled).containsKey "a" = true := by decide +kernel
  obtain ⟨c, hc⟩ := State.exists_find?_of_containsKey hlive
  obtain ⟨e, hreads, -, hdescribes, -⟩ :=
    metadata_agrees store .json rfl Codec.identity_isLossless store_onlyDecodes store_readsKept
      store_stamps hreaches hc fun _ _ _ => trivial
  exact ⟨c, e, hc, hreads, hdescribes⟩

/-- A store of documents under their tokens. -/
def keyedByToken : Store String Doc Unit Nat :=
  { store with makers := { store.makers with key := fun d => d.version.getD "" } }

/-- A document that is updated under its token comes back with another one, and what is reported of
a document without a token is not what it says of itself. -/
theorem metadata_disagrees :
    ((afterUpdate keyedByToken () 0 labelled).index.find? (.key "v")).map (fun c =>
        (c.key, (keyedByToken.context.entityOf () c.blob).toOption.map keyedByToken.makers.key)) =
      some ("v", some "g1") ∧
    (Store.version (.key "a") none (afterCreation store () 0 kept).state).1.entity =
      some ("a", "") ∧
    (store.read (.key "a") none (afterCreation store () 0 kept).state).1.toOption.bind
        (fun r => r.entity.map Doc.version) = some none := by
  decide +kernel

end Doc

end EntityStore
