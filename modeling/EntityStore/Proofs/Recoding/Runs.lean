import EntityStore.Proofs.Building.Faults
import EntityStore.Proofs.Ledger.Basic
import EntityStore.Proofs.ReadOnly
import EntityStore.Proofs.Recoding.Searches

/-!
# Runs in two codings

A builder can be given a faithful codec, and be told to have entities decoded when
they are stored or not before they are read. Whatever it is given and told, it
hands out a store or refuses to, and the store it hands out answers call after
call in the same way (`Builder.build_storing`): neither the codec nor the time of
decoding can be observed.

Answers name the collection in tags, and each store has an identifier of its own
in that name. So the answers of one store are compared with those of the other in
the name of the other's collection, and what follows the name stays.
-/

namespace EntityStore

variable {κ ε σ τ : Type} [EntityKey κ]

/-! ## What can be seen between calls -/

/-- All that can be seen of a state between two calls: read hits, and what observers have been told,
as well. -/
structure Glance (κ : Type) extends Observation κ where
  readHits : κ → Option Nat
  deliveries : List (Delivery κ)

omit [EntityKey κ] in
/-- What is seen in the name of another collection. -/
def Glance.inCollection (collection : String) (g : Glance κ) : Glance κ :=
  { g with etag := Etag.inCollection collection g.etag }

namespace Store

/-- All that can be seen of a state of a store. -/
def glance (s : Store κ ε σ τ) (st : State κ ε σ τ) : Glance κ :=
  { s.observe st with readHits := st.readHits, deliveries := st.deliveries }

/-- The answers to calls, each with what can be seen before. -/
def history (s : Store κ ε σ τ) :
    List (Call κ ε) → State κ ε σ τ → List (Glance κ × Answer κ ε)
  | [], _ => []
  | c :: rest, st =>
    let (a, next) := s.answer c st
    (s.glance st, a) :: history s rest next

/-! ## Runs of a store and of a recoded one -/

variable {s : Store κ ε σ τ} {collectionId : String} {eager : Bool} {codec : Codec σ}
  {made made' : Container κ → Prop} {st st' : State κ ε σ τ}

theorem glance_alike
    (halike : st.Alike s.context (s.recoded collectionId eager codec).context st') :
    (s.recoded collectionId eager codec).glance st' =
      (s.glance st).inCollection collectionId := by
  have hix := halike.index_eq
  have hsize : st.count = st'.count := by
    have h := (congrArg (fun ix : Index κ => ix.containers.size) hix :)
    rw [Index.map, Index.map, SortedMap.size_map, SortedMap.size_map] at h
    exact h
  have hkeys : st.containsKey = st'.containsKey := by
    funext k
    change st.index.containsKey k = st'.index.containsKey k
    rw [← st.index.containsKey_map Container.outline, hix, Index.containsKey_map]
  have howners : st.index.owners = st'.index.owners := (congrArg Index.owners hix :)
  have hreferences : st.referenceCount = st'.referenceCount := congrArg SortedMap.size howners
  have hreference : st.containsReference = st'.containsReference :=
    congrArg (fun owners r => SortedMap.contains owners r) howners
  have hhits : st.readHits = st'.readHits :=
    congrArg (fun hits k => ReadHits.get? hits k) (congrArg Index.hits hix :)
  simp only [glance, observe, Glance.inCollection, hsize, hkeys, hreferences, hreference, hhits,
    halike.deliveries_eq, etag_alike halike]

section

variable (hx : s.context.IsFaithful)
  (hx' : (s.recoded collectionId eager codec).context.IsFaithful)

theorem turnedDown_alike (hreadOnly : s.readOnly = true) {c : Call κ ε} (hc : c.isWrite = true)
    (halike : st.Alike s.context (s.recoded collectionId eager codec).context st') :
    AnsweredAlike s.context (s.recoded collectionId eager codec).context
      (Answer.inCollection collectionId) (s.answer c st)
      ((s.recoded collectionId eager codec).answer c st') := by
  obtain ⟨a, ha, -⟩ := s.exists_turnedDown hc
  have ha' : (s.recoded collectionId eager codec).turnedDown c = some (.entity a) := ha
  rw [answer_of_turnedDown hreadOnly ha,
    answer_of_turnedDown (s := s.recoded collectionId eager codec) hreadOnly ha']
  exact ⟨rfl, halike⟩

include hx hx'

/-- A call is answered alike and leaves states alike. -/
theorem answer_alike (hs : s.searches.AreDiscreet) (h : st.Grounded s made)
    (h' : st'.Grounded (s.recoded collectionId eager codec) made')
    (halike : st.Alike s.context (s.recoded collectionId eager codec).context st')
    (c : Call κ ε) :
    AnsweredAlike s.context (s.recoded collectionId eager codec).context
      (Answer.inCollection collectionId) (s.answer c st)
      ((s.recoded collectionId eager codec).answer c st') := by
  by_cases hrefused : c.isWrite = true ∧ s.readOnly = true
  · exact turnedDown_alike hrefused.2 hrefused.1 halike
  have hwritable : c.isWrite = true → s.readOnly = false := fun hc =>
    Bool.eq_false_iff.2 fun hreadOnly => hrefused ⟨hc, hreadOnly⟩
  cases c with
  | entity c =>
      cases c with
      | create e settings =>
          obtain ⟨hanswer, hafter⟩ := create_alike hx hx' h h' halike (hwritable rfl) e settings
          exact ⟨congrArg (fun r => Answer.entity (.entity r)) hanswer, hafter⟩
      | update e settings =>
          obtain ⟨hanswer, hafter⟩ := update_alike hx hx' h h' halike (hwritable rfl) e settings
          exact ⟨congrArg (fun r => Answer.entity (.entity r)) hanswer, hafter⟩
      | delete target settings =>
          obtain ⟨hanswer, hafter⟩ := delete_alike h h' halike (hwritable rfl) target settings
          exact ⟨congrArg (fun r => Answer.entity (.version r)) hanswer, hafter⟩
      | read target settings =>
          obtain ⟨hanswer, hafter⟩ := read_alike hx hx' h h' halike target settings
          exact ⟨congrArg (fun r => Answer.entity (.entity r)) hanswer, hafter⟩
      | version target settings =>
          obtain ⟨hanswer, hafter⟩ := version_alike halike target settings
          exact ⟨congrArg (fun r => Answer.entity (.version r)) hanswer, hafter⟩
  | search request settings =>
      obtain ⟨hanswer, hafter⟩ := searchWith_alike hx hx' (Hits.table_loadsAlike _ _ request)
        (Table.inCollection_renames collectionId) hs h h' halike settings
      exact ⟨congrArg Answer.table hanswer, hafter⟩
  | searchEntities request settings =>
      obtain ⟨hanswer, hafter⟩ := searchWith_alike hx hx' (Hits.entityList_loadsAlike hx hx')
        (EntityList.inCollection_renames collectionId) hs h h' halike settings
      exact ⟨congrArg Answer.entities hanswer, hafter⟩

/-- So is a run of calls, and what can be seen on the way is alike. -/
theorem history_alike (hs : s.searches.AreDiscreet) : ∀ (calls : List (Call κ ε))
    {made made' : Container κ → Prop} {st st' : State κ ε σ τ}, st.Grounded s made →
    st'.Grounded (s.recoded collectionId eager codec) made' →
    st.Alike s.context (s.recoded collectionId eager codec).context st' →
    (s.recoded collectionId eager codec).history calls st' =
      (s.history calls st).map fun seen =>
        (seen.1.inCollection collectionId, seen.2.inCollection collectionId) := by
  intro calls
  induction calls with
  | nil => exact fun _ _ _ => rfl
  | cons c rest ih =>
      intro made made' st st' h h' halike
      obtain ⟨hanswer, hafter⟩ := answer_alike hx hx' hs h h' halike c
      obtain ⟨made₁, -, hnext, -⟩ := answer_grounded hs.onlyDecodes h c
      obtain ⟨made₁', -, hnext', -⟩ :=
        answer_grounded (s := s.recoded collectionId eager codec) hs.onlyDecodes h' c
      simp only [history, List.map_cons]
      rw [glance_alike halike, hanswer, ih hnext hnext' hafter]

end

end Store

/-! ## Setting up -/

namespace Builder

omit [EntityKey κ] in
/-- The builder with a codec of its own, and told whether to decode entities when they are
stored. -/
def storing (b : Builder κ ε σ τ) (codec : Codec σ) (eager : Bool) : Builder κ ε σ τ :=
  (b.withCodec codec).withEagerDeserialize eager

omit [EntityKey κ] in
theorem registry_areDiscreet {b : Builder κ ε σ τ} (h : ∀ a ∈ b.searches, a.IsDiscreet)
    {r : SearchRegistry κ ε σ} (hr : b.registry = .ok r) : r.AreDiscreet := by
  intro id a ha
  obtain ⟨hlists, -⟩ := b.registry_endsBy.of_ok hr
  exact h a (hlists.find?_iff.1 ha).1

omit [EntityKey κ] in
theorem storing_context (b : Builder κ ε σ τ) (codec : Codec σ) (eager : Bool) :
    (b.storing codec eager).context =
      b.serializer.elim (.error (.configuration "no serializer registered")) (.ok ⟨·, codec⟩) := by
  rw [context, show (b.storing codec eager).serializer = b.serializer from rfl]
  cases b.serializer <;> rfl

omit [EntityKey κ] in
/-- Whatever codec a builder is given and whenever it is told to decode, it makes the same mistake,
or opens the same store, recoded. -/
theorem openStore_storing (b : Builder κ ε σ τ) :
    (∃ err, ∀ codec eager name identity,
      (b.storing codec eager).openStore name identity = .error err) ∨
    ∃ s : Store κ ε σ τ, s.opened = s ∧ b.serializer = some s.context.serializer ∧
      b.registry = .ok s.searches ∧ ∀ codec eager name identity,
        (b.storing codec eager).openStore name identity =
          .ok (s.recoded (b.collectionId name identity) eager codec) := by
  have hopen : ∀ codec eager name identity, (b.storing codec eager).openStore name identity =
      b.config.validate.bind fun _ => (b.storing codec eager).context.bind fun context =>
        b.registry.bind fun searches => .ok {
          collectionId := b.collectionId name identity
          readOnly := false
          eager
          makers := b.makers
          versionPolicy := b.versionPolicy
          signaturePolicy := b.signaturePolicy
          context
          searches
          observers := b.observers } := fun _ _ _ _ => rfl
  simp only [hopen, storing_context]
  cases b.config.validate with
  | error err => exact .inl ⟨err, fun _ _ _ _ => rfl⟩
  | ok _ =>
      cases b.serializer with
      | none => exact .inl ⟨_, fun _ _ _ _ => rfl⟩
      | some z =>
          cases b.registry with
          | error err => exact .inl ⟨err, fun _ _ _ _ => rfl⟩
          | ok searches =>
              exact .inr ⟨{
                collectionId := ""
                readOnly := false
                eager := false
                makers := b.makers
                versionPolicy := b.versionPolicy
                signaturePolicy := b.signaturePolicy
                context := ⟨z, Codec.identity⟩
                searches
                observers := b.observers }, rfl, rfl, rfl, fun _ _ _ _ => rfl⟩

/-- Entities that are put in beforehand are refused in both stores, or leave states alike. -/
theorem populate_alike {s : Store κ ε σ τ} {collectionId : String} {eager : Bool} {codec : Codec σ}
    (hx : s.context.IsFaithful) (hx' : (s.recoded collectionId eager codec).context.IsFaithful)
    (hs : s.searches.AreDiscreet) (hwritable : s.readOnly = false) : ∀ (es : List ε)
    {made made' : Container κ → Prop} {st st' : State κ ε σ τ}, st.Grounded s made →
    st'.Grounded (s.recoded collectionId eager codec) made' →
    st.Alike s.context (s.recoded collectionId eager codec).context st' →
    (∃ err, populate s es st = .error err ∧
      populate (s.recoded collectionId eager codec) es st' = .error err) ∨
    ∃ u u', populate s es st = .ok u ∧
      populate (s.recoded collectionId eager codec) es st' = .ok u' ∧
      (∃ made, u.Grounded s made) ∧
      (∃ made', u'.Grounded (s.recoded collectionId eager codec) made') ∧
      u.Alike s.context (s.recoded collectionId eager codec).context u' := by
  intro es
  induction es with
  | nil => exact fun h h' halike => .inr ⟨_, _, rfl, rfl, ⟨_, h⟩, ⟨_, h'⟩, halike⟩
  | cons e rest ih =>
      intro made made' st st' h h' halike
      obtain ⟨hanswer, hafter⟩ := Store.create_alike hx hx' h h' halike hwritable e none
      obtain ⟨made₁, -, hnext, -⟩ :=
        Store.answer_grounded hs.onlyDecodes h (.entity (.create e none))
      obtain ⟨made₁', -, hnext', -⟩ := Store.answer_grounded
        (s := s.recoded collectionId eager codec) hs.onlyDecodes h' (.entity (.create e none))
      change (s.create e none st).2.Grounded s made₁ at hnext
      change ((s.recoded collectionId eager codec).create e none st').2.Grounded _ made₁' at hnext'
      rw [populate, populate]
      cases hc : s.create e none st with
      | mk r u =>
          cases hc' : (s.recoded collectionId eager codec).create e none st' with
          | mk r' u' =>
              rw [hc, hc'] at hanswer hafter
              rw [hc] at hnext
              rw [hc'] at hnext'
              obtain rfl : r' = r := hanswer
              cases r' with
              | error err => exact .inl ⟨err, rfl, rfl⟩
              | ok r =>
                  cases hr : r.isSuccess with
                  | false =>
                      simp only [hr]
                      exact .inl ⟨rejection r, rfl, rfl⟩
                  | true =>
                      simp only [hr, if_true]
                      exact ih hnext hnext' hafter

/-- Two attempts to set up a store end in the same mistake, or in stores that answer calls one by
one in the same way and show the same between calls, in the name of the collection of the second. -/
inductive EndAlike : Except StoreError (Store κ ε σ τ × State κ ε σ τ) →
    Except StoreError (Store κ ε σ τ × State κ ε σ τ) → Prop where
  | refused (err : StoreError) : EndAlike (.error err) (.error err)
  | built {s s' : Store κ ε σ τ} {st st' : State κ ε σ τ}
      (histories : ∀ calls, s'.history calls st' = (s.history calls st).map fun seen =>
        (seen.1.inCollection s'.collectionId, seen.2.inCollection s'.collectionId)) :
      EndAlike (.ok (s, st)) (.ok (s', st'))

/-- Putting entities in and closing the store, or not, ends alike for a store and a recoded one. -/
theorem populate_endAlike {s : Store κ ε σ τ} {collectionId : String} {eager : Bool}
    {codec : Codec σ} (hx : s.context.IsFaithful)
    (hx' : (s.recoded collectionId eager codec).context.IsFaithful) (hs : s.searches.AreDiscreet)
    (hopened : s.opened = s) (readOnly : Bool) (es : List ε) (session session' : σ) (tokens : τ) :
    EndAlike
      ((populate s es (State.start session tokens)).map fun st => ({ s with readOnly }, st))
      ((populate (s.recoded collectionId eager codec) es (State.start session' tokens)).map
        fun st => ({ s.recoded collectionId eager codec with readOnly }, st)) := by
  have hwritable : s.readOnly = false := congrArg Store.readOnly hopened.symm
  rcases populate_alike hx hx' hs hwritable es (State.start_grounded s session tokens)
    (State.start_grounded (s.recoded collectionId eager codec) session' tokens)
    (.start _ _ session session' tokens) with
    ⟨err, hpop, hpop'⟩ | ⟨u, u', hpop, hpop', ⟨made, h⟩, ⟨made', h'⟩, halike⟩
  · rw [hpop, hpop']
    exact .refused err
  · rw [hpop, hpop']
    refine .built fun calls => ?_
    have hclosed : ({ s with readOnly } : Store κ ε σ τ).opened = s := hopened
    have hclosed' : (({ s with readOnly } : Store κ ε σ τ).recoded collectionId eager
        codec).opened = s.recoded collectionId eager codec :=
      congrArg (fun s => s.recoded collectionId eager codec) hopened
    exact Store.history_alike (s := { s with readOnly }) hx hx' hs calls
      (State.Grounded.of_opened (hclosed.symm ▸ h)) (State.Grounded.of_opened (hclosed'.symm ▸ h'))
      halike

/-- Neither the codec nor the time of decoding can be observed. Take a builder whose serializer is
pure and whose searches touch entities only through hits. Whatever faithful codec it is given, and
whether entities are decoded when they are stored or not before they are read, its attempts to set
up a store end alike. -/
theorem build_storing {b : Builder κ ε σ τ} (hserializer : ∀ z, b.serializer = some z → z.IsPure)
    (hsearches : ∀ a ∈ b.searches, a.IsDiscreet) {codec codec' : Codec σ}
    (hcodec : codec.IsFaithful) (hcodec' : codec'.IsFaithful) (eager eager' : Bool)
    (name name' : String) (identity identity' : Uuid) (session session' : σ) (tokens : τ) :
    EndAlike ((b.storing codec eager).build name identity session tokens)
      ((b.storing codec' eager').build name' identity' session' tokens) := by
  have hbuild : ∀ codec eager name identity session,
      (b.storing codec eager).build name identity session tokens =
        ((b.storing codec eager).openStore name identity).bind fun s =>
          (populate s b.prepopulation (State.start session tokens)).map fun st =>
            ({ s with readOnly := b.config.readOnly }, st) := fun _ _ _ _ _ => rfl
  rw [hbuild, hbuild]
  rcases b.openStore_storing with ⟨err, hopen⟩ | ⟨s, hopened, hz, hregistry, hopen⟩
  · rw [hopen, hopen]
    exact .refused err
  · rw [hopen, hopen]
    have hx : (s.recoded (b.collectionId name identity) eager codec).context.IsFaithful :=
      ⟨hserializer _ hz, hcodec⟩
    have hx' : ((s.recoded (b.collectionId name identity) eager codec).recoded
        (b.collectionId name' identity') eager' codec').context.IsFaithful :=
      ⟨hserializer _ hz, hcodec'⟩
    exact populate_endAlike hx hx' (registry_areDiscreet hsearches hregistry)
      (congrArg (fun s => s.recoded (b.collectionId name identity) eager codec) hopened)
      b.config.readOnly b.prepopulation session session' tokens

/-- A codec that turns bytes round. -/
def turning {σ : Type} : Codec σ := .ofFunctions "turning" (.ok ·.reverse) (.ok ·.reverse)

theorem turning_isFaithful {σ : Type} : (turning : Codec σ).IsFaithful := by
  refine ⟨⟨fun {raw blob a} h b => ?_⟩, fun raw _ => ⟨raw.reverse, rfl⟩⟩
  obtain rfl : raw.reverse = blob := Except.ok.inj h
  exact congrArg Except.ok raw.reverse_reverse

/-- The archive, open for writing, with documents that are signed, and with an algorithm besides
that decodes every document in search of the one with the greatest number. -/
def shelf : Builder String Doc Unit Nat :=
  ((archive.withReadOnly false).withSignaturePolicy
    (Doc.fieldSignature ["id", "n", "version"] true).policy).withSearch
      (Sample.algorithm (·.number.toInt) "greatest" .greatest)

/-- A document is created, read by its reference and deleted, and an update of another is stale. Of
the searches the first decodes both documents on its way, the second when it loads what it found,
and the third none. -/
def shelfCalls : List (Call String Doc) := [
  .entity (.create { id := "b", references := [⟨"r", "2"⟩] } none),
  .entity (.read (.reference ⟨"r", "2"⟩) none),
  .search { id := some "greatest" } none,
  .searchEntities { id := some Scan.defaultId } none,
  .entity (.update { id := "a", version := some "stale" } none),
  .search { id := some Scan.defaultId } none,
  .entity (.delete (.key "b") none)]

/-- Bytes as they are, decoded when they are read, and bytes turned round, decoded at once. -/
theorem shelf_endAlike :
    EndAlike ((shelf.storing .identity false).build "docs" ⟨0⟩ () 0)
        ((shelf.storing turning true).build "docs" ⟨1⟩ () 0) ∧
      ((shelf.storing turning true).build "docs" ⟨1⟩ () 0).toOption.map
          (fun built => (built.1.history shelfCalls built.2).map fun seen => seen.2.code?) =
        some [some .created, some .ok, some .ok, some .ok, some .conflict, some .ok, some .ok] := by
  refine ⟨build_storing (fun z hz => ?_) (fun a ha => ?_) Codec.identity_isFaithful
    turning_isFaithful false true "docs" "docs" ⟨0⟩ ⟨1⟩ () () 0, by decide +kernel⟩
  · obtain rfl : Serializer.json = z := Option.some.inj hz
    exact Serializer.json_isPure
  · rcases List.mem_pair.1 ha with rfl | rfl
    · exact Scan.algorithm_isDiscreet Scan.defaultId
    · exact Sample.algorithm_isDiscreet _ "greatest" .greatest

end Builder

end EntityStore
