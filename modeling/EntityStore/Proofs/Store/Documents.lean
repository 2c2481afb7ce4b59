import EntityStore.Doc
import EntityStore.Proofs.Store.Decoding
import EntityStore.Proofs.Store.Memory
import EntityStore.Search.Scan

/-!
# Contexts that are pure

The two formats and the two codecs leave the session alone, so every context
made of them is pure: the usual one, and that of the document store below, in
which every policy is switched on. A metered codec is not pure, since its
faults come up in the order of its calls; a document store can be had over any
context (`Doc.storeOver`).
-/

namespace EntityStore

variable {ε σ : Type}

theorem Serializer.json_isPure [JsonShape ε] : (Serializer.json : Serializer ε σ).IsPure :=
  ⟨fun _ _ _ => rfl, fun _ _ _ => rfl⟩

theorem Serializer.messagePack_isPure [PackShape ε] :
    (Serializer.messagePack : Serializer ε σ).IsPure :=
  ⟨fun _ _ _ => rfl, fun _ _ _ => rfl⟩

theorem Codec.ofFunctions_isPure (id : String) (encode decode : Bytes → Except CodecError Bytes) :
    (Codec.ofFunctions id encode decode : Codec σ).IsPure :=
  ⟨fun _ _ _ => rfl, fun _ _ _ => rfl⟩

theorem Codec.named?_isPure {id : String} {level : Int32} {c : Codec σ}
    (h : Codec.named? id level = .ok c) : c.IsPure := by
  rw [Codec.named?] at h
  split at h
  · obtain rfl : Codec.identity = c := Except.ok.inj h
    exact Codec.ofFunctions_isPure _ _ _
  · split at h
    · obtain rfl : (ZstdCodec.mk level).codec = c := Except.ok.inj h
      exact Codec.ofFunctions_isPure _ _ _
    · cases h

/-- A store of documents that are signed and have versions and references, with the scan as its
only search. -/
def Doc.store : Store String Doc Unit Nat where
  collectionId := "docs"
  readOnly := false
  eager := false
  makers := { key := Doc.id, references := Doc.references, properties := Doc.properties }
  versionPolicy := some (Doc.versionPolicy TokenSource.counter true)
  signaturePolicy := some (Doc.fieldSignature ["id", "n", "version"] true).policy
  context := ⟨Serializer.json, Codec.identity⟩
  searches := {
    algorithms := SortedMap.empty.insert Scan.defaultId (Scan.algorithm Scan.defaultId)
    defaultId := some Scan.defaultId }
  observers := []

/-- The same store over another context. -/
def Doc.storeOver (x : Context Doc σ) : Store String Doc σ Nat where
  collectionId := Doc.store.collectionId
  readOnly := Doc.store.readOnly
  eager := Doc.store.eager
  makers := Doc.store.makers
  versionPolicy := Doc.store.versionPolicy
  signaturePolicy := Doc.store.signaturePolicy
  context := x
  searches := {
    algorithms := SortedMap.empty.insert Scan.defaultId (Scan.algorithm Scan.defaultId)
    defaultId := some Scan.defaultId }
  observers := Doc.store.observers

theorem Doc.storeOver_onlyDecodes (x : Context Doc σ) :
    (Doc.storeOver x).searches.OnlyDecodes := by
  intro id a h
  obtain rfl := SearchRegistry.eq_of_get?_single h
  exact Scan.algorithm_onlyDecodes _

theorem Doc.store_onlyDecodes : Doc.store.searches.OnlyDecodes :=
  Doc.storeOver_onlyDecodes Doc.store.context

theorem Doc.store_isPure : Doc.store.context.IsPure :=
  ⟨Serializer.json_isPure, Codec.ofFunctions_isPure _ _ _⟩

end EntityStore
