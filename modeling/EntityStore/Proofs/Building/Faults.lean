import EntityStore.Builder
import EntityStore.Proofs.Index.Exact
import EntityStore.Proofs.Search.NormalId
import EntityStore.Proofs.Store.Documents

/-!
# What can be wrong with a setup

A setup has a list of faults, in the order in which building looks for them
(`Builder.faults`), and it is sound if nothing is wrong with it
(`Builder.IsSound`, `Builder.faults_eq_nil_iff`). A step of building ends by its
faults: with the first of them as its error, or well if it has none (`EndsBy`).
Steps that end by their faults, taken in turn, end by the faults of all, so
every step is looked at alone.

Searches and entities are each checked beside those that came before
(`faultsInTurn`). What a check says of two items is said of all pairs in the end.
-/

namespace EntityStore

/-! ## Checks in turn -/

section

variable {α β : Type}

/-- The fault of a check, if the check fails. -/
def faultIf (p : Prop) [Decidable p] (err : StoreError) : List StoreError := if p then [err] else []

@[simp]
theorem faultIf_eq_nil_iff {p : Prop} [Decidable p] {err : StoreError} :
    faultIf p err = [] ↔ ¬p := by
  rw [faultIf]
  split <;> simp [*]

/-- The faults of items that are checked one after another, each beside those before it. -/
def faultsInTurn (check : List α → α → List StoreError) : List α → List α → List StoreError
  | _, [] => []
  | earlier, a :: rest => check earlier a ++ faultsInTurn check (earlier ++ [a]) rest

/-- If a check is about an item by itself and about it beside each earlier one, then no check fails
if and only if all items are in order by themselves and in pairs. -/
theorem faultsInTurn_eq_nil_iff {check : List α → α → List StoreError} {own : α → Prop}
    {beside : α → α → Prop}
    (hcheck : ∀ earlier a, check earlier a = [] ↔ own a ∧ ∀ x ∈ earlier, beside x a)
    (l : List α) : ∀ earlier : List α, faultsInTurn check earlier l = [] ↔
      (∀ a ∈ l, own a) ∧ (∀ x ∈ earlier, ∀ a ∈ l, beside x a) ∧ l.Pairwise beside := by
  induction l with
  | nil => simp [faultsInTurn]
  | cons a rest ih =>
      intro earlier
      rw [faultsInTurn, List.append_eq_nil_iff, hcheck, ih]
      simp only [List.forall_mem_cons, List.forall_mem_append, List.pairwise_cons]
      constructor
      · rintro ⟨⟨hown, hbeside⟩, howns, ⟨hbesides, hlater, -⟩, hpairs⟩
        exact ⟨⟨hown, howns⟩, fun x hx => ⟨hbeside x hx, hbesides x hx⟩, hlater, hpairs⟩
      · rintro ⟨⟨hown, howns⟩, hbeside, hlater, hpairs⟩
        exact ⟨⟨hown, fun x hx => (hbeside x hx).1⟩, howns,
          ⟨fun x hx => (hbeside x hx).2, hlater, by simp⟩, hpairs⟩

/-- A step of building ends with the first of its faults, or well if it has none. -/
inductive EndsBy (P : α → Prop) : List StoreError → Except StoreError α → Prop where
  | stopped (err : StoreError) (rest : List StoreError) : EndsBy P (err :: rest) (.error err)
  | ended {a : α} (ha : P a) : EndsBy P [] (.ok a)

namespace EndsBy

variable {faults more : List StoreError} {P : α → Prop} {Q : β → Prop} {r : Except StoreError α}

theorem ok_iff (h : EndsBy P faults r) : (∃ a, r = .ok a) ↔ faults = [] := by
  cases h with
  | stopped err rest => simp
  | ended ha => simp

theorem error_iff (h : EndsBy P faults r) (err : StoreError) :
    r = .error err ↔ faults.head? = some err := by
  cases h with
  | stopped err' rest => simp
  | ended ha => simp

theorem of_ok {a : α} (h : EndsBy P faults r) (hr : r = .ok a) : P a := by
  subst hr
  cases h with
  | ended ha => exact ha

theorem mono {P' : α → Prop} (h : EndsBy P faults r) (himp : ∀ a, P a → P' a) :
    EndsBy P' faults r := by
  cases h with
  | stopped err rest => exact .stopped err rest
  | ended ha => exact .ended (himp _ ha)

/-- What a step ended with may be used of it too. -/
theorem known (h : EndsBy P faults r) : EndsBy (fun a => r = .ok a ∧ P a) faults r := by
  cases h with
  | stopped err rest => exact .stopped err rest
  | ended ha => exact .ended ⟨rfl, ha⟩

/-- Steps in turn end by the faults of the first, and then by those of the second. -/
theorem bind {next : α → Except StoreError β} (h : EndsBy P faults r)
    (hnext : ∀ a, P a → EndsBy Q more (next a)) : EndsBy Q (faults ++ more) (r.bind next) := by
  cases h with
  | stopped err rest => exact .stopped err (rest ++ more)
  | ended ha => exact hnext _ ha

/-- A last step that cannot fail has no faults. -/
theorem bind_ok {last : α → β} (h : EndsBy P faults r) (hlast : ∀ a, P a → Q (last a)) :
    EndsBy Q faults (r.bind fun a => .ok (last a)) := by
  cases h with
  | stopped err rest => exact .stopped err rest
  | ended ha => exact .ended (hlast _ ha)

end EndsBy

end

/-! ## Configurations -/

/-- What is wrong with a configuration. -/
def Config.faults (c : Config) : List StoreError :=
  faultIf (c.collectionName.any Text.isBlankText = true)
    (.configuration "collection_name must not be empty") ++
  faultIf (c.defaultSearch.any Text.isBlankText = true)
    (.configuration "default_search must not be empty") ++
  faultIf (c.codec = "zstd" ∧ Config.isLevel c.compressionLevel = false)
    (.configuration ("compression_level " ++ Decimal.intText c.compressionLevel.toInt ++
      " out of range 1-22")) ++
  faultIf (c.codec ≠ "identity" ∧ c.codec ≠ "zstd")
    (.configuration ("unknown codec '" ++ c.codec ++ "'"))

/-- The names are not blank, the codec is known, and if it compresses the level is one of its. -/
structure Config.IsValid (c : Config) : Prop where
  collectionName : ∀ name ∈ c.collectionName, Text.isBlankText name = false
  defaultSearch : ∀ id ∈ c.defaultSearch, Text.isBlankText id = false
  codec : c.codec = "identity" ∨
    c.codec = "zstd" ∧ 1 ≤ c.compressionLevel.toInt ∧ c.compressionLevel.toInt ≤ 22

theorem Config.faults_eq_nil_iff (c : Config) : c.faults = [] ↔ c.IsValid := by
  have hlevel : isLevel c.compressionLevel = true ↔
      1 ≤ c.compressionLevel.toInt ∧ c.compressionLevel.toInt ≤ 22 := by
    rw [isLevel, Bool.and_eq_true, decide_eq_true_iff, decide_eq_true_iff]
  have hnamed : ∀ text : Option String, ¬text.any Text.isBlankText = true ↔
      ∀ name ∈ text, Text.isBlankText name = false := by
    intro text
    cases text <;> simp
  simp only [faults, List.append_eq_nil_iff, faultIf_eq_nil_iff, hnamed, not_and, Bool.not_eq_false,
    hlevel, ne_eq, not_not]
  constructor
  · rintro ⟨⟨⟨hcollection, hsearch⟩, hcompressed⟩, hcodec⟩
    refine ⟨hcollection, hsearch, ?_⟩
    by_cases hidentity : c.codec = "identity"
    · exact .inl hidentity
    · exact .inr ⟨hcodec hidentity, hcompressed (hcodec hidentity)⟩
  · rintro ⟨hcollection, hsearch, hidentity | ⟨hzstd, hlevels⟩⟩
    · refine ⟨⟨⟨hcollection, hsearch⟩, fun hzstd => ?_⟩, fun hne => absurd hidentity hne⟩
      rw [hidentity] at hzstd
      exact absurd hzstd (by decide)
    · exact ⟨⟨⟨hcollection, hsearch⟩, fun _ => hlevels⟩, fun _ => hzstd⟩

theorem Config.storageCodec_endsBy (σ : Type) (c : Config) :
    EndsBy (fun codec : Codec σ => c.storageCodec = .ok codec)
      (faultIf (c.codec ≠ "identity" ∧ c.codec ≠ "zstd")
        (.configuration ("unknown codec '" ++ c.codec ++ "'"))) c.storageCodec := by
  by_cases hidentity : c.codec = "identity"
  · have hcodec : (c.storageCodec : Except StoreError (Codec σ)) = .ok Codec.identity := by
      rw [storageCodec, Codec.named?, if_pos hidentity]
      rfl
    rw [hcodec, faultIf_eq_nil_iff.2 fun h => h.1 hidentity]
    exact .ended rfl
  · by_cases hzstd : c.codec = "zstd"
    · have hcodec : (c.storageCodec : Except StoreError (Codec σ)) =
          .ok (ZstdCodec.mk c.compressionLevel).codec := by
        rw [storageCodec, Codec.named?, if_neg hidentity, if_pos hzstd]
        rfl
      rw [hcodec, faultIf_eq_nil_iff.2 fun h => h.2 hzstd]
      exact .ended rfl
    · have hcodec : (c.storageCodec : Except StoreError (Codec σ)) =
          .error (.configuration ("unknown codec '" ++ c.codec ++ "'")) := by
        rw [storageCodec, Codec.named?, if_neg hidentity, if_neg hzstd]
        rfl
      rw [hcodec, faultIf, if_pos ⟨hidentity, hzstd⟩]
      exact .stopped _ _

/-- Checking a configuration finds the first of its faults. -/
theorem Config.fault?_eq (c : Config) : c.fault? = c.faults.head? := by
  rw [fault?, faults]
  by_cases hcollection : c.collectionName.any Text.isBlankText = true
  · simp [faultIf, hcollection]
  by_cases hsearch : c.defaultSearch.any Text.isBlankText = true
  · simp [faultIf, hcollection, hsearch]
  by_cases hlevel : c.codec = "zstd" ∧ isLevel c.compressionLevel = false
  · simp [faultIf, hcollection, hsearch, hlevel]
  rw [if_neg hcollection, if_neg hsearch, if_neg hlevel, faultIf_eq_nil_iff.2 hcollection,
    faultIf_eq_nil_iff.2 hsearch, faultIf_eq_nil_iff.2 hlevel]
  have hends := c.storageCodec_endsBy Unit
  cases hstorage : (c.storageCodec : Except StoreError (Codec Unit)) with
  | error err => exact ((hends.error_iff err).1 hstorage).symm
  | ok codec =>
      rw [hends.ok_iff.1 ⟨codec, hstorage⟩]
      rfl

theorem Config.validate_endsBy (c : Config) : EndsBy (fun _ => c.faults = []) c.faults c.validate := by
  rw [validate, c.fault?_eq]
  cases hfaults : c.faults with
  | nil => exact .ended rfl
  | cons err rest => exact .stopped err rest

/-! ## Registries -/

section

variable {κ ε σ : Type} {r : SearchRegistry κ ε σ} {earlier : List (Algorithm κ ε σ)}

/-- What is wrong with an algorithm that is registered after others. -/
def searchFaults (earlier : List (Algorithm κ ε σ)) (a : Algorithm κ ε σ) : List StoreError :=
  faultIf (normalId a.id = "") (.configuration "search id must be a non-empty string") ++
  faultIf (normalId a.id ∈ earlier.map fun x => normalId x.id) (.duplicateSearch (normalId a.id))

theorem searchFaults_eq_nil_iff (a : Algorithm κ ε σ) : searchFaults earlier a = [] ↔
    normalId a.id ≠ "" ∧ ∀ x ∈ earlier, normalId x.id ≠ normalId a.id := by
  simp [searchFaults]

namespace SearchRegistry

/-- The registered algorithms are those of a list, each under its id in normal form. -/
structure Lists (r : SearchRegistry κ ε σ) (l : List (Algorithm κ ε σ)) : Prop where
  find?_iff : ∀ {id a}, r.algorithms.find? id = some a ↔ a ∈ l ∧ normalId a.id = id

theorem Lists.contains_iff {l : List (Algorithm κ ε σ)} (h : r.Lists l) {id : String} :
    r.algorithms.contains id = true ↔ id ∈ l.map fun a => normalId a.id := by
  rw [SortedMap.contains_iff, List.mem_map]
  exact exists_congr fun a => h.find?_iff

theorem register_endsBy (h : r.Lists earlier) (a : Algorithm κ ε σ) :
    EndsBy (fun r' => r'.Lists (earlier ++ [a]) ∧ r'.defaultId = r.defaultId)
      (searchFaults earlier a) (r.register a) := by
  rw [register, searchFaults]
  generalize hid : normalId a.id = id
  by_cases hempty : id = ""
  · rw [if_pos (String.isEmpty_iff.2 hempty), faultIf, if_pos hempty]
    exact .stopped _ _
  rw [if_neg (by rwa [String.isEmpty_iff]), faultIf_eq_nil_iff.2 hempty, List.nil_append]
  by_cases htaken : id ∈ earlier.map fun x => normalId x.id
  · rw [if_pos (h.contains_iff.2 htaken), faultIf, if_pos htaken]
    exact .stopped _ _
  rw [if_neg (by rwa [h.contains_iff]), faultIf_eq_nil_iff.2 htaken]
  refine .ended ⟨⟨fun {id' x} => ?_⟩, rfl⟩
  rw [SortedMap.find?_insert_eq_some_iff, h.find?_iff, List.mem_append, List.mem_singleton]
  constructor
  · rintro (⟨rfl, rfl⟩ | ⟨-, hx, hid'⟩)
    · exact ⟨.inr rfl, hid⟩
    · exact ⟨.inl hx, hid'⟩
  · rintro ⟨hx | rfl, hid'⟩
    · exact .inr ⟨fun heq => htaken (List.mem_map.2 ⟨x, hx, hid'.trans heq⟩), hx, hid'⟩
    · exact .inl ⟨hid'.symm.trans hid, rfl⟩

theorem registerAll_endsBy (l : List (Algorithm κ ε σ)) :
    ∀ {earlier : List (Algorithm κ ε σ)} {r : SearchRegistry κ ε σ}, r.Lists earlier →
      EndsBy (fun r' => r'.Lists (earlier ++ l) ∧ r'.defaultId = r.defaultId)
        (faultsInTurn searchFaults earlier l) (r.registerAll l) := by
  induction l with
  | nil =>
      intro earlier r h
      rw [List.append_nil]
      exact .ended ⟨h, rfl⟩
  | cons a rest ih =>
      intro earlier r h
      have hbind : r.registerAll (a :: rest) = (r.register a).bind (·.registerAll rest) := by
        rw [registerAll, List.foldlM_cons]
        generalize r.register a = first
        cases first <;> rfl
      rw [hbind, faultsInTurn]
      refine (register_endsBy h a).bind fun next hnext => ?_
      rw [List.append_cons, ← hnext.2]
      exact ih hnext.1

theorem setDefault_endsBy {l : List (Algorithm κ ε σ)} (h : r.Lists l) (id : String) :
    EndsBy (fun r' => r'.Lists l ∧ r'.defaultId = some (normalId id))
      (faultIf (normalId id ∉ l.map fun a => normalId a.id) (.unknownSearch (normalId id)))
      (r.setDefault id) := by
  rw [setDefault]
  split
  case isTrue hknown =>
    rw [h.contains_iff] at hknown
    rw [faultIf_eq_nil_iff.2 (not_not.2 hknown)]
    exact .ended ⟨⟨h.find?_iff⟩, rfl⟩
  case isFalse hunknown =>
    rw [h.contains_iff] at hunknown
    rw [faultIf, if_pos hunknown]
    exact .stopped _ _

end SearchRegistry

end

/-! ## Builders -/

namespace Builder

variable {κ ε σ τ : Type}

/-- What is wrong with the default search. -/
def defaultFaults (b : Builder κ ε σ τ) : List StoreError :=
  match b.defaultSearchId with
  | none => []
  | some id =>
    faultIf (normalId id ∉ b.searches.map fun a => normalId a.id) (.unknownSearch (normalId id))

/-- What is wrong before any entity is created. -/
def setupFaults (b : Builder κ ε σ τ) : List StoreError :=
  b.config.faults ++
  (faultIf (b.serializer.isNone = true) (.configuration "no serializer registered") ++
  (faultsInTurn searchFaults [] b.searches ++ b.defaultFaults))

/-- A store is what its builder settled on, still open for writing. -/
structure Opens (b : Builder κ ε σ τ) (s : Store κ ε σ τ) : Prop where
  readOnly_eq : s.readOnly = false
  makers_eq : s.makers = b.makers
  context_eq : b.context = .ok s.context
  lists : s.searches.Lists b.searches
  defaultId_eq : s.searches.defaultId = b.defaultSearchId.map normalId
  observers_eq : s.observers = b.observers

theorem context_endsBy {b : Builder κ ε σ τ} (h : b.config.faults = []) :
    EndsBy (fun x => b.context = .ok x)
      (faultIf (b.serializer.isNone = true) (.configuration "no serializer registered"))
      b.context := by
  rw [context]
  cases b.serializer with
  | none => exact .stopped _ _
  | some serializer =>
      cases b.codec with
      | some codec => exact .ended rfl
      | none =>
          have hknown : b.config.codec = "identity" ∨ b.config.codec = "zstd" :=
            ((b.config.faults_eq_nil_iff).1 h).codec.imp_right And.left
          have hends := b.config.storageCodec_endsBy σ
          rw [faultIf_eq_nil_iff.2 (by tauto)] at hends
          obtain ⟨codec, hcodec⟩ := hends.ok_iff.2 rfl
          dsimp only
          rw [hcodec]
          exact .ended rfl

theorem registry_endsBy (b : Builder κ ε σ τ) :
    EndsBy (fun r => r.Lists b.searches ∧ r.defaultId = b.defaultSearchId.map normalId)
      (faultsInTurn searchFaults [] b.searches ++ b.defaultFaults) b.registry := by
  have hempty : (SearchRegistry.empty : SearchRegistry κ ε σ).Lists [] := by
    refine ⟨fun {id a} => ?_⟩
    simp [SearchRegistry.empty]
  have hbind : b.registry = (SearchRegistry.empty.registerAll b.searches).bind fun searches =>
      match b.defaultSearchId with
      | none => .ok searches
      | some id => searches.setDefault id := by
    rw [registry]
    cases SearchRegistry.empty.registerAll b.searches <;> rfl
  rw [hbind]
  refine (SearchRegistry.registerAll_endsBy b.searches hempty).bind fun r hr => ?_
  rw [defaultFaults]
  cases b.defaultSearchId with
  | none => exact .ended hr
  | some id => exact SearchRegistry.setDefault_endsBy hr.1 id

theorem openStore_endsBy (b : Builder κ ε σ τ) (name : String) (identity : Uuid) :
    EndsBy b.Opens b.setupFaults (b.openStore name identity) := by
  refine b.config.validate_endsBy.bind fun _ hconfig => ?_
  refine (context_endsBy hconfig).bind fun x hx => ?_
  refine b.registry_endsBy.bind_ok fun r hr => ?_
  exact ⟨rfl, rfl, hx, hr.1, hr.2, rfl⟩

/-! ## Entities from the start -/

section

variable [EntityKey κ]

/-- Whether an entity has the key of another or lists one of its references. -/
def clashes (m : Makers κ ε) (x e : ε) : Bool :=
  Index.sameKey (m.key x) (m.key e) || (m.references e).any fun r => r ∈ m.references x

theorem clashes_eq_false_iff {m : Makers κ ε} {x e : ε} : clashes m x e = false ↔
    m.key x ≠ m.key e ∧ ∀ r ∈ m.references e, r ∉ m.references x := by
  rw [clashes, Bool.or_eq_false_iff, ← Bool.not_eq_true, Index.sameKey_iff]
  simp

/-- What is wrong with an entity that is put in after others: it does not come back once it is
written, or it clashes with an earlier one. -/
def entityFaults (m : Makers κ ε) (x : Context ε σ) (session : σ) (earlier : List ε) (e : ε) :
    List StoreError :=
  match x.copyOf session e with
  | .error err => [err]
  | .ok _ =>
    faultIf (earlier.any (clashes m · e) = true)
      (.configuration ("prepopulated entity " ++
        Text.shownOption EntityKey.shown (some (m.key e)) ++ " rejected with 409"))

theorem entityFaults_eq_nil_iff (m : Makers κ ε) (x : Context ε σ) (session : σ)
    (earlier : List ε) (e : ε) : entityFaults m x session earlier e = [] ↔
      (∃ copy, x.copyOf session e = .ok copy) ∧ ∀ x ∈ earlier, m.key x ≠ m.key e ∧
        ∀ r ∈ m.references e, r ∉ m.references x := by
  rw [entityFaults]
  cases x.copyOf session e with
  | error err => simp
  | ok copy => simp [clashes_eq_false_iff]

/-- All that is wrong with a setup, in the order in which building looks for it. -/
def faults (b : Builder κ ε σ τ) (session : σ) : List StoreError :=
  b.setupFaults ++
  match b.context with
  | .error _ => []
  | .ok x => faultsInTurn (entityFaults b.makers x session) [] b.prepopulation

/-- A setup with which nothing is wrong. -/
structure IsSound (b : Builder κ ε σ τ) (session : σ) : Prop where
  config : b.config.IsValid
  serializer : b.serializer.isSome = true
  ids : ∀ a ∈ b.searches, normalId a.id ≠ ""
  ids_distinct : (b.searches.map fun a => normalId a.id).Nodup
  default_listed : ∀ id ∈ b.defaultSearchId, normalId id ∈ b.searches.map fun a => normalId a.id
  /-- Every entity can be written and read back. -/
  entities : ∀ x, b.context = .ok x → ∀ e ∈ b.prepopulation,
    ∃ copy, x.copyOf session e = .ok copy
  keys_distinct : (b.prepopulation.map b.makers.key).Nodup
  /-- No entity lists a reference that an earlier one lists. -/
  references_free : b.prepopulation.Pairwise fun x e =>
    ∀ r ∈ b.makers.references e, r ∉ b.makers.references x

omit [EntityKey κ] in
theorem defaultFaults_eq_nil_iff (b : Builder κ ε σ τ) : b.defaultFaults = [] ↔
    ∀ id ∈ b.defaultSearchId, normalId id ∈ b.searches.map fun a => normalId a.id := by
  rw [defaultFaults]
  cases b.defaultSearchId with
  | none => simp
  | some id => simp only [faultIf_eq_nil_iff, not_not, Option.mem_some_iff, forall_eq']

omit [EntityKey κ] in
theorem context_of_sound {b : Builder κ ε σ τ} (hconfig : b.config.IsValid)
    (hserializer : b.serializer.isSome = true) : ∃ x, b.context = .ok x := by
  refine (context_endsBy ((b.config.faults_eq_nil_iff).2 hconfig)).ok_iff.2 ?_
  simpa [Option.isSome_iff_ne_none] using hserializer

theorem faults_eq_nil_iff (b : Builder κ ε σ τ) (session : σ) :
    b.faults session = [] ↔ b.IsSound session := by
  have hids := faultsInTurn_eq_nil_iff (fun _ => searchFaults_eq_nil_iff) b.searches []
  have hinTurn (x : Context ε σ) := faultsInTurn_eq_nil_iff
    (entityFaults_eq_nil_iff b.makers x session) b.prepopulation []
  simp only [faults, setupFaults, List.append_eq_nil_iff, Config.faults_eq_nil_iff,
    faultIf_eq_nil_iff, defaultFaults_eq_nil_iff, hids, Bool.not_eq_true, Option.isNone_eq_false_iff]
  constructor
  · rintro ⟨⟨hconfig, hserializer, ⟨hnonempty, -, hdistinct⟩, hdefault⟩, hentities⟩
    obtain ⟨x, hx⟩ := context_of_sound hconfig hserializer
    simp only [hx, hinTurn, List.pairwise_and_iff] at hentities
    obtain ⟨hback, -, hkeys, hreferences⟩ := hentities
    refine ⟨hconfig, hserializer, hnonempty, List.pairwise_map.2 hdistinct, hdefault,
      fun y hy => ?_, List.pairwise_map.2 hkeys, hreferences⟩
    obtain rfl := Except.ok.inj (hx.symm.trans hy)
    exact hback
  · intro h
    obtain ⟨x, hx⟩ := context_of_sound h.config h.serializer
    simp only [hx, hinTurn, List.pairwise_and_iff]
    exact ⟨⟨h.config, h.serializer, ⟨h.ids, by simp, List.pairwise_map.1 h.ids_distinct⟩,
      h.default_listed⟩, h.entities x hx, by simp, List.pairwise_map.1 h.keys_distinct,
      h.references_free⟩

end

end Builder

end EntityStore
