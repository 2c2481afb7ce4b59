import EntityStore.Proofs.Building.Populate

/-!
# What a sequence of steps builds

A store is set up in steps that say one thing after another, and a step may
take back what earlier ones said. `SetupStep.tells` is what each step says by
itself. What all of them settle on is read off the sequence as a whole
(`Builder.settled`): of what can be said once, what was said last; of what adds
up, all of it in order. A step with a configuration says everything that a
configuration can say, so it takes back the earlier ones about any part of it.

Then building is a function of what was settled on: it succeeds if and only if
nothing is wrong with that, and fails with the first thing that is.
-/

namespace EntityStore

variable {κ ε σ τ : Type}

/-- A step of setting up a store. -/
inductive SetupStep (κ ε σ τ : Type) where
  | references (f : ε → List Reference)
  | properties (f : ε → List Property)
  | versionPolicy (p : VersionPolicy ε τ)
  | signaturePolicy (p : SignaturePolicy ε)
  | serializer (z : Serializer ε σ)
  | codec (c : Codec σ)
  | search (a : Algorithm κ ε σ)
  | searchAsDefault (a : Algorithm κ ε σ)
  | defaultSearch (id : String)
  | entities (es : List ε)
  | observer (o : Observer)
  | config (c : Config)
  | readOnly (flag : Bool)
  | collectionName (name : String)
  | eagerDeserialize (flag : Bool)

namespace Builder

def take (b : Builder κ ε σ τ) : SetupStep κ ε σ τ → Builder κ ε σ τ
  | .references f => b.withReferences f
  | .properties f => b.withProperties f
  | .versionPolicy p => b.withVersionPolicy p
  | .signaturePolicy p => b.withSignaturePolicy p
  | .serializer z => b.withSerializer z
  | .codec c => b.withCodec c
  | .search a => b.withSearch a
  | .searchAsDefault a => b.withSearchAsDefault a
  | .defaultSearch id => b.withDefaultSearch id
  | .entities es => b.withEntities es
  | .observer o => b.withObserver o
  | .config c => b.withConfig c
  | .readOnly flag => b.withReadOnly flag
  | .collectionName name => b.withCollectionName name
  | .eagerDeserialize flag => b.withEagerDeserialize flag

def takeAll (b : Builder κ ε σ τ) (steps : List (SetupStep κ ε σ τ)) : Builder κ ε σ τ :=
  steps.foldl take b

end Builder

/-! ## What was said -/

/-- What a step says of each thing that can be said. -/
structure Said (κ ε σ τ : Type) where
  references : Option (ε → List Reference) := none
  properties : Option (ε → List Property) := none
  versionPolicy : Option (VersionPolicy ε τ) := none
  signaturePolicy : Option (SignaturePolicy ε) := none
  serializer : Option (Serializer ε σ) := none
  codec : Option (Codec σ) := none
  searches : List (Algorithm κ ε σ) := []
  defaultSearch : Option String := none
  prepopulation : List ε := []
  observers : List Observer := []
  readOnly : Option Bool := none
  collectionName : Option (Option String) := none
  configuredSearch : Option (Option String) := none
  configuredCodec : Option String := none
  compressionLevel : Option Int32 := none
  eagerDeserialize : Option Bool := none

namespace SetupStep

def tells : SetupStep κ ε σ τ → Said κ ε σ τ
  | .references f => { references := some f }
  | .properties f => { properties := some f }
  | .versionPolicy p => { versionPolicy := some p }
  | .signaturePolicy p => { signaturePolicy := some p }
  | .serializer z => { serializer := some z }
  | .codec c => { codec := some c }
  | .search a => { searches := [a] }
  | .searchAsDefault a => { searches := [a], defaultSearch := some a.id }
  | .defaultSearch id => { defaultSearch := some id }
  | .entities es => { prepopulation := es }
  | .observer o => { observers := [o] }
  | .config c => {
      readOnly := some c.readOnly
      collectionName := some c.collectionName
      configuredSearch := some c.defaultSearch
      configuredCodec := some c.codec
      compressionLevel := some c.compressionLevel
      eagerDeserialize := some c.eagerDeserialize }
  | .readOnly flag => { readOnly := some flag }
  | .collectionName name => { collectionName := some (some name) }
  | .eagerDeserialize flag => { eagerDeserialize := some flag }

variable {α : Type}

/-- What was said last of a thing, if anything was. -/
def last? (said : Said κ ε σ τ → Option α) (steps : List (SetupStep κ ε σ τ)) : Option α :=
  (steps.filterMap fun step => said step.tells).getLast?

/-- All that was said of a thing, in order. -/
def all (said : Said κ ε σ τ → List α) (steps : List (SetupStep κ ε σ τ)) : List α :=
  steps.flatMap fun step => said step.tells

theorem last?_cons (said : Said κ ε σ τ → Option α) (step : SetupStep κ ε σ τ)
    (rest : List (SetupStep κ ε σ τ)) :
    last? said (step :: rest) = (last? said rest).or (said step.tells) := by
  rw [last?, List.filterMap_cons, last?]
  cases said step.tells with
  | none => simp
  | some a =>
      dsimp only
      rw [List.getLast?_cons, ← Option.or_some]

theorem all_cons (said : Said κ ε σ τ → List α) (step : SetupStep κ ε σ τ)
    (rest : List (SetupStep κ ε σ τ)) : all said (step :: rest) = said step.tells ++ all said rest :=
  rfl

end SetupStep

namespace Builder

open SetupStep

/-- What a builder and the steps after it settle on. -/
def settled (b : Builder κ ε σ τ) (steps : List (SetupStep κ ε σ τ)) : Builder κ ε σ τ where
  makers := {
    key := b.makers.key
    references := (last? Said.references steps).getD b.makers.references
    properties := (last? Said.properties steps).getD b.makers.properties }
  versionPolicy := (last? Said.versionPolicy steps).or b.versionPolicy
  signaturePolicy := (last? Said.signaturePolicy steps).or b.signaturePolicy
  serializer := (last? Said.serializer steps).or b.serializer
  codec := (last? Said.codec steps).or b.codec
  searches := b.searches ++ all Said.searches steps
  defaultSearch := (last? Said.defaultSearch steps).or b.defaultSearch
  prepopulation := b.prepopulation ++ all Said.prepopulation steps
  observers := b.observers ++ all Said.observers steps
  config := {
    readOnly := (last? Said.readOnly steps).getD b.config.readOnly
    collectionName := (last? Said.collectionName steps).getD b.config.collectionName
    defaultSearch := (last? Said.configuredSearch steps).getD b.config.defaultSearch
    codec := (last? Said.configuredCodec steps).getD b.config.codec
    compressionLevel := (last? Said.compressionLevel steps).getD b.config.compressionLevel
    eagerDeserialize := (last? Said.eagerDeserialize steps).getD b.config.eagerDeserialize }

theorem settled_cons (b : Builder κ ε σ τ) (step : SetupStep κ ε σ τ)
    (rest : List (SetupStep κ ε σ τ)) : b.settled (step :: rest) = (b.take step).settled rest := by
  have hgetD : ∀ {α : Type} (later here : Option α) (before : α),
      (later.or here).getD before = later.getD (here.getD before) := by
    intro α later here before
    cases later <;> rfl
  simp only [settled, last?_cons, all_cons, hgetD, Option.or_assoc, ← List.append_assoc]
  cases step <;> simp [take, tells, withReferences, withProperties, withVersionPolicy,
    withSignaturePolicy, withSerializer, withCodec, withSearch, withSearchAsDefault,
    withDefaultSearch, withEntities, withObserver, withConfig, withReadOnly, withCollectionName,
    withEagerDeserialize]

theorem takeAll_eq (steps : List (SetupStep κ ε σ τ)) :
    ∀ b : Builder κ ε σ τ, b.takeAll steps = b.settled steps := by
  induction steps with
  | nil =>
      intro b
      simp [takeAll, settled, last?, all]
  | cons step rest ih =>
      intro b
      rw [settled_cons, ← ih]
      rfl

/-! ## Building -/

theorem context_isPure {b : Builder κ ε σ τ} (hserializer : ∀ z ∈ b.serializer, z.IsPure)
    (hcodec : ∀ c ∈ b.codec, c.IsPure) {x : Context ε σ} (hx : b.context = .ok x) : x.IsPure := by
  rw [context] at hx
  cases hz : b.serializer with
  | none =>
      rw [hz] at hx
      cases hx
  | some z =>
      rw [hz] at hx hserializer
      cases hc : b.codec with
      | some c =>
          rw [hc] at hx hcodec
          obtain rfl := Except.ok.inj hx
          exact ⟨hserializer z rfl, hcodec c rfl⟩
      | none =>
          rw [hc] at hx
          dsimp only at hx
          rw [Config.storageCodec] at hx
          cases hnamed : (Codec.named? b.config.codec b.config.compressionLevel :
              Except CodecError (Codec σ)) with
          | error err =>
              rw [hnamed] at hx
              cases hx
          | ok c =>
              rw [hnamed] at hx
              obtain rfl := Except.ok.inj hx
              exact ⟨hserializer z rfl, Codec.named?_isPure hnamed⟩

variable [EntityKey κ]

/-- What is built is a function of what the steps settle on. Building succeeds if and only if that
is sound, and fails with the first of its faults otherwise. What is handed out is the store that is
built writable and without entities, in the state that comes of creating the entities in it, each
answered 201, and read-only if the configuration says so. -/
theorem build_takeAll (b : Builder κ ε σ τ) (steps : List (SetupStep κ ε σ τ))
    (hserializer : ∀ z ∈ (b.settled steps).serializer, z.IsPure)
    (hcodec : ∀ c ∈ (b.settled steps).codec, c.IsPure) (name : String) (identity : Uuid)
    (session : σ) (tokens : τ) :
    b.takeAll steps = b.settled steps ∧
    ((∃ built, (b.takeAll steps).build name identity session tokens = .ok built) ↔
      (b.settled steps).IsSound session) ∧
    (∀ err, (b.takeAll steps).build name identity session tokens = .error err ↔
      ((b.settled steps).faults session).head? = some err) ∧
    ∀ s st, (b.takeAll steps).build name identity session tokens = .ok (s, st) →
      (b.settled steps).Sets name identity session tokens s st ∧
      st.count = (b.settled steps).prepopulation.length ∧
      s.etag st = Etag.text s.collectionId (b.settled steps).prepopulation.length := by
  have hends := build_endsBy (fun _ hx => context_isPure hserializer hcodec hx) name identity
    session tokens
  rw [takeAll_eq]
  refine ⟨rfl, by rw [hends.ok_iff, faults_eq_nil_iff], hends.error_iff, fun s st hbuilt => ?_⟩
  have hsets := hends.of_ok hbuilt
  have hsound := (faults_eq_nil_iff _ session).1 (hends.ok_iff.1 ⟨_, hbuilt⟩)
  have hkeys := hsound.keys_distinct
  rw [← hsets.opens.makers_eq] at hkeys
  refine ⟨hsets, hsets.holds.count_eq hkeys, ?_⟩
  exact congrArg (Etag.text s.collectionId) hsets.holds.revision_eq

/-- Documents and what is said of them, some of it twice. -/
def shelfSteps : List (SetupStep String Doc Unit Nat) := [
  .references Doc.references,
  .collectionName "old",
  .readOnly false,
  .entities [{ id := "a", references := [⟨"r", "1"⟩, ⟨"r", "1"⟩] }],
  .searchAsDefault (Scan.algorithm " First "),
  .config { collectionName := some "docs", defaultSearch := some "none", codec := "identity" },
  .search (Scan.algorithm "second"),
  .defaultSearch "SECOND ",
  .entities [{ id := "b", references := [⟨"r", "2"⟩] }],
  .readOnly true]

theorem build_shelfSteps :
    (∀ z ∈ ((ofMakers { key := Doc.id }).settled shelfSteps).serializer, z.IsPure) ∧
    (∀ c ∈ ((ofMakers { key := Doc.id }).settled shelfSteps).codec, c.IsPure) ∧
    ((ofMakers { key := Doc.id }).settled shelfSteps).IsSound () ∧
    ∃ s st, ((ofMakers { key := Doc.id }).takeAll shelfSteps).build "Doc" ⟨0⟩ () 0 = .ok (s, st) ∧
      s.readOnly = true ∧ s.defaultSearchId = some "second" ∧ st.count = 2 := by
  have hserializer : ∀ z ∈ ((ofMakers { key := Doc.id }).settled shelfSteps).serializer,
      z.IsPure := by
    intro z hz
    obtain rfl := Option.some.inj hz
    exact Serializer.json_isPure
  have hcodec : ∀ c ∈ ((ofMakers { key := Doc.id }).settled shelfSteps).codec, c.IsPure := by
    intro c hc
    cases hc
  obtain ⟨-, hiff, -, hsets⟩ := build_takeAll _ shelfSteps hserializer hcodec "Doc" ⟨0⟩ () 0
  have hok : (((ofMakers { key := Doc.id }).takeAll shelfSteps).build "Doc" ⟨0⟩ () 0).isOk =
      true := by decide +kernel
  cases hbuilt : ((ofMakers { key := Doc.id }).takeAll shelfSteps).build "Doc" ⟨0⟩ () 0 with
  | error err =>
      rw [hbuilt] at hok
      cases hok
  | ok built =>
      obtain ⟨hset, hcount, -⟩ := hsets built.1 built.2 hbuilt
      exact ⟨hserializer, hcodec, hiff.1 ⟨built, hbuilt⟩, built.1, built.2, rfl, hset.readOnly_eq,
        hset.opens.defaultId_eq.trans (by decide +kernel), hcount⟩

end Builder

end EntityStore
