import EntityStore.Proofs.Etag
import EntityStore.Proofs.Interleaving.ReadHits
import EntityStore.Proofs.Interleaving.Whole
import EntityStore.Proofs.Store.Documents

/-!
# Read-only stores

A read-only store turns every write down before it looks at anything, so the
state afterwards is the very state from before (`Store.answer_of_turnedDown`),
and nothing but the key maker of the store has a part in the answer: the same
comes of any other store that makes the same keys. A look-up does not ask
whether the store is read-only, and moves read hits and the memory at most. So a
run of calls is the run of its look-ups, and what the builder put in stays.

The store is opened and populated before the flag takes effect, which is why the
writable store that it is compared with is the one that the same builder hands
out with the flag switched off.
-/

namespace EntityStore

variable {κ ε σ τ : Type}

/-- Whether a call is one that writes. -/
def Call.isWrite : Call κ ε → Bool
  | .entity (.create _ _) => true
  | .entity (.update _ _) => true
  | .entity (.delete _ _) => true
  | _ => false

namespace Store

/-- What a read-only store answers to a write. -/
def turnedDown (s : Store κ ε σ τ) : Call κ ε → Option (Answer κ ε)
  | .entity (.create e settings) =>
    some (.entity (.entity (.ok (refusal (some (s.makers.key e)) none settings))))
  | .entity (.update e settings) =>
    some (.entity (.entity (.ok (refusal (some (s.makers.key e)) none settings))))
  | .entity (.delete target settings) =>
    some (.entity (.version (refusal target.key? (requested target) settings)))
  | _ => none

theorem exists_turnedDown (s : Store κ ε σ τ) {c : Call κ ε} (h : c.isWrite = true) :
    ∃ a, s.turnedDown c = some (.entity a) ∧ a.code? = some .badRequest := by
  cases c with
  | entity c =>
      cases c with
      | create e settings => exact ⟨_, rfl, rfl⟩
      | update e settings => exact ⟨_, rfl, rfl⟩
      | delete target settings => exact ⟨_, rfl, rfl⟩
      | read target settings => cases h
      | version target settings => cases h
  | search request settings => cases h
  | searchEntities request settings => cases h

variable [EntityKey κ] {s : Store κ ε σ τ}

/-- A read-only store turns a write down and is left in the state it was found in. -/
theorem answer_of_turnedDown (h : s.readOnly = true) {c : Call κ ε} {a : Answer κ ε}
    (ha : s.turnedDown c = some a) (st : State κ ε σ τ) : s.answer c st = (a, st) := by
  cases c with
  | entity c =>
      cases c with
      | create e settings =>
          obtain rfl := Option.some.inj ha
          simp only [answer, perform, create, h, if_true]
          rfl
      | update e settings =>
          obtain rfl := Option.some.inj ha
          simp only [answer, perform, update, h, if_true]
          rfl
      | delete target settings =>
          obtain rfl := Option.some.inj ha
          simp only [answer, perform, delete, h, if_true]
          rfl
      | read target settings => cases ha
      | version target settings => cases ha
  | search request settings => cases ha
  | searchEntities request settings => cases ha

/-- A write makes no difference to a read-only store. -/
theorem answer_write_state (h : s.readOnly = true) {c : Call κ ε} (hc : c.isWrite = true)
    (st : State κ ε σ τ) : (s.answer c st).2 = st := by
  obtain ⟨a, ha, -⟩ := s.exists_turnedDown hc
  rw [answer_of_turnedDown h ha]

/-- Look-ups are answered by a read-only store as by any other. -/
theorem answer_lookup (s : Store κ ε σ τ) {c : Call κ ε} (hc : c.isWrite = false)
    (st : State κ ε σ τ) : s.answer c st = s.opened.answer c st := by
  cases c with
  | entity c =>
      cases c with
      | create e settings => cases hc
      | update e settings => cases hc
      | delete target settings => cases hc
      | read target settings => rfl
      | version target settings => rfl
  | search request settings => rfl
  | searchEntities request settings => rfl

/-- A look-up moves read hits at most. -/
theorem answer_lookup_index (s : Store κ ε σ τ) {c : Call κ ε} (hc : c.isWrite = false)
    (st : State κ ε σ τ) : ∃ hits, (s.answer c st).2.index = { st.index with hits } := by
  cases c with
  | entity c =>
      cases c with
      | create e settings => cases hc
      | update e settings => cases hc
      | delete target settings => cases hc
      | read target settings => exact s.read_index target settings st
      | version target settings => exact version_index target settings st
  | search request settings =>
      exact ⟨st.index.hits, congrArg Gate.inner (s.searchWith_gate _ request settings st)⟩
  | searchEntities request settings =>
      exact ⟨st.index.hits, congrArg Gate.inner (s.searchWith_gate _ request settings st)⟩

/-! ## Runs -/

/-- A run of a read-only store is the run of its look-ups on the open store. -/
theorem after_readOnly (h : s.readOnly = true) (calls : List (Call κ ε)) :
    ∀ st : State κ ε σ τ,
      s.after calls st = s.opened.after (calls.filter fun c => !c.isWrite) st := by
  induction calls with
  | nil => exact fun _ => rfl
  | cons c rest ih =>
      intro st
      change s.after rest (s.answer c st).2 = _
      cases hc : c.isWrite with
      | true =>
          rw [answer_write_state h hc, List.filter_cons_of_neg (by rw [hc]; decide), ih]
      | false =>
          rw [List.filter_cons_of_pos (by rw [hc]; rfl), ih, s.answer_lookup hc]
          rfl

theorem after_lookups_index (s : Store κ ε σ τ) (calls : List (Call κ ε)) :
    ∀ st : State κ ε σ τ, (∀ c ∈ calls, c.isWrite = false) →
      ∃ hits, (s.after calls st).index = { st.index with hits } := by
  induction calls with
  | nil => exact fun st _ => ⟨st.index.hits, rfl⟩
  | cons c rest ih =>
      intro st hcalls
      obtain ⟨hits, hhead⟩ := s.answer_lookup_index (hcalls c List.mem_cons_self) st
      obtain ⟨hits', hrest⟩ := ih (s.answer c st).2 fun c hc => hcalls c (List.mem_cons_of_mem _ hc)
      refine ⟨hits', ?_⟩
      change (s.after rest (s.answer c st).2).index = _
      rw [hrest, hhead]

/-- Whatever is called, read hits are all that becomes different in the index. -/
theorem after_readOnly_index (h : s.readOnly = true) (calls : List (Call κ ε))
    (st : State κ ε σ τ) : ∃ hits, (s.after calls st).index = { st.index with hits } := by
  rw [after_readOnly h]
  refine after_lookups_index s.opened _ st fun c hc => ?_
  simpa using (List.mem_filter.1 hc).2

end Store

/-! ## Several clients at once -/

section

variable [EntityKey κ] {s : Store κ ε σ τ}

theorem LogEntry.Effect.of_lookup {entry : LogEntry κ ε} {ix ix' : Index κ}
    (h : entry.Effect s ix ix') (hc : entry.call.isWrite = false) :
    ∃ hits, ix' = { ix with hits } := by
  cases h with
  | kept hits _ => exact ⟨hits, rfl⟩
  | created hcall _ _ _ _ =>
      rw [hcall] at hc
      cases hc
  | replaced hcall _ _ _ _ _ _ =>
      rw [hcall] at hc
      cases hc
  | deleted hcall _ _ _ _ =>
      rw [hcall] at hc
      cases hc

/-- A write is turned down in its first step, so only look-ups have another. -/
theorem Store.begin_readOnly (h : s.readOnly = true) {c : Call κ ε} {st : State κ ε σ τ}
    {stage : Stage κ ε σ} (hstage : (s.begin c st).1.stage? = some stage) : c.isWrite = false := by
  cases c with
  | entity c =>
      cases c with
      | read target settings => rfl
      | version target settings => rfl
      | _ =>
          simp only [begin, h, if_true] at hstage
          cases hstage
  | search request settings => rfl
  | searchEntities request settings => rfl

namespace World

/-- A world of which the contents are as they were, and in which only look-ups are under way. -/
structure Untouched (s : Store κ ε σ τ) (ix : Index κ) (w : World κ ε σ τ) : Prop where
  orderly : w.Orderly s
  index_eq : ∃ hits, w.state.index = { ix with hits }
  lookups : ∀ {client f}, w.flights client = some f → f.call.isWrite = false

theorem step_untouched (h : s.readOnly = true) {ix : Index κ} {w : World κ ε σ τ}
    (hw : w.Untouched s ix) (m : Move κ ε) : (w.step s m).Untouched s ix := by
  have horderly := step_orderly hw.orderly m
  obtain ⟨hits, hix⟩ := hw.index_eq
  rcases step_cases s w m with hsame | ⟨client, c, hstep⟩ | ⟨client, f, hf, hstep⟩
  · rw [hsame]
    exact hw
  · rw [hstep] at horderly ⊢
    refine ⟨horderly, ⟨hits, ?_⟩, fun {n f} hflight => ?_⟩
    · rw [← hix]
      exact congrArg Gate.inner (s.begin_gate c w.state)
    · rcases flights_note hflight with ⟨stage, hstage, rfl⟩ | hold
      · exact Store.begin_readOnly h hstage
      · exact hw.lookups hold
  · rw [hstep] at horderly ⊢
    refine ⟨horderly, ?_, fun {n f'} hflight => ?_⟩
    · have heffect := s.advance_effect hw.orderly.exact (hw.orderly.fits hf) client
      obtain ⟨hits', hix'⟩ := heffect.of_lookup (hw.lookups hf)
      refine ⟨hits', ?_⟩
      change (s.advance f.stage w.state).2.index = _
      rw [hix', hix]
    · rcases flights_note hflight with ⟨stage, -, rfl⟩ | hold
      · change f.call.isWrite = false
        exact hw.lookups hf
      · exact hw.lookups hold

theorem run_untouched (h : s.readOnly = true) {st : State κ ε σ τ} (hexact : st.index.Exact)
    (moves : List (Move κ ε)) : (run s moves (start st)).Untouched s st.index := by
  refine run_induction (P := Untouched s st.index) (fun _ m hw => step_untouched h hw m) moves ?_
  refine ⟨⟨hexact, ?_, ?_⟩, ⟨st.index.hits, rfl⟩, ?_⟩
  · intro client f hf
    cases hf
  · intro client f hf
    cases hf
  · intro client f hf
    cases hf

end World

end

namespace Builder

variable [EntityKey κ] {b : Builder κ ε σ τ} {name : String} {identity : Uuid} {session : σ}
  {tokens : τ} {s : Store κ ε σ τ} {st : State κ ε σ τ}

/-- The store that the builder hands out with the flag switched off. -/
theorem build_writable (h : b.build name identity session tokens = .ok (s, st)) :
    (b.withReadOnly false).build name identity session tokens = .ok (s.opened, st) := by
  obtain ⟨hopen, -, hpop⟩ := build_cases h
  have hopen' : (b.withReadOnly false).openStore name identity = .ok s.opened := hopen
  rw [build, hopen']
  change (populate s.opened b.prepopulation (State.start session tokens)).bind _ = _
  rw [hpop]
  rfl

/-- Read-only means read-only for ever. A store that is built read-only has the contents of the
writable one that the same builder hands out, and keeps them whatever is called, one call after
another or by several clients at once. Every write is answered 400 and leaves the state as it was,
tokens, session and deliveries included, whatever context, policies and observers the store has. A
look-up is answered as by the writable store on which the look-ups before it were made. -/
theorem build_readOnly (h : b.build name identity session tokens = .ok (s, st))
    (hreadOnly : b.config.readOnly = true) :
    (b.withReadOnly false).build name identity session tokens = .ok (s.opened, st) ∧
    (∀ calls, (s.after calls st).index.containers = st.index.containers ∧
      (s.after calls st).index.owners = st.index.owners ∧
      (s.after calls st).count = st.count ∧
      (s.after calls st).referenceCount = st.referenceCount ∧
      s.etag (s.after calls st) = s.etag st) ∧
    (∀ moves, ∃ hits, (World.run s moves (World.start st)).state.index = { st.index with hits }) ∧
    ∀ calls c,
      (c.isWrite = true →
        (s.answer c (s.after calls st)).1.code? = some .badRequest ∧
        (s.answer c (s.after calls st)).2 = s.after calls st ∧
        ∀ context versionPolicy signaturePolicy observers,
          ({ s with context, versionPolicy, signaturePolicy, observers } : Store κ ε σ τ).answer c
            (s.after calls st) = s.answer c (s.after calls st)) ∧
      (c.isWrite = false → s.answer c (s.after calls st) =
        s.opened.answer c (s.opened.after (calls.filter fun c => !c.isWrite) st)) := by
  have hflag : s.readOnly = true := (build_cases h).2.1.trans hreadOnly
  refine ⟨build_writable h, fun calls => ?_, fun moves => ?_, fun calls c => ⟨fun hc => ?_, ?_⟩⟩
  · obtain ⟨hits, hix⟩ := Store.after_readOnly_index hflag calls st
    exact ⟨by rw [hix], by rw [hix], (congrArg Index.size hix :),
      (congrArg Index.referenceCount hix :), (congrArg s.etagOf hix :)⟩
  · obtain ⟨w, hw, rfl⟩ := build_reaches h
    exact (World.run_untouched hflag hw.counted.1.exact moves).index_eq
  · obtain ⟨a, ha, hcode⟩ := s.exists_turnedDown hc
    rw [Store.answer_of_turnedDown hflag ha]
    refine ⟨hcode, rfl, fun context versionPolicy signaturePolicy observers => ?_⟩
    exact Store.answer_of_turnedDown
      (s := { s with context, versionPolicy, signaturePolicy, observers }) hflag ha _
  · intro hc
    rw [s.answer_lookup hc, Store.after_readOnly hflag]

/-- A read-only collection of one document, which has a token and can be found by reference. -/
def archive : Builder String Doc Unit Nat where
  makers := Doc.store.makers
  versionPolicy := Doc.store.versionPolicy
  serializer := some Serializer.json
  searches := [Scan.algorithm Scan.defaultId]
  prepopulation := [{ id := "a", references := [⟨"r", "1"⟩], version := some "v" }]
  config := { readOnly := true, codec := "identity" }

theorem archive_writes_refused :
    ∃ s st, archive.build "docs" ⟨0⟩ () 0 = .ok (s, st) ∧ archive.config.readOnly = true ∧
      ∀ calls, (s.after calls st).count = 1 ∧
        (s.answer (.entity (.update { id := "a", version := some "stale" } none))
          (s.after calls st)).1.code? = some .badRequest ∧
        (s.answer (.entity (.delete (.reference ⟨"r", "2"⟩) none)) (s.after calls st)).2 =
          s.after calls st := by
  have hcount : (archive.build "docs" ⟨0⟩ () 0).toOption.map (fun built => built.2.count) =
      some 1 := by decide +kernel
  cases hbuild : archive.build "docs" ⟨0⟩ () 0 with
  | error err =>
      rw [hbuild] at hcount
      cases hcount
  | ok built =>
      obtain ⟨s, st⟩ := built
      rw [hbuild] at hcount
      obtain ⟨-, hkept, -, hcalls⟩ := build_readOnly hbuild rfl
      refine ⟨s, st, rfl, rfl, fun calls => ⟨?_, ?_, ?_⟩⟩
      · exact (hkept calls).2.2.1.trans (Option.some.inj hcount)
      · exact ((hcalls calls _).1 rfl).1
      · exact ((hcalls calls _).1 rfl).2.1

end Builder

end EntityStore
