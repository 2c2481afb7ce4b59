import EntityStore.Codec.Metered
import EntityStore.Proofs.Etag
import EntityStore.Proofs.Interleaving.Whole

/-!
# A failed call leaves the store as it was

A call fails if it is answered by an error or by a code that is neither 200 nor
201. There are many ways to fail, outside the gate and inside it, and the
serializer and the codec may fail at any of their calls, so the claim is proved
step by step: a step that does not end its call in success leaves the index as
it is (`Store.advance_index_eq`), and the memory may at most be filled in.

What is remembered under a handle is never forgotten and never replaced. That
hangs on handles being given out once, hence on the state being one that the
store can be in, and not on the context.
-/

namespace EntityStore

variable {κ ε σ τ : Type} [EntityKey κ]

omit [EntityKey κ] in
/-- Whether a call failed: its answer is an error, or has a code other than 200 and 201. -/
def Answer.isFailure (a : Answer κ ε) : Bool :=
  a.code? != some .ok && a.code? != some .created

omit [EntityKey κ] in
theorem Answer.isFailure_iff {a : Answer κ ε} :
    a.isFailure = true ↔ a.code? ≠ some .ok ∧ a.code? ≠ some .created := by
  rw [isFailure, Bool.and_eq_true, bne_iff_ne, bne_iff_ne]

/-- A later state with the same containers, owners, hits and revision. Whatever was remembered is
remembered still, and what was added for a stored container is what its blob decoded to. -/
structure State.Keeps (x : Context ε σ) (st st' : State κ ε σ τ) : Prop where
  index_eq : st'.index = st.index
  remembered : ∀ {h e}, st.memory.decoded.find? h = some e → st'.memory.decoded.find? h = some e
  filled : ∀ {c}, st.index.Live c →
    st'.memory.decoded.find? c.handle = st.memory.decoded.find? c.handle ∨
    st.memory.decoded.find? c.handle = none ∧ ∃ e session,
      st'.memory.decoded.find? c.handle = some e ∧ (x.decode c.blob session).1 = .ok e

/-- If the index is as it was, and the memory was at most filled in, everything was kept. -/
theorem State.Grounded.keeps {s : Store κ ε σ τ} {made made' : Container κ → Prop}
    {st st' : State κ ε σ τ} (h : st.Grounded s made) (h' : st'.Grounded s made')
    (hle : ∀ c, made c → made' c) (hindex : st'.index = st.index)
    (hfills : st.memory.Fills s.context made' st'.memory) : State.Keeps s.context st st' where
  index_eq := hindex
  remembered {k e} he := by
    rcases hfills.find?_cases (h.tidy he) with hsame | ⟨hnone, -⟩
    · exact hsame.trans he
    · rw [he] at hnone
      cases hnone
  filled {c} hc := by
    have hmade := h.live hc
    rcases hfills.find?_cases (h.handle_lt hmade) with
      hsame | ⟨hnone, d, e, session, hd, hhandle, hsome, hdec⟩
    · exact .inl hsame
    · obtain rfl := h'.handle_inj hd (hle _ hmade) hhandle
      exact .inr ⟨hnone, e, session, hsome, hdec⟩

namespace Store

variable {s : Store κ ε σ τ} {made : Container κ → Prop} {st : State κ ε σ τ}

/-! ## The index -/

theorem read_index_eq {target : Target κ} {settings : Option Settings}
    (hfail : (EntityAnswer.entity (s.read target settings st).1).code? ≠ some .ok) :
    (s.read target settings st).2.index = st.index := by
  cases hc : st.index.find? target with
  | none => rw [s.read_of_none hc]
  | some c =>
      obtain ⟨m', ⟨err, -, heq⟩ | ⟨e, -, ⟨-, heq⟩ | ⟨-, heq⟩⟩⟩ := s.read_cases settings hc
      · rw [heq]
      · rw [heq]
      · rw [heq] at hfail
        exact absurd rfl hfail

theorem version_index_eq {target : Target κ} {settings : Option Settings}
    (hfail : (version target settings st).1.code ≠ .ok) :
    (version target settings st).2.index = st.index := by
  cases hc : st.index.find? target with
  | none => rw [version_of_none hc]
  | some c =>
      rw [version_of_some hc] at hfail
      exact absurd rfl hfail

/-- A visit that does not end its call in success leaves the index as it found it, and so does all
work outside the gate. -/
theorem advance_index_eq (hexact : st.index.Exact) (stage : Stage κ ε σ)
    (hfail : ∀ a, (s.advance stage st).1 = .done a → a.isFailure = true) :
    (s.advance stage st).2.index = st.index := by
  cases stage with
  | enter c settings =>
      change (enter c settings st).2.index = _
      obtain ⟨-, hcode⟩ := Answer.isFailure_iff.1
        (hfail (.entity (.entity (.ok (enter c settings st).1))) rfl)
      rcases enter_cases c settings st with ⟨-, henter⟩ | ⟨-, -, henter⟩
      · rw [henter]
      · rw [henter] at hcode
        exact absurd rfl hcode
  | commit p settings =>
      obtain ⟨hcode, -⟩ := Answer.isFailure_iff.1 (hfail _ rfl)
      rcases commit_refused hexact p settings with hok | ⟨-, hsame⟩
      · exact absurd (congrArg some hok) hcode
      · exact congrArg State.index hsame
  | remove target settings =>
      obtain ⟨hcode, -⟩ := Answer.isFailure_iff.1
        (hfail (.entity (.version (remove target settings st).1)) rfl)
      change (remove target settings st).2.index = _
      cases hc : st.index.find? target with
      | none => rw [remove_of_none hexact hc]
      | some c =>
          rw [remove_of_some hexact hc] at hcode
          exact absurd rfl hcode
  | read target settings => exact read_index_eq (Answer.isFailure_iff.1 (hfail _ rfl)).1
  | version target settings =>
      refine version_index_eq fun hok => ?_
      exact (Answer.isFailure_iff.1 (hfail _ rfl)).1 (congrArg some hok)
  | takeSnapshot wanted a request settings => rfl
  | search wanted a snapshot request settings =>
      exact congrArg Gate.inner (s.advance_search_gate wanted a snapshot request settings st)

theorem Ends.index_eq {p : Progress κ ε σ × State κ ε σ τ} {r : Answer κ ε × State κ ε σ τ}
    (hends : s.Ends p r) {call : Call κ ε} (h : p.2.Grounded s made)
    (hstage : ∀ stage, p.1.stage? = some stage → stage.Grounded s made call)
    (hfail : r.1.isFailure = true) : r.2.index = p.2.index := by
  induction hends with
  | done a st => rfl
  | @next stage st r hrest ih =>
      obtain ⟨hnext, hstages⟩ := advance_grounded h (hstage stage rfl)
      have hstep : (s.advance stage st).2.index = st.index := by
        refine advance_index_eq h.exact stage fun a ha => ?_
        cases hadvance : s.advance stage st with
        | mk p' st' =>
            rw [hadvance] at ha hrest
            obtain rfl : p' = .done a := ha
            cases hrest
            exact hfail
      exact (ih hnext hstages hfail).trans hstep

/-- A failed call keeps everything, in every state that stands on what was made. -/
theorem answer_keeps (hs : s.searches.OnlyDecodes) (h : st.Grounded s made) {call : Call κ ε}
    (hfail : (s.answer call st).1.isFailure = true) :
    State.Keeps s.context st (s.answer call st).2 := by
  obtain ⟨made', hle, hend, hfills⟩ := answer_grounded hs h call
  obtain ⟨made'', -, hnext, hstages⟩ := begin_grounded hs h call
  have hindex := (s.begin_ends call st).index_eq hnext hstages hfail
  rw [show (s.begin call st).2.index = st.index from congrArg Gate.inner (s.begin_gate call st)]
    at hindex
  exact h.keeps hend hle hindex hfills

end Store

namespace World

variable {s : Store κ ε σ τ} {made : Container κ → Prop} {w : World κ ε σ τ}

/-- A step that does not end a call in success keeps everything. -/
theorem step_keeps (hs : s.searches.OnlyDecodes) (h : w.Grounded s made) {m : Move κ ε}
    (hfail : ∀ entry, (w.step s m).log = w.log ++ [entry] →
      entry.answer.all Answer.isFailure = true) :
    State.Keeps s.context w.state (w.step s m).state := by
  rcases step_cases s w m with hsame | ⟨client, c, hstep⟩ | ⟨client, f, hf, hstep⟩
  · rw [hsame]
    exact h.state.keeps h.state (fun _ => id) rfl (.refl _)
  · rw [hstep]
    obtain ⟨made', hle, hnext, -⟩ := Store.begin_grounded hs h.state c
    exact h.state.keeps hnext hle (congrArg Gate.inner (s.begin_gate c w.state))
      (Store.begin_extends h.state.tidy c).fills
  · rw [hstep] at hfail ⊢
    have hstage := h.flights hf
    obtain ⟨hnext, -⟩ := Store.advance_grounded h.state hstage
    refine h.state.keeps hnext (fun _ => id) ?_ (Store.advance_fills h.state.bounded hstage)
    refine Store.advance_index_eq h.state.exact f.stage fun a ha => ?_
    have hentry := hfail _ rfl
    rw [ha] at hentry
    exact hentry

end World

namespace Store

/-- A failed call leaves the store as it was. In every state that a store can be in, whatever its
serializer and codec do, a call that fails keeps containers, owners, revision and hits, and at most
fills in what containers decode to. If other clients are at work meanwhile, so does every step that
does not end its call in success. -/
theorem failed_call_keeps (s : Store κ ε σ τ) (hs : s.searches.OnlyDecodes) :
    (∀ {st : State κ ε σ τ}, s.Reaches st → ∀ call, (s.answer call st).1.isFailure = true →
      State.Keeps s.context st (s.answer call st).2) ∧
    ∀ {w : World κ ε σ τ}, s.Lives w → ∀ m,
      (∀ entry, (w.step s m).log = w.log ++ [entry] →
        entry.answer.all Answer.isFailure = true) →
      State.Keeps s.context w.state (w.step s m).state := by
  refine ⟨fun {st} h call hfail => ?_, fun {w} h m hfail => ?_⟩
  · obtain ⟨made, hmade⟩ := h.grounded hs
    exact answer_keeps hs hmade hfail
  · obtain ⟨made, hmade⟩ := h.grounded hs
    exact World.step_keeps hs hmade hfail

/-- A document store whose codec reads once and never again. -/
def exhausted : Store String Doc Meter Nat :=
  Doc.storeOver ⟨Serializer.json, Codec.metered Codec.identity { decodeLimit := some 1 }⟩

/-- That store with a document in it. -/
def exhaustedState : State String Doc Meter Nat :=
  (World.reached exhausted {} 0 [.call 0 (.entity (.create { id := "a" } none)), .go 0]).state

/-- What was created cannot be read any more, and is stored still. -/
theorem exhausted_read_keeps :
    exhaustedState.containsKey "a" = true ∧
      (exhausted.answer (.entity (.read (.key "a") none)) exhaustedState).1.isFailure = true ∧
      State.Keeps exhausted.context exhaustedState
        (exhausted.answer (.entity (.read (.key "a") none)) exhaustedState).2 := by
  have hfail :
      (exhausted.answer (.entity (.read (.key "a") none)) exhaustedState).1.isFailure = true := by
    decide +kernel
  have hs : exhausted.searches.OnlyDecodes := by
    rw [exhausted]
    exact Doc.storeOver_onlyDecodes _
  have hreaches : exhausted.Reaches exhaustedState := reaches_reached _ _ _
  exact ⟨by decide +kernel, hfail, (failed_call_keeps exhausted hs).1 hreaches _ hfail⟩

end Store

end EntityStore
