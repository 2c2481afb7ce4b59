import EntityStore.Proofs.Interleaving.Effects
import EntityStore.Proofs.Store.Made

/-!
# Worlds stand on what was made

Whatever clients do, and whatever serializer and codec do, what a world holds
was made before: the containers that are stored, those of the candidates under
way, and those of the snapshots that searches under way were handed. The first
step of a call is the only one that makes a container, and a later step moves
what was made from one of these places to another.

So every world that a schedule leads to is grounded (`World.run_grounded`), and
so is the state after a whole call (`Store.answer_grounded`). It is only asked
of search algorithms that they do no more to the memory than decode.

That the containers of a state are bounded by what was made is kept wherever
they came from, and is shown apart for that (`World.step_bounded`).

A store is set up while it is open for writing, and may be closed afterwards, so
the states that it can be in are those that clients lead it to from one that
clients led the open store to (`Store.Reaches`).
-/

namespace EntityStore

variable {κ ε σ τ : Type} [EntityKey κ]

/-- What a call under way holds was made before. -/
def Stage.Grounded (s : Store κ ε σ τ) (made : Container κ → Prop) (call : Call κ ε) :
    Stage κ ε σ → Prop
  | .enter c _ => made c.container ∧ s.MakesFor call c
  | .commit p _ => made p.container ∧ s.MakesFor call p.toCandidate
  | .takeSnapshot _ a _ _ => a.OnlyDecodes
  | .search _ a snapshot _ _ => a.OnlyDecodes ∧ ∀ c ∈ snapshot.containers, made c
  | _ => True

theorem Stage.Grounded.mono {s : Store κ ε σ τ} {made made' : Container κ → Prop}
    {call : Call κ ε} {stage : Stage κ ε σ} (h : stage.Grounded s made call)
    (hle : ∀ c, made c → made' c) : stage.Grounded s made' call := by
  cases stage with
  | enter c settings => exact ⟨hle _ h.1, h.2⟩
  | commit p settings => exact ⟨hle _ h.1, h.2⟩
  | takeSnapshot wanted a request settings => exact h
  | search wanted a snapshot request settings => exact ⟨h.1, fun c hc => hle c (h.2 c hc)⟩
  | _ => trivial

namespace Store

variable {s : Store κ ε σ τ} {made : Container κ → Prop} {st : State κ ε σ τ}

/-! ## The first step -/

/-- The first step works under new handles. -/
theorem begin_extends (ht : st.memory.Tidy) (call : Call κ ε) :
    st.memory.Extends (s.begin call st).2.memory := by
  cases call with
  | entity c =>
      cases c with
      | create e settings =>
          have hext : st.memory.Extends (s.prepareCreate e st).2.memory :=
            candidate_extends ht _ _ _
          simp only [begin]
          split
          · exact .refl _
          · cases h : s.prepareCreate e st with
            | mk r st' =>
                rw [h] at hext
                cases r <;> exact hext
      | update e settings =>
          have hext : st.memory.Extends (s.prepareUpdate e st).2.memory := by
            rw [prepareUpdate_eq]
            exact candidate_extends ht _ _ _
          simp only [begin]
          split
          · exact .refl _
          · cases h : s.prepareUpdate e st with
            | mk r st' =>
                rw [h] at hext
                cases r <;> exact hext
      | delete target settings =>
          simp only [begin]
          split <;> exact .refl _
      | read target settings => exact .refl _
      | version target settings => exact .refl _
  | search request settings =>
      simp only [begin, beginSearch]
      split <;> exact .refl _
  | searchEntities request settings =>
      simp only [begin, beginSearch]
      split <;> exact .refl _

/-- What the first step leaves to do holds the candidate that it made, if it holds anything. -/
theorem begin_prepares (hs : s.searches.OnlyDecodes) (ht : st.memory.Tidy) {call : Call κ ε}
    {stage : Stage κ ε σ} (h : (s.begin call st).1.stage? = some stage) :
    (∃ c, s.Prepares call c st (s.begin call st).2 ∧
      stage.Grounded s (· = c.container) call) ∨
    stage.Grounded s (fun _ => False) call := by
  cases call with
  | entity c =>
      cases c with
      | create e settings =>
          simp only [begin] at h ⊢
          split at h
          · cases h
          · next hw =>
              rw [if_neg hw]
              cases hprep : s.prepareCreate e st with
              | mk r st' =>
                  rw [hprep] at h
                  cases r with
                  | error err => cases h
                  | ok c =>
                      obtain rfl := Option.some.inj h
                      have hc := prepareCreate_prepares settings ht hprep
                      exact .inl ⟨c, hc, rfl, hc.makes⟩
      | update e settings =>
          simp only [begin] at h ⊢
          split at h
          · cases h
          · next hw =>
              rw [if_neg hw]
              cases hprep : s.prepareUpdate e st with
              | mk r st' =>
                  rw [hprep] at h
                  cases r with
                  | error err => cases h
                  | ok p =>
                      obtain rfl := Option.some.inj h
                      have hp := prepareUpdate_prepares settings ht hprep
                      exact .inl ⟨p.toCandidate, hp, rfl, hp.makes⟩
      | delete target settings =>
          simp only [begin] at h
          split at h
          · cases h
          · obtain rfl := Option.some.inj h
            exact .inr trivial
      | read target settings =>
          obtain rfl := Option.some.inj h
          exact .inr trivial
      | version target settings =>
          obtain rfl := Option.some.inj h
          exact .inr trivial
  | search request settings =>
      simp only [begin, beginSearch] at h
      split at h
      · next a ha =>
          obtain rfl := Option.some.inj h
          exact .inr (hs ha)
      · cases h
  | searchEntities request settings =>
      simp only [begin, beginSearch] at h
      split at h
      · next a ha =>
          obtain rfl := Option.some.inj h
          exact .inr (hs ha)
      · cases h

/-- The first step makes one container or none, and whatever it leaves to do holds no other. -/
theorem begin_makes (hs : s.searches.OnlyDecodes) (ht : st.memory.Tidy) (call : Call κ ε) :
    (∃ c, s.Prepares call c st (s.begin call st).2 ∧
      ∀ stage, (s.begin call st).1.stage? = some stage →
        stage.Grounded s (· = c.container) call) ∨
    ∀ stage, (s.begin call st).1.stage? = some stage → stage.Grounded s (fun _ => False) call := by
  cases hstage : (s.begin call st).1.stage? with
  | none => exact .inr fun _ hnone => by cases hnone
  | some stage =>
      rcases begin_prepares hs ht hstage with ⟨c, hprep, hground⟩ | hground
      · refine .inl ⟨c, hprep, fun stage' hstage' => ?_⟩
        obtain rfl := Option.some.inj hstage'
        exact hground
      · refine .inr fun stage' hstage' => ?_
        obtain rfl := Option.some.inj hstage'
        exact hground

/-- The first step adds to what was made, and whatever it leaves to do holds only that. -/
theorem begin_grounded (hs : s.searches.OnlyDecodes) (h : st.Grounded s made) (call : Call κ ε) :
    ∃ made', (∀ c, made c → made' c) ∧ (s.begin call st).2.Grounded s made' ∧
      ∀ stage, (s.begin call st).1.stage? = some stage → stage.Grounded s made' call := by
  have hext := begin_extends (s := s) h.tidy call
  have hgate := s.begin_gate call st
  rcases begin_makes hs h.tidy call with ⟨c, hprep, hstages⟩ | hstages
  · exact ⟨_, fun _ => .inl, h.prepared hgate hext hprep,
      fun stage hstage => (hstages stage hstage).mono fun _ => .inr⟩
  · exact ⟨made, fun _ => id, h.fills hgate hext.fills,
      fun stage hstage => (hstages stage hstage).mono fun _ => False.elim⟩

theorem begin_bounded (hs : s.searches.OnlyDecodes) (h : st.Bounded made) (call : Call κ ε) :
    ∃ made', (∀ c, made c → made' c) ∧ (s.begin call st).2.Bounded made' ∧
      ∀ stage, (s.begin call st).1.stage? = some stage → stage.Grounded s made' call := by
  have hext := begin_extends (s := s) h.tidy call
  have hgate := s.begin_gate call st
  rcases begin_makes hs h.tidy call with ⟨c, hprep, hstages⟩ | hstages
  · exact ⟨_, fun _ => .inl, h.given hgate hext hprep.handle_eq hprep.next_eq,
      fun stage hstage => (hstages stage hstage).mono fun _ => .inr⟩
  · have hfills : st.memory.Fills s.context made (s.begin call st).2.memory := hext.fills
    exact ⟨made, fun _ => id, h.fills hgate hfills,
      fun stage hstage => (hstages stage hstage).mono fun _ => False.elim⟩

/-! ## Further steps -/

theorem takeSnapshot_live (hexact : st.index.Exact) {c : Container κ}
    (hc : c ∈ (s.takeSnapshot st).containers) : st.index.Live c :=
  hexact.mem_snapshot_iff.1 hc

theorem searchIn_memory {ρ : Type} [Paged ρ] (load : Loader κ ε σ ρ) (a : Algorithm κ ε σ)
    (snapshot : Snapshot κ) (request : SearchRequest) (settings : Option Settings) :
    (s.searchIn load a snapshot request settings st).2.memory =
      (a.run s.context load snapshot request st.memory).2 := by
  rw [searchIn_eq]
  rfl

theorem searchIn_fills {ρ : Type} [Paged ρ] {load : Loader κ ε σ ρ}
    (hload : load.OnlyDecodes s.context) {a : Algorithm κ ε σ} (ha : a.OnlyDecodes)
    (h : st.Bounded made) {snapshot : Snapshot κ} (hmade : ∀ c ∈ snapshot.containers, made c)
    (request : SearchRequest) (settings : Option Settings) :
    st.memory.Fills s.context made
      (s.searchIn load a snapshot request settings st).2.memory := by
  rw [searchIn_memory]
  exact ((ha.run hload snapshot request st.memory).mono hmade).fills fun _ => h.handle_lt

theorem searchIn_bounded {ρ : Type} [Paged ρ] {load : Loader κ ε σ ρ}
    (hload : load.OnlyDecodes s.context) {a : Algorithm κ ε σ} (ha : a.OnlyDecodes)
    (h : st.Bounded made) {snapshot : Snapshot κ} (hmade : ∀ c ∈ snapshot.containers, made c)
    (request : SearchRequest) (settings : Option Settings) :
    (s.searchIn load a snapshot request settings st).2.Bounded made :=
  h.fills (s.searchIn_gate load a snapshot request settings st)
    (searchIn_fills hload ha h hmade request settings)

theorem read_fills (h : st.Bounded made) (target : Target κ) (settings : Option Settings) :
    st.memory.Fills s.context made (s.read target settings st).2.memory := by
  cases hc : st.index.find? target with
  | none =>
      rw [s.read_of_none hc]
      exact .refl _
  | some c =>
      have hmade := h.live (h.exact.live_of_find? hc)
      have hfills : st.memory.Fills s.context made (c.entity s.context st.memory).2 :=
        .entity hmade (h.handle_lt hmade)
      obtain ⟨m', ⟨err, hent, heq⟩ | ⟨e, hent, ⟨-, heq⟩ | ⟨-, heq⟩⟩⟩ := s.read_cases settings hc
      · rw [heq]
        rwa [hent] at hfills
      · rw [heq]
        rwa [hent] at hfills
      · rw [heq]
        rwa [hent] at hfills

theorem read_bounded (h : st.Bounded made) (target : Target κ) (settings : Option Settings) :
    (s.read target settings st).2.Bounded made := by
  have hfills := read_fills (s := s) h target settings
  cases hc : st.index.find? target with
  | none =>
      rw [s.read_of_none hc]
      exact h
  | some c =>
      obtain ⟨m', ⟨err, -, heq⟩ | ⟨e, -, ⟨-, heq⟩ | ⟨-, heq⟩⟩⟩ := s.read_cases settings hc
      · rw [heq] at hfills ⊢
        exact h.fills rfl hfills
      · rw [heq] at hfills ⊢
        exact h.fills rfl hfills
      · rw [heq] at hfills ⊢
        have hread : ({ st with memory := m' } : State κ ε σ τ).Bounded made :=
          h.fills rfl hfills
        exact hread.countHit c.key

theorem version_bounded (h : st.Bounded made) (target : Target κ) (settings : Option Settings) :
    (version target settings st).2.Bounded made ∧
      (version target settings st).2.memory = st.memory := by
  cases hc : st.index.find? target with
  | none =>
      rw [version_of_none hc]
      exact ⟨h, rfl⟩
  | some c =>
      rw [version_of_some hc]
      exact ⟨h.countHit c.key, rfl⟩

theorem read_grounded (h : st.Grounded s made) (target : Target κ) (settings : Option Settings) :
    (s.read target settings st).2.Grounded s made :=
  h.of_bounded (read_bounded h.bounded target settings) (read_fills h.bounded target settings)

theorem version_grounded (h : st.Grounded s made) (target : Target κ)
    (settings : Option Settings) : (version target settings st).2.Grounded s made := by
  obtain ⟨hst, hmemory⟩ := version_bounded h.bounded target settings
  exact h.of_bounded hst (hmemory ▸ .refl _)

theorem advance_bounded (h : st.Bounded made) {call : Call κ ε} {stage : Stage κ ε σ}
    (hstage : stage.Grounded s made call) :
    (s.advance stage st).2.Bounded made ∧
      ∀ next, (s.advance stage st).1.stage? = some next → next.Grounded s made call := by
  cases stage with
  | enter c settings =>
      refine ⟨?_, fun next hnext => by cases hnext⟩
      change (enter c settings st).2.Bounded made
      rcases enter_cases c settings st with ⟨-, henter⟩ | ⟨hfree, hrefs, henter⟩
      · rw [henter]
        exact h
      · rw [henter]
        exact h.store hstage.1 (h.exact.store_free hfree hrefs)
  | commit p settings =>
      refine ⟨?_, fun next hnext => by cases hnext⟩
      change (commit p settings st).2.Bounded made
      rw [commit_eq]
      rcases PendingUpdate.commit_cases h.exact p with ⟨-, hcommit⟩ |
        ⟨old, hold, ⟨-, hcommit⟩ | ⟨-, -, hcommit⟩ | ⟨hrefs, -, hcommit⟩⟩
      · rw [hcommit]
        exact h
      · rw [hcommit]
        exact h
      · rw [hcommit]
        exact h
      · rw [hcommit]
        exact h.store hstage.1 (h.exact.store_over hold hrefs)
  | remove target settings =>
      refine ⟨?_, fun next hnext => by cases hnext⟩
      change (remove target settings st).2.Bounded made
      cases hc : st.index.find? target with
      | none =>
          rw [remove_of_none h.exact hc]
          exact h
      | some c =>
          rw [remove_of_some h.exact hc]
          exact h.delete (h.exact.live_of_find? hc)
  | read target settings =>
      exact ⟨read_bounded h target settings, fun next hnext => by cases hnext⟩
  | version target settings =>
      exact ⟨(version_bounded h target settings).1, fun next hnext => by cases hnext⟩
  | takeSnapshot wanted a request settings =>
      refine ⟨h, fun next hnext => ?_⟩
      obtain rfl := Option.some.inj hnext
      exact ⟨hstage, fun c hc => h.live (takeSnapshot_live h.exact hc)⟩
  | search wanted a snapshot request settings =>
      obtain ⟨ha, hmade⟩ := hstage
      cases wanted with
      | table =>
          refine ⟨?_, fun next hnext => by cases hnext⟩
          exact searchIn_bounded (Hits.table_onlyDecodes s.context request) ha h hmade request
            settings
      | entities =>
          refine ⟨?_, fun next hnext => by cases hnext⟩
          exact searchIn_bounded (Hits.entityList_onlyDecodes s.context) ha h hmade request
            settings

/-- A further step changes nothing of what is remembered, but may fill in what is missing. -/
theorem advance_fills (h : st.Bounded made) {call : Call κ ε} {stage : Stage κ ε σ}
    (hstage : stage.Grounded s made call) :
    st.memory.Fills s.context made (s.advance stage st).2.memory := by
  cases stage with
  | read target settings => exact read_fills h target settings
  | version target settings =>
      change st.memory.Fills s.context made (version target settings st).2.memory
      rw [(version_bounded h target settings).2]
      exact .refl _
  | search wanted a snapshot request settings =>
      obtain ⟨ha, hmade⟩ := hstage
      cases wanted with
      | table => exact searchIn_fills (Hits.table_onlyDecodes s.context request) ha h hmade _ _
      | entities => exact searchIn_fills (Hits.entityList_onlyDecodes s.context) ha h hmade _ _
  | _ => exact .refl _

theorem advance_grounded (h : st.Grounded s made) {call : Call κ ε} {stage : Stage κ ε σ}
    (hstage : stage.Grounded s made call) :
    (s.advance stage st).2.Grounded s made ∧
      ∀ next, (s.advance stage st).1.stage? = some next → next.Grounded s made call := by
  obtain ⟨hst, hstages⟩ := advance_bounded h.bounded hstage
  exact ⟨h.of_bounded hst (advance_fills h.bounded hstage), hstages⟩

/-! ## Whole calls -/

theorem Ends.fills {p : Progress κ ε σ × State κ ε σ τ} {r : Answer κ ε × State κ ε σ τ}
    (hends : s.Ends p r) {call : Call κ ε} (h : p.2.Grounded s made)
    (hstage : ∀ stage, p.1.stage? = some stage → stage.Grounded s made call) :
    p.2.memory.Fills s.context made r.2.memory := by
  induction hends with
  | done a st => exact .refl _
  | next _ ih =>
      obtain ⟨hnext, hstages⟩ := advance_grounded h (hstage _ rfl)
      exact (advance_fills h.bounded (hstage _ rfl)).trans (ih hnext hstages)

theorem Ends.grounded {p : Progress κ ε σ × State κ ε σ τ} {r : Answer κ ε × State κ ε σ τ}
    (hends : s.Ends p r) {call : Call κ ε} (h : p.2.Grounded s made)
    (hstage : ∀ stage, p.1.stage? = some stage → stage.Grounded s made call) :
    r.2.Grounded s made := by
  induction hends with
  | done a st => exact h
  | next _ ih =>
      obtain ⟨hnext, hstages⟩ := advance_grounded h (hstage _ rfl)
      exact ih hnext hstages

/-- A whole call leads from a grounded state to a grounded one, and changes nothing of what is
remembered, but may fill in what is missing. -/
theorem answer_grounded (hs : s.searches.OnlyDecodes) (h : st.Grounded s made) (call : Call κ ε) :
    ∃ made', (∀ c, made c → made' c) ∧ (s.answer call st).2.Grounded s made' ∧
      st.memory.Fills s.context made' (s.answer call st).2.memory := by
  obtain ⟨made', hle, hnext, hstages⟩ := begin_grounded hs h call
  have hends := s.begin_ends call st
  have hfills : st.memory.Fills s.context made' (s.begin call st).2.memory :=
    (begin_extends h.tidy call).fills
  exact ⟨made', hle, hends.grounded hnext hstages, hfills.trans (hends.fills hnext hstages)⟩

end Store

/-! ## Worlds -/

namespace World

variable {s : Store κ ε σ τ} {made : Container κ → Prop} {w : World κ ε σ τ}

/-- The state is bounded by what was made so far, and all that is under way stands on it. -/
structure Bounded (s : Store κ ε σ τ) (made : Container κ → Prop) (w : World κ ε σ τ) : Prop where
  state : w.state.Bounded made
  flights : ∀ {client f}, w.flights client = some f → f.stage.Grounded s made f.call

theorem note_bounded (h : w.Bounded s made) {made' : Container κ → Prop}
    (hle : ∀ c, made c → made' c) {call : Call κ ε} {r : Progress κ ε σ × State κ ε σ τ}
    (hstate : r.2.Bounded made')
    (hstages : ∀ stage, r.1.stage? = some stage → stage.Grounded s made' call) (client : Nat)
    (drawn : Option String) : (w.note client call drawn r).Bounded s made' where
  state := hstate
  flights {n f} hf := by
    rcases flights_note hf with ⟨stage, hstage, rfl⟩ | hold
    · exact hstages stage hstage
    · exact (h.flights hold).mono hle

theorem step_bounded (hs : s.searches.OnlyDecodes) (h : w.Bounded s made) (m : Move κ ε) :
    ∃ made', (∀ c, made c → made' c) ∧ (w.step s m).Bounded s made' := by
  rcases step_cases s w m with hsame | ⟨client, c, hstep⟩ | ⟨client, f, hf, hstep⟩
  · rw [hsame]
    exact ⟨made, fun _ => id, h⟩
  · rw [hstep]
    obtain ⟨made', hle, hstate, hstages⟩ := Store.begin_bounded hs h.state c
    exact ⟨made', hle, note_bounded h hle hstate hstages client _⟩
  · rw [hstep]
    obtain ⟨hstate, hstages⟩ := Store.advance_bounded h.state (h.flights hf)
    exact ⟨made, fun _ => id, note_bounded h (fun _ => id) hstate hstages client _⟩

/-- The state and all that is under way stand on what was made so far. -/
structure Grounded (s : Store κ ε σ τ) (made : Container κ → Prop) (w : World κ ε σ τ) : Prop where
  state : w.state.Grounded s made
  flights : ∀ {client f}, w.flights client = some f → f.stage.Grounded s made f.call

theorem Grounded.bounded (h : w.Grounded s made) : w.Bounded s made :=
  ⟨h.state.bounded, h.flights⟩

theorem start_grounded {st : State κ ε σ τ} (h : st.Grounded s made) :
    (start st).Grounded s made :=
  ⟨h, fun hf => by cases hf⟩

theorem note_grounded (h : w.Grounded s made) {made' : Container κ → Prop}
    (hle : ∀ c, made c → made' c) {call : Call κ ε} {r : Progress κ ε σ × State κ ε σ τ}
    (hstate : r.2.Grounded s made')
    (hstages : ∀ stage, r.1.stage? = some stage → stage.Grounded s made' call) (client : Nat)
    (drawn : Option String) : (w.note client call drawn r).Grounded s made' :=
  ⟨hstate, (note_bounded h.bounded hle hstate.bounded hstages client drawn).flights⟩

theorem step_grounded (hs : s.searches.OnlyDecodes) (h : w.Grounded s made) (m : Move κ ε) :
    ∃ made', (∀ c, made c → made' c) ∧ (w.step s m).Grounded s made' := by
  rcases step_cases s w m with hsame | ⟨client, c, hstep⟩ | ⟨client, f, hf, hstep⟩
  · rw [hsame]
    exact ⟨made, fun _ => id, h⟩
  · rw [hstep]
    obtain ⟨made', hle, hstate, hstages⟩ := Store.begin_grounded hs h.state c
    exact ⟨made', hle, note_grounded h hle hstate hstages client _⟩
  · rw [hstep]
    obtain ⟨hstate, hstages⟩ := Store.advance_grounded h.state (h.flights hf)
    exact ⟨made, fun _ => id, note_grounded h (fun _ => id) hstate hstages client _⟩

theorem run_grounded (hs : s.searches.OnlyDecodes) (moves : List (Move κ ε))
    (h : ∃ made, w.Grounded s made) : ∃ made, (run s moves w).Grounded s made := by
  refine run_induction (P := fun w => ∃ made, w.Grounded s made) ?_ moves h
  intro w m hw
  obtain ⟨made, hmade⟩ := hw
  obtain ⟨made', -, hstep⟩ := step_grounded hs hmade m
  exact ⟨made', hstep⟩

theorem of_opened_grounded (h : w.Grounded s.opened made) : w.Grounded s made where
  state := h.state.of_opened
  flights {client f} hf := by
    have hground := h.flights hf
    cases hstage : f.stage with
    | enter c settings =>
        rw [hstage] at hground
        exact ⟨hground.1, hground.2.of_opened⟩
    | commit p settings =>
        rw [hstage] at hground
        exact ⟨hground.1, hground.2.of_opened⟩
    | takeSnapshot wanted a request settings =>
        rw [hstage] at hground
        exact hground
    | search wanted a snapshot request settings =>
        rw [hstage] at hground
        exact hground
    | _ => trivial

theorem reached_grounded (hs : s.searches.OnlyDecodes) (session : σ) (tokens : τ)
    (moves : List (Move κ ε)) : ∃ made, (reached s session tokens moves).Grounded s made :=
  run_grounded hs moves ⟨_, start_grounded (State.start_grounded s session tokens)⟩

end World

/-! ## The states that a store can be in -/

namespace Store

variable {s : Store κ ε σ τ}

/-- A world that clients lead a store to: first while it is set up, then as it is. -/
inductive Lives (s : Store κ ε σ τ) : World κ ε σ τ → Prop where
  | intro (session : σ) (tokens : τ) (setup moves : List (Move κ ε)) :
      Lives s (World.run s moves (World.reached s.opened session tokens setup))

/-- A state that clients lead a store to. -/
def Reaches (s : Store κ ε σ τ) (st : State κ ε σ τ) : Prop := ∃ w, s.Lives w ∧ w.state = st

theorem lives_reached (session : σ) (tokens : τ) (moves : List (Move κ ε)) :
    s.Lives (World.reached s session tokens moves) := .intro session tokens [] moves

theorem reaches_reached (session : σ) (tokens : τ) (moves : List (Move κ ε)) :
    s.Reaches (World.reached s session tokens moves).state :=
  ⟨_, lives_reached session tokens moves, rfl⟩

theorem Lives.grounded (hs : s.searches.OnlyDecodes) {w : World κ ε σ τ} (h : s.Lives w) :
    ∃ made, w.Grounded s made := by
  obtain ⟨session, tokens, setup, moves⟩ := h
  obtain ⟨made, hmade⟩ := World.reached_grounded (s := s.opened) hs session tokens setup
  exact World.run_grounded hs moves ⟨made, World.of_opened_grounded hmade⟩

theorem Reaches.grounded (hs : s.searches.OnlyDecodes) {st : State κ ε σ τ} (h : s.Reaches st) :
    ∃ made, st.Grounded s made := by
  obtain ⟨w, hw, rfl⟩ := h
  obtain ⟨made, hmade⟩ := hw.grounded hs
  exact ⟨made, hmade.state⟩

end Store

end EntityStore
