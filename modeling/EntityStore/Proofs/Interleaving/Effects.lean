import EntityStore.Proofs.Interleaving.Basic
import EntityStore.Proofs.Store.Memory
import EntityStore.Proofs.Store.Visits

/-!
# What a step does, and how the log shows it

The stages of a call fit the call: a candidate under way has the key of its
entity, and a pending update of a store with optimistic locking presents the
token of its entity and carries the one that was drawn for it. On that ground
every step is one of four things: it leaves the contents as they are, or it
creates, replaces or deletes one container, and then the entry it adds to the
log says so. That is `World.step_effect`, and later arguments about runs need
nothing else about a step.
-/

namespace EntityStore

variable {κ ε σ τ : Type} [EntityKey κ]

omit [EntityKey κ] in
/-- Whether an entry says that the contents were changed. -/
def LogEntry.isAccepted (entry : LogEntry κ ε) : Bool := entry.answer.any entry.call.isAccepted

/-- A pending update of a store with optimistic locking presents the token of its entity, and what
it is about to store carries the token that was drawn. -/
def PendingUpdate.Carries (p : PendingUpdate κ ε) (s : Store κ ε σ τ) (e : ε)
    (drawn : Option String) : Prop :=
  ∀ {policy}, s.versionPolicy = some policy → policy.optimistic = true →
    p.presented = some (policy.versionOf e) ∧
      ∃ token, drawn = some token ∧ p.container.version = some token

/-- A stage is one of the given call, and what it carries was made for that call. -/
def Stage.Fits (s : Store κ ε σ τ) (call : Call κ ε) (drawn : Option String) :
    Stage κ ε σ → Prop
  | .enter c _ => ∃ e settings, call = .entity (.create e settings) ∧
      c.container.key = s.makers.key e
  | .commit p _ => ∃ e settings, call = .entity (.update e settings) ∧
      p.container.key = s.makers.key e ∧ p.Carries s e drawn
  | .remove target _ => ∃ settings, call = .entity (.delete target settings)
  | .read target _ => ∃ settings, call = .entity (.read target settings)
  | .version target _ => ∃ settings, call = .entity (.version target settings)
  | .takeSnapshot _ _ request _ | .search _ _ _ request _ =>
      ∃ settings, call = .search request settings ∨ call = .searchEntities request settings

/-- What a step that added an entry to the log did to the index. -/
inductive LogEntry.Effect (s : Store κ ε σ τ) (entry : LogEntry κ ε) (ix : Index κ) :
    Index κ → Prop where
  | kept (hits : ReadHits κ) (hrefused : entry.isAccepted = false) :
      Effect s entry ix { ix with hits }
  | created {e : ε} {settings : Option Settings} {c : Container κ}
      (hcall : entry.call = .entity (.create e settings)) (haccepted : entry.isAccepted = true)
      (hkey : c.key = s.makers.key e) (hfree : ix.get? c.key = none)
      (hrefs : ix.anyOwned c.references none = false) :
      Effect s entry ix (ix.store ix.owners c)
  | replaced {e : ε} {settings : Option Settings} {p : PendingUpdate κ ε} {old : Container κ}
      (hcall : entry.call = .entity (.update e settings)) (haccepted : entry.isAccepted = true)
      (hkey : p.container.key = s.makers.key e) (hcarries : p.Carries s e entry.drawn)
      (hold : ix.get? p.container.key = some old)
      (hrefs : ix.anyOwned p.container.references (some p.container.key) = false)
      (hfresh : p.presented.any (· ≠ old.version) = false) :
      Effect s entry ix (ix.store (Index.releasedBy ix.owners old) p.container)
  | deleted {target : Target κ} {settings : Option Settings} {c : Container κ}
      {r : Response κ (κ × String)}
      (hcall : entry.call = .entity (.delete target settings)) (haccepted : entry.isAccepted = true)
      (hanswer : entry.answer = some (.entity (.version r))) (hkey : r.key = some c.key)
      (hlive : ix.Live c) :
      Effect s entry ix (ix.delete c.key).2

namespace Store

variable (s : Store κ ε σ τ)

/-! ## The first step -/

theorem beginSearch_gate (wanted : Wanted) (request : SearchRequest) (settings : Option Settings)
    (st : State κ ε σ τ) : (s.beginSearch wanted request settings st).2.gate = st.gate := by
  simp only [beginSearch]
  split
  · rfl
  · cases wanted <;> rfl

theorem begin_gate (c : Call κ ε) (st : State κ ε σ τ) : (s.begin c st).2.gate = st.gate := by
  cases c with
  | entity c =>
      cases c with
      | create e settings =>
          simp only [begin]
          split
          · rfl
          · have hgate : (s.prepareCreate e st).2.gate = st.gate := rfl
            cases h : s.prepareCreate e st with
            | mk r st' =>
                rw [h] at hgate
                cases r <;> exact hgate
      | update e settings =>
          simp only [begin]
          split
          · rfl
          · have hgate := s.prepareUpdate_gate e st
            cases h : s.prepareUpdate e st with
            | mk r st' =>
                rw [h] at hgate
                cases r <;> exact hgate
      | delete target settings =>
          simp only [begin]
          split <;> rfl
      | read target settings => rfl
      | version target settings => rfl
  | search request settings => exact s.beginSearch_gate .table request settings st
  | searchEntities request settings => exact s.beginSearch_gate .entities request settings st

variable {s}

theorem prepareUpdate_carries {e : ε} {settings : Option Settings} {st st' : State κ ε σ τ}
    {p : PendingUpdate κ ε} (hw : s.readOnly = false) (h : s.prepareUpdate e st = (.ok p, st')) :
    p.Carries s e (s.drawn? (.entity (.update e settings)) st) := by
  intro policy hpolicy hoptimistic
  obtain ⟨hpresented, blob, hcontainer⟩ := prepareUpdate_container h
  have hdraft : s.draft e st.tokens = (⟨(policy.renew e st.tokens).1.2,
      some (policy.renew e st.tokens).1.1, some (policy.versionOf e)⟩,
      (policy.renew e st.tokens).2) := by
    simp only [draft, hpolicy, hoptimistic, if_true]
  rw [hdraft] at hpresented hcontainer
  refine ⟨hpresented, (policy.renew e st.tokens).1.1, ?_, ?_⟩
  · simp only [drawn?, hpolicy, hoptimistic, hw]
    rfl
  · rw [hcontainer]
    rfl

variable (s)

/-- The first step refuses the call, or leaves a stage that fits it. -/
theorem begin_cases (c : Call κ ε) (st : State κ ε σ τ) :
    (∃ a, (s.begin c st).1 = .done a ∧ c.isAccepted a = false) ∨
    ∃ stage, (s.begin c st).1 = .next stage ∧ stage.Fits s c (s.drawn? c st) := by
  cases c with
  | entity c =>
      cases c with
      | create e settings =>
          simp only [begin]
          split
          · exact .inl ⟨_, rfl, rfl⟩
          · cases h : s.prepareCreate e st with
            | mk r st' =>
                cases r with
                | error err => exact .inl ⟨_, rfl, rfl⟩
                | ok c =>
                    obtain ⟨blob, hc⟩ := prepareCreate_container h
                    exact .inr ⟨_, rfl, e, settings, rfl, by rw [hc]; rfl⟩
      | update e settings =>
          simp only [begin]
          split
          · exact .inl ⟨_, rfl, rfl⟩
          · next hw =>
              rw [Bool.not_eq_true] at hw
              cases h : s.prepareUpdate e st with
              | mk r st' =>
                  cases r with
                  | error err => exact .inl ⟨_, rfl, rfl⟩
                  | ok p =>
                      obtain ⟨-, blob, hp⟩ := prepareUpdate_container h
                      exact .inr ⟨_, rfl, e, settings, rfl, by rw [hp]; rfl,
                        prepareUpdate_carries hw h⟩
      | delete target settings =>
          simp only [begin]
          split
          · exact .inl ⟨_, rfl, rfl⟩
          · exact .inr ⟨_, rfl, settings, rfl⟩
      | read target settings => exact .inr ⟨_, rfl, settings, rfl⟩
      | version target settings => exact .inr ⟨_, rfl, settings, rfl⟩
  | search request settings =>
      simp only [begin, beginSearch]
      split
      · exact .inr ⟨_, rfl, settings, .inl rfl⟩
      · exact .inl ⟨_, rfl, rfl⟩
  | searchEntities request settings =>
      simp only [begin, beginSearch]
      split
      · exact .inr ⟨_, rfl, settings, .inr rfl⟩
      · exact .inl ⟨_, rfl, rfl⟩

theorem begin_refused (c : Call κ ε) (st : State κ ε σ τ) (client : Nat) (drawn : Option String) :
    (LogEntry.mk client c drawn (s.begin c st).1.answer?).isAccepted = false := by
  rcases s.begin_cases c st with ⟨a, ha, hrefused⟩ | ⟨stage, hstage, -⟩
  · rw [ha]
    exact hrefused
  · rw [hstage]
    rfl

/-! ## Further steps -/

theorem advance_fits {stage stage' : Stage κ ε σ} {call : Call κ ε} {drawn : Option String}
    {st : State κ ε σ τ} (hfits : stage.Fits s call drawn)
    (h : (s.advance stage st).1.stage? = some stage') : stage'.Fits s call drawn := by
  cases stage with
  | takeSnapshot wanted a request settings =>
      obtain rfl := Option.some.inj h
      exact hfits
  | search wanted a snapshot request settings => cases wanted <;> cases h
  | _ => cases h

theorem advance_search_gate (wanted : Wanted) (a : Algorithm κ ε σ) (snapshot : Snapshot κ)
    (request : SearchRequest) (settings : Option Settings) (st : State κ ε σ τ) :
    (s.advance (.search wanted a snapshot request settings) st).2.gate = st.gate := by
  cases wanted with
  | table => exact s.searchIn_gate _ a snapshot request settings st
  | entities => exact s.searchIn_gate _ a snapshot request settings st

/-- What comes of a stage that fits its call. -/
theorem advance_effect {stage : Stage κ ε σ} {call : Call κ ε} {drawn : Option String}
    {st : State κ ε σ τ} (hexact : st.index.Exact) (hfits : stage.Fits s call drawn)
    (client : Nat) :
    LogEntry.Effect s ⟨client, call, drawn, (s.advance stage st).1.answer?⟩ st.index
      (s.advance stage st).2.index := by
  cases stage with
  | enter c settings =>
      obtain ⟨e, settings', rfl, hkey⟩ := hfits
      simp only [advance]
      rcases enter_cases c settings st with ⟨-, henter⟩ | ⟨hfree, hrefs, henter⟩
      · rw [henter]
        exact .kept _ rfl
      · rw [henter]
        exact .created rfl rfl hkey hfree hrefs
  | commit p settings =>
      obtain ⟨e, settings', rfl, hkey, hcarries⟩ := hfits
      simp only [advance, commit_eq]
      rcases PendingUpdate.commit_cases hexact p with ⟨-, hcommit⟩ |
        ⟨old, hold, ⟨-, hcommit⟩ | ⟨-, -, hcommit⟩ | ⟨hrefs, hfresh, hcommit⟩⟩
      · rw [hcommit]
        exact .kept _ rfl
      · rw [hcommit]
        exact .kept _ rfl
      · rw [hcommit]
        exact .kept _ rfl
      · rw [hcommit]
        exact .replaced rfl rfl hkey hcarries hold hrefs hfresh
  | remove target settings =>
      obtain ⟨settings', rfl⟩ := hfits
      simp only [advance]
      cases hfind : st.index.find? target with
      | none =>
          rw [remove_of_none hexact hfind]
          exact .kept _ rfl
      | some c =>
          rw [remove_of_some hexact hfind]
          exact .deleted rfl rfl rfl rfl (hexact.live_of_find? hfind)
  | read target settings =>
      obtain ⟨settings', rfl⟩ := hfits
      obtain ⟨hits, hix⟩ := s.read_index target settings st
      change LogEntry.Effect s _ st.index (s.read target settings st).2.index
      rw [hix]
      exact .kept hits rfl
  | version target settings =>
      obtain ⟨settings', rfl⟩ := hfits
      obtain ⟨hits, hix⟩ := version_index target settings st
      change LogEntry.Effect s _ st.index (version target settings st).2.index
      rw [hix]
      exact .kept hits rfl
  | takeSnapshot wanted a request settings =>
      obtain ⟨settings', rfl | rfl⟩ := hfits <;> exact .kept _ rfl
  | search wanted a snapshot request settings =>
      have hgate := s.advance_search_gate wanted a snapshot request settings st
      have hix : (s.advance (.search wanted a snapshot request settings) st).2.index = st.index :=
        congrArg Gate.inner hgate
      rw [hix]
      obtain ⟨settings', rfl | rfl⟩ := hfits
      · refine .kept _ ?_
        cases (s.advance (.search wanted a snapshot request settings) st).1 <;> rfl
      · refine .kept _ ?_
        cases (s.advance (.search wanted a snapshot request settings) st).1 <;> rfl

end Store

/-! ## Effects keep the index exact -/

theorem LogEntry.Effect.exact {s : Store κ ε σ τ} {entry : LogEntry κ ε} {ix ix' : Index κ}
    (h : entry.Effect s ix ix') (hexact : ix.Exact) : ix'.Exact := by
  cases h with
  | kept hits _ => exact ⟨hexact.key_eq, hexact.owner_iff⟩
  | created _ _ _ hfree hrefs => exact hexact.store_free hfree hrefs
  | replaced _ _ _ _ hold hrefs _ => exact hexact.store_over hold hrefs
  | deleted _ _ _ _ _ => exact hexact.delete _

namespace World

variable {s : Store κ ε σ τ}

/-- The index is exact, and what is under way was begun before and fits its call. -/
structure Orderly (s : Store κ ε σ τ) (w : World κ ε σ τ) : Prop where
  exact : w.state.index.Exact
  fits : ∀ {client f}, w.flights client = some f → f.stage.Fits s f.call f.drawn
  begun : ∀ {client f}, w.flights client = some f → ∃ entry ∈ w.log, entry.call = f.call

theorem start_orderly (session : σ) (tokens : τ) :
    (start (State.start session tokens) : World κ ε σ τ).Orderly s where
  exact := Index.empty_exact
  fits h := by cases h
  begun h := by cases h

/-- What a move does, and the entry that says so. The call of an entry that changes anything was
begun before. -/
theorem step_effect {w : World κ ε σ τ} (h : w.Orderly s) (m : Move κ ε) :
    w.step s m = w ∨ ∃ entry, (w.step s m).log = w.log ++ [entry] ∧
      entry.Effect s w.state.index (w.step s m).state.index ∧
      (entry.isAccepted = true → ∃ earlier ∈ w.log, earlier.call = entry.call) := by
  rcases step_cases s w m with hsame | ⟨client, c, hstep⟩ | ⟨client, f, hf, hstep⟩
  · exact .inl hsame
  · refine .inr ⟨⟨client, c, s.drawn? c w.state, (s.begin c w.state).1.answer?⟩,
      by rw [hstep]; rfl, ?_⟩
    have hix : (w.step s m).state.index = w.state.index := by
      rw [hstep]
      exact congrArg Gate.inner (s.begin_gate c w.state)
    have hrefused := s.begin_refused c w.state client (s.drawn? c w.state)
    refine ⟨?_, fun haccepted => ?_⟩
    · rw [hix]
      exact .kept w.state.index.hits hrefused
    · rw [hrefused] at haccepted
      cases haccepted
  · refine .inr ⟨⟨client, f.call, f.drawn, (s.advance f.stage w.state).1.answer?⟩,
      by rw [hstep]; rfl, ?_, fun _ => h.begun hf⟩
    rw [hstep]
    exact s.advance_effect h.exact (h.fits hf) client

/-- What is under way after a step is what the step left, or was under way before. -/
theorem flights_note {w : World κ ε σ τ} {client n : Nat} {call : Call κ ε}
    {drawn : Option String} {r : Progress κ ε σ × State κ ε σ τ} {f : Flight κ ε σ}
    (h : (w.note client call drawn r).flights n = some f) :
    (∃ stage, r.1.stage? = some stage ∧ f = ⟨call, drawn, stage⟩) ∨ w.flights n = some f := by
  simp only [note] at h
  split at h
  · obtain ⟨stage, hstage, hf⟩ := Option.map_eq_some_iff.1 h
    exact .inl ⟨stage, hstage, hf.symm⟩
  · exact .inr h

theorem note_orderly {w : World κ ε σ τ} (h : w.Orderly s) {client : Nat} {call : Call κ ε}
    {drawn : Option String} {r : Progress κ ε σ × State κ ε σ τ} (hexact : r.2.index.Exact)
    (hfits : ∀ stage, r.1.stage? = some stage → stage.Fits s call drawn) :
    (w.note client call drawn r).Orderly s where
  exact := hexact
  fits {n f} hf := by
    rcases flights_note hf with ⟨stage, hstage, rfl⟩ | hold
    · exact hfits stage hstage
    · exact h.fits hold
  begun {n f} hf := by
    rcases flights_note hf with ⟨stage, hstage, rfl⟩ | hold
    · exact ⟨_, List.mem_append_right _ (List.mem_singleton_self _), rfl⟩
    · obtain ⟨entry, hmem, heq⟩ := h.begun hold
      exact ⟨entry, List.mem_append_left _ hmem, heq⟩

theorem step_orderly {w : World κ ε σ τ} (h : w.Orderly s) (m : Move κ ε) :
    (w.step s m).Orderly s := by
  have hexact : (w.step s m).state.index.Exact := by
    rcases step_effect h m with hsame | ⟨entry, -, heffect, -⟩
    · rw [hsame]
      exact h.exact
    · exact heffect.exact h.exact
  rcases step_cases s w m with hsame | ⟨client, c, hstep⟩ | ⟨client, f, hf, hstep⟩
  · rw [hsame]
    exact h
  · rw [hstep] at hexact ⊢
    refine note_orderly h hexact fun stage hstage => ?_
    rcases s.begin_cases c w.state with ⟨a, ha, -⟩ | ⟨stage', hstage', hfits⟩
    · rw [ha] at hstage
      cases hstage
    · rw [hstage'] at hstage
      obtain rfl := Option.some.inj hstage
      exact hfits
  · rw [hstep] at hexact ⊢
    exact note_orderly h hexact fun stage hstage => s.advance_fits (h.fits hf) hstage

theorem reached_orderly (session : σ) (tokens : τ) (moves : List (Move κ ε)) :
    (reached s session tokens moves).Orderly s :=
  run_induction (P := Orderly s) (fun _ m h => step_orderly h m) moves
    (start_orderly session tokens)

/-- Every entry of the log tells what was done in the world whose log ends before it. -/
theorem exists_effect_of_log {session : σ} {tokens : τ} {moves : List (Move κ ε)}
    {before after : List (LogEntry κ ε)} {entry : LogEntry κ ε}
    (h : (reached s session tokens moves).log = before ++ entry :: after) :
    ∃ earlier ix, (reached s session tokens earlier).log = before ∧
      entry.Effect s (reached s session tokens earlier).state.index ix ∧
      (entry.isAccepted = true → ∃ begun ∈ before, begun.call = entry.call) := by
  obtain ⟨earlier, m, hlog, hstep⟩ := exists_move_of_log s moves h
  change (reached s session tokens earlier).log = before at hlog
  change ((reached s session tokens earlier).step s m).log = before ++ [entry] at hstep
  rcases step_effect (reached_orderly session tokens earlier) m with
    hsame | ⟨entry', hlog', heffect, hbegun⟩
  · rw [hsame, hlog] at hstep
    have hlength := congrArg List.length hstep
    rw [List.length_append, List.length_singleton] at hlength
    omega
  · rw [hstep, hlog] at hlog'
    obtain rfl := List.singleton_inj.1 (List.append_cancel_left hlog')
    rw [hlog] at hbegun
    exact ⟨earlier, _, hlog, heffect, hbegun⟩

end World

end EntityStore
