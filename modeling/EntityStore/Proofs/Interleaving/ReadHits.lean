import EntityStore.Proofs.Interleaving.LostUpdate
import EntityStore.Proofs.Interleaving.Provenance
import EntityStore.Proofs.Store.Documents

/-!
# What the read hits count

The hits stand in a table beside the containers, which knows nothing of calls.
What a step does to the count of a key can be read off its entry in the log: an
accepted write of the key sets it to zero, its deletion takes it away, a read or
a version query of it that was answered 200 adds one, and nothing else moves it
(`LogEntry.Counts`). So a key is tracked exactly while it is live, and its count
is the number of entries that found it behind the last one that wrote it
(`Store.Lives.readHits_eq`).

A hit is recorded for whatever key it is asked for, also for one that is not
tracked. That is why the induction has to carry along which keys are tracked,
and why a look-up records a hit in the visit that found the container.
-/

namespace EntityStore

variable {κ ε σ τ : Type} [EntityKey κ]

namespace LogEntry

/-- Whether an entry is that of a read or a version query that was answered 200 for a key. -/
def finds (k : κ) (entry : LogEntry κ ε) : Bool :=
  match entry.call, entry.answer with
  | .entity (.read _ _), some (.entity (.entity (.ok r))) =>
    r.code == .ok && r.key.any (Index.sameKey k)
  | .entity (.version _ _), some (.entity (.version r)) =>
    r.code == .ok && r.key.any (Index.sameKey k)
  | _, _ => false

/-- Whether an entry is one that moves the count of a key. -/
def touches (s : Store κ ε σ τ) (k : κ) (entry : LogEntry κ ε) : Bool :=
  entry.writes s k || entry.deletes k || entry.finds k

/-- What an entry tells of the count of a key. -/
inductive Counts (s : Store κ ε σ τ) (entry : LogEntry κ ε) (k : κ) (ix ix' : Index κ) : Prop where
  | written (hwrites : entry.writes s k = true) (hlive : ix'.containsKey k = true)
      (hhits : ix'.readHits k = some 0)
  | deleted (hdeletes : entry.deletes k = true) (hgone : ix'.containsKey k = false)
      (hhits : ix'.readHits k = none)
  | found (hwrites : entry.writes s k = false) (hfinds : entry.finds k = true)
      (hlive : ix.containsKey k = true) (hlive' : ix'.containsKey k = true)
      (hhits : ix'.readHits k = some ((ix.readHits k).getD 0 + 1))
  | passed (htouches : entry.touches s k = false) (hlive : ix'.containsKey k = ix.containsKey k)
      (hhits : ix'.readHits k = ix.readHits k)

variable {s : Store κ ε σ τ} {entry : LogEntry κ ε} {k : κ}

theorem touches_eq_false_iff : entry.touches s k = false ↔
    entry.writes s k = false ∧ entry.deletes k = false ∧ entry.finds k = false := by
  rw [touches, Bool.or_eq_false_iff, Bool.or_eq_false_iff, and_assoc]

theorem deletes_of_refused (h : entry.isAccepted = false) (k : κ) : entry.deletes k = false := by
  rw [deletes]
  split
  · next target settings r hcall hanswer =>
      rw [isAccepted, hanswer, hcall] at h
      have hcode : (r.code == .ok) = false := h
      rw [hcode, Bool.false_and]
  · rfl

theorem touches_of_refused (hrefused : entry.isAccepted = false) (hfinds : entry.finds k = false) :
    entry.touches s k = false :=
  touches_eq_false_iff.2 ⟨writes_of_refused hrefused k, deletes_of_refused hrefused k, hfinds⟩

theorem finds_of_unanswered (h : entry.answer = none) (k : κ) : entry.finds k = false := by
  rw [finds, h]
  split
  · next hnone => cases hnone
  · next hnone => cases hnone
  · rfl

/-- An entry of an accepted creation or update writes the key of its entity and no other. -/
theorem writes_iff_of_accepted {e : ε} {settings : Option Settings}
    (hcall : entry.call = .entity (.create e settings) ∨
      entry.call = .entity (.update e settings))
    (haccepted : entry.isAccepted = true) : entry.writes s k = true ↔ s.makers.key e = k := by
  rcases hcall with hcall | hcall <;>
    simp only [writes, hcall, haccepted, Bool.true_and, Index.sameKey_iff]

end LogEntry

/-! ## What the index does to a count -/

namespace Index

variable {ix : Index κ} {c : Container κ} {k : κ}

theorem readHits_store (owners : SortedMap Reference κ) :
    (ix.store owners c).readHits c.key = some 0 := SortedMap.find?_insert_self _ _ _

theorem readHits_store_of_ne (owners : SortedMap Reference κ) (h : k ≠ c.key) :
    (ix.store owners c).readHits k = ix.readHits k := SortedMap.find?_insert_of_ne _ _ h

theorem containsKey_store (owners : SortedMap Reference κ) :
    (ix.store owners c).containsKey c.key = true :=
  SortedMap.contains_iff.2 ⟨c, SortedMap.find?_insert_self _ _ _⟩

theorem containsKey_store_of_ne (owners : SortedMap Reference κ) (h : k ≠ c.key) :
    (ix.store owners c).containsKey k = ix.containsKey k :=
  congrArg Option.isSome (SortedMap.find?_insert_of_ne _ _ h)

theorem readHits_recordHit (k : κ) :
    (ix.recordHit k).2.readHits k = some ((ix.readHits k).getD 0 + 1) :=
  SortedMap.find?_insert_self _ _ _

theorem readHits_recordHit_of_ne {k k' : κ} (h : k' ≠ k) :
    (ix.recordHit k).2.readHits k' = ix.readHits k' := SortedMap.find?_insert_of_ne _ _ h

end Index

namespace LogEntry

variable {s : Store κ ε σ τ} {entry : LogEntry κ ε} {k : κ} {ix : Index κ} {c : Container κ}

theorem counts_of_same (hrefused : entry.isAccepted = false) (hfinds : entry.finds k = false) :
    entry.Counts s k ix ix := .passed (touches_of_refused hrefused hfinds) rfl rfl

/-- An accepted creation or update counts anew for its key. -/
theorem counts_of_store {e : ε} {settings : Option Settings}
    (hcall : entry.call = .entity (.create e settings) ∨
      entry.call = .entity (.update e settings))
    (haccepted : entry.isAccepted = true) (hkey : c.key = s.makers.key e)
    (owners : SortedMap Reference κ) : entry.Counts s k ix (ix.store owners c) := by
  by_cases hk : k = c.key
  · subst hk
    exact .written ((writes_iff_of_accepted hcall haccepted).2 hkey.symm)
      (Index.containsKey_store owners) (Index.readHits_store owners)
  · refine .passed (touches_eq_false_iff.2 ⟨?_, ?_, ?_⟩) (Index.containsKey_store_of_ne owners hk)
      (Index.readHits_store_of_ne owners hk)
    · rw [← Bool.not_eq_true, writes_iff_of_accepted hcall haccepted, ← hkey]
      exact fun hsame => hk hsame.symm
    · rcases hcall with hcall | hcall <;> rw [deletes, hcall]
    · rcases hcall with hcall | hcall <;> rw [finds, hcall]

/-- A look-up that was answered 200 counts a hit of the key that it found, and an entry says so. -/
theorem counts_of_hit (hrefused : entry.isAccepted = false)
    (hfinds : ∀ k, entry.finds k = Index.sameKey k c.key) (hlive : ix.Live c) :
    entry.Counts s k ix (ix.recordHit c.key).2 := by
  have hwrites := writes_of_refused (s := s) hrefused k
  by_cases hk : k = c.key
  · subst hk
    have hcontains : ix.containsKey c.key = true := SortedMap.contains_iff.2 ⟨c, hlive⟩
    exact .found hwrites (by rw [hfinds, Index.sameKey_iff]) hcontains hcontains
      (Index.readHits_recordHit c.key)
  · refine .passed (touches_of_refused hrefused ?_) rfl (Index.readHits_recordHit_of_ne hk)
    rw [hfinds, ← Bool.not_eq_true, Index.sameKey_iff]
    exact hk

end LogEntry

/-! ## What a step does to a count -/

namespace Store

variable {s : Store κ ε σ τ} {st : State κ ε σ τ}

theorem advance_counts (hexact : st.index.Exact) {stage : Stage κ ε σ} {call : Call κ ε}
    {drawn : Option String} (hfits : stage.Fits s call drawn) (client : Nat) (k : κ) :
    LogEntry.Counts s ⟨client, call, drawn, (s.advance stage st).1.answer?⟩ k st.index
      (s.advance stage st).2.index := by
  cases stage with
  | enter c settings =>
      obtain ⟨e, settings', rfl, hkey⟩ := hfits
      simp only [advance]
      rcases enter_cases c settings st with ⟨-, henter⟩ | ⟨-, -, henter⟩
      · rw [henter]
        exact LogEntry.counts_of_same rfl rfl
      · rw [henter]
        exact LogEntry.counts_of_store (.inl rfl) rfl hkey _
  | commit p settings =>
      obtain ⟨e, settings', rfl, hkey, -⟩ := hfits
      simp only [advance, commit_eq]
      rcases PendingUpdate.commit_cases hexact p with ⟨-, hcommit⟩ |
        ⟨old, -, ⟨-, hcommit⟩ | ⟨-, -, hcommit⟩ | ⟨-, -, hcommit⟩⟩
      · rw [hcommit]
        exact LogEntry.counts_of_same rfl rfl
      · rw [hcommit]
        exact LogEntry.counts_of_same rfl rfl
      · rw [hcommit]
        exact LogEntry.counts_of_same rfl rfl
      · rw [hcommit]
        exact LogEntry.counts_of_store (.inr rfl) rfl hkey _
  | remove target settings =>
      obtain ⟨settings', rfl⟩ := hfits
      simp only [advance]
      cases hfind : st.index.find? target with
      | none =>
          rw [remove_of_none hexact hfind]
          exact LogEntry.counts_of_same rfl rfl
      | some c =>
          rw [remove_of_some hexact hfind]
          change LogEntry.Counts s _ k st.index (st.index.delete c.key).2
          rw [Index.delete_of_some (hexact.live_of_find? hfind)]
          have hdeletes : ∀ drawn, LogEntry.deletes (ε := ε) k ⟨client,
              .entity (.delete target settings'), drawn, some (.entity (.version
                { code := .ok, key := some c.key, entity := some (c.key, ""),
                  reference := c.reference, settings }))⟩ = Index.sameKey k c.key := fun _ => rfl
          by_cases hk : k = c.key
          · subst hk
            refine .deleted ((hdeletes drawn).trans (Index.sameKey_iff.2 rfl)) ?_ ?_
            · exact congrArg Option.isSome (SortedMap.find?_erase_self _ _)
            · exact SortedMap.find?_erase_self _ _
          · refine .passed (LogEntry.touches_eq_false_iff.2 ⟨rfl, (hdeletes drawn).trans ?_, rfl⟩)
              (congrArg Option.isSome (SortedMap.find?_erase_of_ne _ hk))
              (SortedMap.find?_erase_of_ne _ hk)
            rw [← Bool.not_eq_true, Index.sameKey_iff]
            exact hk
  | read target settings =>
      obtain ⟨settings', rfl⟩ := hfits
      simp only [advance]
      cases hfind : st.index.find? target with
      | none =>
          rw [s.read_of_none hfind]
          exact LogEntry.counts_of_same rfl rfl
      | some c =>
          obtain ⟨m', ⟨err, -, hread⟩ | ⟨e, -, ⟨-, hread⟩ | ⟨-, hread⟩⟩⟩ :=
            s.read_cases settings hfind
          · rw [hread]
            exact LogEntry.counts_of_same rfl rfl
          · rw [hread]
            exact LogEntry.counts_of_same rfl rfl
          · rw [hread]
            exact LogEntry.counts_of_hit rfl (fun _ => rfl) (hexact.live_of_find? hfind)
  | version target settings =>
      obtain ⟨settings', rfl⟩ := hfits
      simp only [advance]
      cases hfind : st.index.find? target with
      | none =>
          rw [version_of_none hfind]
          exact LogEntry.counts_of_same rfl rfl
      | some c =>
          rw [version_of_some hfind]
          exact LogEntry.counts_of_hit rfl (fun _ => rfl) (hexact.live_of_find? hfind)
  | takeSnapshot wanted a request settings =>
      obtain ⟨settings', rfl | rfl⟩ := hfits <;> exact LogEntry.counts_of_same rfl rfl
  | search wanted a snapshot request settings =>
      have hix : (s.advance (.search wanted a snapshot request settings) st).2.index = st.index :=
        congrArg Gate.inner (s.advance_search_gate wanted a snapshot request settings st)
      rw [hix]
      obtain ⟨settings', rfl | rfl⟩ := hfits <;> cases wanted <;>
        exact LogEntry.counts_of_same rfl rfl

theorem begin_finds (s : Store κ ε σ τ) (c : Call κ ε) (st : State κ ε σ τ) (client : Nat)
    (drawn : Option String) (k : κ) :
    LogEntry.finds k ⟨client, c, drawn, (s.begin c st).1.answer?⟩ = false := by
  cases c with
  | entity c =>
      cases c with
      | read target settings => exact LogEntry.finds_of_unanswered rfl k
      | version target settings => exact LogEntry.finds_of_unanswered rfl k
      | _ => rfl
  | _ => rfl

end Store

namespace World

variable {s : Store κ ε σ τ} {w : World κ ε σ τ}

theorem step_counts (h : w.Orderly s) (m : Move κ ε) :
    w.step s m = w ∨ ∃ entry, (w.step s m).log = w.log ++ [entry] ∧
      ∀ k, entry.Counts s k w.state.index (w.step s m).state.index := by
  rcases step_cases s w m with hsame | ⟨client, c, hstep⟩ | ⟨client, f, hf, hstep⟩
  · exact .inl hsame
  · refine .inr ⟨⟨client, c, s.drawn? c w.state, (s.begin c w.state).1.answer?⟩,
      by rw [hstep]; rfl, fun k => ?_⟩
    have hix : (w.step s m).state.index = w.state.index := by
      rw [hstep]
      exact congrArg Gate.inner (s.begin_gate c w.state)
    rw [hix]
    exact LogEntry.counts_of_same (s.begin_refused c w.state client _)
      (s.begin_finds c w.state client _ k)
  · refine .inr ⟨⟨client, f.call, f.drawn, (s.advance f.stage w.state).1.answer?⟩,
      by rw [hstep]; rfl, fun k => ?_⟩
    rw [hstep]
    exact Store.advance_counts h.exact (h.fits hf) client k

/-- How many entries have found a key since the last that wrote it. -/
def hitsSince (s : Store κ ε σ τ) (k : κ) (log : List (LogEntry κ ε)) : Nat :=
  (log.reverse.takeWhile fun entry => !entry.writes s k).countP (·.finds k)

theorem hitsSince_of_writes {k : κ} {log : List (LogEntry κ ε)} {entry : LogEntry κ ε}
    (h : entry.writes s k = true) : hitsSince s k (log ++ [entry]) = 0 := by
  rw [hitsSince, List.reverse_concat, List.takeWhile_cons_of_neg (by rw [h]; decide)]
  rfl

theorem hitsSince_concat {k : κ} {log : List (LogEntry κ ε)} {entry : LogEntry κ ε}
    (h : entry.writes s k = false) : hitsSince s k (log ++ [entry]) =
      hitsSince s k log + if entry.finds k then 1 else 0 := by
  rw [hitsSince, List.reverse_concat, List.takeWhile_cons_of_pos (by rw [h]; decide),
    List.countP_cons]
  rfl

/-- A key is tracked while it is live, and its count is the number of entries that have found it
since it was written. -/
def Counted (s : Store κ ε σ τ) (w : World κ ε σ τ) : Prop :=
  ∀ k, w.state.readHits k =
    if w.state.containsKey k then some (hitsSince s k w.log) else none

theorem start_counted (session : σ) (tokens : τ) :
    (start (State.start session tokens) : World κ ε σ τ).Counted s := fun _ => rfl

theorem step_counted (horderly : w.Orderly s) (h : w.Counted s) (m : Move κ ε) :
    (w.step s m).Counted s := by
  rcases step_counts horderly m with hsame | ⟨entry, hlog, hcounts⟩
  · rw [hsame]
    exact h
  · intro k
    have hold : w.state.index.readHits k =
        if w.state.index.containsKey k then some (hitsSince s k w.log) else none := h k
    change (w.step s m).state.index.readHits k =
      if (w.step s m).state.index.containsKey k then some (hitsSince s k (w.step s m).log) else none
    rw [hlog]
    cases hcounts k with
    | written hwrites hlive hhits => rw [hhits, hlive, if_pos rfl, hitsSince_of_writes hwrites]
    | deleted _ hgone hhits =>
        rw [hhits, hgone]
        rfl
    | found hwrites hfinds hlive hlive' hhits =>
        rw [hlive, if_pos rfl] at hold
        rw [hhits, hlive', if_pos rfl, hold, hitsSince_concat hwrites, hfinds]
        rfl
    | passed htouches hlive hhits =>
        obtain ⟨hwrites, -, hfinds⟩ := LogEntry.touches_eq_false_iff.1 htouches
        rw [hhits, hlive, hold, hitsSince_concat hwrites, hfinds]
        rfl

theorem Orderly.of_opened (h : w.Orderly s.opened) : w.Orderly s :=
  ⟨h.exact, fun hf => Stage.Fits.of_opened (h.fits hf), h.begun⟩

theorem run_counted (moves : List (Move κ ε)) (h : w.Orderly s ∧ w.Counted s) :
    (run s moves w).Orderly s ∧ (run s moves w).Counted s :=
  run_induction (P := fun w => w.Orderly s ∧ w.Counted s)
    (fun _ m hw => ⟨step_orderly hw.1 m, step_counted hw.1 hw.2 m⟩) moves h

end World

/-! ## What a look-up found -/

section

variable {s : Store κ ε σ τ} {target : Target κ} {settings : Option Settings}
  {drawn : Option String} {stage : Stage κ ε σ}

omit [EntityKey κ] in
theorem Stage.Fits.of_read (h : stage.Fits s (.entity (.read target settings)) drawn) :
    ∃ settings', stage = .read target settings' := by
  cases stage with
  | read target' settings' =>
      obtain ⟨settings'', hcall⟩ := h
      cases hcall
      exact ⟨settings', rfl⟩
  | _ => simp [Stage.Fits] at h

omit [EntityKey κ] in
theorem Stage.Fits.of_version (h : stage.Fits s (.entity (.version target settings)) drawn) :
    ∃ settings', stage = .version target settings' := by
  cases stage with
  | version target' settings' =>
      obtain ⟨settings'', hcall⟩ := h
      cases hcall
      exact ⟨settings', rfl⟩
  | _ => simp [Stage.Fits] at h

end

namespace Store

variable {s : Store κ ε σ τ} {st : State κ ε σ τ} {target : Target κ} {settings : Option Settings}
  {drawn : Option String} {k : κ}

theorem sameKey_iff_found {c : Container κ} (hfind : st.index.find? target = some c) :
    Index.sameKey k c.key = true ↔ ∃ c, st.index.find? target = some c ∧ c.key = k := by
  rw [Index.sameKey_iff, hfind]
  constructor
  · intro hk
    exact ⟨c, rfl, hk.symm⟩
  · intro hc
    obtain ⟨d, hd, hk⟩ := hc
    obtain rfl := Option.some.inj hd
    exact hk.symm

theorem finds_of_refused {call : Call κ ε} {a : Answer κ ε} (client : Nat)
    (hcode : a.code? ≠ some .ok) : LogEntry.finds k ⟨client, call, drawn, some a⟩ = false := by
  rw [LogEntry.finds]
  split
  · next r _ hanswer =>
      obtain rfl := Option.some.inj hanswer
      have hother : (r.code == .ok) = false :=
        beq_eq_false_iff_ne.2 fun h => hcode (congrArg some h)
      rw [hother, Bool.false_and]
  · next r _ hanswer =>
      obtain rfl := Option.some.inj hanswer
      have hother : (r.code == .ok) = false :=
        beq_eq_false_iff_ne.2 fun h => hcode (congrArg some h)
      rw [hother, Bool.false_and]
  · rfl

/-- The entry of a read says of a key that it was found if the target resolved to it and the answer
is 200. -/
theorem read_finds_iff (s : Store κ ε σ τ) (client : Nat) (st : State κ ε σ τ) (k : κ)
    (settings' : Option Settings) :
    LogEntry.finds k ⟨client, .entity (.read target settings), drawn,
        some (.entity (.entity (s.read target settings' st).1))⟩ = true ↔
      (EntityAnswer.entity (s.read target settings' st).1).code? = some .ok ∧
        ∃ c, st.index.find? target = some c ∧ c.key = k := by
  cases hfind : st.index.find? target with
  | none =>
      rw [s.read_of_none hfind,
        finds_of_refused client (by simp [Answer.code?, EntityAnswer.code?])]
      simp [EntityAnswer.code?]
  | some c =>
      obtain ⟨m', ⟨err, -, hread⟩ | ⟨e, -, ⟨-, hread⟩ | ⟨-, hread⟩⟩⟩ :=
        s.read_cases settings' hfind
      · rw [hread, finds_of_refused client (by simp [Answer.code?, EntityAnswer.code?])]
        simp [EntityAnswer.code?]
      · rw [hread, finds_of_refused client (by simp [Answer.code?, EntityAnswer.code?])]
        simp [EntityAnswer.code?]
      · rw [hread, ← hfind, ← sameKey_iff_found hfind]
        exact (and_iff_right rfl).symm

theorem version_finds_iff (client : Nat) (st : State κ ε σ τ) (k : κ)
    (settings' : Option Settings) :
    LogEntry.finds (ε := ε) k ⟨client, .entity (.version target settings), drawn,
        some (.entity (.version (version target settings' st).1))⟩ = true ↔
      (version target settings' st).1.code = .ok ∧
        ∃ c, st.index.find? target = some c ∧ c.key = k := by
  cases hfind : st.index.find? target with
  | none =>
      rw [version_of_none hfind,
        finds_of_refused client (by simp [Answer.code?, EntityAnswer.code?])]
      simp
  | some c =>
      rw [version_of_some hfind, ← hfind, ← sameKey_iff_found hfind]
      exact (and_iff_right rfl).symm

end Store

namespace Store

variable {s : Store κ ε σ τ} {w : World κ ε σ τ}

theorem Lives.counted (h : s.Lives w) : w.Orderly s ∧ w.Counted s := by
  obtain ⟨session, tokens, setup, moves⟩ := h
  obtain ⟨horderly, hcounted⟩ := World.run_counted (s := s.opened) setup
    ⟨World.start_orderly session tokens, World.start_counted session tokens⟩
  exact World.run_counted moves ⟨horderly.of_opened, hcounted⟩

/-- Read hits are counted exactly. Whatever clients have done, a key has a count if it is live, and
the count is the number of reads and version queries that were answered 200 for it since it was last
created or updated. A step moves the count only if its entry is one that wrote the key, deleted it
or found it, and a look-up finds the key that its target resolves to when it is answered. -/
theorem Lives.readHits_eq (h : s.Lives w) (k : κ) :
    w.state.readHits k =
        (if w.state.containsKey k then some (World.hitsSince s k w.log) else none) ∧
      (∀ m, (w.step s m).state.readHits k = w.state.readHits k ∨
        ∃ entry, (w.step s m).log = w.log ++ [entry] ∧ entry.touches s k = true) ∧
      ∀ client f target settings, w.flights client = some f →
        f.call = .entity (.read target settings) ∨ f.call = .entity (.version target settings) →
        ∃ answer, (w.step s (.go client)).log = w.log ++ [⟨client, f.call, f.drawn, some answer⟩] ∧
          (LogEntry.finds k ⟨client, f.call, f.drawn, some answer⟩ = true ↔
            answer.code? = some .ok ∧
              ∃ c, w.state.index.find? target = some c ∧ c.key = k) := by
  obtain ⟨horderly, hcounted⟩ := h.counted
  refine ⟨hcounted k, fun m => ?_, fun client f target settings hflight hcall => ?_⟩
  · rcases World.step_counts horderly m with hsame | ⟨entry, hlog, hcounts⟩
    · exact .inl (by rw [hsame])
    · cases htouches : entry.touches s k with
      | true => exact .inr ⟨entry, hlog, htouches⟩
      | false =>
          obtain ⟨hwrites, hdeletes, hfinds⟩ := LogEntry.touches_eq_false_iff.1 htouches
          cases hcounts k with
          | written hwrites' => exact absurd hwrites' (by rw [hwrites]; decide)
          | deleted hdeletes' => exact absurd hdeletes' (by rw [hdeletes]; decide)
          | found _ hfinds' => exact absurd hfinds' (by rw [hfinds]; decide)
          | passed _ _ hhits => exact .inl hhits
  · have hgo : w.step s (.go client) =
        w.note client f.call f.drawn (s.advance f.stage w.state) := by
      rw [World.step, hflight]
    rw [hgo]
    have hfits := horderly.fits hflight
    rcases hcall with hcall | hcall
    · rw [hcall] at hfits ⊢
      obtain ⟨settings', hstage⟩ := hfits.of_read
      rw [hstage]
      exact ⟨_, rfl, s.read_finds_iff client w.state k settings'⟩
    · rw [hcall] at hfits ⊢
      obtain ⟨settings', hstage⟩ := hfits.of_version
      rw [hstage]
      refine ⟨_, rfl, (version_finds_iff client w.state k settings').trans ?_⟩
      exact and_congr_left' Option.some_inj.symm

/-- A document is found by key and by reference while others ask for what is not there, a stale
update of it is refused, another is accepted, and it is found again, deleted and created anew. -/
def lookups : List (Move String Doc) := [
  .call 0 (.entity (.create { id := "a", references := [⟨"r", "1"⟩] } none)), .go 0,
  .call 0 (.entity (.read (.reference ⟨"r", "1"⟩) none)),
  .call 1 (.entity (.version (.key "a") none)),
  .call 2 (.entity (.read (.key "b") none)),
  .go 1, .go 0, .go 2,
  .call 0 (.searchEntities {} none), .go 0, .go 0,
  .call 0 (.entity (.update { id := "a", version := some "stale" } none)), .go 0,
  .call 0 (.entity (.update { id := "a" } none)), .go 0,
  .call 0 (.entity (.version (.key "a") none)), .go 0,
  .call 0 (.entity (.delete (.key "a") none)), .go 0,
  .call 0 (.entity (.create { id := "a" } none)), .go 0]

/-- The number of hits of the document after so many moves. -/
def lookedUp (n : Nat) : Option Nat :=
  (World.reached Doc.store () 0 (lookups.take n)).state.readHits "a"

theorem lookedUp_eq :
    lookedUp 0 = none ∧ lookedUp 2 = some 0 ∧ lookedUp 13 = some 2 ∧ lookedUp 15 = some 0 ∧
      lookedUp 17 = some 1 ∧ lookedUp 19 = none ∧ lookedUp 21 = some 0 := by
  have h : ∀ n, lookedUp n =
      if (World.reached Doc.store () 0 (lookups.take n)).state.containsKey "a"
      then some (World.hitsSince Doc.store "a" (World.reached Doc.store () 0 (lookups.take n)).log)
      else none :=
    fun n => (Lives.readHits_eq (lives_reached () 0 (lookups.take n)) "a").1
  simp only [h]
  decide +kernel

end Store

end EntityStore
