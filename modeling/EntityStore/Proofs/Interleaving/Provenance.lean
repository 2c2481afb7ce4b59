import EntityStore.Proofs.Interleaving.Grounded

/-!
# What is stored is what was last accepted

The log tells of every stored container which write put it there: an accepted
creation or update of its key, with none after it, that put the container's
token on it, and whose answer showed the very copy that was read back from the
container's blob. This is the invariant
`World.Recorded`. A step that is accepted stores what it had under way, and its
entry is now the last of that key; any other step stores nothing new, and its
entry writes no key (`Store.advance_recorded`).

A log has one last write of a key, so whoever finds one in the log knows what a
read will show (`Store.Lives.read_of_last`), provided that what was written and
read back once reads the same ever after.
-/

namespace EntityStore

variable {κ ε σ τ : Type} [EntityKey κ]

namespace LogEntry

/-- Whether an entry is that of an accepted creation or update of a key. -/
def writes (s : Store κ ε σ τ) (k : κ) (entry : LogEntry κ ε) : Bool :=
  match entry.call with
  | .entity (.create e _) | .entity (.update e _) =>
    entry.isAccepted && Index.sameKey (s.makers.key e) k
  | _ => false

/-- An entry is that of a write that was accepted and stored a candidate. -/
structure Wrote (s : Store κ ε σ τ) (entry : LogEntry κ ε) (c : Candidate κ ε) : Prop where
  makes : s.MakesFor entry.call c
  accepted : entry.isAccepted = true
  answer : ∃ code settings,
    entry.answer = some (.entity (.entity (.ok (Store.accepted code c settings))))

omit [EntityKey κ] in
/-- What an entry says was created, with the answer, if it is that of a creation answered 201. -/
def created? (entry : LogEntry κ ε) : Option (ε × Response κ ε) :=
  match entry.call, entry.answer with
  | .entity (.create e _), some (.entity (.entity (.ok r))) =>
    if r.code = .created then some (e, r) else none
  | _, _ => none

/-- The token that an accepted write puts on what it stores: a creation the one that its entity
carries, and an update with optimistic locking the one that was drawn for it. -/
structure Seals (s : Store κ ε σ τ) (entry : LogEntry κ ε) (version : Option String) : Prop where
  of_create : ∀ {e settings}, entry.call = .entity (.create e settings) → version = s.versionOf e
  of_update : ∀ {e settings policy}, entry.call = .entity (.update e settings) →
    s.versionPolicy = some policy → policy.optimistic = true →
    ∃ token, entry.drawn = some token ∧ version = some token

variable {s : Store κ ε σ τ} {entry : LogEntry κ ε} {k : κ} {c : Candidate κ ε}

theorem of_created? {e : ε} {r : Response κ ε} (h : entry.created? = some (e, r)) :
    (∃ settings, entry.call = .entity (.create e settings)) ∧
      entry.answer = some (.entity (.entity (.ok r))) ∧
      entry.writes s (s.makers.key e) = true := by
  rw [created?] at h
  split at h
  · next e' settings r' hcall hanswer =>
      split at h
      · next hcode =>
          obtain ⟨rfl, rfl⟩ := Prod.mk.inj (Option.some.inj h)
          refine ⟨⟨settings, hcall⟩, hanswer, ?_⟩
          have haccepted : entry.isAccepted = true := by
            rw [isAccepted, hanswer, hcall]
            exact beq_iff_eq.2 (congrArg some hcode)
          simp only [writes, hcall, haccepted, Bool.true_and]
          exact Index.sameKey_iff.2 rfl
      · cases h
  · cases h

theorem writes_of_refused (h : entry.isAccepted = false) (k : κ) : entry.writes s k = false := by
  rw [writes, h]
  split <;> rfl

/-- The key that an accepted write is of. -/
theorem Wrote.writes_iff (h : entry.Wrote s c) : entry.writes s k = true ↔ c.container.key = k := by
  obtain ⟨key, d, hdrafts, hmakes⟩ := h.makes
  have haccepted := h.accepted
  rw [hmakes.key_eq]
  cases entry with
  | mk client call drawn answer =>
      cases hdrafts with
      | create e settings =>
          simp only [writes, haccepted, Bool.true_and]
          exact Index.sameKey_iff
      | update e settings tokens =>
          simp only [writes, haccepted, Bool.true_and]
          exact Index.sameKey_iff

/-- The copy that was answered. -/
theorem Wrote.entity_eq (h : entry.Wrote s c) {r : Response κ ε}
    (hanswer : entry.answer = some (.entity (.entity (.ok r)))) : r.entity = some c.copy := by
  obtain ⟨code, settings, hshown⟩ := h.answer
  rw [hanswer] at hshown
  obtain rfl : r = Store.accepted code c settings := by simpa using hshown
  rfl

theorem Wrote.of_opened (h : entry.Wrote s.opened c) : entry.Wrote s c :=
  ⟨h.makes.of_opened, h.accepted, h.answer⟩

omit [EntityKey κ] in
theorem Seals.of_opened {version : Option String} (h : entry.Seals s.opened version) :
    entry.Seals s version := ⟨h.of_create, h.of_update⟩

omit [EntityKey κ] in
/-- The last entry of a kind in a log is at or behind any other. -/
theorem last_at_or_behind {p : LogEntry κ ε → Bool}
    {before before' since since' : List (LogEntry κ ε)} {a b : LogEntry κ ε}
    (h : before ++ a :: since = before' ++ b :: since') (ha : p a = true)
    (hsince' : ∀ entry ∈ since', p entry = false) : b = a ∨ b ∈ since := by
  rcases List.append_eq_append_iff.1 h with ⟨mid, -, hmid⟩ | ⟨mid, -, hmid⟩
  · cases mid with
    | nil => exact .inl (List.cons.inj hmid).1.symm
    | cons x mid =>
        refine .inr ?_
        rw [(List.cons.inj hmid).2]
        exact List.mem_append_right _ List.mem_cons_self
  · cases mid with
    | nil => exact .inl (List.cons.inj hmid).1
    | cons x mid =>
        have hmem : a ∈ since' := by
          rw [(List.cons.inj hmid).2]
          exact List.mem_append_right _ List.mem_cons_self
        rw [hsince' a hmem] at ha
        cases ha

omit [EntityKey κ] in
/-- Two entries of a log with nothing of a kind behind them are one entry. -/
theorem last_unique {p : LogEntry κ ε → Bool} {before before' since since' : List (LogEntry κ ε)}
    {a b : LogEntry κ ε} (h : before ++ a :: since = before' ++ b :: since') (ha : p a = true)
    (hb : p b = true) (hsince : ∀ entry ∈ since, p entry = false)
    (hsince' : ∀ entry ∈ since', p entry = false) : a = b := by
  rcases last_at_or_behind h ha hsince' with hsame | hmem
  · exact hsame.symm
  · rw [hsince b hmem] at hb
    cases hb

/-- A step that is not accepted stores nothing. -/
theorem Effect.live_of_refused {ix ix' : Index κ} (h : entry.Effect s ix ix')
    (hrefused : entry.isAccepted = false) {d : Container κ} (hd : ix'.Live d) : ix.Live d := by
  cases h with
  | kept hits _ => exact hd
  | created _ haccepted _ _ _ =>
      rw [hrefused] at haccepted
      cases haccepted
  | replaced _ haccepted _ _ _ _ _ =>
      rw [hrefused] at haccepted
      cases haccepted
  | deleted _ haccepted _ _ _ =>
      rw [hrefused] at haccepted
      cases haccepted

end LogEntry

namespace Store

variable {s : Store κ ε σ τ} {made : Container κ → Prop} {st : State κ ε σ τ}

/-- What becomes of the contents, and what the entry says of it: a candidate was stored, its token
is the one of the entry and its answer was given, or nothing was stored and no key written. -/
def Records (s : Store κ ε σ τ) (entry : LogEntry κ ε) (ix ix' : Index κ) : Prop :=
  (∃ c, entry.Wrote s c ∧ entry.Seals s c.container.version ∧
    ∀ {d}, ix'.Live d → d = c.container ∨ d.key ≠ c.container.key ∧ ix.Live d) ∨
  (∀ k, entry.writes s k = false) ∧ ∀ {d}, ix'.Live d → ix.Live d

theorem records_of_refused {entry : LogEntry κ ε} {ix ix' : Index κ}
    (h : entry.Effect s ix ix') (hrefused : entry.isAccepted = false) : s.Records entry ix ix' :=
  .inr ⟨LogEntry.writes_of_refused hrefused, h.live_of_refused hrefused⟩

/-- The entry of a further step tells what the step stored. -/
theorem advance_recorded (h : st.Grounded s made) {stage : Stage κ ε σ} {call : Call κ ε}
    {drawn : Option String} (hfits : stage.Fits s call drawn)
    (hground : stage.Grounded s made call) (client : Nat) :
    s.Records ⟨client, call, drawn, (s.advance stage st).1.answer?⟩ st.index
      (s.advance stage st).2.index := by
  have heffect := s.advance_effect h.exact hfits client
  cases haccepted : (LogEntry.mk client call drawn (s.advance stage st).1.answer?).isAccepted with
  | false => exact records_of_refused heffect haccepted
  | true =>
      cases stage with
      | enter c settings =>
          obtain ⟨e, settings', rfl, -⟩ := hfits
          have hseals : c.container.version = s.versionOf e := by
            obtain ⟨key, d, hdrafts, hmakes⟩ := hground.2
            cases hdrafts
            rw [hmakes.container_eq]
            rfl
          simp only [advance] at haccepted ⊢
          rcases enter_cases c settings st with ⟨-, henter⟩ | ⟨-, -, henter⟩
          · rw [henter] at haccepted
            cases haccepted
          · rw [henter] at haccepted ⊢
            refine .inl ⟨c, ⟨hground.2, haccepted, .created, settings, rfl⟩, ⟨?_, ?_⟩,
              fun hd => Index.live_store_iff.1 hd⟩
            · intro e' settings' hcall
              cases hcall
              exact hseals
            · intro e' settings' policy hcall
              cases hcall
      | commit p settings =>
          obtain ⟨e, settings', rfl, -, hcarries⟩ := hfits
          simp only [advance, commit_eq] at haccepted ⊢
          rcases PendingUpdate.commit_cases h.exact p with ⟨-, hcommit⟩ |
            ⟨old, -, ⟨-, hcommit⟩ | ⟨-, -, hcommit⟩ | ⟨-, -, hcommit⟩⟩
          · rw [hcommit] at haccepted
            cases haccepted
          · rw [hcommit] at haccepted
            cases haccepted
          · rw [hcommit] at haccepted
            cases haccepted
          · rw [hcommit] at haccepted ⊢
            refine .inl ⟨p.toCandidate, ⟨hground.2, haccepted, .ok, settings, rfl⟩, ⟨?_, ?_⟩,
              fun hd => Index.live_store_iff.1 hd⟩
            · intro e' settings' hcall
              cases hcall
            · intro e' settings' policy _ hpolicy hoptimistic
              exact (hcarries hpolicy hoptimistic).2
      | remove target settings =>
          -- a deletion can be accepted, but stores nothing
          obtain ⟨settings', rfl⟩ := hfits
          refine .inr ⟨fun _ => rfl, fun {d} hd => ?_⟩
          change (remove target settings st).2.index.Live d at hd
          cases hc : st.index.find? target with
          | none =>
              rw [remove_of_none h.exact hc] at hd
              exact hd
          | some c =>
              rw [remove_of_some h.exact hc] at hd
              exact ((Index.live_delete_iff (h.exact.live_of_find? hc)).1 hd).1
      | read target settings =>
          obtain ⟨settings', rfl⟩ := hfits
          cases haccepted
      | version target settings =>
          obtain ⟨settings', rfl⟩ := hfits
          cases haccepted
      | takeSnapshot wanted a request settings => cases haccepted
      | search wanted a snapshot request settings =>
          obtain ⟨settings', rfl | rfl⟩ := hfits <;> cases wanted <;> cases haccepted

end Store

omit [EntityKey κ] in
theorem Stage.Fits.of_opened {s : Store κ ε σ τ} {call : Call κ ε} {drawn : Option String}
    {stage : Stage κ ε σ} (h : stage.Fits s.opened call drawn) : stage.Fits s call drawn := by
  cases stage <;> exact h

namespace World

variable {s : Store κ ε σ τ} {w : World κ ε σ τ}

/-- The log tells of every accepted write what it stored, and of every stored container which
write was the last of its key. -/
structure Recorded (s : Store κ ε σ τ) (w : World κ ε σ τ) : Prop where
  wrote : ∀ {entry k}, entry ∈ w.log → entry.writes s k = true →
    ∃ c, entry.Wrote s c ∧ c.container.key = k
  traced : ∀ {c}, w.state.index.Live c → ∃ before entry since copy,
    w.log = before ++ entry :: since ∧ entry.Wrote s ⟨c, copy⟩ ∧ entry.Seals s c.version ∧
      ∀ later ∈ since, later.writes s c.key = false

theorem start_recorded (session : σ) (tokens : τ) :
    (start (State.start session tokens) : World κ ε σ τ).Recorded s where
  wrote h := by cases h
  traced h := by cases h

/-- One more entry keeps the log complete if it tells what was stored. -/
theorem note_recorded (h : w.Recorded s) {client : Nat} {call : Call κ ε}
    {drawn : Option String} {r : Progress κ ε σ × State κ ε σ τ}
    (hrecords : s.Records ⟨client, call, drawn, r.1.answer?⟩ w.state.index r.2.index) :
    (w.note client call drawn r).Recorded s := by
  refine ⟨fun {entry k} hentry hwrites => ?_, fun {d} hd => ?_⟩
  · rcases List.mem_append.1 hentry with hold | hnew
    · exact h.wrote hold hwrites
    · obtain rfl := List.mem_singleton.1 hnew
      rcases hrecords with ⟨c, hwrote, -⟩ | ⟨hnone, -⟩
      · exact ⟨c, hwrote, hwrote.writes_iff.1 hwrites⟩
      · rw [hnone] at hwrites
        cases hwrites
  · have hstill :
        (∀ k, k = d.key → LogEntry.writes s k ⟨client, call, drawn, r.1.answer?⟩ = false) →
        w.state.index.Live d → ∃ before entry since copy,
          (w.note client call drawn r).log = before ++ entry :: since ∧
            entry.Wrote s ⟨d, copy⟩ ∧ entry.Seals s d.version ∧
            ∀ later ∈ since, later.writes s d.key = false := by
      intro hnew hlive
      obtain ⟨before, entry, since, copy, hlog, hwrote, hseals, hsince⟩ := h.traced hlive
      refine ⟨before, entry, since ++ [⟨client, call, drawn, r.1.answer?⟩], copy, ?_, hwrote,
        hseals, fun later hlater => ?_⟩
      · rw [note, hlog]
        simp
      · rcases List.mem_append.1 hlater with hold | hlast
        · exact hsince later hold
        · obtain rfl := List.mem_singleton.1 hlast
          exact hnew _ rfl
    rcases hrecords with ⟨c, hwrote, hseals, hlive⟩ | ⟨hnone, hlive⟩
    · rcases hlive hd with rfl | ⟨hkey, hold⟩
      · exact ⟨w.log, _, [], c.copy, rfl, hwrote, hseals, fun _ hnil => by cases hnil⟩
      · refine hstill (fun k hk => ?_) hold
        rw [← Bool.not_eq_true, hwrote.writes_iff, hk]
        exact fun hsame => hkey hsame.symm
    · exact hstill (fun k _ => hnone k) (hlive hd)

/-- What is known of a world that clients led a store to. -/
structure Sound (s : Store κ ε σ τ) (w : World κ ε σ τ) : Prop where
  orderly : w.Orderly s
  recorded : w.Recorded s
  grounded : ∃ made, w.Grounded s made

theorem step_sound (hs : s.searches.OnlyDecodes) (h : w.Sound s) (m : Move κ ε) :
    (w.step s m).Sound s := by
  obtain ⟨made, hmade⟩ := h.grounded
  refine ⟨step_orderly h.orderly m, ?_, ?_⟩
  · rcases step_cases s w m with hsame | ⟨client, c, hstep⟩ | ⟨client, f, hf, hstep⟩
    · rw [hsame]
      exact h.recorded
    · rw [hstep]
      have hrefused := s.begin_refused c w.state client (s.drawn? c w.state)
      refine note_recorded h.recorded (.inr ⟨LogEntry.writes_of_refused hrefused, fun {d} hd => ?_⟩)
      · rwa [show (s.begin c w.state).2.index = w.state.index from
          congrArg Gate.inner (s.begin_gate c w.state)] at hd
    · rw [hstep]
      exact note_recorded h.recorded
        (Store.advance_recorded hmade.state (h.orderly.fits hf) (hmade.flights hf) client)
  · obtain ⟨made', -, hstep⟩ := step_grounded hs hmade m
    exact ⟨made', hstep⟩

/-- What is known of a world of the open store is known of it when the store is closed. -/
theorem Sound.of_opened (h : w.Sound s.opened) : w.Sound s where
  orderly := ⟨h.orderly.exact, fun hf => Stage.Fits.of_opened (h.orderly.fits hf), h.orderly.begun⟩
  recorded := by
    refine ⟨fun hentry hwrites => ?_, fun hc => ?_⟩
    · obtain ⟨c, hwrote, hkey⟩ := h.recorded.wrote hentry hwrites
      exact ⟨c, hwrote.of_opened, hkey⟩
    · obtain ⟨before, entry, since, copy, hlog, hwrote, hseals, hsince⟩ := h.recorded.traced hc
      exact ⟨before, entry, since, copy, hlog, hwrote.of_opened, hseals.of_opened, hsince⟩
  grounded := by
    obtain ⟨made, hmade⟩ := h.grounded
    exact ⟨made, of_opened_grounded hmade⟩

theorem run_sound (hs : s.searches.OnlyDecodes) (moves : List (Move κ ε)) (h : w.Sound s) :
    (run s moves w).Sound s :=
  run_induction (P := Sound s) (fun _ m hw => step_sound hs hw m) moves h

theorem start_sound (session : σ) (tokens : τ) :
    (start (State.start session tokens) : World κ ε σ τ).Sound s :=
  ⟨start_orderly session tokens, start_recorded session tokens, _,
    start_grounded (State.start_grounded s session tokens)⟩

end World

namespace Store

variable {s : Store κ ε σ τ} {w : World κ ε σ τ}

/-- Every world that clients lead a store to is sound. -/
theorem Lives.sound (hs : s.searches.OnlyDecodes) (h : s.Lives w) : w.Sound s := by
  obtain ⟨session, tokens, setup, moves⟩ := h
  have hopened : (World.reached s.opened session tokens setup).Sound s.opened :=
    World.run_sound (s := s.opened) hs setup (World.start_sound session tokens)
  exact World.run_sound hs moves hopened.of_opened

/-! ## Reads -/

/-- The answer to a read that hands out the entity of a container. -/
def handedOut (c : Container κ) (e : ε) (settings : Option Settings) : Response κ ε where
  code := .ok
  key := some c.key
  entity := some e
  reference := c.reference
  settings := settings

/-- The answer to a read of a container whose signature does not fit. -/
def forbidden (c : Container κ) (settings : Option Settings) : Response κ ε where
  code := .forbidden
  key := some c.key
  settings := settings

theorem read_of_entity {st : State κ ε σ τ} {target : Target κ} {c : Container κ} {e : ε}
    (hfind : st.index.find? target = some c) (he : (c.entity s.context st.memory).1 = .ok e)
    (settings : Option Settings) :
    (s.read target settings st).1 =
      .ok (if s.isIntact c e then handedOut c e settings else forbidden c settings) := by
  obtain ⟨m', ⟨err, hent, -⟩ | ⟨e', hent, ⟨hintact, hread⟩ | ⟨hintact, hread⟩⟩⟩ :=
    s.read_cases settings hfind
  · rw [hent] at he
    cases he
  · rw [hent] at he
    obtain rfl := Except.ok.inj he
    rw [hread, hintact]
    rfl
  · rw [hent] at he
    obtain rfl := Except.ok.inj he
    rw [hread, hintact]
    rfl

/-- With a steady context a read that finds a container answers with the copy that was made when
the container was, and the log tells of the write that stored it. -/
theorem Lives.read_of_find (hs : s.searches.OnlyDecodes) (hx : s.context.IsSteady)
    (h : s.Lives w) {target : Target κ} {c : Container κ}
    (hfind : w.state.index.find? target = some c) :
    ∃ before entry since copy, w.log = before ++ entry :: since ∧ entry.Wrote s ⟨c, copy⟩ ∧
      (∀ later ∈ since, later.writes s c.key = false) ∧
      ∀ settings, (s.read target settings w.state).1 =
        .ok (if s.isIntact c copy then handedOut c copy settings else forbidden c settings) := by
  have hsound := h.sound hs
  have hlive := hsound.orderly.exact.live_of_find? hfind
  obtain ⟨before, entry, since, copy, hlog, hwrote, -, hsince⟩ := hsound.recorded.traced hlive
  obtain ⟨made, hmade⟩ := hsound.grounded
  obtain ⟨key, d, -, hmakes⟩ := hwrote.makes
  have hentity := hmade.state.entity_eq hx (hmade.state.live hlive) (hmakes.reads hx)
  exact ⟨before, entry, since, copy, hlog, hwrote, hsince, read_of_entity hfind hentity⟩

/-- A read that is answered 200 shows the copy that the last write of the key showed. -/
theorem Lives.read_of_last (hs : s.searches.OnlyDecodes) (hx : s.context.IsSteady)
    (h : s.Lives w) {before since : List (LogEntry κ ε)} {entry : LogEntry κ ε}
    {c : Candidate κ ε} (hlog : w.log = before ++ entry :: since) (hwrote : entry.Wrote s c)
    (hsince : ∀ later ∈ since, later.writes s c.container.key = false) {target : Target κ}
    {settings : Option Settings} {r : Response κ ε}
    (hread : (s.read target settings w.state).1 = .ok r) (hok : r.code = .ok)
    (hkey : r.key = some c.container.key) : r.entity = some c.copy := by
  cases hfind : w.state.index.find? target with
  | none =>
      rw [s.read_of_none hfind] at hread
      obtain rfl := Except.ok.inj hread
      cases hok
  | some d =>
      obtain ⟨before', entry', since', copy, hlog', hwrote', hsince', hshown⟩ :=
        h.read_of_find hs hx hfind
      rw [hshown] at hread
      obtain rfl := Except.ok.inj hread
      split at hok
      · next hintact =>
          rw [if_pos hintact] at hkey ⊢
          have hsame : d.key = c.container.key := Option.some.inj hkey
          have hwrites : entry'.writes s c.container.key = true := hwrote'.writes_iff.2 hsame
          rw [hsame] at hsince'
          obtain rfl := LogEntry.last_unique (hlog.symm.trans hlog') (hwrote.writes_iff.2 rfl)
            hwrites hsince hsince'
          obtain ⟨code, settings', hanswer⟩ := hwrote'.answer
          have hcopy : some copy = some c.copy := hwrote.entity_eq hanswer
          exact hcopy
      · cases hok

end Store

end EntityStore
