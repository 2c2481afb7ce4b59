import EntityStore.Builder
import EntityStore.Proofs.Interleaving.Grounded

/-!
# Whole calls are schedules

A client that has nothing under way can make a call whole, and the state is then
that of `Store.answer`. So calls one after another are a schedule of one client,
and what is said of all schedules is said of them too. In particular the state
that a builder hands out is one that its store can be in, for entities are put
in beforehand by creating them.
-/

namespace EntityStore

variable {κ ε σ τ : Type} [EntityKey κ]

namespace World

variable {s : Store κ ε σ τ}

/-- The flights of other clients are left alone by a step. -/
theorem note_flights_of_ne (w : World κ ε σ τ) {client n : Nat} (hn : n ≠ client)
    (call : Call κ ε) (drawn : Option String) (r : Progress κ ε σ × State κ ε σ τ) :
    (w.note client call drawn r).flights n = w.flights n := if_neg hn

theorem note_flights_self (w : World κ ε σ τ) (client : Nat) (call : Call κ ε)
    (drawn : Option String) (r : Progress κ ε σ × State κ ε σ τ) :
    (w.note client call drawn r).flights client = r.1.stage?.map (Flight.mk call drawn) :=
  if_pos rfl

/-- A client can take what it has under way to its end. -/
theorem exists_run_of_ends {p : Progress κ ε σ × State κ ε σ τ} {r : Answer κ ε × State κ ε σ τ}
    (hends : s.Ends p r) (client : Nat) (call : Call κ ε) (drawn : Option String) :
    ∀ w : World κ ε σ τ, w.state = p.2 →
      w.flights client = p.1.stage?.map (Flight.mk call drawn) →
      ∃ moves, (run s moves w).state = r.2 ∧ (run s moves w).flights client = none := by
  induction hends with
  | done a st => exact fun w hstate hflight => ⟨[], hstate, hflight⟩
  | @next stage st r _ ih =>
      intro w hstate hflight
      have hstep : w.step s (.go client) =
          w.note client call drawn (s.advance stage w.state) := by
        rw [step, show w.flights client = some ⟨call, drawn, stage⟩ from hflight]
      subst hstate
      obtain ⟨moves, hend, hidle⟩ := ih (w.step s (.go client)) (by rw [hstep]; rfl)
        (by rw [hstep, note_flights_self])
      exact ⟨.go client :: moves, hend, hidle⟩

/-- A client that has nothing under way can make a call whole. -/
theorem exists_run_of_answer (w : World κ ε σ τ) {client : Nat} (hidle : w.flights client = none)
    (c : Call κ ε) :
    ∃ moves, (run s moves w).state = (s.answer c w.state).2 ∧
      (run s moves w).flights client = none := by
  have hstep : w.step s (.call client c) =
      w.note client c (s.drawn? c w.state) (s.begin c w.state) := by
    rw [step, hidle]
  obtain ⟨moves, hend, hidle'⟩ := exists_run_of_ends (s.begin_ends c w.state) client c
    (s.drawn? c w.state) (w.step s (.call client c)) (by rw [hstep]; rfl)
    (by rw [hstep, note_flights_self])
  exact ⟨.call client c :: moves, hend, hidle'⟩

/-- One client can make calls whole, one after another. -/
theorem exists_run_of_after (client : Nat) (calls : List (Call κ ε)) :
    ∀ w : World κ ε σ τ, w.flights client = none →
      ∃ moves, (run s moves w).state = s.after calls w.state ∧
        (run s moves w).flights client = none := by
  induction calls with
  | nil => exact fun w hidle => ⟨[], rfl, hidle⟩
  | cons c rest ih =>
      intro w hidle
      obtain ⟨moves, hstate, hidle'⟩ := exists_run_of_answer w hidle c
      obtain ⟨more, hend, hidle''⟩ := ih _ hidle'
      refine ⟨moves ++ more, ?_, ?_⟩
      · rw [run_append, hend, hstate]
        rfl
      · rw [run_append, hidle'']

end World

namespace Builder

/-- Putting entities in beforehand is creating them, one after another. -/
theorem populate_eq_after {s : Store κ ε σ τ} : ∀ {es : List ε} {st st' : State κ ε σ τ},
    populate s es st = .ok st' →
      st' = s.after (es.map fun e => .entity (.create e none)) st := by
  intro es
  induction es with
  | nil =>
      intro st st' h
      exact (Except.ok.inj h).symm
  | cons e rest ih =>
      intro st st' h
      rw [populate] at h
      cases hcreate : s.create e none st with
      | mk r next =>
          rw [hcreate] at h
          cases r with
          | error err => cases h
          | ok r =>
              dsimp only at h
              split at h
              · have hnext : (s.answer (.entity (.create e none)) st).2 = next :=
                  congrArg Prod.snd hcreate
                rw [ih h, ← hnext]
                rfl
              · cases h

omit [EntityKey κ] in
/-- A builder opens the store first, and then only says whether it is read-only. -/
theorem openStore_opened {b : Builder κ ε σ τ} {name : String} {identity : Uuid}
    {s : Store κ ε σ τ} (h : b.openStore name identity = .ok s) : s.opened = s := by
  simp only [openStore, bind, Except.bind, pure, Except.pure] at h
  split at h
  · cases h
  · split at h
    · cases h
    · split at h
      · cases h
      · rw [← Except.ok.inj h]
        rfl

/-- What is handed out was opened and populated. -/
theorem build_cases {b : Builder κ ε σ τ} {name : String} {identity : Uuid} {session : σ}
    {tokens : τ} {s : Store κ ε σ τ} {st : State κ ε σ τ}
    (h : b.build name identity session tokens = .ok (s, st)) :
    b.openStore name identity = .ok s.opened ∧ s.readOnly = b.config.readOnly ∧
      populate s.opened b.prepopulation (State.start session tokens) = .ok st := by
  rw [build] at h
  cases hopen : b.openStore name identity with
  | error err =>
      rw [hopen] at h
      cases h
  | ok s' =>
      rw [hopen] at h
      change (populate s' b.prepopulation (State.start session tokens)).bind _ = _ at h
      cases hpop : populate s' b.prepopulation (State.start session tokens) with
      | error err =>
          rw [hpop] at h
          cases h
      | ok st' =>
          rw [hpop] at h
          obtain ⟨rfl, rfl⟩ := Prod.mk.inj (Except.ok.inj h)
          have hopened : ({ s' with readOnly := b.config.readOnly } : Store κ ε σ τ).opened = s' :=
            openStore_opened hopen
          rw [hopened]
          exact ⟨rfl, rfl, hpop⟩

/-- The state that a store is handed out with is one that it can be in. -/
theorem build_reaches {b : Builder κ ε σ τ} {name : String} {identity : Uuid} {session : σ}
    {tokens : τ} {s : Store κ ε σ τ} {st : State κ ε σ τ}
    (h : b.build name identity session tokens = .ok (s, st)) : s.Reaches st := by
  obtain ⟨-, -, hpop⟩ := build_cases h
  obtain ⟨moves, hstate, -⟩ := World.exists_run_of_after (s := s.opened) 0
    (b.prepopulation.map fun e => .entity (.create e none))
    (World.start (State.start session tokens)) rfl
  refine ⟨_, .intro session tokens moves [], ?_⟩
  rw [populate_eq_after hpop]
  exact hstate

end Builder

end EntityStore
