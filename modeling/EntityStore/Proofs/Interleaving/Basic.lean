import EntityStore.Proofs.Store.Calls
import Mathlib.Data.List.Basic
import Mathlib.Data.List.Induction

/-!
# Calls of several clients, step by step

A call is made in steps. What it does before it visits the gate is its first
step: a write builds its candidate, and an update with optimistic locking draws
its token there. The visit is the second. A search has one step more, since its
algorithm runs after the snapshot is taken. Any other client may take steps of
its own in between.

A schedule is a list of moves, each of which starts a call of a client or takes
the call that it has under way a step further, and a world is what has come of
a schedule: the state, the calls under way, and a log of all steps. The log is
not looked at by any step. It is there so that what happened before what can be
said of a whole run.

One client alone gets the answers of `Store.answer` (`Store.begin_ends`).
-/

namespace EntityStore

/-- The two kinds of search results. -/
inductive Wanted where
  | table
  | entities

/-- What is left of a call that is under way. -/
inductive Stage (κ ε σ : Type) where
  | enter (c : Candidate κ ε) (settings : Option Settings)
  | commit (p : PendingUpdate κ ε) (settings : Option Settings)
  | remove (target : Target κ) (settings : Option Settings)
  | read (target : Target κ) (settings : Option Settings)
  | version (target : Target κ) (settings : Option Settings)
  | takeSnapshot (wanted : Wanted) (a : Algorithm κ ε σ) (request : SearchRequest)
      (settings : Option Settings)
  | search (wanted : Wanted) (a : Algorithm κ ε σ) (snapshot : Snapshot κ)
      (request : SearchRequest) (settings : Option Settings)

/-- What a step leads to: an answer, or something that is left to do. -/
inductive Progress (κ ε σ : Type) where
  | done (a : Answer κ ε)
  | next (stage : Stage κ ε σ)

/-- The answer, if there is one. -/
def Progress.answer? {κ ε σ : Type} : Progress κ ε σ → Option (Answer κ ε)
  | .done a => some a
  | .next _ => none

/-- What is left to do, if anything is. -/
def Progress.stage? {κ ε σ : Type} : Progress κ ε σ → Option (Stage κ ε σ)
  | .done _ => none
  | .next stage => some stage

namespace Store

variable {κ ε σ τ : Type} [EntityKey κ]

/-- The first step of a search: it is found out which algorithm answers it. -/
def beginSearch (s : Store κ ε σ τ) (wanted : Wanted) (request : SearchRequest)
    (settings : Option Settings) (st : State κ ε σ τ) : Progress κ ε σ × State κ ε σ τ :=
  let st := st.notify s.observers (.beforeSearch request)
  match s.searches.get? (s.searchId request) with
  | some a => (.next (.takeSnapshot wanted a request settings), st)
  | none =>
    match wanted with
    | .table => (s.notSearched request settings st).map (.done ∘ .table) id
    | .entities => (s.notSearched request settings st).map (.done ∘ .entities) id

/-- The first step of a call, outside the gate. -/
def begin (s : Store κ ε σ τ) (c : Call κ ε) (st : State κ ε σ τ) :
    Progress κ ε σ × State κ ε σ τ :=
  match c with
  | .entity (.create e settings) =>
    if s.readOnly then
      (.done (.entity (.entity (.ok (refusal (some (s.makers.key e)) none settings)))), st)
    else
      match s.prepareCreate e st with
      | (.error err, st) => (.done (.entity (.entity (.error err))), st)
      | (.ok c, st) => (.next (.enter c settings), st)
  | .entity (.update e settings) =>
    if s.readOnly then
      (.done (.entity (.entity (.ok (refusal (some (s.makers.key e)) none settings)))), st)
    else
      match s.prepareUpdate e st with
      | (.error err, st) => (.done (.entity (.entity (.error err))), st)
      | (.ok p, st) => (.next (.commit p settings), st)
  | .entity (.delete target settings) =>
    if s.readOnly then
      (.done (.entity (.version (refusal target.key? (requested target) settings))), st)
    else (.next (.remove target settings), st.notify s.observers (.beforeDelete target))
  | .entity (.read target settings) => (.next (.read target settings), st)
  | .entity (.version target settings) => (.next (.version target settings), st)
  | .search request settings => s.beginSearch .table request settings st
  | .searchEntities request settings => s.beginSearch .entities request settings st

/-- A further step of a call. All but the last of a search are visits to the gate. -/
def advance (s : Store κ ε σ τ) (stage : Stage κ ε σ) (st : State κ ε σ τ) :
    Progress κ ε σ × State κ ε σ τ :=
  match stage with
  | .enter c settings => (enter c settings st).map (fun r => .done (.entity (.entity (.ok r)))) id
  | .commit p settings => (commit p settings st).map (fun r => .done (.entity (.entity (.ok r)))) id
  | .remove target settings =>
    (remove target settings st).map (fun r => .done (.entity (.version r))) id
  | .read target settings =>
    (s.read target settings st).map (fun r => .done (.entity (.entity r))) id
  | .version target settings =>
    (version target settings st).map (fun r => .done (.entity (.version r))) id
  | .takeSnapshot wanted a request settings =>
    (.next (.search wanted a (s.takeSnapshot st) request settings), st)
  | .search .table a snapshot request settings =>
    (s.searchIn (Hits.table request) a snapshot request settings st).map (.done ∘ .table) id
  | .search .entities a snapshot request settings =>
    (s.searchIn (Hits.entityList s.context) a snapshot request settings st).map
      (.done ∘ .entities) id

/-- Taking a call step by step, undisturbed, ends in an answer and a state. -/
inductive Ends (s : Store κ ε σ τ) :
    Progress κ ε σ × State κ ε σ τ → Answer κ ε × State κ ε σ τ → Prop where
  | done (a : Answer κ ε) (st : State κ ε σ τ) : Ends s (.done a, st) (a, st)
  | next {stage : Stage κ ε σ} {st : State κ ε σ τ} {r : Answer κ ε × State κ ε σ τ}
      (h : Ends s (s.advance stage st) r) : Ends s (.next stage, st) r

theorem beginSearch_ends (s : Store κ ε σ τ) (request : SearchRequest)
    (settings : Option Settings) (st : State κ ε σ τ) :
    s.Ends (s.beginSearch .table request settings st)
        ((s.search request settings st).map .table id) ∧
      s.Ends (s.beginSearch .entities request settings st)
        ((s.searchEntities request settings st).map .entities id) := by
  simp only [beginSearch, search, searchEntities, searchWith]
  cases s.searches.get? (s.searchId request) with
  | none => exact ⟨.done _ _, .done _ _⟩
  | some a => exact ⟨.next (.next (.done _ _)), .next (.next (.done _ _))⟩

theorem begin_ends (s : Store κ ε σ τ) (c : Call κ ε) (st : State κ ε σ τ) :
    s.Ends (s.begin c st) (s.answer c st) := by
  cases c with
  | entity c =>
      cases c with
      | create e settings =>
          simp only [begin, answer, perform, create]
          split
          · exact .done _ _
          · cases s.prepareCreate e st with
            | mk r st' =>
                cases r with
                | error err => exact .done _ _
                | ok c => exact .next (.done _ _)
      | update e settings =>
          simp only [begin, answer, perform, update]
          split
          · exact .done _ _
          · cases s.prepareUpdate e st with
            | mk r st' =>
                cases r with
                | error err => exact .done _ _
                | ok p => exact .next (.done _ _)
      | delete target settings =>
          simp only [begin, answer, perform, delete]
          split
          · exact .done _ _
          · exact .next (.done _ _)
      | read target settings => exact .next (.done _ _)
      | version target settings => exact .next (.done _ _)
  | search request settings => exact (s.beginSearch_ends request settings st).1
  | searchEntities request settings => exact (s.beginSearch_ends request settings st).2

/-- The token that a call is about to draw. -/
def drawn? (s : Store κ ε σ τ) (c : Call κ ε) (st : State κ ε σ τ) : Option String :=
  match c, s.versionPolicy with
  | .entity (.update e _), some p =>
    if p.optimistic && !s.readOnly then some (p.renew e st.tokens).1.1 else none
  | _, _ => none

end Store

/-! ## Worlds -/

/-- A step that was taken: whose it was and of which call, the token drawn for the call, and the
answer if this step ended it. -/
structure LogEntry (κ ε : Type) where
  client : Nat
  call : Call κ ε
  drawn : Option String
  answer : Option (Answer κ ε)

/-- A call under way. -/
structure Flight (κ ε σ : Type) where
  call : Call κ ε
  drawn : Option String
  stage : Stage κ ε σ

/-- What has come of a schedule. -/
structure World (κ ε σ τ : Type) [Ranked κ] where
  state : State κ ε σ τ
  /-- The call that each client has under way. -/
  flights : Nat → Option (Flight κ ε σ)
  log : List (LogEntry κ ε)

/-- What a client does next. -/
inductive Move (κ ε : Type) where
  | call (client : Nat) (c : Call κ ε)
  | go (client : Nat)

namespace World

variable {κ ε σ τ : Type} [EntityKey κ]

/-- The world before anybody moves. -/
def start (st : State κ ε σ τ) : World κ ε σ τ := ⟨st, fun _ => none, []⟩

/-- The world after a step of a client. -/
def note (w : World κ ε σ τ) (client : Nat) (call : Call κ ε) (drawn : Option String)
    (r : Progress κ ε σ × State κ ε σ τ) : World κ ε σ τ where
  state := r.2
  flights n := if n = client then r.1.stage?.map (Flight.mk call drawn) else w.flights n
  log := w.log ++ [⟨client, call, drawn, r.1.answer?⟩]

/-- The world after a move. A client that has a call under way does not start another, and one that
has none has nowhere to go. -/
def step (s : Store κ ε σ τ) (w : World κ ε σ τ) (m : Move κ ε) : World κ ε σ τ :=
  match m with
  | .call client c =>
    match w.flights client with
    | some _ => w
    | none => w.note client c (s.drawn? c w.state) (s.begin c w.state)
  | .go client =>
    match w.flights client with
    | some f => w.note client f.call f.drawn (s.advance f.stage w.state)
    | none => w

/-- The world after a schedule. -/
def run (s : Store κ ε σ τ) (moves : List (Move κ ε)) (w : World κ ε σ τ) : World κ ε σ τ :=
  moves.foldl (step s) w

/-- The world after a schedule that starts with nothing stored. -/
def reached (s : Store κ ε σ τ) (session : σ) (tokens : τ) (moves : List (Move κ ε)) :
    World κ ε σ τ := run s moves (start (State.start session tokens))

/-- A move that does anything adds one entry to the log. -/
theorem step_cases (s : Store κ ε σ τ) (w : World κ ε σ τ) (m : Move κ ε) :
    w.step s m = w ∨
    (∃ client c, w.step s m = w.note client c (s.drawn? c w.state) (s.begin c w.state)) ∨
    ∃ client f, w.flights client = some f ∧
      w.step s m = w.note client f.call f.drawn (s.advance f.stage w.state) := by
  cases m with
  | call client c =>
      rw [step]
      cases w.flights client with
      | some f => exact .inl rfl
      | none => exact .inr (.inl ⟨client, c, rfl⟩)
  | go client =>
      rw [step]
      cases hf : w.flights client with
      | some f => exact .inr (.inr ⟨client, f, hf, rfl⟩)
      | none => exact .inl rfl

theorem step_log (s : Store κ ε σ τ) (w : World κ ε σ τ) (m : Move κ ε) :
    w.step s m = w ∨ ∃ entry, (w.step s m).log = w.log ++ [entry] := by
  rcases step_cases s w m with h | ⟨client, c, h⟩ | ⟨client, f, -, h⟩
  · exact .inl h
  · exact .inr ⟨_, by rw [h]; rfl⟩
  · exact .inr ⟨_, by rw [h]; rfl⟩

theorem run_append (s : Store κ ε σ τ) (moves more : List (Move κ ε)) (w : World κ ε σ τ) :
    run s (moves ++ more) w = run s more (run s moves w) := List.foldl_append

/-- A property of worlds that every move keeps is kept by every schedule. -/
theorem run_induction {s : Store κ ε σ τ} {P : World κ ε σ τ → Prop}
    (hstep : ∀ w m, P w → P (w.step s m)) (moves : List (Move κ ε)) :
    ∀ {w : World κ ε σ τ}, P w → P (run s moves w) := by
  induction moves with
  | nil =>
      intro w h
      exact h
  | cons m rest ih =>
      intro w h
      exact ih (hstep w m h)

/-- Every entry of the log was added by a move, in the world whose log ends before it. -/
theorem exists_move_of_log (s : Store κ ε σ τ) {before after : List (LogEntry κ ε)}
    {entry : LogEntry κ ε} {st : State κ ε σ τ} (moves : List (Move κ ε))
    (h : (run s moves (start st)).log = before ++ entry :: after) :
    ∃ earlier m, (run s earlier (start st)).log = before ∧
      ((run s earlier (start st)).step s m).log = before ++ [entry] := by
  induction moves using List.reverseRecOn generalizing after with
  | nil =>
      cases before <;> cases h
  | append_singleton moves m ih =>
      rw [run_append] at h
      change ((run s moves (start st)).step s m).log = _ at h
      rcases step_log s (run s moves (start st)) m with hsame | ⟨last, hlog⟩
      · rw [hsame] at h
        exact ih h
      · rcases List.eq_nil_or_concat' after with rfl | ⟨after', last', rfl⟩
        · have heq := hlog.symm.trans h
          obtain ⟨rfl, hlast⟩ := List.append_inj' heq rfl
          refine ⟨moves, m, rfl, ?_⟩
          rw [hlog, hlast]
        · have heq : (run s moves (start st)).log ++ [last] =
              (before ++ entry :: after') ++ [last'] := by
            rw [← hlog, h]
            simp
          exact ih (List.append_inj' heq rfl).1

end World

end EntityStore
