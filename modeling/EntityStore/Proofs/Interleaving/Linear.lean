import EntityStore.Proofs.Interleaving.Lockstep
import EntityStore.Proofs.Interleaving.Whole
import EntityStore.Proofs.Store.Documents

/-!
# Calls of several clients are answered in turn

Each call has its turn when it visits the gate, or at its first step if that
already ends it. A chronicle follows a schedule and writes down the turns as they
come, with the token source that the first step of the call drew from. The calls
can then be made again, whole and one after another in the order of their turns,
each with the token that it drew. This comes to the same: the same index, and
for every client the same answers in the same order (`World.linearizable`).

The invariant compares the world with the state in which all the turns so far
were served. Their indices are the same, handles apart. A client that has a call
under way has not had the turn of that call, and then what is left to do is what
its first step would leave to do in any state with the same token source; or it
has had it, and then the call is a search, whose answer is known though its
algorithm has yet to run.
-/

namespace EntityStore

variable {κ ε σ τ : Type} [EntityKey κ]

/-! ## Turns -/

/-- A call at its turn: whose it is, and the token source that its first step drew from. -/
structure Turn (κ ε τ : Type) where
  client : Nat
  call : Call κ ε
  tokens : τ

/-- A call that was answered: whose it was, and the answer. -/
structure Reply (κ ε : Type) where
  client : Nat
  call : Call κ ε
  answer : Answer κ ε

omit [EntityKey κ] in
/-- The replies to one client. -/
def Reply.forClient (client : Nat) (replies : List (Reply κ ε)) : List (Reply κ ε) :=
  replies.filter (·.client == client)

omit [EntityKey κ] in
/-- The reply that an entry of a log tells of, if it tells of one. -/
def LogEntry.reply? (entry : LogEntry κ ε) : Option (Reply κ ε) :=
  entry.answer.map (Reply.mk entry.client entry.call)

/-- A state with another token source. -/
def State.drawingFrom (st : State κ ε σ τ) (tokens : τ) : State κ ε σ τ := { st with tokens }

namespace Store

/-- Answers the call of a turn, whole. -/
def serveTurn (s : Store κ ε σ τ) (r : List (Reply κ ε) × State κ ε σ τ) (t : Turn κ ε τ) :
    List (Reply κ ε) × State κ ε σ τ :=
  let (a, st) := s.answer t.call (r.2.drawingFrom t.tokens)
  (r.1 ++ [⟨t.client, t.call, a⟩], st)

/-- Answers the calls of turns, one after another. -/
def serve (s : Store κ ε σ τ) (turns : List (Turn κ ε τ)) (st : State κ ε σ τ) :
    List (Reply κ ε) × State κ ε σ τ := turns.foldl s.serveTurn ([], st)

end Store

/-- A world with the turns that calls had so far, and the token source at the first step of the call
that each client began last. -/
structure Chronicle (κ ε σ τ : Type) [Ranked κ] where
  world : World κ ε σ τ
  sources : Nat → τ
  turns : List (Turn κ ε τ)

namespace Chronicle

/-- Nobody has had a turn. -/
def start (st : State κ ε σ τ) : Chronicle κ ε σ τ := ⟨World.start st, fun _ => st.tokens, []⟩

/-- The turn that a move is, if it is one: a visit to the gate, or a first step that ends its
call. -/
def turn? (s : Store κ ε σ τ) (ch : Chronicle κ ε σ τ) (m : Move κ ε) : Option (Turn κ ε τ) :=
  match m with
  | .call client c =>
    match ch.world.flights client, (s.begin c ch.world.state).1 with
    | none, .done _ => some ⟨client, c, ch.world.state.tokens⟩
    | _, _ => none
  | .go client =>
    match ch.world.flights client with
    | some f => if f.stage.isSearching then none else some ⟨client, f.call, ch.sources client⟩
    | none => none

/-- The token sources after a move. -/
def sourcesAfter (ch : Chronicle κ ε σ τ) (m : Move κ ε) (n : Nat) : τ :=
  match m with
  | .call client _ =>
    if n = client ∧ (ch.world.flights client).isNone then ch.world.state.tokens else ch.sources n
  | .go _ => ch.sources n

/-- The chronicle after a move. -/
def step (s : Store κ ε σ τ) (ch : Chronicle κ ε σ τ) (m : Move κ ε) : Chronicle κ ε σ τ where
  world := ch.world.step s m
  sources := ch.sourcesAfter m
  turns := ch.turns ++ (ch.turn? s m).toList

/-- The chronicle of a schedule. -/
def run (s : Store κ ε σ τ) (moves : List (Move κ ε)) (ch : Chronicle κ ε σ τ) :
    Chronicle κ ε σ τ := moves.foldl (step s) ch

theorem run_world (s : Store κ ε σ τ) (moves : List (Move κ ε)) : ∀ ch : Chronicle κ ε σ τ,
    (run s moves ch).world = World.run s moves ch.world := by
  induction moves with
  | nil => exact fun _ => rfl
  | cons m rest ih => exact fun ch => ih (ch.step s m)

theorem run_append (s : Store κ ε σ τ) (moves more : List (Move κ ε)) (ch : Chronicle κ ε σ τ) :
    run s (moves ++ more) ch = run s more (run s moves ch) := List.foldl_append

theorem turns_prefix_run (s : Store κ ε σ τ) (moves : List (Move κ ε)) :
    ∀ ch : Chronicle κ ε σ τ, ch.turns <+: (run s moves ch).turns := by
  induction moves with
  | nil => exact fun _ => List.prefix_rfl
  | cons m rest ih => exact fun ch => (List.prefix_append _ _).trans (ih (ch.step s m))

end Chronicle

/-- The turns that calls have under a schedule. -/
def World.turns (s : Store κ ε σ τ) (st : State κ ε σ τ) (moves : List (Move κ ε)) :
    List (Turn κ ε τ) := (Chronicle.run s moves (Chronicle.start st)).turns

/-! ## Whole calls, once more by steps -/

namespace Store

variable {s : Store κ ε σ τ} {st : State κ ε σ τ}

theorem Ends.eq_of_done {p : Progress κ ε σ × State κ ε σ τ} {r : Answer κ ε × State κ ε σ τ}
    (h : s.Ends p r) {a : Answer κ ε} (ha : p.1 = .done a) : r = (a, p.2) := by
  cases h with
  | done a' st => rw [Progress.done.inj ha]
  | next _ => cases ha

theorem Ends.of_next {p : Progress κ ε σ × State κ ε σ τ} {r : Answer κ ε × State κ ε σ τ}
    (h : s.Ends p r) {stage : Stage κ ε σ} (hstage : p.1 = .next stage) :
    s.Ends (s.advance stage p.2) r := by
  cases h with
  | done a st => cases hstage
  | next hrest =>
      obtain rfl := Progress.next.inj hstage
      exact hrest

/-- Only the last step of a search is left after the gate. -/
theorem advance_done_of_searching {stage : Stage κ ε σ} (h : stage.isSearching = true)
    (st : State κ ε σ τ) : ∃ a, (s.advance stage st).1 = .done a := by
  cases stage with
  | search wanted a snapshot request settings =>
      cases wanted with
      | table => exact ⟨_, rfl⟩
      | entities => exact ⟨_, rfl⟩
  | _ => cases h

theorem advance_index_of_searching {stage : Stage κ ε σ} (h : stage.isSearching = true) :
    (s.advance stage st).2.index = st.index := by
  cases stage with
  | search wanted a snapshot request settings =>
      exact congrArg Gate.inner (s.advance_search_gate wanted a snapshot request settings st)
  | _ => cases h

theorem begin_index (call : Call κ ε) (st : State κ ε σ τ) :
    (s.begin call st).2.index = st.index := congrArg Gate.inner (s.begin_gate call st)

/-- A visit to the gate ends the call, or leaves a search with its algorithm to run. -/
theorem searching_of_advance_next {stage next : Stage κ ε σ}
    (h : (s.advance stage st).1 = .next next) :
    next.isSearching = true ∧ next.algorithm? = stage.algorithm? := by
  cases stage with
  | takeSnapshot wanted a request settings =>
      obtain rfl := Progress.next.inj h
      exact ⟨rfl, rfl⟩
  | search wanted a snapshot request settings => cases wanted <;> cases h
  | _ => cases h

/-- What a first step leaves to do has not visited the gate, and its algorithm is registered. -/
theorem begin_next {call : Call κ ε} {stage : Stage κ ε σ} (h : (s.begin call st).1 = .next stage) :
    stage.isSearching = false ∧
      ∀ a, stage.algorithm? = some a → ∃ id, s.searches.get? id = some a := by
  have hsearch : ∀ wanted request settings,
      (s.beginSearch wanted request settings st).1 = .next stage → stage.isSearching = false ∧
        ∀ a, stage.algorithm? = some a → ∃ id, s.searches.get? id = some a := by
    intro wanted request settings h
    simp only [beginSearch] at h
    split at h
    · next a ha =>
        obtain rfl := Progress.next.inj h
        refine ⟨rfl, fun a' ha' => ⟨s.searchId request, ?_⟩⟩
        rw [← Option.some.inj ha']
        exact ha
    · cases wanted <;> cases h
  cases call with
  | entity c =>
      cases c with
      | create e settings =>
          simp only [begin] at h
          split at h
          · cases h
          · cases hprep : s.prepareCreate e st with
            | mk r st' =>
                rw [hprep] at h
                cases r with
                | error err => cases h
                | ok c =>
                    obtain rfl := Progress.next.inj h
                    exact ⟨rfl, fun a ha => by cases ha⟩
      | update e settings =>
          simp only [begin] at h
          split at h
          · cases h
          · cases hprep : s.prepareUpdate e st with
            | mk r st' =>
                rw [hprep] at h
                cases r with
                | error err => cases h
                | ok p =>
                    obtain rfl := Progress.next.inj h
                    exact ⟨rfl, fun a ha => by cases ha⟩
      | delete target settings =>
          simp only [begin] at h
          split at h
          · cases h
          · obtain rfl := Progress.next.inj h
            exact ⟨rfl, fun a ha => by cases ha⟩
      | read target settings =>
          obtain rfl := Progress.next.inj h
          exact ⟨rfl, fun a ha => by cases ha⟩
      | version target settings =>
          obtain rfl := Progress.next.inj h
          exact ⟨rfl, fun a ha => by cases ha⟩
  | search request settings => exact hsearch .table request settings h
  | searchEntities request settings => exact hsearch .entities request settings h

/-- A call that is begun in two states with the same index ends in both with the same answer, if it
ends there. -/
theorem begin_answers (hx : s.context.IsPure) {u v : State κ ε σ τ} (hu : u.memory.Tidy)
    (hv : v.memory.Tidy) (htokens : u.tokens = v.tokens) {call : Call κ ε} {a : Answer κ ε}
    (ha : (s.begin call u).1 = .done a) :
    (s.answer call v).1 = a ∧ (s.answer call v).2.index = v.index := by
  have hagree := begin_agree hx hu hv htokens call
  rw [ha] at hagree
  rw [(s.begin_ends call v).eq_of_done (Progress.bare_eq_done_iff.1 hagree.symm)]
  exact ⟨rfl, begin_index call v⟩

/-- A visit to the gate comes to what the whole call comes to. If it is that of a search, the answer
to the whole call is the one that its algorithm will give whenever it is run. -/
theorem gate_answers (hx : s.context.IsPure) (hs : s.searches.AreFunctions s.context)
    {made made' : Container κ → Prop} {u v : State κ ε σ τ} (hu : u.Grounded s made)
    (hv : v.Grounded s made') {call : Call κ ε} {stage : Stage κ ε σ}
    (hgate : stage.isSearching = false) (hbegun : (s.begin call v).1.bare = .next stage.bare)
    (hix : u.index.bare = v.index.bare) :
    (s.advance stage u).2.index.bare = (s.answer call v).2.index.bare ∧
    ((s.advance stage u).1 = .done (s.answer call v).1 ∨
      ∃ last, (s.advance stage u).1 = .next last ∧ last.isSearching = true ∧
        ∀ {made : Container κ → Prop} {st : State κ ε σ τ}, st.Grounded s made →
          last.Grounded s made call → (s.advance last st).1 = .done (s.answer call v).1) := by
  -- the whole call begins, and visits the gate together with the one that is under way
  obtain ⟨stage', hbegin, hbare⟩ := Progress.bare_eq_next hbegun
  obtain ⟨made'', -, hnext, hstages⟩ := begin_grounded hs.onlyDecodes hv call
  rw [← begin_index call v] at hix
  obtain ⟨hprogress, hindex⟩ := advance_agree hx hu hnext hbare.symm hgate hix
  obtain ⟨hend, hends⟩ := advance_grounded hnext (hstages stage' (by rw [hbegin]; rfl))
  have hrest := (s.begin_ends call v).of_next hbegin
  cases hadvance : (s.advance stage u).1 with
  | done a =>
      rw [hadvance] at hprogress
      rw [hrest.eq_of_done (Progress.bare_eq_done_iff.1 hprogress.symm)]
      exact ⟨hindex, .inl rfl⟩
  | next last =>
      rw [hadvance] at hprogress
      obtain ⟨last', hlast, hbareLast⟩ := Progress.bare_eq_next hprogress.symm
      obtain ⟨hsearching, halgorithm⟩ := searching_of_advance_next hadvance
      obtain ⟨hsearching', -⟩ := searching_of_advance_next hlast
      obtain ⟨a, ha⟩ := advance_done_of_searching (s := s) hsearching'
        (s.advance stage' (s.begin call v).2).2
      have hfunction : ∀ a, last.algorithm? = some a → a.IsFunction s.context := by
        intro a ha
        rw [halgorithm, ← Stage.algorithm?_bare, ← hbare, Stage.algorithm?_bare] at ha
        obtain ⟨id, hid⟩ := (begin_next hbegin).2 a ha
        exact hs hid
      have hground := hends last' (by rw [hlast]; rfl)
      rw [(hrest.of_next hlast).eq_of_done ha, advance_index_of_searching hsearching']
      refine ⟨hindex, .inr ⟨last, rfl, hsearching, fun hlater hstage => ?_⟩⟩
      exact (search_agree hx hfunction hlater hend hstage hground hbareLast.symm
        hsearching).trans ha

end Store

/-! ## The invariant -/

/-- What is left of a call is what its first step leaves in any state with the given token
source. -/
def Flight.Begun (s : Store κ ε σ τ) (source : τ) (f : Flight κ ε σ) : Prop :=
  ∀ st : State κ ε σ τ, st.memory.Tidy → st.tokens = source →
    (s.begin f.call st).1.bare = .next f.stage.bare

/-- Whenever the algorithm of a search is run, the call is answered by what it was answered at its
turn. -/
def Flight.Owes (s : Store κ ε σ τ) (f : Flight κ ε σ) (a : Answer κ ε) : Prop :=
  ∀ {made : Container κ → Prop} {st : State κ ε σ τ}, st.Grounded s made →
    f.stage.Grounded s made f.call → (s.advance f.stage st).1 = .done a

/-- How a client stands: the call that it has under way, and the reply to it if it had its turn. -/
inductive Flight.Standing (s : Store κ ε σ τ) (source : τ) (client : Nat) :
    Option (Flight κ ε σ) → List (Reply κ ε) → Prop where
  | idle : Standing s source client none []
  | begun {f : Flight κ ε σ} (hgate : f.stage.isSearching = false) (h : f.Begun s source) :
      Standing s source client (some f) []
  | answered {f : Flight κ ε σ} {a : Answer κ ε} (hsearching : f.stage.isSearching = true)
      (h : f.Owes s a) : Standing s source client (some f) [⟨client, f.call, a⟩]

namespace Reply

omit [EntityKey κ]

variable {client n : Nat}

theorem forClient_append (replies more : List (Reply κ ε)) :
    forClient n (replies ++ more) = forClient n replies ++ forClient n more :=
  List.filter_append ..

theorem forClient_self (call : Call κ ε) (a : Answer κ ε) :
    forClient client [⟨client, call, a⟩] = [⟨client, call, a⟩] :=
  List.filter_cons_of_pos (beq_self_eq_true client)

theorem forClient_of_ne (h : n ≠ client) (call : Call κ ε) (a : Answer κ ε) :
    forClient n [⟨client, call, a⟩] = [] := by
  refine List.filter_cons_of_neg ?_
  rw [beq_iff_eq]
  exact fun heq => h heq.symm

end Reply

namespace World

/-- All replies so far. -/
def replies (w : World κ ε σ τ) : List (Reply κ ε) := w.log.filterMap LogEntry.reply?

theorem replies_note (w : World κ ε σ τ) (client : Nat) (call : Call κ ε) (drawn : Option String)
    (r : Progress κ ε σ × State κ ε σ τ) : (w.note client call drawn r).replies =
      w.replies ++ (r.1.answer?.map (Reply.mk client call)).toList := by
  rw [replies, replies, note, List.filterMap_append]
  cases r.1 <;> rfl

theorem replies_note_of_ne (w : World κ ε σ τ) {client n : Nat} (hn : n ≠ client)
    (call : Call κ ε) (drawn : Option String) (r : Progress κ ε σ × State κ ε σ τ) :
    Reply.forClient n (w.note client call drawn r).replies = Reply.forClient n w.replies := by
  rw [replies_note, Reply.forClient_append]
  cases r.1 with
  | done a => exact (congrArg _ (Reply.forClient_of_ne hn call a)).trans (List.append_nil _)
  | next stage => exact List.append_nil _

end World

/-- A chronicle agrees with the serving of its turns. -/
structure Chronicle.Agrees (s : Store κ ε σ τ) (st : State κ ε σ τ) (ch : Chronicle κ ε σ τ) :
    Prop where
  grounded : ∃ made, ch.world.Grounded s made
  served : ∃ made, (s.serve ch.turns st).2.Grounded s made
  index : ch.world.state.index.bare = (s.serve ch.turns st).2.index.bare
  standing : ∀ client, ∃ owed,
    Reply.forClient client (s.serve ch.turns st).1 =
        Reply.forClient client ch.world.replies ++ owed ∧
      Flight.Standing s (ch.sources client) client (ch.world.flights client) owed

namespace Chronicle

variable {s : Store κ ε σ τ} {st : State κ ε σ τ} {ch : Chronicle κ ε σ τ}

theorem start_agrees (h : ∃ made, st.Grounded s made) : (start st).Agrees s st where
  grounded := by
    obtain ⟨made, hmade⟩ := h
    exact ⟨made, World.start_grounded hmade⟩
  served := h
  index := rfl
  standing client := ⟨[], rfl, .idle⟩

/-- The state after a turn, and the reply to it. -/
theorem serve_turn (turns : List (Turn κ ε τ)) (t : Turn κ ε τ) :
    s.serve (turns ++ [t]) st = s.serveTurn (s.serve turns st) t := List.foldl_append

theorem drawingFrom_grounded {made : Container κ → Prop} (h : st.Grounded s made) (tokens : τ) :
    (st.drawingFrom tokens).Grounded s made := h.fills rfl (.refl _)

section

variable {client : Nat} {call : Call κ ε}

/-- A step after which nothing was served changes how its own client stands at most. -/
theorem Agrees.note_unserved (h : ch.Agrees s st) {ch' : Chronicle κ ε σ τ}
    {drawn : Option String} {r : Progress κ ε σ × State κ ε σ τ}
    (hworld : ch'.world = ch.world.note client call drawn r) (hturns : ch'.turns = ch.turns)
    (hsources : ∀ n, n ≠ client → ch'.sources n = ch.sources n)
    (hgrounded : ∃ made, ch'.world.Grounded s made) (hindex : r.2.index = ch.world.state.index)
    (hstanding : ∃ owed, Reply.forClient client (s.serve ch.turns st).1 =
        Reply.forClient client ch'.world.replies ++ owed ∧
      Flight.Standing s (ch'.sources client) client (ch'.world.flights client) owed) :
    ch'.Agrees s st where
  grounded := hgrounded
  served := by
    rw [hturns]
    exact h.served
  index := by
    rw [hturns, hworld, ← h.index]
    exact congrArg Index.bare hindex
  standing n := by
    by_cases hn : n = client
    · subst hn
      rw [hturns]
      exact hstanding
    · obtain ⟨owed, hreplies, hold⟩ := h.standing n
      rw [hturns, hworld, World.replies_note_of_ne _ hn, World.note_flights_of_ne _ hn,
        hsources n hn]
      exact ⟨owed, hreplies, hold⟩

/-- A step that is a turn is served, and changes how its own client stands at most. -/
theorem Agrees.note_served (hs : s.searches.OnlyDecodes) (h : ch.Agrees s st)
    {ch' : Chronicle κ ε σ τ} {drawn : Option String} {r : Progress κ ε σ × State κ ε σ τ}
    {tokens : τ} {a : Answer κ ε} (hworld : ch'.world = ch.world.note client call drawn r)
    (hturns : ch'.turns = ch.turns ++ [⟨client, call, tokens⟩])
    (hsources : ∀ n, n ≠ client → ch'.sources n = ch.sources n)
    (hgrounded : ∃ made, ch'.world.Grounded s made)
    (hanswer : (s.answer call ((s.serve ch.turns st).2.drawingFrom tokens)).1 = a)
    (hindex : r.2.index.bare =
      (s.answer call ((s.serve ch.turns st).2.drawingFrom tokens)).2.index.bare)
    (hstanding : ∃ owed, Reply.forClient client (s.serve ch.turns st).1 ++ [⟨client, call, a⟩] =
        Reply.forClient client ch'.world.replies ++ owed ∧
      Flight.Standing s (ch'.sources client) client (ch'.world.flights client) owed) :
    ch'.Agrees s st := by
  have hserve : s.serve ch'.turns st =
      ((s.serve ch.turns st).1 ++ [⟨client, call, a⟩],
        (s.answer call ((s.serve ch.turns st).2.drawingFrom tokens)).2) := by
    rw [hturns, serve_turn, ← hanswer]
    rfl
  refine ⟨hgrounded, ?_, ?_, fun n => ?_⟩
  · rw [hserve]
    obtain ⟨made, hmade⟩ := h.served
    obtain ⟨made', -, hnext, -⟩ :=
      Store.answer_grounded hs (drawingFrom_grounded hmade tokens) call
    exact ⟨made', hnext⟩
  · rw [hserve, hworld]
    exact hindex
  · rw [hserve, Reply.forClient_append]
    by_cases hn : n = client
    · subst hn
      rw [Reply.forClient_self]
      exact hstanding
    · obtain ⟨owed, hreplies, hold⟩ := h.standing n
      rw [Reply.forClient_of_ne hn, List.append_nil, hworld, World.replies_note_of_ne _ hn,
        World.note_flights_of_ne _ hn, hsources n hn]
      exact ⟨owed, hreplies, hold⟩

end

/-- A move that does nothing leaves the chronicle as it is. -/
theorem step_eq_self {m : Move κ ε} (hworld : ch.world.step s m = ch.world)
    (hturn : ch.turn? s m = none) (hsources : ∀ n, ch.sourcesAfter m n = ch.sources n) :
    ch.step s m = ch := by
  rw [step, hworld, hturn, Option.toList_none, List.append_nil, funext hsources]

theorem step_grounded (hs : s.searches.OnlyDecodes) (h : ∃ made, ch.world.Grounded s made)
    (m : Move κ ε) : ∃ made, (ch.step s m).world.Grounded s made := by
  obtain ⟨made, hmade⟩ := h
  obtain ⟨made', -, hstep⟩ := World.step_grounded hs hmade m
  exact ⟨made', hstep⟩

section

variable {client : Nat} (hx : s.context.IsPure) (hs : s.searches.AreFunctions s.context)

include hx hs

theorem call_agrees (h : ch.Agrees s st) (hidle : ch.world.flights client = none) (c : Call κ ε) :
    (ch.step s (.call client c)).Agrees s st := by
  obtain ⟨made, hmade⟩ := h.grounded
  obtain ⟨made', hmade'⟩ := h.served
  have hgrounded := step_grounded hs.onlyDecodes h.grounded (.call client c)
  have hworld : (ch.step s (.call client c)).world =
      ch.world.note client c (s.drawn? c ch.world.state) (s.begin c ch.world.state) := by
    change ch.world.step s (.call client c) = _
    rw [World.step, hidle]
  have hsources : ∀ n, n ≠ client → (ch.step s (.call client c)).sources n = ch.sources n :=
    fun n hn => if_neg fun hp => hn hp.1
  have hsource : (ch.step s (.call client c)).sources client = ch.world.state.tokens :=
    if_pos ⟨rfl, by rw [hidle]; rfl⟩
  obtain ⟨owed, hreplies, hstanding⟩ := h.standing client
  rw [hidle] at hstanding
  cases hstanding
  rw [List.append_nil] at hreplies
  cases hbegin : (s.begin c ch.world.state).1 with
  | done a =>
      obtain ⟨hanswer, hindex⟩ := Store.begin_answers hx hmade.state.tidy
        (drawingFrom_grounded hmade' ch.world.state.tokens).tidy rfl hbegin
      refine h.note_served hs.onlyDecodes (a := a) hworld ?_ hsources hgrounded hanswer ?_
        ⟨[], ?_, ?_⟩
      · change ch.turns ++ (ch.turn? s (.call client c)).toList = _
        rw [turn?, hidle, hbegin]
        rfl
      · rw [hindex, Store.begin_index]
        exact h.index
      · rw [hworld, World.replies_note, hbegin, Reply.forClient_append, hreplies, List.append_nil]
        exact congrArg _ (Reply.forClient_self c a).symm
      · rw [hworld, World.note_flights_self, hbegin]
        exact .idle
  | next stage =>
      refine h.note_unserved hworld ?_ hsources hgrounded (Store.begin_index c ch.world.state)
        ⟨[], ?_, ?_⟩
      · change ch.turns ++ (ch.turn? s (.call client c)).toList = _
        rw [turn?, hidle, hbegin]
        exact List.append_nil _
      · rw [hworld, World.replies_note, hbegin, hreplies]
        simp only [Progress.answer?, Option.map_none, Option.toList_none, List.append_nil]
      · rw [hworld, World.note_flights_self, hbegin, hsource]
        refine .begun (Store.begin_next hbegin).1 fun v hv htokens => ?_
        exact (Store.begin_agree hx hv hmade.state.tidy htokens c).trans (by rw [hbegin]; rfl)

omit hx in
/-- A client runs the algorithm of its search. It had its turn before. -/
theorem search_agrees (h : ch.Agrees s st) {f : Flight κ ε σ}
    (hf : ch.world.flights client = some f) (hsearching : f.stage.isSearching = true) :
    (ch.step s (.go client)).Agrees s st := by
  obtain ⟨made, hmade⟩ := h.grounded
  have hgrounded := step_grounded hs.onlyDecodes h.grounded (.go client)
  have hworld : (ch.step s (.go client)).world =
      ch.world.note client f.call f.drawn (s.advance f.stage ch.world.state) := by
    change ch.world.step s (.go client) = _
    rw [World.step, hf]
  obtain ⟨owed, hreplies, hstanding⟩ := h.standing client
  rw [hf] at hstanding
  cases hstanding with
  | begun hgate _ =>
      rw [hsearching] at hgate
      cases hgate
  | @answered _ a _ howes =>
      have hdone := howes hmade.state (hmade.flights hf)
      refine h.note_unserved hworld ?_ (fun _ _ => rfl) hgrounded
        (Store.advance_index_of_searching hsearching) ⟨[], ?_, ?_⟩
      · change ch.turns ++ (ch.turn? s (.go client)).toList = _
        rw [turn?, hf]
        simp only [hsearching, if_true, Option.toList_none, List.append_nil]
      · rw [hworld, World.replies_note, hdone, Reply.forClient_append, hreplies, List.append_nil]
        exact congrArg _ (Reply.forClient_self f.call a).symm
      · rw [hworld, World.note_flights_self, hdone]
        exact .idle

/-- A client visits the gate. This is its turn. -/
theorem gate_agrees (h : ch.Agrees s st) {f : Flight κ ε σ}
    (hf : ch.world.flights client = some f) (hgate : f.stage.isSearching = false) :
    (ch.step s (.go client)).Agrees s st := by
  obtain ⟨made, hmade⟩ := h.grounded
  obtain ⟨made', hmade'⟩ := h.served
  have hgrounded := step_grounded hs.onlyDecodes h.grounded (.go client)
  have hworld : (ch.step s (.go client)).world =
      ch.world.note client f.call f.drawn (s.advance f.stage ch.world.state) := by
    change ch.world.step s (.go client) = _
    rw [World.step, hf]
  have hturns : (ch.step s (.go client)).turns =
      ch.turns ++ [⟨client, f.call, ch.sources client⟩] := by
    change ch.turns ++ (ch.turn? s (.go client)).toList = _
    rw [turn?, hf]
    simp only [hgate, Bool.false_eq_true, if_false, Option.toList_some]
  obtain ⟨owed, hreplies, hstanding⟩ := h.standing client
  rw [hf] at hstanding
  cases hstanding with
  | answered hsearching _ =>
      rw [hgate] at hsearching
      cases hsearching
  | begun _ hbegun =>
      rw [List.append_nil] at hreplies
      have hdrawing := drawingFrom_grounded hmade' (ch.sources client)
      obtain ⟨hindex, hdone | ⟨last, hlast, hsearching, howes⟩⟩ :=
        Store.gate_answers hx hs hmade.state hdrawing hgate (hbegun _ hdrawing.tidy rfl) h.index
      · refine h.note_served hs.onlyDecodes hworld hturns (fun _ _ => rfl) hgrounded rfl hindex
          ⟨[], ?_, ?_⟩
        · rw [hworld, World.replies_note, hdone, Reply.forClient_append, hreplies, List.append_nil]
          exact congrArg _ (Reply.forClient_self f.call _).symm
        · rw [hworld, World.note_flights_self, hdone]
          exact .idle
      · refine h.note_served hs.onlyDecodes hworld hturns (fun _ _ => rfl) hgrounded rfl hindex
          ⟨[⟨client, f.call, (s.answer f.call
            ((s.serve ch.turns st).2.drawingFrom (ch.sources client))).1⟩], ?_, ?_⟩
        · rw [hworld, World.replies_note, hlast, hreplies]
          simp only [Progress.answer?, Option.map_none, Option.toList_none, List.append_nil]
        · rw [hworld, World.note_flights_self, hlast]
          exact .answered hsearching howes

theorem step_agrees (h : ch.Agrees s st) (m : Move κ ε) : (ch.step s m).Agrees s st := by
  cases m with
  | call client c =>
      cases hf : ch.world.flights client with
      | none => exact call_agrees hx hs h hf c
      | some f =>
          have hself : ch.step s (.call client c) = ch := by
            refine step_eq_self ?_ ?_ fun n => if_neg fun hp => ?_
            · rw [World.step, hf]
            · rw [turn?, hf]
            · rw [hf] at hp
              cases hp.2
          rw [hself]
          exact h
  | go client =>
      cases hf : ch.world.flights client with
      | none =>
          have hself : ch.step s (.go client) = ch := by
            refine step_eq_self ?_ ?_ fun n => rfl
            · rw [World.step, hf]
            · rw [turn?, hf]
          rw [hself]
          exact h
      | some f =>
          cases hsearching : f.stage.isSearching with
          | false => exact gate_agrees hx hs h hf hsearching
          | true => exact search_agrees hs h hf hsearching

theorem run_agrees (moves : List (Move κ ε)) :
    ∀ {ch : Chronicle κ ε σ τ}, ch.Agrees s st → (run s moves ch).Agrees s st := by
  induction moves with
  | nil => exact fun h => h
  | cons m rest ih => exact fun h => ih (step_agrees hx hs h m)

end

end Chronicle

/-! ## Searches -/

omit [EntityKey κ] in
/-- The tag that the answer to a search carries, if it is one and succeeded. -/
def Answer.etag? : Answer κ ε → Option String
  | .table r => r.entity.bind (·.etag)
  | .entities r => r.entity.bind (·.etag)
  | .entity _ => none

namespace Store

variable {s : Store κ ε σ τ} {st : State κ ε σ τ}

/-- Which algorithm answers a search is found out without a look at the state. -/
theorem begin_takeSnapshot {call : Call κ ε} {wanted : Wanted} {a : Algorithm κ ε σ}
    {request : SearchRequest} {settings : Option Settings}
    (h : (s.begin call st).1 = .next (.takeSnapshot wanted a request settings))
    (st' : State κ ε σ τ) :
    (s.begin call st').1 = .next (.takeSnapshot wanted a request settings) := by
  have hsearch : ∀ {wanted' request' settings'}, (s.beginSearch wanted' request' settings' st).1 =
      .next (.takeSnapshot wanted a request settings) →
        (s.beginSearch wanted' request' settings' st').1 =
          .next (.takeSnapshot wanted a request settings) := by
    intro wanted' request' settings' h
    simp only [beginSearch] at h ⊢
    cases hget : s.searches.get? (s.searchId request') with
    | some a' =>
        rw [hget] at h
        exact h
    | none =>
        rw [hget] at h
        cases wanted' <;> cases h
  cases call with
  | entity c =>
      exfalso
      rcases s.begin_cases (.entity c) st with ⟨a, ha, -⟩ | ⟨stage, hstage, hfits⟩
      · rw [h] at ha
        cases ha
      · rw [h] at hstage
        obtain rfl := Progress.next.inj hstage
        obtain ⟨settings', hcall | hcall⟩ := hfits <;> cases hcall
  | search request' settings' => exact hsearch h
  | searchEntities request' settings' => exact hsearch h

/-- A search that finds an algorithm is answered by running it on the snapshot of the moment. -/
theorem answer_of_takeSnapshot {call : Call κ ε} {wanted : Wanted} {a : Algorithm κ ε σ}
    {request : SearchRequest} {settings : Option Settings}
    (h : (s.begin call st).1 = .next (.takeSnapshot wanted a request settings)) :
    (s.advance (.search wanted a (s.takeSnapshot st) request settings) (s.begin call st).2).1 =
      .done (s.answer call st).1 := by
  have hsnapshot : s.takeSnapshot (s.begin call st).2 = s.takeSnapshot st :=
    congrArg (fun ix : Index κ => ix.snapshot (s.etagOf ix)) (begin_index call st)
  have hends := ((s.begin_ends call st).of_next h).of_next rfl
  rw [hsnapshot] at hends
  have hsearching :
      (Stage.search wanted a (s.takeSnapshot st) request settings).isSearching = true := rfl
  obtain ⟨a', ha'⟩ := advance_done_of_searching (s := s) hsearching (s.begin call st).2
  exact ha'.trans (by rw [hends.eq_of_done ha'])

theorem etag_of_searchIn {ρ : Type} [Paged ρ] {load : Loader κ ε σ ρ} {a : Algorithm κ ε σ}
    {snapshot : Snapshot κ} {request : SearchRequest} {settings : Option Settings} {result : ρ}
    (h : (s.searchIn load a snapshot request settings st).1.entity = some result) :
    ∃ found, result = Paged.onPage snapshot.etag request found := by
  simp only [searchIn] at h
  split at h
  · next found _ => exact ⟨found, (Option.some.inj h).symm⟩
  · cases h

theorem etag_of_search {wanted : Wanted} {a : Algorithm κ ε σ} {snapshot : Snapshot κ}
    {request : SearchRequest} {settings : Option Settings} {answer : Answer κ ε} {tag : String}
    (h : (s.advance (.search wanted a snapshot request settings) st).1 = .done answer)
    (htag : answer.etag? = some tag) : tag = snapshot.etag := by
  cases wanted with
  | table =>
      obtain rfl := Progress.done.inj h
      obtain ⟨result, hresult, hetag⟩ := Option.bind_eq_some_iff.1 htag
      obtain ⟨found, rfl⟩ := etag_of_searchIn hresult
      exact (Option.some.inj hetag).symm
  | entities =>
      obtain rfl := Progress.done.inj h
      obtain ⟨result, hresult, hetag⟩ := Option.bind_eq_some_iff.1 htag
      obtain ⟨found, rfl⟩ := etag_of_searchIn hresult
      exact (Option.some.inj hetag).symm

end Store

namespace World

variable {s : Store κ ε σ τ} {st : State κ ε σ τ}

/-- A search that waits for its turn has found its algorithm, and would find it again. -/
theorem begin_of_waiting (hx : s.context.IsPure) (hs : s.searches.AreFunctions s.context)
    (hst : s.Reaches st) (moves : List (Move κ ε)) {client : Nat} {call : Call κ ε}
    {drawn : Option String} {wanted : Wanted} {a : Algorithm κ ε σ} {request : SearchRequest}
    {settings : Option Settings}
    (hf : (run s moves (start st)).flights client =
      some ⟨call, drawn, .takeSnapshot wanted a request settings⟩) :
    (s.begin call (run s moves (start st)).state).1 =
      .next (.takeSnapshot wanted a request settings) := by
  have hgrounded := hst.grounded hs.onlyDecodes
  have hagrees := Chronicle.run_agrees hx hs moves (Chronicle.start_agrees hgrounded)
  have hworld : (Chronicle.run s moves (Chronicle.start st)).world = run s moves (start st) :=
    Chronicle.run_world s moves _
  obtain ⟨made, hmade⟩ := run_grounded hs.onlyDecodes moves
    (hgrounded.imp fun _ h => start_grounded h)
  obtain ⟨due, -, hstanding⟩ := hagrees.standing client
  rw [hworld, hf] at hstanding
  cases hstanding with
  | answered hsearching _ => cases hsearching
  | begun _ hbegun =>
      obtain ⟨stage, hstage, hbare⟩ := Progress.bare_eq_next (hbegun
        ((run s moves (start st)).state.drawingFrom _)
        (Chronicle.drawingFrom_grounded hmade.state _).tidy rfl)
      have hstage' : stage = .takeSnapshot wanted a request settings := by
        cases stage <;> cases hbare
        rfl
      exact Store.begin_takeSnapshot (hstage' ▸ hstage) _

/-- Whatever happens between the snapshot of a search and the run of its algorithm, the search is
answered as it would have been, whole, at the moment of the snapshot. -/
theorem search_at_snapshot (hx : s.context.IsPure) (hs : s.searches.AreFunctions s.context)
    (hst : s.Reaches st) (moves : List (Move κ ε)) {client : Nat} {call : Call κ ε}
    {drawn : Option String} {wanted : Wanted} {a : Algorithm κ ε σ} {request : SearchRequest}
    {settings : Option Settings}
    (hf : (run s moves (start st)).flights client =
      some ⟨call, drawn, .takeSnapshot wanted a request settings⟩)
    {more : List (Move κ ε)} {w : World κ ε σ τ}
    (hw : w = run s more ((run s moves (start st)).step s (.go client)))
    (hflight : w.flights client = ((run s moves (start st)).step s (.go client)).flights client) :
    (w.step s (.go client)).log = w.log ++
        [⟨client, call, drawn, some (s.answer call (run s moves (start st)).state).1⟩] ∧
      ∀ tag, (s.answer call (run s moves (start st)).state).1.etag? = some tag →
        tag = s.etag (run s moves (start st)).state := by
  have hbegin := begin_of_waiting hx hs hst moves hf
  obtain ⟨made, hmade⟩ := run_grounded hs.onlyDecodes moves
    ((hst.grounded hs.onlyDecodes).imp fun _ h => start_grounded h)
  have hgo : (run s moves (start st)).step s (.go client) =
      (run s moves (start st)).note client call drawn
        (s.advance (.takeSnapshot wanted a request settings) (run s moves (start st)).state) := by
    rw [step, hf]
  rw [hgo, note_flights_self] at hflight
  obtain ⟨made', hmade'⟩ : ∃ made, w.Grounded s made := by
    obtain ⟨made', -, hstep⟩ := step_grounded hs.onlyDecodes hmade (.go client)
    rw [hw]
    exact run_grounded hs.onlyDecodes more ⟨made', hstep⟩
  obtain ⟨id, hid⟩ := (Store.begin_next hbegin).2 a rfl
  obtain ⟨made'', hle, hnext, -⟩ := Store.begin_grounded hs.onlyDecodes hmade.state call
  have hwhole := Store.answer_of_takeSnapshot hbegin
  -- the algorithm runs on one snapshot, at two moments
  have hground : Stage.Grounded s made'' call (.search wanted a
      (s.takeSnapshot (run s moves (start st)).state) request settings) :=
    ⟨(hs hid).toOnlyDecodes, fun c hc =>
      hle c (hmade.state.live (Store.takeSnapshot_live hmade.state.exact hc))⟩
  have hfunction : ∀ b, (Stage.search wanted a
      (s.takeSnapshot (run s moves (start st)).state) request settings).algorithm? = some b →
        b.IsFunction s.context := by
    intro b hb
    obtain rfl := Option.some.inj hb
    exact hs hid
  have hsame := Store.search_agree hx hfunction hmade'.state hnext (hmade'.flights hflight)
    hground rfl rfl
  refine ⟨?_, fun tag htag => Store.etag_of_search hwhole htag⟩
  rw [step, hflight]
  change _ ++ [_] = _
  rw [hsame.trans hwhole]
  rfl

/-- Calls of several clients come to the same as the same calls, whole and one after another in the
order of their turns, each with the token that it drew: to the same index, handles apart, and to the
same answers for every client, where the answer to a search is due from its turn on. A later turn
never comes before an earlier one. Whatever is written between the snapshot of a search and the run
of its algorithm, the answer is that of the moment of the snapshot, and carries its tag. -/
theorem linearizable (hx : s.context.IsPure) (hs : s.searches.AreFunctions s.context)
    (hst : s.Reaches st) (moves : List (Move κ ε)) :
    (run s moves (start st)).state.index.bare =
        (s.serve (turns s st moves) st).2.index.bare ∧
    (∀ client, ∃ due, Reply.forClient client (s.serve (turns s st moves) st).1 =
        Reply.forClient client (run s moves (start st)).replies ++ due ∧
      (due = [] ∨ ∃ f a, (run s moves (start st)).flights client = some f ∧
        f.stage.isSearching = true ∧ due = [⟨client, f.call, a⟩])) ∧
    (∀ more, turns s st moves <+: turns s st (moves ++ more)) ∧
    ∀ client call drawn wanted a request settings,
      (run s moves (start st)).flights client =
        some ⟨call, drawn, .takeSnapshot wanted a request settings⟩ →
      ∀ more w, w = run s more ((run s moves (start st)).step s (.go client)) →
        w.flights client = ((run s moves (start st)).step s (.go client)).flights client →
        (w.step s (.go client)).log = w.log ++
            [⟨client, call, drawn, some (s.answer call (run s moves (start st)).state).1⟩] ∧
          ∀ tag, (s.answer call (run s moves (start st)).state).1.etag? = some tag →
            tag = s.etag (run s moves (start st)).state := by
  have hgrounded := hst.grounded hs.onlyDecodes
  have hagrees := Chronicle.run_agrees hx hs moves (Chronicle.start_agrees hgrounded)
  have hworld : (Chronicle.run s moves (Chronicle.start st)).world = run s moves (start st) :=
    Chronicle.run_world s moves _
  refine ⟨hworld ▸ hagrees.index, fun client => ?_, fun more => ?_, ?_⟩
  · obtain ⟨due, hreplies, hstanding⟩ := hagrees.standing client
    rw [hworld] at hreplies hstanding
    refine ⟨due, hreplies, ?_⟩
    generalize hf : (run s moves (start st)).flights client = flight at hstanding
    cases hstanding with
    | idle => exact .inl rfl
    | begun _ _ => exact .inl rfl
    | @answered f a hsearching _ => exact .inr ⟨f, a, rfl, hsearching, rfl⟩
  · rw [turns, turns, Chronicle.run_append]
    exact Chronicle.turns_prefix_run s more _
  · intro client call drawn wanted a request settings hf more w hw hflight
    exact search_at_snapshot hx hs hst moves hf hw hflight

/-- A search takes its snapshot between two writes, and runs after the second. -/
def searchBetweenWrites : List (Move String Doc) := [
  .call 0 (.entity (.create { id := "a" } none)), .go 0,
  .call 1 (.search { select := ["kind"] } none), .go 1,
  .call 2 (.entity (.update { id := "a", properties := [⟨"kind", "book"⟩] } none)), .go 2,
  .go 1]

theorem searchBetweenWrites_linearizable :
    Doc.store.context.IsPure ∧ Doc.store.searches.AreFunctions Doc.store.context ∧
      Doc.store.Reaches (State.start () 0) ∧
      (turns Doc.store (State.start () 0) searchBetweenWrites).map (·.client) = [0, 1, 2] ∧
      (run Doc.store searchBetweenWrites (start (State.start () 0))).state.index.bare =
        (Doc.store.serve (turns Doc.store (State.start () 0) searchBetweenWrites)
          (State.start () 0)).2.index.bare := by
  have hreaches : Doc.store.Reaches (State.start () 0) := Store.reaches_reached () 0 []
  exact ⟨Doc.store_isPure, Doc.store_areFunctions, hreaches, by decide +kernel,
    (linearizable Doc.store_isPure Doc.store_areFunctions hreaches searchBetweenWrites).1⟩

end World

end EntityStore
