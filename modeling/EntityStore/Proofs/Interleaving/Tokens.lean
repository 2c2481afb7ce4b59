import EntityStore.Proofs.Interleaving.Provenance
import EntityStore.Proofs.Store.Documents
import EntityStore.Proofs.Store.Updates

/-!
# Tokens of entities that are gone

Whoever was shown an entity still has its token after its key was deleted and
created again. What is stored under the key then was written by the last creation
or by an update since. If nobody is shown a token before the update that drew it
is accepted (`World.Unseen`), such an update has put a token there that is not the
old one. A creation draws no token: what it stores carries the token that its
entity came with. So the old token is refused as long as nobody has created the
new entity with it (`Store.deletedToken_refused`), and accepted if somebody has,
be it for want of any token (`Store.returnedToken_accepted`).

The argument needs no induction of its own. It follows from what the log says of
every stored container: which write was the last of its key, and what token that
write has put on it.
-/

namespace EntityStore

variable {κ ε σ τ : Type} [EntityKey κ]

namespace LogEntry

omit [EntityKey κ] in
def shown? (entry : LogEntry κ ε) : Option ε :=
  match entry.answer with
  | some (.entity (.entity (.ok r))) => r.entity
  | _ => none

omit [EntityKey κ] in
/-- Whether an entry shows an entity that carries the given token. -/
def shows (policy : VersionPolicy ε τ) (token : String) (entry : LogEntry κ ε) : Bool :=
  entry.shown?.any fun e => policy.versionOf e == some token

variable {s : Store κ ε σ τ} {entry : LogEntry κ ε} {c : Candidate κ ε} {k : κ}

/-- A write that stored a candidate is told as a creation or as an update of its key. -/
theorem Wrote.created?_or_update (h : entry.Wrote s c) (hk : c.container.key = k) :
    (∃ d r, entry.created? = some (d, r) ∧ s.makers.key d = k) ∨
      ∃ e settings, entry.call = .entity (.update e settings) := by
  obtain ⟨key, draft, hdrafts, hmakes⟩ := h.makes
  obtain ⟨code, settings', hanswer⟩ := h.answer
  have haccepted := h.accepted
  rw [hmakes.key_eq] at hk
  rw [isAccepted, hanswer] at haccepted
  generalize hcall : entry.call = call at hdrafts haccepted
  cases hdrafts with
  | create e settings =>
      have hcode : code = .created := by
        simpa [Call.isAccepted, Answer.code?, EntityAnswer.code?, Store.accepted] using haccepted
      refine .inl ⟨e, Store.accepted code c settings', ?_, hk⟩
      simp [created?, hcall, hanswer, Store.accepted, hcode]
  | update e settings tokens => exact .inr ⟨e, settings, rfl⟩

end LogEntry

/-- Nobody is shown a token before the update that drew it is accepted. -/
def World.Unseen (policy : VersionPolicy ε τ) (w : World κ ε σ τ) : Prop :=
  w.log.Pairwise fun earlier later => later.isAccepted = true →
    ∀ token ∈ later.drawn, earlier.shows policy token = false

namespace Store

variable {s : Store κ ε σ τ} {policy : VersionPolicy ε τ} {w : World κ ε σ τ}

/-- What is stored under a key carries none of the tokens that were shown before its last creation,
unless it was created with one. -/
theorem Lives.version_ne (hs : s.searches.OnlyDecodes) (hpolicy : s.versionPolicy = some policy)
    (hoptimistic : policy.optimistic = true) (h : s.Lives w) (hunseen : w.Unseen policy)
    {before between since : List (LogEntry κ ε)} {reading creation : LogEntry κ ε} {e d : ε}
    {r : Response κ ε} (hlog : w.log = before ++ reading :: (between ++ creation :: since))
    (hread : reading.shown? = some e) (hcreated : creation.created? = some (d, r))
    (hlast : ∀ entry ∈ since, ∀ d' r', entry.created? = some (d', r') →
      s.makers.key d' ≠ s.makers.key d)
    (hother : policy.versionOf d ≠ policy.versionOf e) {c : Container κ}
    (hc : w.state.index.get? (s.makers.key d) = some c) : c.version ≠ policy.versionOf e := by
  have hsound := h.sound hs
  have hkey := hsound.orderly.exact.key_eq hc
  obtain ⟨pre, entry, post, copy, hlog', hwrote, hseals, hpost⟩ :=
    hsound.recorded.traced (hsound.orderly.exact.live hc)
  obtain ⟨⟨settings, hcall⟩, -, hwrites⟩ := LogEntry.of_created? (s := s) hcreated
  rw [hkey] at hpost
  -- the write that stored the container is the creation or comes behind it
  have hsplit : (before ++ reading :: between) ++ creation :: since = pre ++ entry :: post := by
    rw [← hlog', hlog]
    simp
  rcases LogEntry.last_at_or_behind hsplit hwrites hpost with rfl | hbehind
  · rw [hseals.of_create hcall, versionOf, hpolicy]
    exact hother
  · rcases hwrote.created?_or_update hkey with ⟨d', r', hcreated', hkey'⟩ | ⟨u, settings', hupdate⟩
    · exact absurd hkey' (hlast entry hbehind d' r' hcreated')
    · obtain ⟨token, hdrawn, htoken⟩ := hseals.of_update hupdate hpolicy hoptimistic
      intro hsame
      rw [World.Unseen, hlog] at hunseen
      have hafter := (List.pairwise_cons.1 (List.pairwise_append.1 hunseen).2.1).1 entry
        (List.mem_append_right _ (List.mem_cons_of_mem _ hbehind)) hwrote.accepted token hdrawn
      rw [LogEntry.shows, hread, Option.any_some, ← hsame, htoken, beq_self_eq_true] at hafter
      cases hafter

/-- A token of an entity that is gone updates its successor only if that was created with it.
Whatever clients do, if an entity was shown and its key has been created again since, and last by an
entity with another token, then an update of the key by an entity with the token that was shown
stores nothing. It is answered 409, or 404 if the key has been deleted once more, unless what it
would store does not come back; and so is one that is under way. -/
theorem deletedToken_refused (s : Store κ ε σ τ) {policy : VersionPolicy ε τ}
    (hs : s.searches.OnlyDecodes) (hwritable : s.readOnly = false)
    (hpolicy : s.versionPolicy = some policy) (hoptimistic : policy.optimistic = true)
    {w : World κ ε σ τ} (hw : s.Lives w) (hunseen : w.Unseen policy)
    {before between since : List (LogEntry κ ε)} {reading creation : LogEntry κ ε} {e d : ε}
    {r : Response κ ε} (hlog : w.log = before ++ reading :: (between ++ creation :: since))
    (hread : reading.shown? = some e) (hcreated : creation.created? = some (d, r))
    (hlast : ∀ entry ∈ since, ∀ d' r', entry.created? = some (d', r') →
      s.makers.key d' ≠ s.makers.key d)
    (hother : policy.versionOf d ≠ policy.versionOf e) :
    ∀ u settings, s.makers.key u = s.makers.key d → policy.versionOf u = policy.versionOf e →
      ((s.update u settings w.state).2.index = w.state.index ∧
        (∀ r', (s.update u settings w.state).1 = .ok r' →
          r'.code = if w.state.containsKey (s.makers.key d) then .conflict else .notFound) ∧
        ∀ copy, s.ComesBack w.state u copy → ∃ r', (s.update u settings w.state).1 = .ok r') ∧
      ∀ client drawn p settings',
        w.flights client = some ⟨.entity (.update u settings), drawn, .commit p settings'⟩ →
        ∃ r', (w.step s (.go client)).log = w.log ++
            [⟨client, .entity (.update u settings), drawn, some (.entity (.entity (.ok r')))⟩] ∧
          (r'.code = if w.state.containsKey (s.makers.key d) then .conflict else .notFound) ∧
          (w.step s (.go client)).state = w.state := by
  intro u settings hkey htoken
  have horderly := (hw.sound hs).orderly
  obtain ⟨made, hmade⟩ := (hw.sound hs).grounded
  have hstale : ∀ c, w.state.index.get? (s.makers.key u) = some c →
      c.version ≠ policy.versionOf u := by
    intro c hc
    rw [hkey] at hc
    rw [htoken]
    exact hw.version_ne hs hpolicy hoptimistic hunseen hlog hread hcreated hlast hother hc
  rw [← hkey]
  refine ⟨update_of_stale hwritable hpolicy hoptimistic hmade.state.exact hmade.state.tidy hstale
    settings, fun client drawn p settings' hflight => ?_⟩
  -- an update under way presents the token of its entity, whenever it was begun
  obtain ⟨u', settings'', hcall, hpkey, hcarries⟩ := horderly.fits hflight
  cases hcall
  rw [← hpkey] at hstale ⊢
  obtain ⟨hcode, hkept⟩ :=
    commit_of_stale horderly.exact (hcarries hpolicy hoptimistic).1 hstale settings'
  refine ⟨(commit p settings' w.state).1, ?_, hcode, ?_⟩
  · rw [World.step, hflight]
    rfl
  · rw [World.step, hflight]
    exact hkept

/-- One client creates a document, reads it, deletes it, creates another in its place and updates
that. -/
def succession (first second third : Doc) : List (Move String Doc) := [
  .call 0 (.entity (.create first none)), .go 0,
  .call 0 (.entity (.read (.key first.id) none)), .go 0,
  .call 0 (.entity (.delete (.key first.id) none)), .go 0,
  .call 0 (.entity (.create second none)), .go 0,
  .call 0 (.entity (.update third none)), .go 0]

def succeeded (first second third : Doc) : World String Doc Unit Nat :=
  World.reached Doc.store () 0 ((succession first second third).take 8)

/-- A document with a token, and another in its place without one. -/
def versioned : Doc := { id := "a", version := some "v" }

theorem eq_append_cons_of_getElem? {α : Type} {l : List α} {n : Nat} {a : α} (h : l[n]? = some a) :
    l = l.take n ++ a :: l.drop (n + 1) := by
  obtain ⟨hn, rfl⟩ := List.getElem?_eq_some_iff.1 h
  rw [List.getElem_cons_drop, List.take_append_drop]

theorem versioned_update_refused :
    ∃ r, (Doc.store.update versioned none (succeeded versioned { id := "a" } versioned).state).1 =
        .ok r ∧ r.code = .conflict := by
  have hlives : Doc.store.Lives (succeeded versioned { id := "a" } versioned) :=
    lives_reached () 0 _
  have hunseen : (succeeded versioned { id := "a" } versioned).Unseen
      (Doc.versionPolicy .counter true) := by
    unfold World.Unseen
    decide +kernel
  have hcomesBack : Doc.store.ComesBack (succeeded versioned { id := "a" } versioned).state
      versioned { versioned with version := some "g1" } :=
    comesBack_of_copyOf Doc.store_isPure () (by decide +kernel)
  -- the document was read by the fourth step, and the other was created by the eighth
  obtain ⟨reading, hreading, hread⟩ := Option.bind_eq_some_iff.1
    (show (succeeded versioned { id := "a" } versioned).log[3]?.bind LogEntry.shown? =
      some versioned by decide +kernel)
  obtain ⟨creation, hcreation, hcreated⟩ := Option.bind_eq_some_iff.1
    (show ((succeeded versioned { id := "a" } versioned).log.drop 4)[3]?.bind
      (fun entry => entry.created?.map Prod.fst) = some { id := "a" } by decide +kernel)
  obtain ⟨⟨d, r⟩, hcreated, hd⟩ := Option.map_eq_some_iff.1 hcreated
  obtain rfl : d = { id := "a" } := hd
  have hnone : ((succeeded versioned { id := "a" } versioned).log.drop 4).drop 4 = [] :=
    List.eq_nil_of_length_eq_zero (by decide +kernel)
  have hlog := eq_append_cons_of_getElem? hreading
  rw [eq_append_cons_of_getElem? hcreation, hnone] at hlog
  obtain ⟨⟨-, hcode, hanswered⟩, -⟩ :=
    deletedToken_refused Doc.store Doc.store_onlyDecodes rfl rfl rfl hlives hunseen hlog hread
      hcreated (fun _ hnil => by cases hnil) (by decide) versioned none rfl rfl
  obtain ⟨r', hr'⟩ := hanswered _ hcomesBack
  refine ⟨r', hr', ?_⟩
  rw [hcode r' hr']
  exact if_pos (by decide +kernel)

/-- The codes of what is answered, in turn. An error has none. -/
def codes (moves : List (Move String Doc)) : List (Option ResponseCode) :=
  (World.reached Doc.store () 0 moves).log.filterMap fun entry => entry.answer.map Answer.code?

/-- A document that is created with the token of the one before it, or without any after one without
any, is updated by whoever has read the other, though the token that is drawn is one that nobody was
shown. With another token the update is answered 404 once the key is gone again, and fails if its
float is no number. -/
theorem returnedToken_accepted :
    (World.reached Doc.store () 0 (succession versioned versioned versioned)).Unseen
        (Doc.versionPolicy .counter true) ∧
      codes (succession versioned versioned versioned) =
        [some .created, some .ok, some .ok, some .created, some .ok] ∧
      codes (succession { id := "a" } { id := "a" } { id := "a" }) =
        [some .created, some .ok, some .ok, some .created, some .ok] ∧
      codes ((succession versioned { id := "a" } versioned).take 8 ++
          [.call 0 (.entity (.delete (.key "a") none)), .go 0,
            .call 0 (.entity (.update versioned none)), .go 0]) =
        [some .created, some .ok, some .ok, some .created, some .ok, some .notFound] ∧
      codes (succession versioned { id := "a" }
          { versioned with float := ⟨0x7FF8000000000000⟩ }) =
        [some .created, some .ok, some .ok, some .created, none] := by
  unfold World.Unseen
  decide +kernel

end Store

end EntityStore
