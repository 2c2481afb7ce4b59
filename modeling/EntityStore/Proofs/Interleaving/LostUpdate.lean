import EntityStore.Proofs.Interleaving.Effects
import EntityStore.Proofs.Store.Documents

/-!
# No update is lost while a key lives

With optimistic locking an update is accepted only if it presents the stored
token, and it then stores the one that was drawn for it before the gate was
visited. Suppose that nobody presents a token before the update that drew it is
accepted. Of two accepted updates of a key that presented the same token, the
first has presented it before any of the updates from then on was accepted, so
none of them has stored it; and as long as the key is not deleted the stored
token is that of one of them. So the second did not present the stored token,
unless the key was deleted in between.

What carries the induction over a schedule is the middle part of this: since an
accepted update, and as long as the key is not deleted, the stored token is one
that was drawn for an accepted update (`World.Held`). It says nothing about the
updates that are pending meanwhile, which may be any number and in any order.
-/

namespace EntityStore

variable {κ ε σ τ : Type} [EntityKey κ]

namespace LogEntry

/-- Whether an entry belongs to an update by an entity that carries the given token. -/
def presents (policy : VersionPolicy ε τ) (token : Option String) (entry : LogEntry κ ε) : Bool :=
  match entry.call with
  | .entity (.update e _) => policy.versionOf e == token
  | _ => false

/-- Whether an entry is that of an accepted update of a key, by an entity that carries the given
token. -/
def updates (s : Store κ ε σ τ) (policy : VersionPolicy ε τ) (k : κ) (token : Option String)
    (entry : LogEntry κ ε) : Bool :=
  match entry.call with
  | .entity (.update e _) =>
    entry.isAccepted && Index.sameKey (s.makers.key e) k && policy.versionOf e == token
  | _ => false

/-- Whether an entry is that of a deletion that removed a key. -/
def deletes (k : κ) (entry : LogEntry κ ε) : Bool :=
  match entry.call, entry.answer with
  | .entity (.delete _ _), some (.entity (.version r)) =>
    r.code == .ok && r.key.any (Index.sameKey k)
  | _, _ => false

omit [EntityKey κ] in
theorem presents_congr {policy : VersionPolicy ε τ} {token : Option String}
    {entry earlier : LogEntry κ ε} (h : earlier.call = entry.call) :
    earlier.presents policy token = entry.presents policy token := by
  rw [presents, presents, h]

theorem updates_iff {s : Store κ ε σ τ} {policy : VersionPolicy ε τ} {k : κ}
    {token : Option String} {entry : LogEntry κ ε} :
    entry.updates s policy k token = true ↔
      ∃ e settings, entry.call = .entity (.update e settings) ∧ entry.isAccepted = true ∧
        s.makers.key e = k ∧ policy.versionOf e = token := by
  constructor
  · intro h
    rw [updates] at h
    split at h
    · next e settings hcall =>
        rw [Bool.and_eq_true, Bool.and_eq_true, Index.sameKey_iff, beq_iff_eq] at h
        exact ⟨e, settings, hcall, h.1.1, h.1.2, h.2⟩
    · cases h
  · intro hp
    obtain ⟨e, settings, hcall, haccepted, rfl, rfl⟩ := hp
    simp only [updates, hcall, haccepted, Bool.true_and, beq_self_eq_true, Bool.and_true]
    exact Index.sameKey_iff.2 rfl

theorem presents_of_updates {s : Store κ ε σ τ} {policy : VersionPolicy ε τ} {k : κ}
    {token : Option String} {entry : LogEntry κ ε} (h : entry.updates s policy k token = true) :
    entry.presents policy token = true := by
  obtain ⟨e, settings, hcall, -, -, hversion⟩ := updates_iff.1 h
  rw [presents, hcall]
  exact beq_iff_eq.2 hversion

theorem accepted_of_updates {s : Store κ ε σ τ} {policy : VersionPolicy ε τ} {k : κ}
    {token : Option String} {entry : LogEntry κ ε} (h : entry.updates s policy k token = true) :
    entry.isAccepted = true := by
  obtain ⟨e, settings, -, haccepted, -, -⟩ := updates_iff.1 h
  exact haccepted

namespace Effect

variable {s : Store κ ε σ τ} {entry : LogEntry κ ε} {ix ix' : Index κ} {k : κ} {c : Container κ}

/-- What can become of a stored container. -/
theorem fate (h : entry.Effect s ix ix') (hc : ix.get? k = some c) :
    ix'.get? k = some c ∨
    (entry.isAccepted = true ∧ ∃ e p, ix'.get? k = some p.toCandidate.container ∧
      PendingUpdate.Carries p s e entry.drawn) ∨
    entry.deletes k = true := by
  cases h with
  | kept hits _ => exact .inl hc
  | @created e settings c' _ _ _ hfree _ =>
      refine .inl (Index.get?_store.2 (.inr ⟨?_, hc⟩))
      rintro rfl
      rw [hfree] at hc
      cases hc
  | @replaced e settings p old _ haccepted _ hcarries _ _ _ =>
      by_cases hk : k = p.container.key
      · exact .inr (.inl ⟨haccepted, e, p, Index.get?_store.2 (.inl ⟨hk, rfl⟩), hcarries⟩)
      · exact .inl (Index.get?_store.2 (.inr ⟨hk, hc⟩))
  | @deleted target settings c' r hcall haccepted hanswer hkey hlive =>
      by_cases hk : k = c'.key
      · refine .inr (.inr ?_)
        rw [isAccepted, hanswer, hcall] at haccepted
        have hcode : r.code = .ok := by
          simpa [Call.isAccepted, Answer.code?, EntityAnswer.code?] using haccepted
        simp only [deletes, hcall, hanswer, hcode, hkey, Option.any_some, beq_self_eq_true,
          Bool.true_and]
        exact Index.sameKey_iff.2 hk
      · refine .inl ?_
        rw [Index.delete_of_some hlive]
        exact SortedMap.find?_erase_eq_some_iff.2 ⟨hk, hc⟩

/-- An accepted update replaced a container whose token it presents. -/
theorem of_updates {policy : VersionPolicy ε τ} {token : Option String}
    (h : entry.Effect s ix ix') (hpolicy : s.versionPolicy = some policy)
    (hoptimistic : policy.optimistic = true) (hentry : entry.updates s policy k token = true) :
    (∃ old, ix.get? k = some old ∧ old.version = token) ∧
      ∃ c drawn, ix'.get? k = some c ∧ c.version = some drawn ∧ entry.drawn = some drawn := by
  obtain ⟨e, settings, hupdate, haccepted, hk, hversion⟩ := updates_iff.1 hentry
  cases h with
  | kept hits hrefused =>
      rw [hrefused] at haccepted
      cases haccepted
  | created hcall _ _ _ _ =>
      rw [hupdate] at hcall
      cases hcall
  | deleted hcall _ _ _ _ =>
      rw [hupdate] at hcall
      cases hcall
  | @replaced e' settings' p old hcall _ hkey hcarries hold _ hfresh =>
      rw [hupdate] at hcall
      cases hcall
      obtain ⟨hpresented, drawn, hdrawn, hstored⟩ := hcarries hpolicy hoptimistic
      have hkp : p.container.key = k := hkey.trans hk
      refine ⟨⟨old, by rw [← hkp, hold], ?_⟩, p.container, drawn,
        Index.get?_store.2 (.inl ⟨hkp.symm, rfl⟩), hstored, hdrawn⟩
      rw [hpresented, hversion] at hfresh
      exact Eq.symm (by simpa using hfresh)

end Effect

end LogEntry

namespace World

variable {s : Store κ ε σ τ} {policy : VersionPolicy ε τ}

/-- Nobody presents a token before the update that drew it is accepted. -/
def Fresh (policy : VersionPolicy ε τ) (w : World κ ε σ τ) : Prop :=
  w.log.Pairwise fun earlier later => later.isAccepted = true →
    ∀ token ∈ later.drawn, earlier.presents policy (some token) = false

/-- Since an accepted update, and as long as the key is not deleted, the stored token was drawn for
an update that was accepted since. -/
def Held (s : Store κ ε σ τ) (policy : VersionPolicy ε τ) (w : World κ ε σ τ) : Prop :=
  ∀ before first after k token, w.log = before ++ first :: after →
    first.updates s policy k token = true → (∀ entry ∈ after, entry.deletes k = false) →
    ∃ c drawn entry, w.state.index.get? k = some c ∧ c.version = some drawn ∧
      entry ∈ first :: after ∧ entry.isAccepted = true ∧ entry.drawn = some drawn

theorem step_held (hpolicy : s.versionPolicy = some policy) (hoptimistic : policy.optimistic = true)
    {w : World κ ε σ τ} (h : w.Orderly s) (hheld : w.Held s policy) (m : Move κ ε) :
    (w.step s m).Held s policy := by
  rcases step_effect h m with hsame | ⟨last, hlog, heffect, -⟩
  · rw [hsame]
    exact hheld
  · intro before first after k token hsplit hfirst hlives
    rcases List.eq_nil_or_concat' after with rfl | ⟨after, last', rfl⟩
    · -- the update is accepted by this very step
      obtain ⟨-, hlast⟩ := List.append_inj' (hlog.symm.trans hsplit) rfl
      obtain rfl := List.singleton_inj.1 hlast
      obtain ⟨-, c, drawn, hc, hversion, hdrawn⟩ :=
        heffect.of_updates hpolicy hoptimistic hfirst
      exact ⟨c, drawn, last, hc, hversion, List.mem_singleton_self _,
        LogEntry.accepted_of_updates hfirst, hdrawn⟩
    · -- it was accepted before, and this step has done something to what was stored since
      have heq : w.log ++ [last] = (before ++ first :: after) ++ [last'] := by
        rw [← hlog, hsplit]
        simp
      obtain ⟨hbefore, hlast⟩ := List.append_inj' heq rfl
      obtain rfl := List.singleton_inj.1 hlast
      obtain ⟨c, drawn, entry, hc, hversion, hmem, haccepted, hdrawn⟩ :=
        hheld before first after k token hbefore hfirst
          fun entry hentry => hlives entry (List.mem_append_left _ hentry)
      have hmem' : ∀ {entry}, entry ∈ first :: after → entry ∈ first :: (after ++ [last]) :=
        fun hentry => List.mem_append_left [last] hentry
      rcases heffect.fate hc with hkept | ⟨hnew, e, p, hp, hcarries⟩ | hdeleted
      · exact ⟨c, drawn, entry, hkept, hversion, hmem' hmem, haccepted, hdrawn⟩
      · obtain ⟨-, drawn', hdrawn', hversion'⟩ := hcarries hpolicy hoptimistic
        refine ⟨p.container, drawn', last, hp, hversion', ?_, hnew, hdrawn'⟩
        exact List.mem_append_right (first :: after) (List.mem_singleton_self _)
      · rw [hlives last (List.mem_append_right _ (List.mem_singleton_self _))] at hdeleted
        cases hdeleted

theorem reached_held (hpolicy : s.versionPolicy = some policy)
    (hoptimistic : policy.optimistic = true) (session : σ) (tokens : τ)
    (moves : List (Move κ ε)) : (reached s session tokens moves).Held s policy := by
  have hboth : (reached s session tokens moves).Orderly s ∧
      (reached s session tokens moves).Held s policy := by
    refine run_induction (P := fun w => w.Orderly s ∧ w.Held s policy) ?_ moves
      ⟨start_orderly session tokens, ?_⟩
    · intro w m h
      exact ⟨step_orderly h.1 m, step_held hpolicy hoptimistic h.1 h.2 m⟩
    · intro before first after k token hsplit
      cases before <;> cases hsplit
  exact hboth.2

/-- Two accepted updates that presented the same token have a deletion between them. -/
theorem exists_deletes_between (hpolicy : s.versionPolicy = some policy)
    (hoptimistic : policy.optimistic = true) {session : σ} {tokens : τ} {moves : List (Move κ ε)}
    (hfresh : (reached s session tokens moves).Fresh policy) {k : κ} {token : Option String}
    {before between after : List (LogEntry κ ε)} {first second : LogEntry κ ε}
    (hlog : (reached s session tokens moves).log =
      before ++ first :: (between ++ second :: after))
    (hfirst : first.updates s policy k token = true)
    (hsecond : second.updates s policy k token = true) :
    ∃ entry ∈ between, entry.deletes k = true := by
  by_contra hlives
  push Not at hlives
  have hlives' : ∀ entry ∈ between, entry.deletes k = false := by
    intro entry hentry
    exact Bool.not_eq_true _ ▸ hlives entry hentry
  have hlog' : (reached s session tokens moves).log =
      (before ++ first :: between) ++ second :: after := by
    rw [hlog]
    simp
  -- the token that was stored when the second update was accepted is one that was drawn since
  obtain ⟨earlier, ix, hearlier, heffect, -⟩ := exists_effect_of_log hlog'
  obtain ⟨⟨old, hold, hversion⟩, -⟩ := heffect.of_updates hpolicy hoptimistic hsecond
  obtain ⟨c, drawn, entry, hc, hdrawn, hmem, haccepted, hentry⟩ :=
    reached_held hpolicy hoptimistic session tokens earlier before first between k token hearlier
      hfirst hlives'
  obtain rfl := Option.some.inj (hold.symm.trans hc)
  rw [hdrawn] at hversion
  -- but the first update presented it before
  obtain ⟨-, -, -, -, hbegun⟩ := exists_effect_of_log hlog
  obtain ⟨begun, hbefore, hcall⟩ := hbegun (LogEntry.accepted_of_updates hfirst)
  have hpresented : begun.presents policy (some drawn) = true := by
    rw [LogEntry.presents_congr hcall, hversion]
    exact LogEntry.presents_of_updates hfirst
  rw [Fresh, hlog'] at hfresh
  have hearly := (List.pairwise_append.1 hfresh).1
  have hnone := (List.pairwise_append.1 hearly).2.2 begun hbefore entry hmem haccepted drawn hentry
  rw [hpresented] at hnone
  cases hnone

/-- A list in which no two places satisfy a predicate has at most one that does. -/
theorem countP_le_one {α : Type} {p : α → Bool} : ∀ {l : List α},
    (∀ before a between b after, l = before ++ a :: (between ++ b :: after) →
      p a = true → p b = true → False) → l.countP p ≤ 1 := by
  intro l
  induction l with
  | nil =>
      intro _
      exact Nat.zero_le _
  | cons a l ih =>
      intro h
      cases ha : p a with
      | false =>
          rw [List.countP_cons_of_neg (by rw [ha]; exact Bool.false_ne_true)]
          refine ih fun before b between c after hl hb hc => ?_
          exact h (a :: before) b between c after (by rw [hl]; rfl) hb hc
      | true =>
          have hnone : l.countP p = 0 := by
            rw [List.countP_eq_zero]
            intro b hmem hb
            obtain ⟨between, after, rfl⟩ := List.append_of_mem hmem
            exact h [] a between b after rfl ha hb
          have hone := List.countP_cons_of_pos (l := l) ha
          omega

/-- With optimistic locking and fresh tokens no update is lost while its key lives. Two accepted
updates that presented the same token have a deletion of the key between them, so of those in a
stretch without one at most one is accepted; and one that is refused at the gate changes nothing.
-/
theorem no_lost_update (hpolicy : s.versionPolicy = some policy)
    (hoptimistic : policy.optimistic = true) (session : σ) (tokens : τ) (moves : List (Move κ ε))
    (hfresh : (reached s session tokens moves).Fresh policy) :
    (∀ k token before first between second after,
      (reached s session tokens moves).log = before ++ first :: (between ++ second :: after) →
      first.updates s policy k token = true → second.updates s policy k token = true →
      ∃ entry ∈ between, entry.deletes k = true) ∧
    (∀ k token stretch, stretch <:+: (reached s session tokens moves).log →
      (∀ entry ∈ stretch, entry.deletes k = false) →
      stretch.countP (·.updates s policy k token) ≤ 1) ∧
    ∀ earlier client call drawn p settings,
      (reached s session tokens earlier).flights client = some ⟨call, drawn, .commit p settings⟩ →
      ∃ r, (reached s session tokens (earlier ++ [.go client])).log =
          (reached s session tokens earlier).log ++
            [⟨client, call, drawn, some (.entity (.entity (.ok r)))⟩] ∧
        (r.code = .ok ∨
          ((r.code = .conflict ∨ r.code = .notFound ∧
              (reached s session tokens earlier).state.index.get? p.container.key = none) ∧
            (reached s session tokens (earlier ++ [.go client])).state =
              (reached s session tokens earlier).state)) := by
  refine ⟨?_, ?_, ?_⟩
  · intro k token before first between second after hlog hfirst hsecond
    exact exists_deletes_between hpolicy hoptimistic hfresh hlog hfirst hsecond
  · intro k token stretch hinfix hlives
    obtain ⟨before, after, hlog⟩ := hinfix
    refine countP_le_one fun before' first between second after' hstretch hfirst hsecond => ?_
    have hsplit : (reached s session tokens moves).log =
        (before ++ before') ++ first :: (between ++ second :: (after' ++ after)) := by
      rw [← hlog, hstretch]
      simp
    obtain ⟨entry, hmem, hdeletes⟩ :=
      exists_deletes_between hpolicy hoptimistic hfresh hsplit hfirst hsecond
    rw [hlives entry (by rw [hstretch]; simp [hmem])] at hdeletes
    cases hdeletes
  · intro earlier client call drawn p settings hflight
    have hgo : reached s session tokens (earlier ++ [.go client]) =
        (reached s session tokens earlier).note client call drawn
          (s.advance (.commit p settings) (reached s session tokens earlier).state) := by
      rw [reached, run_append]
      change ((reached s session tokens earlier).step s (.go client)) = _
      rw [step, hflight]
    have hexact := (reached_orderly (s := s) session tokens earlier).exact
    refine ⟨(Store.commit p settings (reached s session tokens earlier).state).1, ?_, ?_⟩
    · rw [hgo]
      rfl
    · rw [hgo]
      exact Store.commit_refused hexact p settings

/-- One client creates a document, and two others update it at once. -/
def contention : List (Move String Doc) := [
  .call 0 (.entity (.create { id := "a" } none)), .go 0,
  .call 1 (.entity (.update { id := "a", number := 1 } none)),
  .call 2 (.entity (.update { id := "a", number := 2 } none)),
  .go 2, .go 1]

theorem contention_accepted_le_one :
    Doc.store.versionPolicy = some (Doc.versionPolicy .counter true) ∧
      (Doc.versionPolicy .counter true).optimistic = true ∧
      (reached Doc.store () 0 contention).Fresh (Doc.versionPolicy .counter true) ∧
      (reached Doc.store () 0 contention).log.countP
        (·.updates Doc.store (Doc.versionPolicy .counter true) "a" none) ≤ 1 := by
  have hfresh : (reached Doc.store () 0 contention).Fresh (Doc.versionPolicy .counter true) := by
    unfold Fresh
    decide +kernel
  have hlives : ∀ entry ∈ (reached Doc.store () 0 contention).log,
      entry.deletes "a" = false := by
    decide +kernel
  have h := no_lost_update (s := Doc.store) rfl rfl () 0 contention hfresh
  exact ⟨rfl, rfl, hfresh, h.2.1 "a" none _ List.infix_rfl hlives⟩

end World

end EntityStore
