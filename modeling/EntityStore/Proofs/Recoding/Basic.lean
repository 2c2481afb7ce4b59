import EntityStore.Proofs.Interleaving.Grounded
import EntityStore.Proofs.Search.Inquiry

/-!
# The same contents in another coding

A store can be recoded: keep its entities behind another codec, decode them at
other times, and go by another collection id. Its blobs are other blobs then, and
what is remembered is remembered at other times. But a faithful codec writes
everything and reads what it wrote, so it has no part in what an entity comes back
as, nor in whether it comes back at all (`Context.IsFaithful.encode_cases`).

Two states of the two stores are alike if their indexes have the same outline,
the same tokens are to come, observers have been told the same, and containers
that look the same read as the same entity. A write keeps them alike because the
two candidates have the same outline and the same copy, and both are stored or
neither is; all else leaves stored what was stored.
-/

namespace EntityStore

variable {κ ε σ τ : Type}

/-! ## Faithful codecs -/

/-- A codec that writes everything, and loses nothing. -/
structure Codec.IsFaithful (c : Codec σ) : Prop extends c.IsLossless where
  encodes : ∀ raw a, ∃ blob, (c.encode raw a).1 = .ok blob

theorem Codec.identity_isFaithful : (Codec.identity : Codec σ).IsFaithful :=
  ⟨identity_isLossless, fun raw _ => ⟨raw, rfl⟩⟩

/-- What a serializer makes of an entity that it writes and reads again. -/
def Serializer.copyOf (z : Serializer ε σ) (session : σ) (e : ε) : Except StoreError ε :=
  match (z.serialize e session).1 with
  | .error err => .error err
  | .ok raw => (z.deserialize raw session).1

/-- A context of a pure serializer and a faithful codec. -/
structure Context.IsFaithful (x : Context ε σ) : Prop where
  serializer : x.serializer.IsPure
  codec : x.codec.IsFaithful

theorem Context.IsFaithful.isSteady {x : Context ε σ} (hx : x.IsFaithful) : x.IsSteady :=
  isSteady_of_lossless hx.codec.toIsLossless hx.serializer

/-- Behind a faithful codec an entity is not written if the serializer does not write it, and a blob
reads as the serializer reads what it wrote. -/
theorem Context.IsFaithful.encode_cases {x : Context ε σ} (hx : x.IsFaithful) (session : σ) (e : ε)
    (a : σ) :
    (∃ err, x.serializer.copyOf session e = .error err ∧ (x.encode e a).1 = .error err) ∨
    ∃ blob, (x.encode e a).1 = .ok blob ∧
      ∀ b, (x.decode blob b).1 = x.serializer.copyOf session e := by
  have hser := hx.serializer.serialize_eq e session a
  rw [Serializer.copyOf, hser, encode]
  cases hs : x.serializer.serialize e a with
  | mk r a' =>
      cases r with
      | error err => exact .inl ⟨err, rfl, rfl⟩
      | ok raw =>
          obtain ⟨blob, hblob⟩ := hx.codec.encodes raw a'
          refine .inr ⟨blob, ?_, fun b => ?_⟩
          · cases henc : x.codec.encode raw a' with
            | mk r a'' =>
                rw [henc] at hblob
                obtain rfl : r = .ok blob := hblob
                simp only [henc]
          · have hread := hx.codec.decode_eq hblob b
            rw [decode]
            cases hdec : x.codec.decode blob b with
            | mk r b' =>
                rw [hdec] at hread
                obtain rfl : r = .ok raw := hread
                exact hx.serializer.deserialize_eq raw b' session

/-! ## Recoded stores -/

namespace Store

/-- The store under another collection id, with another codec, and eager or not. -/
def recoded (s : Store κ ε σ τ) (collectionId : String) (eager : Bool) (codec : Codec σ) :
    Store κ ε σ τ :=
  { s with collectionId, eager, context := ⟨s.context.serializer, codec⟩ }

variable [EntityKey κ] {s : Store κ ε σ τ}

/-- The outline of a candidate hangs on the serializer alone, and so does whether there is one. -/
theorem candidate_outline (hx : s.context.IsFaithful) {m : Memory ε σ} (ht : m.Tidy) (session : σ)
    (key : κ) (e : ε) (version : Option String) :
    (s.candidate key e version m).1.map (Candidate.map Container.outline) =
      (s.context.serializer.copyOf session e).map fun copy =>
        ⟨s.containerOf key e version 0 [], copy⟩ := by
  rcases hx.encode_cases session e m.session with
    ⟨err, hcopy, hfail⟩ | ⟨blob, hwrite, hread⟩
  · rw [hcopy]
    rcases candidate_cases (s := s) ht key e version with
      ⟨err', m', hcand, -, hfail' | ⟨blob', session', hwrite', -⟩⟩ |
        ⟨blob', session', copy, m', hwrite', -⟩
    · rw [hfail] at hfail'
      obtain rfl := Except.error.inj hfail'
      rw [hcand]
      rfl
    · rw [hwrite'] at hfail
      cases hfail
    · rw [hwrite'] at hfail
      cases hfail
  · rcases candidate_cases (s := s) ht key e version with
      ⟨err', m', hcand, -, hfail' | ⟨blob', session', hwrite', hread'⟩⟩ |
        ⟨blob', session', copy, m', hwrite', hread', hcand, -⟩
    · rw [hwrite] at hfail'
      cases hfail'
    · rw [hwrite'] at hwrite
      obtain rfl := Except.ok.inj hwrite
      rw [hcand, ← hread session', hread']
      rfl
    · rw [hwrite'] at hwrite
      obtain rfl := Except.ok.inj hwrite
      rw [hcand, ← hread session', hread']
      rfl

/-- So a recoded store builds candidates of the same outline, and fails to with the same errors. -/
theorem candidate_recoded {collectionId : String} {eager : Bool} {codec : Codec σ}
    (hx : s.context.IsFaithful) (hx' : (s.recoded collectionId eager codec).context.IsFaithful)
    {m m' : Memory ε σ} (ht : m.Tidy) (ht' : m'.Tidy) (key : κ) (e : ε) (version : Option String) :
    (s.candidate key e version m).1.map (Candidate.map Container.outline) =
      ((s.recoded collectionId eager codec).candidate key e version m').1.map
        (Candidate.map Container.outline) := by
  rw [candidate_outline hx ht m.session, candidate_outline hx' ht' m.session]
  rfl

end Store

/-! ## States that are alike -/

theorem Candidate.key_eq_of_map {c c' : Candidate κ ε}
    (h : c.map Container.outline = c'.map Container.outline) :
    c.container.key = c'.container.key := by
  have hcontainer : c.container.outline = c'.container.outline :=
    (congrArg Candidate.container h :)
  exact congrArg (·.key) (Container.outline_keepsParts.parts_eq hcontainer)

/-- What a visit leaves when it is to store a container: the index as it was, or the container
stored. -/
def Index.Gains [Ranked κ] (ix : Index κ) (c : Container κ) (ix' : Index κ) : Prop :=
  ix' = ix ∨ ∃ owners, ix' = ix.store owners c

theorem Index.add_gains [Ranked κ] (ix : Index κ) (c : Container κ) :
    ix.Gains c (ix.add c).2 := by
  rcases ix.add_cases c with ⟨hadd, -⟩ | ⟨hadd, -⟩
  · exact .inl (by rw [hadd])
  · exact .inr ⟨ix.owners, by rw [hadd]⟩

theorem PendingUpdate.commit_gains [Ranked κ] {ix : Index κ} (h : ix.Exact)
    (p : PendingUpdate κ ε) : ix.Gains p.container (p.commit ix).2 := by
  rcases commit_cases h p with ⟨-, hcommit⟩ |
    ⟨old, -, ⟨-, hcommit⟩ | ⟨-, -, hcommit⟩ | ⟨-, -, hcommit⟩⟩
  · exact .inl (by rw [hcommit])
  · exact .inl (by rw [hcommit])
  · exact .inl (by rw [hcommit])
  · exact .inr ⟨_, by rw [hcommit]⟩

variable [EntityKey κ]

/-- Two states that cannot be told apart from outside, in two contexts. -/
structure State.Alike (x x' : Context ε σ) (st st' : State κ ε σ τ) : Prop where
  tokens_eq : st.tokens = st'.tokens
  deliveries_eq : st.deliveries = st'.deliveries
  index_eq : st.index.map Container.outline = st'.index.map Container.outline
  reads : ∀ {c c'}, st.index.Live c → st'.index.Live c' → c.outline = c'.outline →
    ∃ e, x.Reads c.blob e ∧ x'.Reads c'.blob e

namespace State.Alike

variable {x x' : Context ε σ} {st st' : State κ ε σ τ}

theorem start (x x' : Context ε σ) (session session' : σ) (tokens : τ) :
    Alike x x' (State.start session tokens : State κ ε σ τ) (State.start session' tokens) :=
  ⟨rfl, rfl, rfl, fun hc => by cases hc⟩

/-- States in which nothing is stored that was not before stay alike. -/
theorem keeps (h : Alike x x' st st') {u u' : State κ ε σ τ} (htokens : u.tokens = u'.tokens)
    (hdeliveries : u.deliveries = u'.deliveries)
    (hix : u.index.map Container.outline = u'.index.map Container.outline)
    (hlive : ∀ {c}, u.index.Live c → st.index.Live c)
    (hlive' : ∀ {c}, u'.index.Live c → st'.index.Live c) : Alike x x' u u' :=
  ⟨htokens, hdeliveries, hix, fun hc hc' => h.reads (hlive hc) (hlive' hc')⟩

theorem remember (h : Alike x x' st st') (m m' : Memory ε σ) :
    Alike x x' { st with memory := m } { st' with memory := m' } :=
  h.keeps h.tokens_eq h.deliveries_eq h.index_eq id id

theorem notify (h : Alike x x' st st') (observers : List Observer) (e : Event κ) :
    Alike x x' (st.notify observers e) (st'.notify observers e) :=
  h.keeps h.tokens_eq (congrArg (· ++ e.deliveries observers) h.deliveries_eq) h.index_eq id id

/-- Two visits that are to store containers which read as the same keep states alike. -/
theorem gains (h : Alike x x' st st') {c c' : Container κ} {ix ix' : Index κ}
    (hgains : st.index.Gains c ix) (hgains' : st'.index.Gains c' ix')
    (hix : ix.map Container.outline = ix'.map Container.outline) (hkey : c.key = c'.key)
    (hreads : ∃ e, x.Reads c.blob e ∧ x'.Reads c'.blob e) :
    Alike x x' { st with gate := ⟨ix⟩ } { st' with gate := ⟨ix'⟩ } := by
  refine ⟨h.tokens_eq, h.deliveries_eq, hix, fun {d d'} hd hd' hsame => ?_⟩
  have hbefore : st.index.revision = st'.index.revision := (congrArg Index.revision h.index_eq :)
  have hafter : ix.revision = ix'.revision := (congrArg Index.revision hix :)
  have hkeys : d.key = d'.key := congrArg (·.key) (Container.outline_keepsParts.parts_eq hsame)
  change ix.Live d at hd
  change ix'.Live d' at hd'
  rcases hgains with rfl | ⟨owners, rfl⟩
  · rcases hgains' with rfl | ⟨owners', rfl⟩
    · exact h.reads hd hd' hsame
    · exact absurd (hbefore.symm.trans hafter) (Nat.ne_of_lt (Nat.lt_succ_self _))
  · rcases hgains' with rfl | ⟨owners', rfl⟩
    · exact absurd (hafter.trans hbefore.symm).symm (Nat.ne_of_lt (Nat.lt_succ_self _))
    · rcases Index.live_store_iff.1 hd with rfl | ⟨hne, hd⟩
      · rcases Index.live_store_iff.1 hd' with rfl | ⟨hne', -⟩
        · exact hreads
        · exact absurd (hkeys.symm.trans hkey) hne'
      · rcases Index.live_store_iff.1 hd' with rfl | ⟨-, hd'⟩
        · exact absurd (hkeys.trans hkey.symm) hne
        · exact h.reads hd hd' hsame

end State.Alike

/-- Two calls leave states that are alike, and the second is answered as the first was, up to a
function. -/
structure AnsweredAlike {α : Type} (x x' : Context ε σ) (f : α → α) (r r' : α × State κ ε σ τ) :
    Prop where
  answer_eq : r'.1 = f r.1
  alike : r.2.Alike x x' r'.2

end EntityStore
