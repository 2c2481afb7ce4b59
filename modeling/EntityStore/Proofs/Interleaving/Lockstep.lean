import EntityStore.Proofs.Interleaving.Grounded
import EntityStore.Proofs.Search.Functions

/-!
# The same step in two states

A step of a call is compared in two states. What the first step of a call leads
to hangs on the token source alone: nothing outside the gate looks at the index
(`Store.begin_agree`). A step at the gate leads to the same, and to the same
index, if the index it finds is the same (`Store.advance_agree`). What a search
does after its snapshot does not hang on the index again
(`Store.search_agree`). All of this is up to handles, and for pure contexts and
search algorithms that are functions of snapshot and request.
-/

namespace EntityStore

variable {κ ε σ τ : Type} [EntityKey κ]

namespace Store

variable {s : Store κ ε σ τ} {st st' : State κ ε σ τ}

/-! ## The first step -/

/-- What building a candidate comes to does not hang on the memory, handles apart. -/
theorem candidate_agree (hx : s.context.IsPure) {m m' : Memory ε σ} (hm : m.Tidy) (hm' : m'.Tidy)
    (key : κ) (e : ε) (version : Option String) :
    (s.candidate key e version m).1.map Candidate.bare =
      (s.candidate key e version m').1.map Candidate.bare := by
  have henc := hx.encode_eq e m.session m'.session
  rcases candidate_cases (s := s) hm key e version with
    ⟨err, _, hcand, -, hfail⟩ | ⟨blob, session, copy, _, hwrite, hread, hcand, -⟩ <;>
  rcases candidate_cases (s := s) hm' key e version with
    ⟨err', _, hcand', -, hfail'⟩ | ⟨blob', session', copy', _, hwrite', hread', hcand', -⟩ <;>
  rw [hcand, hcand']
  · rcases hfail with hfail | ⟨blob, session, hwrite, hread⟩
    · rcases hfail' with hfail' | ⟨blob', session', hwrite', -⟩
      · rw [hfail, hfail'] at henc
        obtain rfl := Except.error.inj henc
        rfl
      · rw [hfail, hwrite'] at henc
        cases henc
    · rcases hfail' with hfail' | ⟨blob', session', hwrite', hread'⟩
      · rw [hwrite, hfail'] at henc
        cases henc
      · rw [hwrite, hwrite'] at henc
        obtain rfl := Except.ok.inj henc
        rw [hx.decode_eq blob session session', hread'] at hread
        obtain rfl := Except.error.inj hread
        rfl
  · rcases hfail with hfail | ⟨blob, session, hwrite, hread⟩
    · rw [hfail, hwrite'] at henc
      cases henc
    · rw [hwrite, hwrite'] at henc
      obtain rfl := Except.ok.inj henc
      rw [hx.decode_eq blob session session', hread'] at hread
      cases hread
  · rcases hfail' with hfail' | ⟨blob', session', hwrite', hread'⟩
    · rw [hwrite, hfail'] at henc
      cases henc
    · rw [hwrite, hwrite'] at henc
      obtain rfl := Except.ok.inj henc
      rw [hx.decode_eq blob session session', hread'] at hread
      cases hread
  · rw [hwrite, hwrite'] at henc
    obtain rfl := Except.ok.inj henc
    rw [hx.decode_eq blob session session', hread'] at hread
    obtain rfl := Except.ok.inj hread
    rfl

theorem beginSearch_agree (wanted : Wanted) (request : SearchRequest)
    (settings : Option Settings) :
    (s.beginSearch wanted request settings st).1.bare =
      (s.beginSearch wanted request settings st').1.bare := by
  simp only [beginSearch]
  cases s.searches.get? (s.searchId request) with
  | some a => rfl
  | none => cases wanted <;> rfl

/-- What the first step leads to hangs on the token source alone. -/
theorem begin_agree (hx : s.context.IsPure) (ht : st.memory.Tidy) (ht' : st'.memory.Tidy)
    (htokens : st.tokens = st'.tokens) (call : Call κ ε) :
    (s.begin call st).1.bare = (s.begin call st').1.bare := by
  cases call with
  | entity c =>
      cases c with
      | create e settings =>
          have hprep := candidate_agree hx ht ht' (s.makers.key e) e (s.versionOf e)
          simp only [begin]
          split
          · rfl
          · cases h : s.prepareCreate e st with
            | mk r u =>
                cases h' : s.prepareCreate e st' with
                | mk r' u' =>
                    rw [show (s.candidate _ e _ st.memory).1 = r from congrArg Prod.fst h,
                      show (s.candidate _ e _ st'.memory).1 = r' from congrArg Prod.fst h'] at hprep
                    rcases Except.cases_of_map_eq hprep with ⟨err, rfl, rfl⟩ | ⟨c, c', rfl, rfl, hc⟩
                    · rfl
                    · exact congrArg (fun b => Progress.next (.enter b settings)) hc
      | update e settings =>
          have hprep : (s.prepareUpdate e st).1.map PendingUpdate.bare =
              (s.prepareUpdate e st').1.map PendingUpdate.bare := by
            refine prepareUpdate_agree (by rw [htokens]) ?_
            rw [htokens]
            exact candidate_agree hx ht ht' _ _ _
          simp only [begin]
          split
          · rfl
          · cases h : s.prepareUpdate e st with
            | mk r u =>
                cases h' : s.prepareUpdate e st' with
                | mk r' u' =>
                    rw [h, h'] at hprep
                    rcases Except.cases_of_map_eq hprep with ⟨err, rfl, rfl⟩ | ⟨p, p', rfl, rfl, hp⟩
                    · rfl
                    · exact congrArg (fun b => Progress.next (.commit b settings)) hp
      | delete target settings =>
          simp only [begin]
          split <;> rfl
      | read target settings => rfl
      | version target settings => rfl
  | search request settings => exact beginSearch_agree .table request settings
  | searchEntities request settings => exact beginSearch_agree .entities request settings

/-! ## At the gate -/

variable {made made' : Container κ → Prop}

/-- With a pure context two containers that are alike but for handles read as the same entity. -/
theorem entity_agree (hx : s.context.IsPure) (h : st.Grounded s made) (h' : st'.Grounded s made')
    {c c' : Container κ} (hc : made c) (hc' : made' c') (hbare : c.bare = c'.bare) :
    (c.entity s.context st.memory).1 = (c'.entity s.context st'.memory).1 := by
  obtain ⟨-, -, hblob⟩ := Container.parts_eq_of_bare hbare
  rw [(h.recalls_memory hx).entity_eq hx st.memory.session hc,
    (h'.recalls_memory hx).entity_eq hx st.memory.session hc', hblob]

theorem takeSnapshot_agree (hix : st.index.bare = st'.index.bare) :
    (s.takeSnapshot st).bare = (s.takeSnapshot st').bare := by
  have hsnapshot : ∀ st : State κ ε σ τ, (s.takeSnapshot st).bare =
      st.index.bare.snapshot (s.etagOf st.index.bare) :=
    fun st => (Index.snapshot_map Container.bare st.index _).symm
  rw [hsnapshot, hsnapshot, hix]

/-! ## After the snapshot -/

theorem searchIn_agree {ρ : Type} [Paged ρ] (hx : s.context.IsPure) {load : Loader κ ε σ ρ}
    (hload : load.IsFunction s.context) {a : Algorithm κ ε σ} (ha : a.IsFunction s.context)
    (h : st.Grounded s made) (h' : st'.Grounded s made') {snapshot snapshot' : Snapshot κ}
    (hbare : snapshot.bare = snapshot'.bare) (hmade : ∀ c ∈ snapshot.containers, made c)
    (hmade' : ∀ c ∈ snapshot'.containers, made' c) (request : SearchRequest)
    (settings : Option Settings) :
    (s.searchIn load a snapshot request settings st).1 =
      (s.searchIn load a snapshot' request settings st').1 := by
  have hrun := ha.run_agree hx hload hbare ((h.recalls_memory hx).mono hmade)
    ((h'.recalls_memory hx).mono hmade') request
  have hetag : snapshot.bare.etag = snapshot'.bare.etag := congrArg Snapshot.etag hbare
  change snapshot.etag = snapshot'.etag at hetag
  rw [searchIn_eq, searchIn_eq]
  dsimp only
  rw [hrun, hetag]

end Store

/-! ## Further steps -/

omit [EntityKey κ] in
/-- The algorithm that a call under way is to be answered by. -/
def Stage.algorithm? : Stage κ ε σ → Option (Algorithm κ ε σ)
  | .takeSnapshot _ a _ _ => some a
  | .search _ a _ _ _ => some a
  | _ => none

omit [EntityKey κ] in
theorem Stage.algorithm?_bare (stage : Stage κ ε σ) : stage.bare.algorithm? = stage.algorithm? := by
  cases stage <;> rfl

omit [EntityKey κ] in
/-- Whether a call has visited the gate, and has only its algorithm left to run. -/
def Stage.isSearching : Stage κ ε σ → Bool
  | .search _ _ _ _ _ => true
  | _ => false

namespace Store

variable {s : Store κ ε σ τ} {st st' : State κ ε σ τ} {made made' : Container κ → Prop}

/-- What a search does after its snapshot does not hang on the index. -/
theorem search_agree (hx : s.context.IsPure) {call : Call κ ε} {stage stage' : Stage κ ε σ}
    (ha : ∀ a, stage.algorithm? = some a → a.IsFunction s.context)
    (h : st.Grounded s made) (h' : st'.Grounded s made') (hstage : stage.Grounded s made call)
    (hstage' : stage'.Grounded s made' call) (hbare : stage.bare = stage'.bare)
    (hsearching : stage.isSearching = true) :
    (s.advance stage st).1 = (s.advance stage' st').1 := by
  cases stage with
  | search wanted a snapshot request settings =>
      cases stage' with
      | search wanted' a' snapshot' request' settings' =>
          obtain ⟨rfl, rfl, hsnapshot, rfl, rfl⟩ := Stage.search.inj hbare
          cases wanted with
          | table =>
              exact congrArg (fun r => Progress.done (.table r))
                (searchIn_agree hx (Hits.table_isFunction s.context request) (ha a rfl) h h'
                  hsnapshot hstage.2 hstage'.2 request settings)
          | entities =>
              exact congrArg (fun r => Progress.done (.entities r))
                (searchIn_agree hx (Hits.entityList_isFunction hx) (ha a rfl) h h'
                  hsnapshot hstage.2 hstage'.2 request settings)
      | _ => cases hbare
  | _ => cases hsearching

/-- A visit to the gate leads to the same, and to the same index, wherever the index is the
same. -/
theorem advance_agree (hx : s.context.IsPure) {stage stage' : Stage κ ε σ}
    (h : st.Grounded s made) (h' : st'.Grounded s made') (hbare : stage.bare = stage'.bare)
    (hgate : stage.isSearching = false) (hix : st.index.bare = st'.index.bare) :
    (s.advance stage st).1.bare = (s.advance stage' st').1.bare ∧
      (s.advance stage st).2.index.bare = (s.advance stage' st').2.index.bare := by
  cases stage with
  | enter c settings =>
      cases stage' with
      | enter c' settings' =>
          obtain ⟨hc, rfl⟩ := Stage.enter.inj hbare
          obtain ⟨hanswer, hindex⟩ := enter_agree Container.bare_keepsParts hix hc settings
          exact ⟨congrArg (fun r => Progress.done (.entity (.entity (.ok r)))) hanswer, hindex⟩
      | _ => cases hbare
  | commit p settings =>
      cases stage' with
      | commit p' settings' =>
          obtain ⟨hp, rfl⟩ := Stage.commit.inj hbare
          obtain ⟨hanswer, hindex⟩ := commit_agree Container.bare_keepsParts hix h.exact h'.exact hp
            settings
          exact ⟨congrArg (fun r => Progress.done (.entity (.entity (.ok r)))) hanswer, hindex⟩
      | _ => cases hbare
  | remove target settings =>
      cases stage' with
      | remove target' settings' =>
          obtain ⟨rfl, rfl⟩ := Stage.remove.inj hbare
          obtain ⟨hanswer, hindex⟩ := remove_agree Container.bare_keepsParts hix target settings
          exact ⟨congrArg (fun r => Progress.done (.entity (.version r))) hanswer, hindex⟩
      | _ => cases hbare
  | read target settings =>
      cases stage' with
      | read target' settings' =>
          obtain ⟨rfl, rfl⟩ := Stage.read.inj hbare
          obtain ⟨hanswer, hindex⟩ := read_agree Container.bare_keepsParts hix rfl
            (fun c c' hc hc' => entity_agree hx h h' (h.live (h.exact.live_of_find? hc))
              (h'.live (h'.exact.live_of_find? hc'))) settings
          exact ⟨congrArg (fun r => Progress.done (.entity (.entity r))) hanswer, hindex⟩
      | _ => cases hbare
  | version target settings =>
      cases stage' with
      | version target' settings' =>
          obtain ⟨rfl, rfl⟩ := Stage.version.inj hbare
          obtain ⟨hanswer, hindex⟩ := version_agree Container.bare_keepsParts hix target settings
          exact ⟨congrArg (fun r => Progress.done (.entity (.version r))) hanswer, hindex⟩
      | _ => cases hbare
  | takeSnapshot wanted a request settings =>
      cases stage' with
      | takeSnapshot wanted' a' request' settings' =>
          obtain ⟨rfl, rfl, rfl, rfl⟩ := Stage.takeSnapshot.inj hbare
          refine ⟨congrArg (fun snapshot => Progress.next (.search wanted a snapshot request
            settings)) (takeSnapshot_agree (s := s) hix), hix⟩
      | _ => cases hbare
  | search wanted a snapshot request settings => cases hgate

end Store

end EntityStore
