import EntityStore.Proofs.Recoding.Basic

/-!
# Calls about one entity

A store and a recoded one answer such a call alike in states that are alike, and
leave states that are alike. Nothing outside the gate looks at the index, and at
the gate nothing looks at a blob, so the only things to see to are the candidate
of a write and the entity that a read finds.
-/

namespace EntityStore.Store

variable {κ ε σ τ : Type} [EntityKey κ] {s : Store κ ε σ τ} {collectionId : String} {eager : Bool}
  {codec : Codec σ} {made made' : Container κ → Prop} {st st' : State κ ε σ τ}

variable (hx : s.context.IsFaithful) (hx' : (s.recoded collectionId eager codec).context.IsFaithful)
  (h : st.Grounded s made) (h' : st'.Grounded (s.recoded collectionId eager codec) made')
  (halike : st.Alike s.context (s.recoded collectionId eager codec).context st')

/-! ## Writes -/

include hx hx'

/-- Candidates of the same outline that were made for calls read as the same copy. -/
theorem MakesFor.reads_alike {call call' : Call κ ε} {c c' : Candidate κ ε}
    (hc : s.MakesFor call c) (hc' : (s.recoded collectionId eager codec).MakesFor call' c')
    (hsame : c.map Container.outline = c'.map Container.outline) :
    ∃ e, s.context.Reads c.container.blob e ∧
      (s.recoded collectionId eager codec).context.Reads c'.container.blob e := by
  obtain ⟨key, d, -, hmakes⟩ := hc
  obtain ⟨key', d', -, hmakes'⟩ := hc'
  have hcopy : c.copy = c'.copy := (congrArg Candidate.copy hsame :)
  exact ⟨c.copy, hmakes.reads hx.isSteady, hcopy ▸ hmakes'.reads hx'.isSteady⟩

include h h' halike

theorem create_alike (hwritable : s.readOnly = false) (e : ε) (settings : Option Settings) :
    AnsweredAlike s.context (s.recoded collectionId eager codec).context id (s.create e settings st)
      ((s.recoded collectionId eager codec).create e settings st') := by
  have hprep : (s.prepareCreate e st).1.map (Candidate.map Container.outline) =
      ((s.recoded collectionId eager codec).prepareCreate e st').1.map
        (Candidate.map Container.outline) :=
    candidate_recoded hx hx' h.tidy h'.tidy _ _ _
  have hafter : (s.prepareCreate e st).2.Alike s.context
      (s.recoded collectionId eager codec).context
      ((s.recoded collectionId eager codec).prepareCreate e st').2 :=
    halike.remember _ _
  rw [create_of_writable hwritable,
    create_of_writable (s := s.recoded collectionId eager codec) hwritable]
  cases hp : s.prepareCreate e st with
  | mk r u =>
      cases hp' : (s.recoded collectionId eager codec).prepareCreate e st' with
      | mk r' u' =>
          rw [hp, hp'] at hprep hafter
          rcases Except.cases_of_map_eq hprep with ⟨err, rfl, rfl⟩ | ⟨c, c', rfl, rfl, hc⟩
          · exact ⟨rfl, hafter⟩
          · obtain ⟨hanswer, hindex⟩ :=
              enter_agree Container.outline_keepsParts hafter.index_eq hc settings
            have hmakes := (prepareCreate_prepares settings h.tidy hp).makes
            have hmakes' := (prepareCreate_prepares settings h'.tidy hp').makes
            exact ⟨congrArg Except.ok hanswer.symm,
              hafter.gains (u.index.add_gains c.container) (u'.index.add_gains c'.container) hindex
                (Candidate.key_eq_of_map hc) (hmakes.reads_alike hx hx' hmakes' hc)⟩

theorem update_alike (hwritable : s.readOnly = false) (e : ε) (settings : Option Settings) :
    AnsweredAlike s.context (s.recoded collectionId eager codec).context id (s.update e settings st)
      ((s.recoded collectionId eager codec).update e settings st') := by
  have hdraft : s.draft e st.tokens = (s.recoded collectionId eager codec).draft e st'.tokens := by
    rw [halike.tokens_eq]
    rfl
  have hprep : (s.prepareUpdate e st).1.map (PendingUpdate.map Container.outline) =
      ((s.recoded collectionId eager codec).prepareUpdate e st').1.map
        (PendingUpdate.map Container.outline) := by
    refine prepareUpdate_agree (congrArg Prod.fst hdraft) ?_
    rw [← hdraft]
    exact candidate_recoded hx hx' h.tidy h'.tidy _ _ _
  have hexact : (s.prepareUpdate e st).2.index.Exact := by
    rw [State.index, prepareUpdate_gate]
    exact h.exact
  have hexact' : ((s.recoded collectionId eager codec).prepareUpdate e st').2.index.Exact := by
    rw [State.index, prepareUpdate_gate]
    exact h'.exact
  have hafter : (s.prepareUpdate e st).2.Alike s.context
      (s.recoded collectionId eager codec).context
      ((s.recoded collectionId eager codec).prepareUpdate e st').2 := by
    rw [prepareUpdate_eq, prepareUpdate_eq]
    exact halike.keeps (congrArg Prod.snd hdraft) halike.deliveries_eq halike.index_eq id id
  rw [update_of_writable hwritable,
    update_of_writable (s := s.recoded collectionId eager codec) hwritable]
  cases hp : s.prepareUpdate e st with
  | mk r u =>
      cases hp' : (s.recoded collectionId eager codec).prepareUpdate e st' with
      | mk r' u' =>
          rw [hp, hp'] at hprep hafter
          rw [hp] at hexact
          rw [hp'] at hexact'
          rcases Except.cases_of_map_eq hprep with ⟨err, rfl, rfl⟩ | ⟨p, p', rfl, rfl, hpending⟩
          · exact ⟨rfl, hafter⟩
          · have hc : p.toCandidate.map Container.outline = p'.toCandidate.map Container.outline :=
              (congrArg PendingUpdate.toCandidate hpending :)
            obtain ⟨hanswer, hindex⟩ := commit_agree Container.outline_keepsParts hafter.index_eq
              hexact hexact' hpending settings
            have hmakes := (prepareUpdate_prepares settings h.tidy hp).makes
            have hmakes' := (prepareUpdate_prepares settings h'.tidy hp').makes
            exact ⟨congrArg Except.ok hanswer.symm,
              hafter.gains (p.commit_gains hexact) (p'.commit_gains hexact') hindex
                (Candidate.key_eq_of_map hc) (hmakes.reads_alike hx hx' hmakes' hc)⟩

omit hx hx' in
theorem delete_alike (hwritable : s.readOnly = false) (target : Target κ)
    (settings : Option Settings) :
    AnsweredAlike s.context (s.recoded collectionId eager codec).context id
      (s.delete target settings st)
      ((s.recoded collectionId eager codec).delete target settings st') := by
  have hnotified : (st.notify s.observers (.beforeDelete target)).Alike s.context
      (s.recoded collectionId eager codec).context
      (st'.notify s.observers (.beforeDelete target)) := halike.notify _ _
  rw [delete_of_writable hwritable,
    delete_of_writable (s := s.recoded collectionId eager codec) hwritable]
  obtain ⟨hanswer, hindex⟩ :=
    remove_agree Container.outline_keepsParts hnotified.index_eq target settings
  refine ⟨hanswer.symm, hnotified.keeps hnotified.tokens_eq hnotified.deliveries_eq hindex ?_ ?_⟩
  · exact h.exact.live_of_remove target
  · exact h'.exact.live_of_remove target

/-! ## Look-ups -/

theorem entity_alike {c c' : Container κ} (hc : st.index.Live c) (hc' : st'.index.Live c')
    (hsame : c.outline = c'.outline) : (c.entity s.context st.memory).1 =
      (c'.entity (s.recoded collectionId eager codec).context st'.memory).1 := by
  obtain ⟨e, he, he'⟩ := halike.reads hc hc' hsame
  rw [h.entity_eq hx.isSteady (h.live hc) he, h'.entity_eq hx'.isSteady (h'.live hc') he']

theorem read_alike (target : Target κ) (settings : Option Settings) :
    AnsweredAlike s.context (s.recoded collectionId eager codec).context id
      (s.read target settings st)
      ((s.recoded collectionId eager codec).read target settings st') := by
  have hsignature : s.signaturePolicy = (s.recoded collectionId eager codec).signaturePolicy := rfl
  obtain ⟨hanswer, hindex⟩ := read_agree Container.outline_keepsParts halike.index_eq hsignature
    (fun c c' hc hc' => entity_alike hx hx' h h' halike (h.exact.live_of_find? hc)
      (h'.exact.live_of_find? hc')) settings
  obtain ⟨hits, memory, hstate⟩ := s.read_state target settings st
  obtain ⟨hits', memory', hstate'⟩ :=
    (s.recoded collectionId eager codec).read_state target settings st'
  refine ⟨hanswer.symm, ?_⟩
  rw [hstate, hstate'] at hindex ⊢
  exact halike.keeps halike.tokens_eq halike.deliveries_eq hindex id id

omit hx hx' h h' in
theorem version_alike (target : Target κ) (settings : Option Settings) :
    AnsweredAlike s.context (s.recoded collectionId eager codec).context id
      (version target settings st) (version target settings st') := by
  obtain ⟨hanswer, hindex⟩ :=
    version_agree Container.outline_keepsParts halike.index_eq target settings
  obtain ⟨hits, hstate⟩ := version_state target settings st
  obtain ⟨hits', hstate'⟩ := version_state target settings st'
  refine ⟨hanswer.symm, ?_⟩
  rw [hstate, hstate'] at hindex ⊢
  exact halike.keeps halike.tokens_eq halike.deliveries_eq hindex id id

end EntityStore.Store
