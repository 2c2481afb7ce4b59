import EntityStore.Proofs.Decimal
import EntityStore.Proofs.Store.Documents
import EntityStore.Proofs.Store.Visits

/-!
# Equal etags mean equal contents

The etag of a state is the id of its collection and, behind the last colon, the
revision. A call makes the revision one larger if it is answered as accepted,
and otherwise changes nothing in the index but read hits. So along a run the
revision never falls, and between two points where it is the same no call was
accepted: the containers and the owners at the two points are the same, however
often keys were deleted and created again before.

Nothing is asked of the state that a run starts in, nor of the context.
-/

namespace EntityStore

/-! ## Etags are taken apart at their last colon -/

namespace Etag

theorem takeWhile_append_cons {α : Type} {p : α → Bool} {l : List α} (hl : ∀ a ∈ l, p a = true)
    {b : α} (hb : p b = false) (rest : List α) : (l ++ b :: rest).takeWhile p = l := by
  rw [List.takeWhile_append_of_pos hl, List.takeWhile_cons_of_neg (by rw [hb]; simp),
    List.append_nil]

theorem dropWhile_append_cons {α : Type} {p : α → Bool} {l : List α} (hl : ∀ a ∈ l, p a = true)
    {b : α} (hb : p b = false) (rest : List α) : (l ++ b :: rest).dropWhile p = b :: rest := by
  rw [List.dropWhile_append_of_pos hl, List.dropWhile_cons_of_neg (by rw [hb]; simp)]

/-- The last colon is the one before the revision, whatever colons the collection has. -/
theorem split_text (collection : String) (changes : Nat) :
    split (text collection changes) = (collection, Decimal.text changes) := by
  have hreversed : (text collection changes).toList.reverse =
      (Decimal.text changes).toList.reverse ++ ':' :: collection.toList.reverse := by
    rw [text, String.toList_append, String.toList_append]
    simp
  have hdigits : ∀ c ∈ (Decimal.text changes).toList.reverse, decide (c ≠ ':') = true := by
    intro c hc
    rw [List.mem_reverse] at hc
    refine decide_eq_true fun heq => ?_
    exact Decimal.colon_notMem_text changes (heq ▸ hc)
  rw [split, hreversed, takeWhile_append_cons hdigits (by decide),
    dropWhile_append_cons hdigits (by decide)]
  simp

example : split "a:b:12" = ("a:b", "12") := by decide

theorem text_inj {collection : String} {m n : Nat} (h : text collection m = text collection n) :
    m = n := by
  have hsplit := split_text collection m
  rw [h, split_text] at hsplit
  exact (Decimal.text_inj (Prod.mk.inj hsplit).2).symm

end Etag

namespace Store

variable {κ ε σ τ : Type} [EntityKey κ]

/-! ## One call -/

/-- Creating is answered 201 and counts as one change, or is not and changes nothing. -/
theorem create_contents (s : Store κ ε σ τ) (e : ε) (settings : Option Settings)
    (st : State κ ε σ τ) :
    ((EntityAnswer.entity (s.create e settings st).1).code? = some .created ∧
        (s.create e settings st).2.index.revision = st.index.revision + 1) ∨
    ((EntityAnswer.entity (s.create e settings st).1).code? ≠ some .created ∧
        (s.create e settings st).2.index = st.index) := by
  rw [create]
  split
  · exact .inr ⟨by simp [EntityAnswer.code?, refusal], rfl⟩
  · have hgate : (s.prepareCreate e st).2.index = st.index := rfl
    cases h : s.prepareCreate e st with
    | mk r st' =>
        rw [h] at hgate
        cases r with
        | error err => exact .inr ⟨by simp [EntityAnswer.code?], hgate⟩
        | ok c =>
            dsimp only at hgate ⊢
            rcases enter_cases c settings st' with ⟨-, henter⟩ | ⟨-, -, henter⟩
            · rw [henter]
              exact .inr ⟨by simp [EntityAnswer.code?], hgate⟩
            · rw [henter]
              exact .inl ⟨rfl, congrArg (·.revision + 1) hgate⟩

theorem update_contents (s : Store κ ε σ τ) (e : ε) (settings : Option Settings)
    (st : State κ ε σ τ) :
    ((EntityAnswer.entity (s.update e settings st).1).code? = some .ok ∧
        (s.update e settings st).2.index.revision = st.index.revision + 1) ∨
    ((EntityAnswer.entity (s.update e settings st).1).code? ≠ some .ok ∧
        (s.update e settings st).2.index = st.index) := by
  rw [update]
  split
  · exact .inr ⟨by simp [EntityAnswer.code?, refusal], rfl⟩
  · have hgate : (s.prepareUpdate e st).2.index = st.index :=
      congrArg Gate.inner (s.prepareUpdate_gate e st)
    cases h : s.prepareUpdate e st with
    | mk r st' =>
        rw [h] at hgate
        cases r with
        | error err => exact .inr ⟨by simp [EntityAnswer.code?], hgate⟩
        | ok p =>
            dsimp only at hgate ⊢
            rw [commit_eq]
            rcases p.commit_revision st'.index with ⟨houtcome, hrevision⟩ | ⟨houtcome, hsame⟩
            · refine .inl ⟨?_, hrevision.trans (congrArg (·.revision + 1) hgate)⟩
              simp only [houtcome, if_true]
              rfl
            · refine .inr ⟨?_, hsame.trans hgate⟩
              simp only [houtcome, if_false]
              cases ho : (p.commit st'.index).1 with
              | replaced => exact absurd ho houtcome
              | _ => simp [EntityAnswer.code?, UpdateOutcome.code]

theorem delete_contents (s : Store κ ε σ τ) (target : Target κ) (settings : Option Settings)
    (st : State κ ε σ τ) :
    ((s.delete target settings st).1.code = .ok ∧
        (s.delete target settings st).2.index.revision = st.index.revision + 1) ∨
    ((s.delete target settings st).1.code ≠ .ok ∧
        (s.delete target settings st).2.index = st.index) := by
  rw [delete]
  split
  · exact .inr ⟨by simp [refusal], rfl⟩
  · rw [remove_eq]
    rcases Index.remove_cases st.index target with hnone | ⟨c, hc, hrevision⟩
    · have hnone' : (st.notify s.observers (.beforeDelete target)).index.remove target =
          (none, st.index) := hnone
      rw [hnone']
      exact .inr ⟨by simp, rfl⟩
    · have hc' : ((st.notify s.observers (.beforeDelete target)).index.remove target).1 =
          some c := hc
      rw [hc']
      exact .inl ⟨rfl, hrevision⟩

theorem searchWith_gate {ρ : Type} [Paged ρ] (s : Store κ ε σ τ) (load : Loader κ ε σ ρ)
    (request : SearchRequest) (settings : Option Settings) (st : State κ ε σ τ) :
    (s.searchWith load request settings st).2.gate = st.gate := by
  rw [searchWith]
  cases s.searches.get? (s.searchId request) with
  | none => rfl
  | some a => exact s.searchIn_gate load a _ request settings _

/-- An accepted call is one change, and any other changes read hits at most. -/
theorem answer_contents (s : Store κ ε σ τ) (c : Call κ ε) (st : State κ ε σ τ) :
    (c.isAccepted (s.answer c st).1 = true ∧
        (s.answer c st).2.index.revision = st.index.revision + 1) ∨
    (c.isAccepted (s.answer c st).1 = false ∧
        ∃ hits, (s.answer c st).2.index = { st.index with hits }) := by
  cases c with
  | entity c =>
      cases c with
      | create e settings =>
          rcases s.create_contents e settings st with ⟨hcode, hrevision⟩ | ⟨hcode, hsame⟩
          · exact .inl ⟨beq_iff_eq.2 hcode, hrevision⟩
          · exact .inr ⟨beq_eq_false_iff_ne.2 hcode, st.index.hits, hsame⟩
      | update e settings =>
          rcases s.update_contents e settings st with ⟨hcode, hrevision⟩ | ⟨hcode, hsame⟩
          · exact .inl ⟨beq_iff_eq.2 hcode, hrevision⟩
          · exact .inr ⟨beq_eq_false_iff_ne.2 hcode, st.index.hits, hsame⟩
      | delete target settings =>
          rcases s.delete_contents target settings st with ⟨hcode, hrevision⟩ | ⟨hcode, hsame⟩
          · exact .inl ⟨beq_iff_eq.2 (congrArg some hcode), hrevision⟩
          · refine .inr ⟨beq_eq_false_iff_ne.2 fun h => hcode (Option.some.inj h), ?_⟩
            exact ⟨st.index.hits, hsame⟩
      | read target settings => exact .inr ⟨rfl, s.read_index target settings st⟩
      | version target settings => exact .inr ⟨rfl, version_index target settings st⟩
  | search request settings =>
      refine .inr ⟨rfl, st.index.hits, ?_⟩
      exact congrArg Gate.inner (s.searchWith_gate (Hits.table request) request settings st)
  | searchEntities request settings =>
      refine .inr ⟨rfl, st.index.hits, ?_⟩
      exact congrArg Gate.inner (s.searchWith_gate (Hits.entityList s.context) request settings st)

/-! ## Runs -/

theorem after_append (s : Store κ ε σ τ) (calls more : List (Call κ ε)) (st : State κ ε σ τ) :
    s.after (calls ++ more) st = s.after more (s.after calls st) := List.foldl_append

/-- The revision never falls, and as long as it stays the contents do. -/
theorem after_contents (s : Store κ ε σ τ) (calls : List (Call κ ε)) : ∀ st : State κ ε σ τ,
    st.index.revision < (s.after calls st).index.revision ∨
    ((s.after calls st).index.revision = st.index.revision ∧
      (s.after calls st).index.containers = st.index.containers ∧
      (s.after calls st).index.owners = st.index.owners) := by
  induction calls with
  | nil =>
      intro st
      exact .inr ⟨rfl, rfl, rfl⟩
  | cons c rest ih =>
      intro st
      change st.index.revision < (s.after rest (s.answer c st).2).index.revision ∨ _ ∧ _ ∧ _
      have hrest := ih (s.answer c st).2
      rcases s.answer_contents c st with ⟨-, hrevision⟩ | ⟨-, hits, hsame⟩
      · rw [hrevision] at hrest
        refine .inl ?_
        rcases hrest with hlater | ⟨hlater, -⟩ <;> omega
      · rw [hsame] at hrest
        exact hrest

/-! ## Searches -/

/-- The table that answers a search by a function of snapshot and request hangs on the snapshot
alone, not on what is remembered of the containers. -/
theorem search_eq_of_snapshot_eq {s : Store κ ε σ τ} {request : SearchRequest} {id : String}
    {search : Snapshot κ → SearchRequest → Except Breakdown (Hits κ)}
    (hget : s.searches.get? (s.searchId request) = some (.ofFunction id search))
    (settings : Option Settings) {st st' : State κ ε σ τ}
    (hsnapshot : s.takeSnapshot st = s.takeSnapshot st') :
    (s.search request settings st).1 = (s.search request settings st').1 := by
  have hsnapshot' : s.takeSnapshot (st.notify s.observers (.beforeSearch request)) =
      s.takeSnapshot (st'.notify s.observers (.beforeSearch request)) := hsnapshot
  simp only [Store.search, searchWith, hget, searchIn, Algorithm.run, Algorithm.ofFunction,
    hsnapshot']
  cases search (s.takeSnapshot (st'.notify s.observers (.beforeSearch request))) request with
  | error b => rfl
  | ok hits =>
      simp only [Hits.table]
      cases hits.unlessPanic { Table.forRequest request with
        data := hits.items.map (Hits.row request.select) } <;> rfl

theorem contents_eq_of_etag_eq {s : Store κ ε σ τ} {st : State κ ε σ τ} {calls : List (Call κ ε)}
    {i j : Nat} (h : s.etag (s.after (calls.take i) st) = s.etag (s.after (calls.take j) st)) :
    (s.after (calls.take i) st).index.revision = (s.after (calls.take j) st).index.revision ∧
      (s.after (calls.take i) st).index.containers =
        (s.after (calls.take j) st).index.containers ∧
      (s.after (calls.take i) st).index.owners = (s.after (calls.take j) st).index.owners := by
  have hrevision : (s.after (calls.take i) st).index.revision =
      (s.after (calls.take j) st).index.revision := Etag.text_inj h
  rcases Nat.le_total i j with hij | hij
  · obtain ⟨d, rfl⟩ := Nat.exists_eq_add_of_le hij
    rw [List.take_add, after_append] at hrevision ⊢
    rcases s.after_contents ((calls.drop i).take d) (s.after (calls.take i) st) with hlt | heq
    · omega
    · exact ⟨heq.1.symm, heq.2.1.symm, heq.2.2.symm⟩
  · obtain ⟨d, rfl⟩ := Nat.exists_eq_add_of_le hij
    rw [List.take_add, after_append] at hrevision ⊢
    rcases s.after_contents ((calls.drop j).take d) (s.after (calls.take j) st) with hlt | heq
    · omega
    · exact heq

theorem takeSnapshot_eq_of_etag_eq {s : Store κ ε σ τ} {st : State κ ε σ τ}
    {calls : List (Call κ ε)} {t u : Nat}
    (h : s.etag (s.after (calls.take t) st) = s.etag (s.after (calls.take u) st)) :
    s.takeSnapshot (s.after (calls.take t) st) = s.takeSnapshot (s.after (calls.take u) st) := by
  obtain ⟨-, hcontainers, -⟩ := contents_eq_of_etag_eq h
  change Snapshot.mk (s.after (calls.take t) st).index.containers.values
      (s.etag (s.after (calls.take t) st)) =
    Snapshot.mk (s.after (calls.take u) st).index.containers.values
      (s.etag (s.after (calls.take u) st))
  rw [hcontainers, h]

/-- Etags are sound. At every point of a run the etag is the id of the collection, a colon and the
revision in decimal, and is taken apart at its last colon; each call adds one to the revision if it
is accepted and nothing otherwise; and two points with the same etag have the same containers and
owners, hence the same snapshot, and the scan answers a request alike. -/
theorem etag_sound (s : Store κ ε σ τ) (st : State κ ε σ τ) (calls : List (Call κ ε)) :
    (∀ i, s.etag (s.after (calls.take i) st) =
        s.collectionId ++ ":" ++ Decimal.text (s.after (calls.take i) st).index.revision) ∧
    (∀ i, Etag.split (s.etag (s.after (calls.take i) st)) =
        (s.collectionId, Decimal.text (s.after (calls.take i) st).index.revision) ∧
      EntityKey.natOfText? (Decimal.text (s.after (calls.take i) st).index.revision) =
        some (s.after (calls.take i) st).index.revision) ∧
    (∀ i c, calls[i]? = some c →
      (s.after (calls.take (i + 1)) st).index.revision =
        (s.after (calls.take i) st).index.revision +
          if c.isAccepted (s.answer c (s.after (calls.take i) st)).1 then 1 else 0) ∧
    ∀ i j, s.etag (s.after (calls.take i) st) = s.etag (s.after (calls.take j) st) →
      (s.after (calls.take i) st).index.containers =
          (s.after (calls.take j) st).index.containers ∧
        (s.after (calls.take i) st).index.owners = (s.after (calls.take j) st).index.owners ∧
        s.takeSnapshot (s.after (calls.take i) st) = s.takeSnapshot (s.after (calls.take j) st) ∧
        ∀ request settings id,
          s.searches.get? (s.searchId request) = some (Scan.algorithm id) →
          (s.search request settings (s.after (calls.take i) st)).1 =
            (s.search request settings (s.after (calls.take j) st)).1 := by
  refine ⟨fun i => rfl, fun i => ⟨Etag.split_text _ _, Decimal.natOfText?_text _⟩, ?_, ?_⟩
  · intro i c hc
    have htake : calls.take (i + 1) = calls.take i ++ [c] := by
      rw [List.take_add_one, hc]
      rfl
    rw [htake, after_append]
    change (s.answer c (s.after (calls.take i) st)).2.index.revision = _
    rcases s.answer_contents c (s.after (calls.take i) st) with
      ⟨haccepted, hrevision⟩ | ⟨hrefused, hits, hsame⟩
    · rw [hrevision, if_pos haccepted]
    · rw [hsame, if_neg (by rw [hrefused]; exact Bool.false_ne_true)]
      rfl
  · intro i j h
    obtain ⟨-, hcontainers, howners⟩ := contents_eq_of_etag_eq h
    have hsnapshot : s.takeSnapshot (s.after (calls.take i) st) =
        s.takeSnapshot (s.after (calls.take j) st) := by
      change Snapshot.mk (s.after (calls.take i) st).index.containers.values
          (s.etag (s.after (calls.take i) st)) =
        Snapshot.mk (s.after (calls.take j) st).index.containers.values
          (s.etag (s.after (calls.take j) st))
      rw [hcontainers, h]
    refine ⟨hcontainers, howners, hsnapshot, fun request settings id hget => ?_⟩
    exact search_eq_of_snapshot_eq hget settings hsnapshot

/-- A read and a deletion of nothing leave the etag and what a search finds. -/
theorem documents_search_eq :
    (let calls : List (Call String Doc) := [
        .entity (.create { id := "a", properties := [⟨"kind", "book"⟩] } none),
        .entity (.read (.key "a") none),
        .entity (.delete (.key "b") none)]
      let st (i : Nat) := Doc.store.after (calls.take i) (State.start () 0)
      Doc.store.etag (st 1) = Doc.store.etag (st 3) ∧
        (Doc.store.search { select := ["kind"] } none (st 1)).1 =
          (Doc.store.search { select := ["kind"] } none (st 3)).1) := by
  intro calls st
  have hetag : Doc.store.etag (st 1) = Doc.store.etag (st 3) := by decide +kernel
  have h := (etag_sound Doc.store (State.start () 0) calls).2.2.2 1 3 hetag
  exact ⟨hetag, h.2.2.2 { select := ["kind"] } none Scan.defaultId rfl⟩

end Store

end EntityStore
