import EntityStore.Proofs.Index.Patches

/-!
# Independent writes commute

Two writes are independent if they are aimed at two keys and no reference that
concerns one of them concerns the other. A write concerns the references of the
containers that it names and of the one that it finds under its key, whether or
not it is accepted.

There are nine pairs of writes, each accepted or refused, but only one argument.
The patch of one write touches neither the key of the other nor any reference
that concerns it, so the other finds what it would have found without it and
gets the same patch or none (`Independent.patch?_perform`); and two patches that
have nothing in common commute.

Nothing is asked of the index: the argument does not go by way of exactness.
Independence is asked for where the neighbours meet, in the index that the
writes before them lead to, because what a write finds under its key is part of
it. So a reordering is a relation from an index on (`Reordered`).
-/

namespace EntityStore.Index

variable {κ : Type} [Ranked κ] {ix : Index κ}

namespace Write

/-- What a write answers: whether it stored its container, or which one it removed. -/
inductive Answer (κ : Type) where
  | stored (accepted : Bool)
  | removed (c : Option (Container κ))

def perform (w : Write κ) (ix : Index κ) : Answer κ × Index κ :=
  match w with
  | .add c => (ix.add c).map .stored id
  | .replace old new => (ix.replace old new).map .stored id
  | .delete k => (ix.delete k).map .removed id

/-- What a write answers that has a patch, or is refused. -/
def answer (w : Write κ) (p : Option (Patch κ)) : Answer κ :=
  match w with
  | .add _ => .stored p.isSome
  | .replace _ _ => .stored p.isSome
  | .delete _ => .removed (p.bind (·.old))

theorem perform_eq (w : Write κ) (ix : Index κ) :
    w.perform ix = (w.answer (w.patch? ix), (w.patch? ix).elim ix (·.apply ix)) := by
  cases w with
  | add c => rw [perform, add_eq]; rfl
  | replace old new => rw [perform, replace_eq]; rfl
  | delete k => rw [perform, delete_eq]; rfl

end Write

/-- Two writes are aimed at two keys, and no reference concerns both. -/
structure Independent (ix : Index κ) (a b : Write κ) : Prop where
  key_ne : a.key ≠ b.key
  disjoint : ∀ r ∈ a.references ix, r ∉ b.references ix

namespace Independent

variable {a b : Write κ}

theorem symm (h : Independent ix a b) : Independent ix b a :=
  ⟨h.key_ne.symm, fun r hb ha => h.disjoint r ha hb⟩

/-- A write finds after an independent one what it would have found before. -/
theorem patch?_perform (h : Independent ix a b) : a.patch? (b.perform ix).2 = a.patch? ix := by
  rw [Write.perform_eq]
  cases hb : b.patch? ix with
  | none => rfl
  | some q =>
      obtain ⟨hkey, hrefs⟩ := Write.patch?_within hb
      refine Write.patch?_congr ?_ fun r hr => ?_
      · exact Patch.get?_apply_of_ne (hkey ▸ h.key_ne)
      · exact Patch.find?_settle_of_notMem fun hq => h.disjoint r hr (hrefs r hq)

theorem answer_eq (h : Independent ix a b) :
    (a.perform (b.perform ix).2).1 = (a.perform ix).1 := by
  rw [a.perform_eq, a.perform_eq, h.patch?_perform]

theorem perform_comm (h : Independent ix a b) :
    (b.perform (a.perform ix).2).2 = (a.perform (b.perform ix).2).2 := by
  have ha := h.patch?_perform
  have hb := h.symm.patch?_perform
  rw [b.perform_eq, hb, a.perform_eq, a.perform_eq (b.perform ix).2, ha, b.perform_eq]
  -- a refused write has no patch, and then there is nothing to be moved past the other one
  cases hp : a.patch? ix with
  | none => rfl
  | some p =>
      cases hq : b.patch? ix with
      | none => rfl
      | some q =>
          obtain ⟨hpkey, hprefs⟩ := Write.patch?_within hp
          obtain ⟨hqkey, hqrefs⟩ := Write.patch?_within hq
          refine (Patch.apply_comm ?_ (fun r hr hr' => ?_) ix).symm
          · rw [hpkey, hqkey]
            exact h.key_ne
          · exact h.disjoint r (hprefs r hr) (hqrefs r hr')

end Independent

/-! ## Sequences of writes -/

def after (ix : Index κ) (ws : List (Write κ)) : Index κ :=
  ws.foldl (fun ix w => (w.perform ix).2) ix

/-- Writes with their answers, in the order in which they are performed. -/
def history (ix : Index κ) : List (Write κ) → List (Write κ × Write.Answer κ)
  | [] => []
  | w :: ws => (w, (w.perform ix).1) :: history (w.perform ix).2 ws

/-- One sequence of writes comes from another by swaps of neighbours that are independent where they
meet. -/
inductive Reordered : Index κ → List (Write κ) → List (Write κ) → Prop where
  | refl (ix : Index κ) (ws : List (Write κ)) : Reordered ix ws ws
  | swap {ix : Index κ} {a b : Write κ} (h : Independent ix a b) (ws : List (Write κ)) :
      Reordered ix (a :: b :: ws) (b :: a :: ws)
  | cons {ix : Index κ} (w : Write κ) {ws ws' : List (Write κ)}
      (h : Reordered (w.perform ix).2 ws ws') : Reordered ix (w :: ws) (w :: ws')
  | trans {ix : Index κ} {ws ws' ws'' : List (Write κ)} (h : Reordered ix ws ws')
      (h' : Reordered ix ws' ws'') : Reordered ix ws ws''

namespace Reordered

variable {ws ws' : List (Write κ)}

theorem after_eq (h : Reordered ix ws ws') : ix.after ws = ix.after ws' := by
  induction h with
  | refl => rfl
  | swap h ws => exact congrArg (after · ws) h.perform_comm
  | cons w _ ih => exact ih
  | trans _ _ ih ih' => exact ih.trans ih'

theorem history_swap {a b : Write κ} (h : Independent ix a b) (ws : List (Write κ)) :
    ∃ x y rest, x.1 = a ∧ y.1 = b ∧
      ix.history (a :: b :: ws) = x :: y :: rest ∧ ix.history (b :: a :: ws) = y :: x :: rest := by
  refine ⟨(a, (a.perform ix).1), (b, (b.perform ix).1),
    ((b.perform (a.perform ix).2).2).history ws, rfl, rfl, ?_, ?_⟩
  · simp only [history, h.symm.answer_eq]
  · simp only [history, h.answer_eq, h.perform_comm]

theorem history_perm (h : Reordered ix ws ws') : (ix.history ws).Perm (ix.history ws') := by
  induction h with
  | refl => exact .refl _
  | swap h ws =>
      obtain ⟨x, y, rest, -, -, hab, hba⟩ := history_swap h ws
      rw [hab, hba]
      exact .swap y x rest
  | cons w _ ih => exact ih.cons _
  | trans _ _ ih ih' => exact ih.trans ih'

/-- Writes that are aimed at one key keep their order. -/
theorem history_filter (h : Reordered ix ws ws') (k : κ) :
    (ix.history ws).filter (fun x => sameKey x.1.key k) =
      (ix.history ws').filter fun x => sameKey x.1.key k := by
  induction h with
  | refl => rfl
  | @swap ix a b h ws =>
      obtain ⟨x, y, rest, rfl, rfl, hab, hba⟩ := history_swap h ws
      rw [hab, hba]
      -- only one of the two that are swapped can be aimed at the key
      by_cases hx : sameKey x.1.key k = true
      · have hy : ¬ sameKey y.1.key k = true := by
          intro hy
          exact h.key_ne ((sameKey_iff.1 hx).trans (sameKey_iff.1 hy).symm)
        simp [hx, hy]
      · simp [List.filter_cons, hx]
  | cons w _ ih => rw [history, history, List.filter_cons, List.filter_cons, ih]
  | trans _ _ ih ih' => exact ih.trans ih'

end Reordered

/-- Independent writes commute. In whichever order they are performed each gives the same answer,
accepted or refused, and the index is the same in the end: the containers and with them every
snapshot, the owners, the hits and the revision. So whoever swaps independent neighbours in a
sequence of writes, any number of times, gets the same index and the same answer to each write, and
the writes of one key keep their order. -/
theorem independent_writes_commute :
    (∀ {ix : Index κ} {a b : Write κ}, Independent ix a b →
      (a.perform (b.perform ix).2).1 = (a.perform ix).1 ∧
      (b.perform (a.perform ix).2).1 = (b.perform ix).1 ∧
      (b.perform (a.perform ix).2).2 = (a.perform (b.perform ix).2).2) ∧
    ∀ {ix : Index κ} {ws ws' : List (Write κ)}, Reordered ix ws ws' →
      ix.after ws = ix.after ws' ∧ (ix.history ws).Perm (ix.history ws') ∧
      ∀ k, (ix.history ws).filter (fun x => sameKey x.1.key k) =
        (ix.history ws').filter fun x => sameKey x.1.key k := by
  constructor
  · intro ix a b h
    exact ⟨h.answer_eq, h.symm.answer_eq, h.perform_comm⟩
  · intro ix ws ws' h
    exact ⟨h.after_eq, h.history_perm, h.history_filter⟩

/-- Three writes to an index with two containers. The first replaces a container whose references it
repeats, the second removes the other one, and the third takes the reference that is free then, so
it keeps behind the second. -/
theorem relisting_commutes :
    let book (key : UInt32) (isbn : List String) (handle : Handle) : Container UInt32 :=
      { key, references := isbn.map (⟨"isbn", ·⟩), handle, id := "", blob := [] }
    let ix := empty.after [.add (book 1 ["a", "a"] 1), .add (book 2 ["b"] 2)]
    let relist := .replace (book 1 ["a", "a"] 1) (book 1 ["a", "c"] 3)
    let add := .add (book 3 ["b"] 4)
    (Write.perform relist ((Write.delete 2).perform ix).2).1 = .stored true ∧
      ix.after [relist, .delete 2, add] = ix.after [.delete 2, add, relist] := by
  intro book ix relist add
  have hdelete : Independent ix relist (.delete 2) := ⟨by decide, by decide⟩
  have hadd : Independent ((Write.delete 2).perform ix).2 relist add := ⟨by decide, by decide⟩
  have haccepted : (ix.replace (book 1 ["a", "a"] 1) (book 1 ["a", "c"] 3)).1 = true := by decide
  obtain ⟨hanswer, -⟩ := independent_writes_commute.1 hdelete
  have hreordered : Reordered ix [relist, .delete 2, add] [.delete 2, add, relist] :=
    (Reordered.swap hdelete [add]).trans (.cons _ (.swap hadd []))
  exact ⟨hanswer.trans (congrArg Write.Answer.stored haccepted),
    (independent_writes_commute.2 hreordered).1⟩

end EntityStore.Index
