import EntityStore.Proofs.Interleaving.Basic
import EntityStore.Proofs.Parts

/-!
# Contents without handles

Handles are given out in the order in which containers are made, so two runs
that store the same things may give them different ones. A container without its
handle is bare, and so is whatever is made of bare containers. Taking the handle
away keeps all parts, so a visit to the gate does not tell an index from its bare
one.
-/

namespace EntityStore

variable {κ ε σ τ : Type}

/-! ## What is made of containers -/

/-- A container without its handle. -/
def Container.bare (c : Container κ) : Container κ := { c with handle := 0 }

theorem Container.bare_keepsParts : KeepsParts (bare : Container κ → Container κ) := fun _ => rfl

theorem Container.parts_eq_of_bare {c c' : Container κ} (h : c.bare = c'.bare) :
    c.toContainerParts = c'.toContainerParts ∧ c.id = c'.id ∧ c.blob = c'.blob := by
  obtain ⟨hparts, -, hid, hblob⟩ := Container.mk.inj h
  exact ⟨hparts, hid, hblob⟩

/-- The containers of a moment without their handles. -/
def Snapshot.bare (s : Snapshot κ) : Snapshot κ := ⟨s.containers.map Container.bare, s.etag⟩

/-- Hits without their handles. -/
def Hits.bare (h : Hits κ) : Hits κ := { h with items := h.items.map Container.bare }

/-- A candidate without the handle of its container. -/
def Candidate.bare (c : Candidate κ ε) : Candidate κ ε := { c with container := c.container.bare }

/-- A pending update without the handle of its container. -/
def PendingUpdate.bare (p : PendingUpdate κ ε) : PendingUpdate κ ε :=
  { p with toCandidate := p.toCandidate.bare }

/-- An index without the handles of its containers. -/
def Index.bare [Ranked κ] (ix : Index κ) : Index κ :=
  { ix with containers := ix.containers.map Container.bare }

/-- What is left of a call, without handles. -/
def Stage.bare : Stage κ ε σ → Stage κ ε σ
  | .enter c settings => .enter c.bare settings
  | .commit p settings => .commit p.bare settings
  | .search wanted a snapshot request settings => .search wanted a snapshot.bare request settings
  | stage => stage

/-- What a step leads to, without handles. -/
def Progress.bare : Progress κ ε σ → Progress κ ε σ
  | .done a => .done a
  | .next stage => .next stage.bare

theorem Progress.bare_eq_done_iff {p : Progress κ ε σ} {a : Answer κ ε} :
    p.bare = .done a ↔ p = .done a := by
  cases p with
  | done a' => exact Iff.rfl
  | next stage => exact ⟨fun h => (by cases h), fun h => (by cases h)⟩

theorem Progress.bare_eq_next {p : Progress κ ε σ} {stage : Stage κ ε σ}
    (h : p.bare = .next stage) : ∃ stage', p = .next stage' ∧ stage'.bare = stage := by
  cases p with
  | done a => cases h
  | next stage' => exact ⟨stage', rfl, Progress.next.inj h⟩

end EntityStore
