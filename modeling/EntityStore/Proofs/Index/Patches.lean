import EntityStore.Proofs.Index.Exact

/-!
# What an accepted write does to an index

An addition, a replacement and a removal by key differ in what they check. Once
it is accepted each does the same thing, a `Patch`: under one key one container
gives up its references and another takes its place, or none does. Whether a
write is accepted, and with which patch, hangs on what stands under its key and
on who owns the references that it names, and on nothing else
(`Write.patch?_congr`).

A patch is described by the look-ups after it. Under its own key they read what
it put there; under every other key, and at every reference that neither of its
containers lists, they read what they read before. Since maps that answer every
look-up alike are the same map, this is all that later arguments need: that
patches of one key can undo each other, and that patches of two keys commute.
-/

namespace EntityStore.Index

variable {κ : Type} [Ranked κ] {ix : Index κ}

/-- A change under one key: the references of one container are given up, and another container, or
none, takes the place. -/
structure Patch (κ : Type) where
  key : κ
  old : Option (Container κ)
  new : Option (Container κ)

namespace Patch

variable {p q : Patch κ}

def references (p : Patch κ) : List Reference :=
  (p.old.toList ++ p.new.toList).flatMap fun c => c.references

def settle (p : Patch κ) (owners : SortedMap Reference κ) : SortedMap Reference κ :=
  let released := p.old.elim owners (releasedBy owners)
  p.new.elim released (ownedBy released)

def apply (p : Patch κ) (ix : Index κ) : Index κ where
  containers := ix.containers.put p.key p.new
  owners := p.settle ix.owners
  hits := ⟨ix.hits.counts.put p.key (p.new.map fun _ => 0)⟩
  revision := ix.revision + 1

end Patch

/-! ## Owners at one reference

Both loops over the references of a container treat each reference by itself:
what they leave at it hangs on what they found at it. -/

omit [Ranked κ] in
theorem find?_ownedBy_congr {owners owners' : SortedMap Reference κ} {c : Container κ}
    {r : Reference} (h : owners.find? r = owners'.find? r) :
    (ownedBy owners c).find? r = (ownedBy owners' c).find? r := by
  ext k
  rw [find?_ownedBy, find?_ownedBy, h]

theorem find?_releasedBy_congr {owners owners' : SortedMap Reference κ} {c : Container κ}
    {r : Reference} (h : owners.find? r = owners'.find? r) :
    (releasedBy owners c).find? r = (releasedBy owners' c).find? r := by
  ext k
  rw [find?_releasedBy, find?_releasedBy, h]

omit [Ranked κ] in
theorem find?_ownedBy_of_mem {owners : SortedMap Reference κ} {c : Container κ} {r : Reference}
    (h : r ∈ c.references) : (ownedBy owners c).find? r = some c.key := by
  rw [find?_ownedBy]
  exact .inl ⟨h, rfl⟩

omit [Ranked κ] in
theorem find?_ownedBy_of_notMem {owners : SortedMap Reference κ} {c : Container κ} {r : Reference}
    (h : r ∉ c.references) : (ownedBy owners c).find? r = owners.find? r := by
  ext k
  simp [find?_ownedBy, h]

theorem find?_releasedBy_of_notMem {owners : SortedMap Reference κ} {c : Container κ}
    {r : Reference} (h : r ∉ c.references) : (releasedBy owners c).find? r = owners.find? r := by
  ext k
  simp [find?_releasedBy, h]

theorem find?_releasedBy_of_owned {owners : SortedMap Reference κ} {c : Container κ}
    {r : Reference} (h : r ∈ c.references) (howned : owners.find? r = some c.key) :
    (releasedBy owners c).find? r = none := by
  rw [Option.eq_none_iff_forall_ne_some]
  intro k hk
  rw [find?_releasedBy, howned] at hk
  exact hk.2 ⟨h, (Option.some.inj hk.1).symm⟩

theorem anyOwned_none_eq_false_iff {rs : List Reference} :
    ix.anyOwned rs none = false ↔ ∀ r ∈ rs, ix.owners.find? r = none := by
  simp [anyOwned_eq_false_iff, Option.eq_none_iff_forall_ne_some]

theorem anyOwned_congr {ix ix' : Index κ} {rs : List Reference} {besides : Option κ}
    (h : ∀ r ∈ rs, ix'.owners.find? r = ix.owners.find? r) :
    ix'.anyOwned rs besides = ix.anyOwned rs besides := by
  rw [Bool.eq_iff_iff, anyOwned_iff, anyOwned_iff]
  refine exists_congr fun r => and_congr_right fun hr => ?_
  rw [h r hr]

namespace Patch

variable {p q : Patch κ}

theorem find?_settle_congr {owners owners' : SortedMap Reference κ} {r : Reference}
    (h : owners.find? r = owners'.find? r) :
    (p.settle owners).find? r = (p.settle owners').find? r := by
  have hreleased : (p.old.elim owners (releasedBy owners)).find? r =
      (p.old.elim owners' (releasedBy owners')).find? r := by
    cases p.old with
    | none => exact h
    | some c => exact find?_releasedBy_congr h
  rw [settle, settle]
  cases p.new with
  | none => exact hreleased
  | some c => exact find?_ownedBy_congr hreleased

theorem find?_settle_of_notMem {owners : SortedMap Reference κ} {r : Reference}
    (h : r ∉ p.references) : (p.settle owners).find? r = owners.find? r := by
  simp only [references, List.mem_flatMap, List.mem_append, Option.mem_toList, not_exists,
    not_and] at h
  have hreleased : (p.old.elim owners (releasedBy owners)).find? r = owners.find? r := by
    cases hold : p.old with
    | none => rfl
    | some c => exact find?_releasedBy_of_notMem (h c (.inl hold))
  rw [settle, ← hreleased]
  cases hnew : p.new with
  | none => rfl
  | some c => exact find?_ownedBy_of_notMem (h c (.inr hnew))

/-! ## Look-ups after a patch -/

@[simp] theorem get?_apply_self : (p.apply ix).get? p.key = p.new :=
  SortedMap.find?_put_self _ _ _

theorem get?_apply_of_ne {k : κ} (h : k ≠ p.key) : (p.apply ix).get? k = ix.get? k :=
  SortedMap.find?_put_of_ne _ _ h

@[simp] theorem readHits_apply_self : (p.apply ix).readHits p.key = p.new.map fun _ => 0 :=
  SortedMap.find?_put_self _ _ _

theorem readHits_apply_of_ne {k : κ} (h : k ≠ p.key) :
    (p.apply ix).readHits k = ix.readHits k :=
  SortedMap.find?_put_of_ne _ _ h

theorem settle_comm (h : ∀ r ∈ p.references, r ∉ q.references)
    (owners : SortedMap Reference κ) : p.settle (q.settle owners) = q.settle (p.settle owners) := by
  refine SortedMap.ext_find? fun r => ?_
  by_cases hp : r ∈ p.references
  · -- `q` does not see the reference, so it may as well come first
    rw [find?_settle_of_notMem (p := q) (h r hp)]
    exact find?_settle_congr (find?_settle_of_notMem (h r hp))
  · rw [find?_settle_of_notMem hp]
    exact (find?_settle_congr (find?_settle_of_notMem hp)).symm

theorem apply_comm (hkey : p.key ≠ q.key) (hrefs : ∀ r ∈ p.references, r ∉ q.references)
    (ix : Index κ) : p.apply (q.apply ix) = q.apply (p.apply ix) := by
  have hcontainers := ix.containers.put_comm q.new p.new hkey.symm
  have hcounts := ix.hits.counts.put_comm (q.new.map fun _ => 0) (p.new.map fun _ => 0) hkey.symm
  have howners := settle_comm hrefs ix.owners
  simp only [apply, hcontainers, hcounts, howners]

end Patch

/-! ## Writes and their patches -/

/-- A write to an index that is aimed at one key. -/
inductive Write (κ : Type) where
  | add (c : Container κ)
  | replace (old new : Container κ)
  | delete (k : κ)

namespace Write

variable {w : Write κ} {p : Patch κ}

def key : Write κ → κ
  | .add c => c.key
  | .replace old _ => old.key
  | .delete k => k

def named : Write κ → List (Container κ)
  | .add c => [c]
  | .replace old new => [old, new]
  | .delete _ => []

/-- The references that a write can have to do with: those of the containers that it names and of
the one that it finds under its key. -/
def references (w : Write κ) (ix : Index κ) : List Reference :=
  (w.named ++ (ix.get? w.key).toList).flatMap fun c => c.references

/-- The patch of a write, if it is accepted. -/
def patch? (w : Write κ) (ix : Index κ) : Option (Patch κ) :=
  match w with
  | .add c =>
    if ix.containsKey c.key || ix.anyOwned c.references none then none
    else some ⟨c.key, none, some c⟩
  | .replace old new =>
    if sameKey new.key old.key && (ix.get? old.key).any (·.handle == old.handle) &&
        !ix.anyOwned new.references (some old.key) then
      some ⟨new.key, some old, some new⟩
    else none
  | .delete k => (ix.get? k).map fun c => ⟨k, some c, none⟩

theorem add_eq (ix : Index κ) (c : Container κ) :
    ix.add c = (((add c).patch? ix).isSome, ((add c).patch? ix).elim ix (·.apply ix)) := by
  rw [Index.add, patch?]
  cases ix.containsKey c.key
  · cases ix.anyOwned c.references none <;> rfl
  · rfl

theorem replace_eq (ix : Index κ) (old new : Container κ) :
    ix.replace old new = (((replace old new).patch? ix).isSome,
      ((replace old new).patch? ix).elim ix (·.apply ix)) := by
  rw [Index.replace, patch?]
  cases sameKey new.key old.key
  · rfl
  · cases (ix.get? old.key).any (·.handle == old.handle)
    · rfl
    · cases ix.anyOwned new.references (some old.key) <;> rfl

theorem delete_eq (ix : Index κ) (k : κ) :
    ix.delete k = (((delete k).patch? ix).bind (·.old),
      ((delete k).patch? ix).elim ix (·.apply ix)) := by
  rw [Index.delete, patch?]
  cases ix.get? k <;> rfl

theorem patch?_add_eq_some_iff {c : Container κ} :
    (add c).patch? ix = some p ↔ ix.get? c.key = none ∧
      (∀ r ∈ c.references, ix.owners.find? r = none) ∧ p = ⟨c.key, none, some c⟩ := by
  have hkey : ix.containsKey c.key = false ↔ ix.get? c.key = none :=
    SortedMap.contains_eq_false_iff
  rw [patch?, ← hkey, ← anyOwned_none_eq_false_iff]
  cases ix.containsKey c.key <;> cases ix.anyOwned c.references none <;> simp [eq_comm]

theorem patch?_replace_eq_some_iff {old new : Container κ} :
    (replace old new).patch? ix = some p ↔ new.key = old.key ∧
      (∃ c, ix.get? old.key = some c ∧ c.handle = old.handle) ∧
      ix.anyOwned new.references (some old.key) = false ∧ p = ⟨new.key, some old, some new⟩ := by
  have hkey : sameKey new.key old.key = true ↔ new.key = old.key := sameKey_iff
  have hfound : (ix.get? old.key).any (·.handle == old.handle) = true ↔
      ∃ c, ix.get? old.key = some c ∧ c.handle = old.handle := by
    rw [Option.any_eq_true]
    simp
  rw [patch?, ← hkey, ← hfound]
  cases sameKey new.key old.key <;> cases (ix.get? old.key).any (·.handle == old.handle) <;>
    cases ix.anyOwned new.references (some old.key) <;> simp [eq_comm]

theorem patch?_delete_eq_some_iff {k : κ} :
    (delete k).patch? ix = some p ↔ ∃ c, ix.get? k = some c ∧ p = ⟨k, some c, none⟩ := by
  rw [patch?, Option.map_eq_some_iff]
  simp only [eq_comm]

/-- The patch of a write is one of its key, and touches no reference that does not concern it. -/
theorem patch?_within (h : w.patch? ix = some p) :
    p.key = w.key ∧ ∀ r ∈ p.references, r ∈ w.references ix := by
  have hcontainers : p.key = w.key ∧
      p.old.toList ++ p.new.toList ⊆ w.named ++ (ix.get? w.key).toList := by
    cases w with
    | add c =>
        obtain ⟨-, -, rfl⟩ := patch?_add_eq_some_iff.1 h
        exact ⟨rfl, by simp [named]⟩
    | replace old new =>
        obtain ⟨hkey, -, -, rfl⟩ := patch?_replace_eq_some_iff.1 h
        exact ⟨hkey, by simp [named]⟩
    | delete k =>
        obtain ⟨c, hc, rfl⟩ := patch?_delete_eq_some_iff.1 h
        exact ⟨rfl, by simp [named, key, hc]⟩
  refine ⟨hcontainers.1, fun r hr => ?_⟩
  obtain ⟨c, hc, hr⟩ := List.mem_flatMap.1 hr
  exact List.mem_flatMap.2 ⟨c, hcontainers.2 hc, hr⟩

/-- Whether a write is accepted, and what it does then, hangs on what it finds under its key and on
who owns the references that concern it. -/
theorem patch?_congr {ix' : Index κ} (hget : ix'.get? w.key = ix.get? w.key)
    (howner : ∀ r ∈ w.references ix, ix'.owners.find? r = ix.owners.find? r) :
    w.patch? ix' = w.patch? ix := by
  have hnamed : ∀ c ∈ w.named, ∀ besides,
      ix'.anyOwned c.references besides = ix.anyOwned c.references besides := by
    intro c hc besides
    refine anyOwned_congr fun r hr => howner r ?_
    exact List.mem_flatMap.2 ⟨c, List.mem_append_left _ hc, hr⟩
  cases w with
  | add c =>
      have hkey : ix'.containsKey c.key = ix.containsKey c.key := congrArg Option.isSome hget
      simp only [patch?, hkey, hnamed c (by simp [named])]
  | replace old new =>
      have hold : ix'.get? old.key = ix.get? old.key := hget
      simp only [patch?, hold, hnamed new (by simp [named])]
  | delete k =>
      have hold : ix'.get? k = ix.get? k := hget
      rw [patch?, patch?, hold]

end Write

end EntityStore.Index
