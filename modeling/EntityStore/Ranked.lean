/-!
# Ranked values

Keys, references and search ids are listed in one order wherever an answer
shows several of them, and two of them are the same exactly when neither comes
first. `Ranked` is that order as a class with its laws, so a map that lists its
keys in order can be reasoned about for every key type at once.

Numbers rank by size, pairs and lists by their first difference, and text by
code point. Text ranked by code point is text ranked by its UTF-8 bytes.
-/

namespace EntityStore

/-- A type whose values stand in one total order, in which only equal values tie. -/
class Ranked (α : Type) where
  rank : α → α → Ordering
  /-- Only equal values tie. -/
  rank_eq_iff : ∀ a b, rank a b = .eq ↔ a = b
  /-- Seen from the other side the answer is turned round. -/
  rank_swap : ∀ a b, (rank a b).swap = rank b a
  /-- What comes before an earlier value comes before. -/
  rank_lt_trans : ∀ a b c, rank a b = .lt → rank b c = .lt → rank a c = .lt

export Ranked (rank)

namespace Ranked

variable {α β : Type}

@[simp] theorem rank_self [Ranked α] (a : α) : rank a a = .eq :=
  (rank_eq_iff a a).2 rfl

theorem rank_gt_iff [Ranked α] (a b : α) : rank a b = .gt ↔ rank b a = .lt := by
  rw [← rank_swap b a]
  cases rank b a <;> simp

/-- A value never comes before itself. -/
theorem ne_of_rank_lt [Ranked α] {a b : α} (h : rank a b = .lt) : a ≠ b := by
  rintro rfl
  simp at h

/-- The order of another type, read through a function that keeps values apart. -/
@[reducible] def comap [Ranked β] (f : α → β) (injective : ∀ a b, f a = f b → a = b) :
    Ranked α where
  rank a b := rank (f a) (f b)
  rank_eq_iff a b := by
    rw [rank_eq_iff]
    exact ⟨injective a b, fun h => h ▸ rfl⟩
  rank_swap a b := rank_swap (f a) (f b)
  rank_lt_trans a b c := rank_lt_trans (f a) (f b) (f c)

instance : Ranked Nat where
  rank a b := if a < b then .lt else if a = b then .eq else .gt
  rank_eq_iff a b := by
    split
    · simp; omega
    · split <;> simp [*]
  rank_swap a b := by
    rcases Nat.lt_trichotomy a b with h | h | h
    · have := Nat.lt_asymm h
      simp [h, this, Nat.ne_of_gt h]
    · subst h
      simp
    · have := Nat.lt_asymm h
      simp [h, this, Nat.ne_of_gt h]
  rank_lt_trans a b c := by
    have lt_iff : ∀ a b : Nat,
        (if a < b then Ordering.lt else if a = b then .eq else .gt) = .lt ↔ a < b := by
      intro a b
      split
      · simp [*]
      · split <;> simp [*]
    rw [lt_iff, lt_iff, lt_iff]
    exact Nat.lt_trans

instance : Ranked Int where
  rank a b := if a < b then .lt else if a = b then .eq else .gt
  rank_eq_iff a b := by
    split
    · simp; omega
    · split <;> simp [*]
  rank_swap a b := by
    rcases Int.lt_trichotomy a b with h | h | h
    · have h₁ : ¬ b < a := by omega
      have h₂ : ¬ b = a := by omega
      simp [h, h₁, h₂]
    · subst h
      simp
    · have h₁ : ¬ a < b := by omega
      have h₂ : ¬ a = b := by omega
      simp [h, h₁, h₂]
  rank_lt_trans a b c := by
    have lt_iff : ∀ a b : Int,
        (if a < b then Ordering.lt else if a = b then .eq else .gt) = .lt ↔ a < b := by
      intro a b
      split
      · simp [*]
      · split <;> simp [*]
    rw [lt_iff, lt_iff, lt_iff]
    exact Int.lt_trans

/-- Lists rank by their first difference; a list comes before its extensions. -/
def rankList [Ranked α] : List α → List α → Ordering
  | [], [] => .eq
  | [], _ :: _ => .lt
  | _ :: _, [] => .gt
  | a :: as, b :: bs =>
    match rank a b with
    | .lt => .lt
    | .eq => rankList as bs
    | .gt => .gt

theorem rankList_eq_iff [Ranked α] (as bs : List α) : rankList as bs = .eq ↔ as = bs := by
  induction as generalizing bs with
  | nil => cases bs <;> simp [rankList]
  | cons a as ih =>
    cases bs with
    | nil => simp [rankList]
    | cons b bs =>
      have hab := rank_eq_iff a b
      rw [rankList]
      cases h : rank a b <;> simp_all

theorem rankList_swap [Ranked α] (as bs : List α) : (rankList as bs).swap = rankList bs as := by
  induction as generalizing bs with
  | nil => cases bs <;> simp [rankList]
  | cons a as ih =>
    cases bs with
    | nil => simp [rankList]
    | cons b bs =>
      rw [rankList, rankList, ← rank_swap a b]
      cases h : rank a b <;> simp_all

theorem rankList_lt_trans [Ranked α] (as bs cs : List α) (h₁ : rankList as bs = .lt)
    (h₂ : rankList bs cs = .lt) : rankList as cs = .lt := by
  induction as generalizing bs cs with
  | nil =>
    cases cs with
    | nil => cases bs <;> simp [rankList] at h₂
    | cons => simp [rankList]
  | cons a as ih =>
    cases bs with
    | nil => simp [rankList] at h₁
    | cons b bs =>
      cases cs with
      | nil => simp [rankList] at h₂
      | cons c cs =>
        rw [rankList] at h₁ h₂ ⊢
        cases hab : rank a b with
        | gt => simp [hab] at h₁
        | lt =>
          cases hbc : rank b c with
          | gt => simp [hbc] at h₂
          | lt => simp [rank_lt_trans a b c hab hbc]
          | eq =>
            obtain rfl := (rank_eq_iff b c).1 hbc
            simp [hab]
        | eq =>
          obtain rfl := (rank_eq_iff a b).1 hab
          cases hac : rank a c with
          | gt => simp [hac] at h₂
          | lt => simp
          | eq =>
            simp only [hab, hac] at h₁ h₂ ⊢
            exact ih bs cs h₁ h₂

instance [Ranked α] : Ranked (List α) where
  rank := rankList
  rank_eq_iff := rankList_eq_iff
  rank_swap := rankList_swap
  rank_lt_trans := rankList_lt_trans

instance [Ranked α] [Ranked β] : Ranked (α × β) where
  rank p q :=
    match rank p.1 q.1 with
    | .lt => .lt
    | .eq => rank p.2 q.2
    | .gt => .gt
  rank_eq_iff p q := by
    have h₁ := rank_eq_iff p.1 q.1
    have h₂ := rank_eq_iff p.2 q.2
    rw [Prod.ext_iff]
    cases h : rank p.1 q.1 <;> simp_all
  rank_swap p q := by
    rw [← rank_swap p.1 q.1]
    cases h : rank p.1 q.1 <;> simp [rank_swap]
  rank_lt_trans p q r h₁ h₂ := by
    cases hpq : rank p.1 q.1 with
    | gt => simp [hpq] at h₁
    | lt =>
      cases hqr : rank q.1 r.1 with
      | gt => simp [hqr] at h₂
      | lt => simp [rank_lt_trans _ _ _ hpq hqr]
      | eq => simp [← (rank_eq_iff _ _).1 hqr, hpq]
    | eq =>
      simp only [hpq] at h₁
      rw [(rank_eq_iff _ _).1 hpq]
      cases hqr : rank q.1 r.1 with
      | gt => simp [hqr] at h₂
      | lt => simp
      | eq =>
        simp only [hqr] at h₂ ⊢
        exact rank_lt_trans _ _ _ h₁ h₂

/-- Pairs rank by their first difference. -/
theorem rank_pair [Ranked α] [Ranked β] (p q : α × β) :
    rank p q = (rank p.1 q.1).then (rank p.2 q.2) := by
  rw [rank, instProd]
  dsimp only
  cases rank p.1 q.1 <;> rfl

instance : Ranked Char :=
  comap Char.toNat fun _ _ h => Char.ext (UInt32.toNat_inj.1 h)

instance : Ranked String :=
  comap String.toList fun _ _ h => String.toList_inj.1 h

end Ranked

end EntityStore
