import EntityStore.Ranked
import Mathlib.Data.List.Basic

/-!
# Ranks are the usual orders

What comes first by rank comes first in the order that the type is known for:
numbers by size, characters by code point, lists and texts by their first
difference. Ranks are compared where maps list their keys; here they are said
with `<`.
-/

namespace EntityStore.Ranked

theorem nat_lt_iff {a b : Nat} : rank a b = .lt ↔ a < b := by
  have hrank : rank a b = if a < b then .lt else if a = b then .eq else .gt := rfl
  rw [hrank]
  split
  · simp [*]
  · split <;> simp [*]

theorem int_lt_iff {a b : Int} : rank a b = .lt ↔ a < b := by
  have hrank : rank a b = if a < b then .lt else if a = b then .eq else .gt := rfl
  rw [hrank]
  split
  · simp [*]
  · split <;> simp [*]

theorem char_lt_iff {a b : Char} : rank a b = .lt ↔ a < b := nat_lt_iff

/-- Lists rank as they are ordered if their elements do. -/
theorem list_lt_iff {α : Type} [Ranked α] [LT α] (h : ∀ {a b : α}, rank a b = .lt ↔ a < b)
    {as bs : List α} : rank as bs = .lt ↔ as < bs := by
  change rankList as bs = .lt ↔ _
  induction as generalizing bs with
  | nil => cases bs <;> simp [rankList]
  | cons a as ih =>
      cases bs with
      | nil => simp [rankList]
      | cons b bs =>
          rw [rankList, List.cons_lt_cons_iff, ← h, ← rank_eq_iff a b]
          cases rank a b <;> simp [ih]

theorem string_lt_iff {s t : String} : rank s t = .lt ↔ s < t := by
  rw [String.lt_iff]
  exact list_lt_iff char_lt_iff

end EntityStore.Ranked
