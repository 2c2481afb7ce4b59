import EntityStore.Search.Scan

/-!
# Properties compare as one order would

A sort compares in a sequence of its own and builds on what it was answered, so
what it is handed has to answer as one order would, whatever it is asked: a
value ties with itself, the answer turns round with the question, and what
comes before stays before (`TotalPreorder`). Values that tie need not be the
same, as with `1.5` and `1.50`.

Every property has a place, and places are ranked. A comparison that is read off
places inherits all of this from the ranking, and keeps it when it is turned
round, so neither the mixing of numbers and texts nor the question which texts
are numbers comes into the argument.
-/

namespace EntityStore

/-- A comparison that answers as one order would, in which values may tie. -/
structure TotalPreorder {α : Type} (compare : α → α → Ordering) : Prop where
  self_eq : ∀ a, compare a a = .eq
  swap_eq : ∀ a b, compare b a = (compare a b).swap
  trans : ∀ {a b c}, compare a b ≠ .gt → compare b c ≠ .gt → compare a c ≠ .gt

namespace TotalPreorder

variable {α β : Type} {compare : α → α → Ordering}

theorem eq_comm (h : TotalPreorder compare) {a b : α} :
    compare a b = .eq ↔ compare b a = .eq := by
  rw [h.swap_eq a b]
  cases compare a b <;> simp

theorem gt_iff_lt (h : TotalPreorder compare) {a b : α} :
    compare a b = .gt ↔ compare b a = .lt := by
  rw [h.swap_eq a b]
  cases compare a b <;> simp

theorem total (h : TotalPreorder compare) (a b : α) : compare a b ≠ .gt ∨ compare b a ≠ .gt := by
  rw [h.swap_eq a b]
  cases compare a b <;> simp

/-- What ties with a value stands on the same side of every other one. -/
theorem congr_left (h : TotalPreorder compare) {a b : α} (hab : compare a b = .eq) (c : α) :
    compare a c = compare b c := by
  have hba : compare b a = .eq := h.eq_comm.1 hab
  have hle : compare a c ≠ .gt ↔ compare b c ≠ .gt :=
    ⟨h.trans (by simp [hba]), h.trans (by simp [hab])⟩
  have hge : compare c a ≠ .gt ↔ compare c b ≠ .gt :=
    ⟨fun hca => h.trans hca (by simp [hab]), fun hcb => h.trans hcb (by simp [hba])⟩
  rw [h.swap_eq a c, h.swap_eq b c] at hge
  revert hle hge
  cases compare a c <;> cases compare b c <;> simp

theorem congr_right (h : TotalPreorder compare) {a b : α} (hab : compare a b = .eq) (c : α) :
    compare c a = compare c b := by
  rw [h.swap_eq a c, h.swap_eq b c, h.congr_left hab c]

theorem equivalence (h : TotalPreorder compare) : Equivalence fun a b => compare a b = .eq where
  refl := h.self_eq
  symm := h.eq_comm.1
  trans {a b c} hab hbc := by rw [h.congr_left hab c, hbc]

theorem lt_of_lt_of_ne_gt (h : TotalPreorder compare) {a b c : α} (hab : compare a b = .lt)
    (hbc : compare b c ≠ .gt) : compare a c = .lt := by
  have hac : compare a c ≠ .gt := h.trans (by simp [hab]) hbc
  cases hac' : compare a c with
  | lt => rfl
  | gt => exact absurd hac' hac
  | eq => exact absurd (h.gt_iff_lt.2 (h.congr_left hac' b ▸ hab)) hbc

/-- The comparison of what a function makes of values. -/
theorem comap (h : TotalPreorder compare) (f : β → α) :
    TotalPreorder fun a b => compare (f a) (f b) where
  self_eq a := h.self_eq (f a)
  swap_eq a b := h.swap_eq (f a) (f b)
  trans hab hbc := h.trans hab hbc

/-- The comparison the other way round. -/
theorem reversed (h : TotalPreorder compare) : TotalPreorder fun a b => (compare a b).swap where
  self_eq a := by rw [h.self_eq a]; rfl
  swap_eq a b := by rw [h.swap_eq a b]
  trans {a b c} hab hbc := by
    rw [← h.swap_eq] at hab hbc ⊢
    exact h.trans hbc hab

end TotalPreorder

theorem Ranked.totalPreorder {α : Type} [Ranked α] :
    TotalPreorder (rank : α → α → Ordering) where
  self_eq := rank_self
  swap_eq a b := (rank_swap a b).symm
  trans {a b c} hab hbc := by
    cases hab' : rank a b with
    | gt => exact absurd hab' hab
    | eq =>
        obtain rfl := (rank_eq_iff a b).1 hab'
        exact hbc
    | lt =>
        cases hbc' : rank b c with
        | gt => exact absurd hbc' hbc
        | eq =>
            obtain rfl := (rank_eq_iff b c).1 hbc'
            exact hab
        | lt => simp [rank_lt_trans a b c hab' hbc']

/-- Negative patterns come before the others, the larger magnitude of two negative ones first. -/
theorem Binary64.rank_eq_lt_iff (x y : Binary64) :
    rank x y = .lt ↔ if x.negative then ¬ y.negative ∨ y.magnitude < x.magnitude
      else ¬ y.negative ∧ x.magnitude < y.magnitude := by
  have hplace : rank x y = .lt ↔ x.place < y.place := by
    change (if x.place < y.place then Ordering.lt else if x.place = y.place then .eq else .gt) =
      .lt ↔ _
    split
    · simp [*]
    · split <;> simp [*]
  rw [hplace, place, place]
  cases x.negative <;> cases y.negative <;> simp
  all_goals omega

example : [Binary64.notANumber true, .infinity true, .zero true, .zero false, .infinity false,
    .notANumber false].Pairwise (rank · · = .lt) := by decide

theorem SortKey.rank_number (x y : Binary64) : rank (number x) (number y) = rank x y := by
  have hplaces : rank (number x) (number y) = rank (number x).coordinates (number y).coordinates :=
    rfl
  rw [hplaces, Ranked.rank_pair, Ranked.rank_pair]
  change Ordering.eq.then ((rank x y).then .eq) = rank x y
  cases rank x y <;> rfl

/-! ## The comparison that the scan sorts by -/

/-- An answer as it is given when the last comes first, if a direction asks for that. -/
def Direction.turn : Direction → Ordering → Ordering
  | .ascending, answer => answer
  | .descending, answer => answer.swap

theorem TotalPreorder.turn {α : Type} {compare : α → α → Ordering} (h : TotalPreorder compare)
    (direction : Direction) : TotalPreorder fun a b => direction.turn (compare a b) := by
  cases direction with
  | ascending => exact h
  | descending => exact h.reversed

/-- How two containers compare when a request orders by a property. -/
def OrderBy.compare {κ : Type} (order : OrderBy) (a b : Container κ) : Ordering :=
  order.direction.turn
    (compareProperty Decimal.numeral? (a.property order.field) (b.property order.field))

theorem Scan.inOrder_eq {κ : Type} (order : OrderBy) (a b : Container κ) :
    inOrder order a b = (order.compare a b != .gt) := by
  have hswap := (Ranked.totalPreorder.comap (SortKey.of Decimal.numeral?)).swap_eq
    (a.property order.field) (b.property order.field)
  rw [inOrder, OrderBy.compare]
  cases order.direction with
  | ascending => rfl
  | descending => exact congrArg (· != Ordering.gt) hswap

theorem compareProperty_isTotal (numeral? : String → Option Binary64) :
    TotalPreorder (compareProperty numeral?) := Ranked.totalPreorder.comap (SortKey.of numeral?)

theorem OrderBy.compare_isTotal {κ : Type} (order : OrderBy) :
    TotalPreorder (order.compare : Container κ → Container κ → Ordering) :=
  ((compareProperty_isTotal Decimal.numeral?).turn order.direction).comap
    (Container.property · order.field)

/-- Properties compare as one order would, whichever texts are numbers and whatever their values
are: what is missing first, then numbers by sign and magnitude of their patterns, then other texts
by code point. Properties that tie compare alike with everything. So do the containers that the
scan sorts, in either direction. -/
theorem compareProperty_totalPreorder (numeral? : String → Option Binary64) :
    TotalPreorder (compareProperty numeral?) ∧
    (Equivalence fun a b => compareProperty numeral? a b = .eq) ∧
    (∀ a b, compareProperty numeral? a b = .eq → ∀ c,
      compareProperty numeral? a c = compareProperty numeral? b c ∧
        compareProperty numeral? c a = compareProperty numeral? c b) ∧
    (∀ s, compareProperty numeral? none (some s) = .lt) ∧
    (∀ s x t, numeral? s = some x → numeral? t = none →
      compareProperty numeral? (some s) (some t) = .lt) ∧
    (∀ s x t y, numeral? s = some x → numeral? t = some y →
      compareProperty numeral? (some s) (some t) = rank x y ∧
        (rank x y = .lt ↔ if x.negative then ¬ y.negative ∨ y.magnitude < x.magnitude
          else ¬ y.negative ∧ x.magnitude < y.magnitude)) ∧
    (∀ s t, numeral? s = none → numeral? t = none →
      compareProperty numeral? (some s) (some t) = rank s t) ∧
    (∀ direction : Direction,
      TotalPreorder fun a b => direction.turn (compareProperty numeral? a b)) ∧
    ∀ (κ : Type) (order : OrderBy),
      TotalPreorder (order.compare : Container κ → Container κ → Ordering) ∧
        ∀ a b : Container κ, Scan.inOrder order a b = true ↔ order.compare a b ≠ .gt := by
  have h := compareProperty_isTotal numeral?
  refine ⟨h, h.equivalence, fun a b hab c => ⟨h.congr_left hab c, h.congr_right hab c⟩,
    fun s => ?_, fun s x t hs ht => ?_, fun s x t y hs ht => ⟨?_, x.rank_eq_lt_iff y⟩,
    fun s t hs ht => ?_, h.turn, fun κ order => ⟨order.compare_isTotal, fun a b => ?_⟩⟩
  · rw [compareProperty, SortKey.of, SortKey.of]
    cases numeral? s <;> rfl
  · rw [compareProperty, SortKey.of, SortKey.of, hs, ht]
    rfl
  · rw [compareProperty, SortKey.of, SortKey.of, hs, ht]
    exact SortKey.rank_number x y
  · rw [compareProperty, SortKey.of, SortKey.of, hs, ht]
    rfl
  · rw [Scan.inOrder_eq, bne_iff_ne]

/-- Nine comes before ten and ten before `1a`, so nine comes before `1a`, which it would not as a
text. -/
theorem nine_before_text :
    let compare := compareProperty Decimal.numeral?
    compare (some "9") (some "10") ≠ .gt ∧ compare (some "10") (some "1a") ≠ .gt ∧
      compare (some "9") (some "1a") ≠ .gt ∧
      compare (some "1.5") (some "1.50") = .eq ∧
      compare (some "1.5") (some "-NaN") = compare (some "1.50") (some "-NaN") ∧
      compare none (some "-NaN") = .lt ∧ compare (some "NaN") (some "abc") = .lt := by
  intro compare
  obtain ⟨h, -, hties, habsent, htext, -⟩ := compareProperty_totalPreorder Decimal.numeral?
  have hten : compare (some "9") (some "10") ≠ .gt := by decide +kernel
  have htext' : compare (some "10") (some "1a") ≠ .gt := by decide +kernel
  have htie : compare (some "1.5") (some "1.50") = .eq := by decide +kernel
  exact ⟨hten, htext', h.trans hten htext', htie, (hties _ _ htie _).1, habsent _,
    htext "NaN" (Binary64.notANumber false) "abc" (by decide +kernel) (by decide +kernel)⟩

end EntityStore
