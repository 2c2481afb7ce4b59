import EntityStore.Decimal.Shortest
import EntityStore.Proofs.Binary64
import Mathlib.Data.Nat.Basic
import Mathlib.Tactic.Ring

/-!
# The shortest decimal of a value

The shortest decimal of a value rounds to it (`shortest_covers`). Some grid has a
point in the interval, for the steps of the finest grid are shorter than half of
any interval, and a point is only taken if it is in the interval.

It is zero for zero alone. The interval of a value that is not zero lies above
zero, so no grid has the number zero for a point in it. What is written for such
a value therefore has a digit other than zero, and the zero that is written for
zero has no exponent.
-/

namespace EntityStore.Decimal

open RoundingInterval

theorem significand_pos {x : Binary64} (h : x.magnitude ≠ 0) : 0 < x.significand := by
  rw [Binary64.significand]
  split
  · exact Nat.pos_of_ne_zero h
  · exact Nat.add_pos_left (by decide) _

theorem low_pos {x : Binary64} (h : x.magnitude ≠ 0) : 0 < (RoundingInterval.of x).low := by
  have hsignificand := significand_pos h
  have hpow : 0 < Nat.pow 2 x.shift := Nat.pow_pos (by decide)
  have hmiddle : 4 * Nat.pow 2 x.shift ≤ 4 * x.units := by
    refine Nat.mul_le_mul_left 4 ?_
    rw [Binary64.units]
    exact Nat.le_mul_of_pos_left _ hsignificand
  simp only [RoundingInterval.of]
  split <;> omega

theorem onGrid_low_pos {r : RoundingInterval} (h : 0 < r.low) (exponent : Int) :
    0 < (r.onGrid exponent).1.low := by
  cases exponent with
  | ofNat e => exact h
  | negSucc e => exact Nat.mul_pos h (Nat.pow_pos (by decide))

theorem holds_zero {r : RoundingInterval} (h : 0 < r.low) : r.holds 0 = false := by
  rw [holds]
  split
  · rw [decide_eq_false (Nat.not_le.2 h), Bool.false_and]
  · rw [decide_eq_false (Nat.not_lt_zero _), Bool.false_and]

/-- No point of a grid in an interval above zero is zero. -/
theorem gridPoint?_significand_pos {r : RoundingInterval} (hlow : 0 < r.low) {exponent : Int}
    {s : Scaled} (h : r.gridPoint? exponent = some s) : 0 < s.significand := by
  have hgrid := onGrid_low_pos hlow exponent
  simp only [gridPoint?] at h
  -- only the point below the middle can be zero, and then it is not in the interval
  cases hn : (r.onGrid exponent).1.middle / (r.onGrid exponent).2 with
  | succ n =>
      rw [hn] at h
      split at h
      · split at h
        · obtain rfl := Option.some.inj h
          exact Nat.succ_pos n
        · split at h
          · obtain rfl := Option.some.inj h
            exact Nat.succ_pos _
          · obtain rfl := Option.some.inj h
            exact Nat.add_pos_left (Nat.succ_pos n) _
      · split at h
        · obtain rfl := Option.some.inj h
          exact Nat.succ_pos n
        · split at h
          · obtain rfl := Option.some.inj h
            exact Nat.succ_pos _
          · cases h
  | zero =>
      rw [hn, Nat.zero_mul, holds_zero hgrid] at h
      simp only [Bool.false_and, Bool.false_eq_true, if_false] at h
      split at h
      · obtain rfl := Option.some.inj h
        exact Nat.succ_pos _
      · cases h

/-! ## Rounding -/

theorem holds_cases {r : RoundingInterval} {n : Nat} (h : r.holds n = true) :
    r.low ≤ n ∧ n ≤ r.high ∧ (r.closed = false → r.low ≠ n ∧ n ≠ r.high) := by
  rw [holds] at h
  split at h
  · next hclosed =>
      rw [Bool.and_eq_true, decide_eq_true_eq, decide_eq_true_eq] at h
      refine ⟨h.1, h.2, fun hopen => ?_⟩
      rw [hopen] at hclosed
      cases hclosed
  · rw [Bool.and_eq_true, decide_eq_true_eq, decide_eq_true_eq] at h
    exact ⟨Nat.le_of_lt h.1, Nat.le_of_lt h.2, fun _ => ⟨Nat.ne_of_lt h.1, Nat.ne_of_lt h.2⟩⟩

/-- What is taken from a grid is a point of it in the interval. -/
theorem gridPoint?_holds {r : RoundingInterval} {exponent : Int} {s : Scaled}
    (h : r.gridPoint? exponent = some s) :
    s.exponent = exponent ∧
      (r.onGrid exponent).1.holds (s.significand * (r.onGrid exponent).2) = true := by
  simp only [gridPoint?] at h
  generalize (r.onGrid exponent).1.middle / (r.onGrid exponent).2 = n at h
  split at h
  · next hboth =>
      obtain ⟨hbelow, habove⟩ := Bool.and_eq_true_iff.1 hboth
      split at h
      · obtain rfl := Option.some.inj h
        exact ⟨rfl, hbelow⟩
      · split at h
        · obtain rfl := Option.some.inj h
          exact ⟨rfl, habove⟩
        · obtain rfl := Option.some.inj h
          refine ⟨rfl, ?_⟩
          rcases Nat.mod_two_eq_zero_or_one n with hmod | hmod
          · rw [hmod]
            exact hbelow
          · rw [hmod]
            exact habove
  · split at h
    · next hbelow =>
        obtain rfl := Option.some.inj h
        exact ⟨rfl, hbelow⟩
    · split at h
      · next habove =>
          obtain rfl := Option.some.inj h
          exact ⟨rfl, habove⟩
      · cases h

/-- A unit in quarters. -/
theorem four_mul_one : 4 * Binary64.one = Nat.pow 2 1076 := by
  have h : 1076 = 1074 + 2 := rfl
  unfold Binary64.one
  -- the powers themselves are too large to be computed
  generalize 1076 = m at *
  generalize 1074 = n at *
  rw [h, Nat.pow_eq, Nat.pow_eq, Nat.pow_add]
  omega

/-- An interval beside a grid. So that both are whole, the interval is counted in tenths of the
steps of a fine grid, and a coarse grid in steps of one. -/
theorem onGrid_eq (r : RoundingInterval) (exponent : Int) :
    r.onGrid exponent =
      ({ r with
          low := r.low * 10 ^ (-exponent).toNat
          middle := r.middle * 10 ^ (-exponent).toNat
          high := r.high * 10 ^ (-exponent).toNat },
        4 * Binary64.one * 10 ^ exponent.toNat) := by
  rw [four_mul_one]
  cases exponent with
  | ofNat e =>
      rw [onGrid]
      generalize Nat.pow 2 1076 = unit
      rw [Int.ofNat_eq_natCast, Int.toNat_neg_natCast, Nat.pow_zero, Nat.mul_one, Nat.mul_one,
        Nat.mul_one]
      rfl
  | negSucc e =>
      rw [onGrid]
      generalize Nat.pow 2 1076 = unit
      exact congrArg (Prod.mk _) (Nat.mul_one unit).symm

/-- A point between the ends of an interval is in it. -/
theorem holds_of_between {r : RoundingInterval} {n : Nat} (hlow : r.low < n) (hhigh : n < r.high) :
    r.holds n = true := by
  rw [holds]
  split <;> rw [Bool.and_eq_true, decide_eq_true_eq, decide_eq_true_eq] <;> omega

/-- A grid with no point in an interval has steps no shorter than the interval. -/
theorem high_le_of_gridPoint? {r : RoundingInterval} {exponent : Int} (hlow : r.low < r.middle)
    (hhigh : r.middle < r.high) (h : r.gridPoint? exponent = none) :
    r.high * 10 ^ (-exponent).toNat ≤
      r.low * 10 ^ (-exponent).toNat + 4 * Binary64.one * 10 ^ exponent.toNat := by
  have hscale : 0 < 10 ^ (-exponent).toNat := Nat.pow_pos (by decide)
  have hstep : 0 < 4 * Binary64.one * 10 ^ exponent.toNat :=
    Nat.mul_pos (Nat.mul_pos (by decide) Binary64.one_pos) (Nat.pow_pos (by decide))
  have hbelow := Nat.mul_lt_mul_of_pos_right hlow hscale
  have habove := Nat.mul_lt_mul_of_pos_right hhigh hscale
  simp only [gridPoint?, onGrid_eq] at h
  generalize r.low * 10 ^ (-exponent).toNat = low at *
  generalize r.middle * 10 ^ (-exponent).toNat = middle at *
  generalize r.high * 10 ^ (-exponent).toNat = high at *
  generalize 4 * Binary64.one * 10 ^ exponent.toNat = step at *
  have hdiv := Nat.div_add_mod middle step
  have hmod := Nat.mod_lt middle hstep
  rw [Nat.mul_comm] at hdiv
  generalize middle / step = n at *
  -- the middle lies between two points, neither of which is in the interval
  have hlast : n * step ≤ low := by
    refine Nat.not_lt.1 fun hlt => ?_
    rw [holds_of_between (r := { r with low, middle, high }) hlt (by dsimp only; omega)] at h
    split at h
    · split at h
      · cases h
      · split at h <;> cases h
    · rw [if_pos rfl] at h
      cases h
  have hnext : high ≤ (n + 1) * step := by
    refine Nat.not_lt.1 fun hlt => ?_
    rw [holds_of_between (r := { r with low, middle, high }) (n := (n + 1) * step)
      (by rw [Nat.succ_mul]; dsimp only; omega) hlt] at h
    split at h
    · split at h
      · cases h
      · split at h <;> cases h
    · split at h
      · cases h
      · rw [if_pos rfl] at h
        cases h
  rw [Nat.succ_mul] at hnext
  omega

/-- A grid finer than a quarter of a unit has a point in the interval. -/
theorem exists_gridPoint? {r : RoundingInterval} {e : Nat}
    (hstep : 4 * Binary64.one < Nat.pow 10 (e + 1)) (hlow : r.low < r.middle)
    (hhigh : r.middle < r.high) : ∃ s, r.gridPoint? (.negSucc e) = some s := by
  refine Option.ne_none_iff_exists'.1 fun hnone => ?_
  have hle : r.high * Nat.pow 10 (e + 1) ≤ r.low * Nat.pow 10 (e + 1) + 4 * Binary64.one * 1 :=
    high_le_of_gridPoint? hlow hhigh hnone
  have hmul := Nat.mul_le_mul_right (Nat.pow 10 (e + 1)) (Nat.lt_trans hlow hhigh)
  rw [Nat.succ_mul] at hmul
  omega

/-- The fraction that a decimal is. -/
def Scaled.numerator (s : Scaled) : Nat := s.significand * 10 ^ s.exponent.toNat

/-- What the fraction of a decimal is divided by. -/
def Scaled.denominator (s : Scaled) : Nat := 10 ^ (-s.exponent).toNat

/-- What is taken from a grid is in the interval. -/
theorem gridPoint?_covers {x : Binary64} {exponent : Int} {s : Scaled}
    (h : (RoundingInterval.of x).gridPoint? exponent = some s) :
    x.Covers s.numerator s.denominator := by
  obtain ⟨rfl, hholds⟩ := gridPoint?_holds h
  rw [onGrid_eq] at hholds
  obtain ⟨hlow, hhigh, hopen⟩ := holds_cases hholds
  have hpoint : s.significand * (4 * Binary64.one * 10 ^ s.exponent.toNat) =
      4 * (s.numerator * Binary64.one) := by
    rw [Scaled.numerator]
    ring
  simp only [hpoint] at hlow hhigh hopen
  refine ⟨hlow, hhigh, fun hodd => hopen ?_⟩
  change (x.significand % 2 == 0) = false
  rw [hodd]
  rfl

/-- The interval of a value other than zero in steps of its level: three at least, and no more
above zero than a significand has values. -/
theorem of_ends {x : Binary64} (h : x.magnitude ≠ 0) :
    (RoundingInterval.of x).low < (RoundingInterval.of x).middle ∧
      (RoundingInterval.of x).middle < (RoundingInterval.of x).high ∧
      (RoundingInterval.of x).low + 3 * 2 ^ x.shift ≤ (RoundingInterval.of x).high ∧
      (RoundingInterval.of x).high ≤ 8 * Binary64.leadingBit * 2 ^ x.shift := by
  have hpow : 0 < 2 ^ x.shift := Nat.pow_pos (by decide)
  have hleast : 1 * 2 ^ x.shift ≤ x.significand * 2 ^ x.shift :=
    Nat.mul_le_mul_right _ (significand_pos h)
  have hmost : (x.significand + 1) * 2 ^ x.shift ≤ 2 * Binary64.leadingBit * 2 ^ x.shift :=
    Nat.mul_le_mul_right _ x.significand_lt
  rw [Nat.succ_mul] at hmost
  simp only [RoundingInterval.of, Binary64.units, Nat.pow_eq]
  generalize x.significand * 2 ^ x.shift = middle at *
  rw [show 8 * Binary64.leadingBit = 4 * (2 * Binary64.leadingBit) from rfl, Nat.mul_assoc 4]
  generalize 2 * Binary64.leadingBit * 2 ^ x.shift = most at *
  generalize 2 ^ x.shift = step at *
  split <;> omega

/-- Some grid has a point in the interval, and the first that has one gives the shortest decimal. -/
theorem findSome?_eq_shortest {x : Binary64} (h : x.magnitude ≠ 0) :
    gridExponents.findSome? (RoundingInterval.of x).gridPoint? = some (shortest x) := by
  obtain ⟨hlow, hhigh, -⟩ := of_ends h
  obtain ⟨s, hfinest⟩ := exists_gridPoint? (e := 323)
    (by rw [four_mul_one]; decide +kernel) hlow hhigh
  obtain ⟨s', hs'⟩ : ∃ s', gridExponents.findSome? (RoundingInterval.of x).gridPoint? =
      some s' := by
    refine Option.isSome_iff_exists.1 (List.findSome?_isSome_iff.2 ⟨.negSucc 323, ?_, ?_⟩)
    · exact List.mem_map.2 ⟨633, List.mem_range.2 (by decide), rfl⟩
    · rw [hfinest]
      rfl
  rw [shortest, if_neg h, hs', Option.getD_some]

/-- The shortest decimal of a value rounds to it. -/
theorem shortest_covers (x : Binary64) :
    x.Covers (shortest x).numerator (shortest x).denominator := by
  by_cases hzero : x.magnitude = 0
  · have hsignificand : x.significand = 0 := by
      rw [Binary64.significand, hzero]
      rfl
    rw [shortest, if_pos hzero]
    refine ⟨?_, ?_, fun hodd => ?_⟩
    · rw [Binary64.low_mul, hsignificand, Nat.zero_mul, Nat.mul_zero, Nat.zero_sub]
      exact Nat.zero_le _
    · rw [Scaled.numerator, Nat.zero_mul, Nat.zero_mul]
      exact Nat.zero_le _
    · rw [hsignificand] at hodd
      cases hodd
  · obtain ⟨exponent, -, hpoint⟩ := List.exists_of_findSome?_eq_some (findSome?_eq_shortest hzero)
    exact gridPoint?_covers hpoint

theorem shortest_exponent_eq_zero {x : Binary64} (h : (shortest x).significand = 0) :
    (shortest x).exponent = 0 := by
  by_cases hzero : x.magnitude = 0
  · rw [shortest, if_pos hzero]
  · obtain ⟨exponent, -, hpoint⟩ :=
      List.exists_of_findSome?_eq_some (findSome?_eq_shortest hzero)
    have hpos := gridPoint?_significand_pos (low_pos hzero) hpoint
    exact absurd h (Nat.ne_of_gt hpos)

end EntityStore.Decimal
