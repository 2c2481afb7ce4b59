import EntityStore.Proofs.Decimal.Shortest
import Mathlib.Tactic.Linarith

/-!
# Shortest decimals are short

A shortest decimal stands on the coarsest grid that has a point in the interval
of its value. So the grid that is ten times as coarse has none, and its steps
are no shorter than the interval is long (`high_le_of_gridPoint?`). The interval
is three quarters of a step of the value's level at least, and a value has no
more such steps above zero than there are significands. Together that bounds
the digits: a shortest decimal is less than twenty-seven times a significand,
which takes eighteen digits, and so fits 64 bits (`shortest_significand_le`).

Every value below the largest one is written as a decimal below the largest one
by half a step and more (`shortest_le_limit`). The largest value itself is a case
of its own: what it is written as is known (`shortest_of_largest`).
-/

namespace EntityStore.Decimal

open RoundingInterval

/-! ## The first grid with a point -/

theorem mem_gridExponents {exponent : Int} :
    exponent ∈ gridExponents ↔ -324 ≤ exponent ∧ exponent ≤ 309 := by
  rw [gridExponents, List.mem_map]
  constructor
  · rintro ⟨n, hn, rfl⟩
    have hlt := List.mem_range.1 hn
    omega
  · intro h
    exact ⟨(309 - exponent).toNat, List.mem_range.2 (by omega), by omega⟩

theorem gridExponents_descending : gridExponents.Pairwise (· > ·) := by
  rw [gridExponents, List.pairwise_map]
  exact List.pairwise_lt_range.imp fun h => by omega

/-- No coarser grid has a point in the interval. -/
theorem gridPoint?_coarser {r : RoundingInterval} {s : Scaled}
    (h : gridExponents.findSome? r.gridPoint? = some s) {exponent : Int}
    (hcoarser : s.exponent < exponent) (hcoarsest : exponent ≤ 309) :
    r.gridPoint? exponent = none := by
  obtain ⟨before, taken, after, hsplit, hpoint, hnone⟩ := List.findSome?_eq_some_iff.1 h
  obtain rfl := (gridPoint?_holds hpoint).1
  have hmem : s.exponent ∈ gridExponents := hsplit ▸ List.mem_append_right _ List.mem_cons_self
  have hsome : exponent ∈ gridExponents :=
    mem_gridExponents.2 ⟨by have := mem_gridExponents.1 hmem; omega, hcoarsest⟩
  have hdescending := gridExponents_descending
  rw [hsplit] at hsome hdescending
  refine hnone _ ((List.mem_append.1 hsome).resolve_right fun hlater => ?_)
  have hafter := (List.pairwise_cons.1 (List.pairwise_append.1 hdescending).2.1).1
  rcases List.mem_cons.1 hlater with rfl | hlater
  · exact Int.lt_irrefl _ hcoarser
  · have := hafter _ hlater
    omega

/-! ## Size -/

/-- The magnitude of the largest value. -/
def largest : Nat := Binary64.infinityMagnitude - 1

/-- The largest number that rounds to a value below the largest one. -/
def limit : Nat := (4 * Binary64.leadingBit - 3) * Nat.pow 2 970

theorem limit_eq : 4 * (limit * Binary64.one) = (8 * Binary64.leadingBit - 6) * Nat.pow 2 2045 := by
  decide +kernel

theorem high_le {x : Binary64} (h : x.magnitude < largest) :
    (RoundingInterval.of x).high ≤ 4 * (limit * Binary64.one) := by
  have hhigh : (RoundingInterval.of x).high = (4 * x.significand + 2) * 2 ^ x.shift := by
    simp only [RoundingInterval.of, Binary64.units, Nat.pow_eq]
    ring
  have hsignificand := x.significand_lt
  have hmagnitude := x.magnitude_eq
  have hshift : x.shift ≤ 2045 := by
    have hdiv : x.magnitude / Binary64.leadingBit < 2047 :=
      (Nat.div_lt_iff_lt_mul (by decide)).2 (Nat.lt_of_lt_of_le h (by decide))
    rw [Binary64.shift]
    omega
  rw [hhigh, limit_eq]
  rw [largest, Binary64.infinityMagnitude] at h
  -- the power itself is too large to be computed
  generalize hlevel : 2045 = level at *
  rw [Nat.pow_eq]
  rw [Binary64.leadingBit] at *
  rcases Nat.lt_or_eq_of_le hshift with hlt | heq
  · calc (4 * x.significand + 2) * 2 ^ x.shift
        ≤ (8 * 0x10000000000000) * 2 ^ x.shift := Nat.mul_le_mul_right _ (by omega)
      _ ≤ (8 * 0x10000000000000 - 6) * 2 ^ (x.shift + 1) := by
          rw [Nat.pow_succ]
          omega
      _ ≤ (8 * 0x10000000000000 - 6) * 2 ^ level :=
          Nat.mul_le_mul_left _ (Nat.pow_le_pow_right (by decide) hlt)
  · rw [heq] at hmagnitude ⊢
    refine Nat.mul_le_mul_right _ ?_
    omega

theorem shortest_le_limit {x : Binary64} (h : x.magnitude < largest) {e : Nat}
    (hexponent : (shortest x).exponent = e) : (shortest x).significand * 10 ^ e ≤ limit := by
  have hcovers := (shortest_covers x).le_high
  rw [Scaled.numerator, Scaled.denominator, hexponent, Int.toNat_natCast, Int.toNat_neg_natCast,
    Nat.pow_zero, Nat.mul_one] at hcovers
  have hle := Nat.le_trans hcovers (high_le h)
  have hone := Binary64.one_pos
  generalize Binary64.one = one at *
  exact Nat.le_of_mul_le_mul_right (Nat.le_of_mul_le_mul_left hle (by decide)) hone

theorem shortest_of_largest {x : Binary64} (h : x.magnitude = largest) :
    shortest x = ⟨17976931348623157, 292⟩ := by
  have hsigned : ∀ negative,
      shortest (.ofMagnitude negative largest) = ⟨17976931348623157, 292⟩ := by
    decide +kernel
  have hx := hsigned x.negative
  rwa [← h, x.ofMagnitude_magnitude] at hx

theorem magnitude_lt_or_eq_largest {x : Binary64} (hfinite : x.isFinite = true) :
    x.magnitude < largest ∨ x.magnitude = largest := by
  have hlt : x.magnitude < Binary64.infinityMagnitude := of_decide_eq_true hfinite
  rw [largest]
  omega

theorem shortest_exponent_bounds {x : Binary64} (hfinite : x.isFinite = true) :
    -324 ≤ (shortest x).exponent ∧ (shortest x).exponent ≤ 308 := by
  rcases magnitude_lt_or_eq_largest hfinite with hlt | heq
  · by_cases hzero : x.magnitude = 0
    · rw [shortest, if_pos hzero]
      decide
    · obtain ⟨exponent, hmem, hpoint⟩ :=
        List.exists_of_findSome?_eq_some (findSome?_eq_shortest hzero)
      have hpos := gridPoint?_significand_pos (low_pos hzero) hpoint
      obtain rfl := (gridPoint?_holds hpoint).1
      obtain ⟨hfinest, hcoarsest⟩ := mem_gridExponents.1 hmem
      refine ⟨hfinest, Int.not_lt.1 fun hlarge => ?_⟩
      -- a multiple of the coarsest power of ten would be beyond all values
      obtain ⟨e, he⟩ : ∃ e : Nat, e = 309 := ⟨309, rfl⟩
      have hbeyond : limit < 10 ^ e := by
        rw [he]
        decide +kernel
      have hle := shortest_le_limit hlt (e := e) (by omega)
      exact Nat.not_lt.2 (Nat.le_trans (Nat.le_mul_of_pos_left _ hpos) hle) hbeyond
  · rw [shortest_of_largest heq]
    decide

/-! ## Digits -/

/-- The digits of a shortest decimal are fewer than a grid ten times as coarse would allow for, for
that grid has no point in the interval. -/
theorem shortest_significand_le {x : Binary64} (hfinite : x.isFinite = true) :
    (shortest x).significand ≤ 27 * Binary64.leadingBit := by
  by_cases hzero : x.magnitude = 0
  · rw [shortest, if_pos hzero]
    exact Nat.zero_le _
  have hshortest := findSome?_eq_shortest hzero
  have hcoarsest := (shortest_exponent_bounds hfinite).2
  generalize shortest x = s at *
  obtain ⟨hlow, hhigh, hlength, hmost⟩ := of_ends hzero
  have hnone := gridPoint?_coarser hshortest (Int.lt_succ s.exponent) (by omega)
  have hstep := high_le_of_gridPoint? hlow hhigh hnone
  obtain ⟨exponent, -, hpoint⟩ := List.exists_of_findSome?_eq_some hshortest
  have hcovers := (gridPoint?_covers hpoint).le_high
  rw [Scaled.numerator, Scaled.denominator] at hcovers
  have hpowers : 10 ^ (s.exponent + 1).toNat * 10 ^ (-s.exponent).toNat =
      10 * (10 ^ s.exponent.toNat * 10 ^ (-(s.exponent + 1)).toNat) := by
    rw [← Nat.pow_add, ← Nat.pow_add, ← Nat.pow_succ']
    exact congrArg _ (by omega)
  have hunit : 0 < 4 * Binary64.one * (10 ^ s.exponent.toNat * 10 ^ (-(s.exponent + 1)).toNat) :=
    Nat.mul_pos (Nat.mul_pos (by decide) Binary64.one_pos)
      (Nat.mul_pos (Nat.pow_pos (by decide)) (Nat.pow_pos (by decide)))
  have hlong := Nat.mul_le_mul_right (10 ^ (-(s.exponent + 1)).toNat) hlength
  rw [Nat.add_mul] at hlong
  generalize 10 ^ (s.exponent + 1).toNat = coarse at *
  generalize 10 ^ (-(s.exponent + 1)).toNat = coarseScale at *
  generalize 10 ^ s.exponent.toNat = fine at *
  generalize 10 ^ (-s.exponent).toNat = fineScale at *
  generalize (RoundingInterval.of x).high = high at *
  generalize (RoundingInterval.of x).low * coarseScale = low at *
  generalize 2 ^ x.shift = step at *
  generalize Binary64.one = one at *
  have hthree : 3 * s.significand ≤ 80 * Binary64.leadingBit := by
    refine Nat.le_of_mul_le_mul_right ?_ hunit
    calc 3 * s.significand * (4 * one * (fine * coarseScale))
        = 3 * coarseScale * (4 * (s.significand * fine * one)) := by ring
      _ ≤ 3 * coarseScale * (8 * Binary64.leadingBit * step * fineScale) :=
          Nat.mul_le_mul_left _ (Nat.le_trans hcovers (Nat.mul_le_mul_right _ hmost))
      _ = 8 * Binary64.leadingBit * fineScale * (3 * step * coarseScale) := by ring
      _ ≤ 8 * Binary64.leadingBit * fineScale * (4 * one * coarse) :=
          Nat.mul_le_mul_left _ (by omega)
      _ = 8 * Binary64.leadingBit * (4 * one) * (coarse * fineScale) := by ring
      _ = 80 * Binary64.leadingBit * (4 * one * (fine * coarseScale)) := by rw [hpowers]; ring
  omega

end EntityStore.Decimal
