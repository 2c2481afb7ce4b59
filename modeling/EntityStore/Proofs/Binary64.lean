import EntityStore.Decimal.Shortest
import Mathlib.Order.MinMax
import Mathlib.Tactic.Ring

/-!
# Rounding to binary values

The interval of a finite value is what rounds to it (`nearestMagnitude_eq`). A
fraction is rounded at a level, the power of two that the significand of the
result is counted in. On all but one value the level of the fraction is that of
the value. The exception is a power of two, for below it the values lie twice as
close: what is rounded up to it from there is rounded one level lower, and its
significand runs over into the next power of two.

Of two fractions the larger one is never rounded to less (`nearestMagnitude_le`),
so if a product of natural numbers is finite, then so are those of smaller ones.

Natural numbers of at most 53 bits, times powers of two, are values themselves
(`ofNat_exact`), and so are the powers of ten up to the twenty-second.
-/

namespace EntityStore.Binary64

open Decimal (RoundingInterval)

/-! ## Patterns -/

theorem toNat_bits_ofMagnitude (negative : Bool) {m : Nat} (h : m < signBit) :
    (ofMagnitude negative m).bits.toNat = m + if negative then signBit else 0 := by
  have hlt : m + (if negative then signBit else 0) < UInt64.size := by
    rw [show UInt64.size = 0x10000000000000000 from rfl]
    rw [signBit] at h ⊢
    split <;> omega
  rw [ofMagnitude, Nat.toUInt64, UInt64.toNat_ofNat_of_lt' hlt]

theorem magnitude_ofMagnitude (negative : Bool) {m : Nat} (h : m < signBit) :
    (ofMagnitude negative m).magnitude = m := by
  rw [magnitude, toNat_bits_ofMagnitude negative h]
  split
  · rw [Nat.add_mod_right, Nat.mod_eq_of_lt h]
  · exact Nat.mod_eq_of_lt h

theorem negative_ofMagnitude (negative : Bool) {m : Nat} (h : m < signBit) :
    (ofMagnitude negative m).negative = negative := by
  rw [Binary64.negative, toNat_bits_ofMagnitude negative h]
  cases negative with
  | true => exact decide_eq_true (Nat.le_add_left _ _)
  | false => exact decide_eq_false (Nat.not_le.2 h)

/-- A value is its sign and its magnitude. -/
theorem ofMagnitude_magnitude (x : Binary64) : ofMagnitude x.negative x.magnitude = x := by
  have hbits : x.bits.toNat < 0x10000000000000000 := x.bits.toNat_lt
  have hsum : x.magnitude + (if x.negative then signBit else 0) = x.bits.toNat := by
    rw [magnitude]
    split
    · next h =>
        rw [negative_iff] at h
        rw [signBit] at h ⊢
        omega
    · next h =>
        rw [negative_iff] at h
        rw [signBit] at h ⊢
        omega
  rw [ofMagnitude, hsum]
  exact congrArg mk UInt64.ofNat_toNat

theorem significand_lt (x : Binary64) : x.significand < 2 * leadingBit := by
  have hmod : x.magnitude % leadingBit < leadingBit := Nat.mod_lt _ (by decide)
  rw [significand]
  split <;> omega

/-- Below the second power of two values are counted in units; from there on the significand has
its leading bit. -/
theorem leadingBit_le_significand {x : Binary64} (h : x.shift ≠ 0) :
    leadingBit ≤ x.significand := by
  rw [significand, if_neg]
  · exact Nat.le_add_right _ _
  · intro hlt
    rw [shift, Nat.div_eq_of_lt hlt] at h
    exact h rfl

/-- A magnitude counts the significands of all levels up to its own. -/
theorem magnitude_eq (x : Binary64) : x.magnitude = x.shift * leadingBit + x.significand := by
  have hdiv := Nat.div_add_mod x.magnitude leadingBit
  rw [shift, significand]
  split
  · next hlt => rw [Nat.div_eq_of_lt hlt, Nat.zero_sub, Nat.zero_mul, Nat.zero_add]
  · next hge =>
      have hpos : 0 < x.magnitude / leadingBit :=
        Nat.div_pos (Nat.not_lt.1 hge) (by decide)
      obtain ⟨q, hq⟩ := Nat.exists_eq_add_of_lt hpos
      rw [hq, Nat.zero_add, leadingBit] at hdiv ⊢
      omega

theorem parts_of_magnitude {x : Binary64} {t n : Nat} (h : x.magnitude = t * leadingBit + n)
    (hlow : leadingBit ≤ n) (hhigh : n < 2 * leadingBit) : x.shift = t ∧ x.significand = n := by
  obtain ⟨r, rfl⟩ := Nat.exists_eq_add_of_le hlow
  have hr : r < leadingBit := by omega
  have hsum : x.magnitude = r + (t + 1) * leadingBit := by rw [h, Nat.add_mul]; omega
  have hdiv : x.magnitude / leadingBit = t + 1 := by
    rw [hsum, Nat.add_mul_div_right _ _ (by decide), Nat.div_eq_of_lt hr, Nat.zero_add]
  have hmod : x.magnitude % leadingBit = r := by
    rw [hsum, Nat.add_mul_mod_self_right, Nat.mod_eq_of_lt hr]
  refine ⟨by rw [shift, hdiv, Nat.add_sub_cancel], ?_⟩
  rw [significand, if_neg, hmod]
  rw [hsum, Nat.add_mul]
  omega

/-! ## Rounding at a level -/

/-- A fraction rounds to the number that it is within a half of, and half way to an even one. -/
theorem roundHalfEven_eq {n d k : Nat} (hlow : 2 * (k * d) ≤ 2 * n + d)
    (hhigh : 2 * n ≤ 2 * (k * d) + d)
    (htie : k % 2 = 1 → 2 * (k * d) ≠ 2 * n + d ∧ 2 * n ≠ 2 * (k * d) + d) (hd : 0 < d) :
    roundHalfEven n d = k := by
  have hdiv : d * (n / d) + n % d = n := Nat.div_add_mod n d
  have hmod : n % d < d := Nat.mod_lt n hd
  rw [Nat.mul_comm] at hdiv
  simp only [roundHalfEven]
  generalize n / d = q at *
  generalize n % d = r at *
  rcases Nat.lt_trichotomy q k with hlt | rfl | hgt
  · have hstep : k = q + 1 := by
      by_contra hne
      have hle : (q + 2) * d ≤ k * d := Nat.mul_le_mul_right d (by omega)
      rw [Nat.add_mul] at hle
      omega
    subst hstep
    rw [Nat.add_mul] at hlow hhigh htie
    split
    · omega
    · split <;> omega
  · split
    · rfl
    · split <;> omega
  · have hle : (k + 1) * d ≤ q * d := Nat.mul_le_mul_right d hgt
    rw [Nat.add_mul] at hle
    omega

theorem roundHalfEven_mul (k : Nat) {d : Nat} (hd : 0 < d) : roundHalfEven (k * d) d = k :=
  roundHalfEven_eq (by omega) (by omega) (fun _ => by omega) hd

/-- Rounding adds one to the quotient at most. -/
theorem roundHalfEven_bounds (n d : Nat) :
    n / d ≤ roundHalfEven n d ∧ roundHalfEven n d ≤ n / d + 1 := by
  simp only [roundHalfEven]
  split
  · omega
  · split <;> omega

/-- A fraction is rounded at the level of its leading bit, or at the lowest. -/
theorem nearestMagnitude_at {n d t : Nat} (hd : 0 < d)
    (hlow : t = 0 ∨ leadingBit * 2 ^ t * d ≤ n * one)
    (hhigh : n * one < 2 * leadingBit * 2 ^ t * d) :
    nearestMagnitude n d =
      min (t * leadingBit + roundHalfEven (n * one) (d * 2 ^ t)) infinityMagnitude := by
  have hwhole : n * one / d < 2 * leadingBit * 2 ^ t := (Nat.div_lt_iff_lt_mul hd).2 hhigh
  simp only [nearestMagnitude]
  generalize hscaled : n * one = scaled at *
  rcases Nat.eq_zero_or_pos t with rfl | hpos
  · rw [Nat.pow_zero, Nat.mul_one] at hwhole
    have hround : roundHalfEven scaled d ≤ infinityMagnitude := by
      have hle := (roundHalfEven_bounds scaled d).2
      have : 2 * leadingBit ≤ infinityMagnitude := by decide
      omega
    rw [if_pos hwhole, Nat.zero_mul, Nat.zero_add, Nat.pow_zero, Nat.mul_one,
      Nat.min_eq_left hround]
  · have hge : leadingBit * 2 ^ t ≤ scaled / d :=
      (Nat.le_div_iff_mul_le hd).2 (hlow.resolve_left (Nat.ne_of_gt hpos))
    have hpow : 2 ≤ 2 ^ t := by
      calc 2 = 2 ^ 1 := rfl
        _ ≤ 2 ^ t := Nat.pow_le_pow_right (by decide) hpos
    have hbig : 2 * leadingBit ≤ scaled / d := by
      calc 2 * leadingBit = leadingBit * 2 := Nat.mul_comm _ _
        _ ≤ leadingBit * 2 ^ t := Nat.mul_le_mul_left _ hpow
        _ ≤ scaled / d := hge
    have hlog : (scaled / d).log2 = 52 + t := by
      have hpos : 0 < leadingBit := by decide
      refine (Nat.log2_eq_iff (by omega)).2 ⟨?_, ?_⟩
      · rw [Nat.pow_add]
        exact hge
      · rw [Nat.add_right_comm, Nat.pow_add]
        exact hwhole
    rw [if_neg (Nat.not_lt.2 hbig), hlog, Nat.add_sub_cancel_left]
    rfl

/-! ## The interval of a value -/

/-- Whether a fraction is in the interval of a value: one that the value is nearest to, of two
equally near the one with the even significand. -/
structure Covers (x : Binary64) (n d : Nat) : Prop where
  low_le : (RoundingInterval.of x).low * d ≤ 4 * (n * one)
  le_high : 4 * (n * one) ≤ (RoundingInterval.of x).high * d
  between : x.significand % 2 = 1 →
    (RoundingInterval.of x).low * d ≠ 4 * (n * one) ∧
      4 * (n * one) ≠ (RoundingInterval.of x).high * d

/-- Equal fractions are covered alike. -/
theorem Covers.congr {x : Binary64} {n d n' d' : Nat} (h : x.Covers n d) (hd : 0 < d)
    (hd' : 0 < d') (heq : n * d' = n' * d) : x.Covers n' d' := by
  have hside : ∀ a, a * d' * d = a * d * d' := fun a => Nat.mul_right_comm a d' d
  have hvalue : 4 * (n' * one) * d = 4 * (n * one) * d' := by
    calc 4 * (n' * one) * d = 4 * one * (n' * d) := by ring
      _ = 4 * one * (n * d') := by rw [heq]
      _ = 4 * (n * one) * d' := by ring
  refine ⟨?_, ?_, fun hodd => ⟨fun hsame => ?_, fun hsame => ?_⟩⟩
  · refine Nat.le_of_mul_le_mul_right ?_ hd
    rw [hside, hvalue]
    exact Nat.mul_le_mul_right d' h.low_le
  · refine Nat.le_of_mul_le_mul_right ?_ hd
    rw [hside, hvalue]
    exact Nat.mul_le_mul_right d' h.le_high
  · refine (h.between hodd).1 (Nat.eq_of_mul_eq_mul_right hd' ?_)
    rw [← hside, ← hvalue, hsame]
  · refine (h.between hodd).2 (Nat.eq_of_mul_eq_mul_right hd' ?_)
    rw [← hside, ← hvalue, hsame]

theorem middle_mul (x : Binary64) (d : Nat) :
    4 * x.units * d = 4 * (x.significand * (2 ^ x.shift * d)) := by
  rw [units, Nat.mul_assoc, Nat.mul_assoc]
  rfl

theorem low_mul (x : Binary64) (d : Nat) :
    (RoundingInterval.of x).low * d = 4 * (x.significand * (2 ^ x.shift * d)) -
      if x.significand = leadingBit ∧ 0 < x.shift then 2 ^ x.shift * d
      else 2 * (2 ^ x.shift * d) := by
  simp only [RoundingInterval.of]
  rw [Nat.sub_mul, middle_mul]
  split
  · rfl
  · rw [Nat.mul_assoc]
    rfl

theorem high_mul (x : Binary64) (d : Nat) :
    (RoundingInterval.of x).high * d =
      4 * (x.significand * (2 ^ x.shift * d)) + 2 * (2 ^ x.shift * d) := by
  simp only [RoundingInterval.of]
  rw [Nat.add_mul, middle_mul, Nat.mul_assoc 2]
  rfl

section

variable {x : Binary64} {n d : Nat}

/-- At the level of the value a fraction that it covers rounds to its significand. -/
theorem Covers.roundHalfEven_significand (h : x.Covers n d) (hd : 0 < d) :
    roundHalfEven (n * one) (d * 2 ^ x.shift) = x.significand := by
  have hunit : 0 < 2 ^ x.shift * d := Nat.mul_pos (Nat.pow_pos (by decide)) hd
  obtain ⟨hlow, hhigh, hbetween⟩ := h
  rw [low_mul] at hlow hbetween
  rw [high_mul] at hhigh hbetween
  rw [Nat.mul_comm d]
  refine roundHalfEven_eq ?_ ?_ ?_ hunit
  · split at hlow <;> omega
  · omega
  · intro hodd
    have hside : x.significand ≠ leadingBit := by
      intro heq
      rw [heq] at hodd
      exact absurd hodd (by decide)
    have hpositive : 2 ^ x.shift * d ≤ x.significand * (2 ^ x.shift * d) :=
      Nat.le_mul_of_pos_left _ (by omega)
    have hends := hbetween hodd
    rw [if_neg fun hboth => hside hboth.1] at hends
    omega

/-- No fraction that a value covers reaches the next level. -/
theorem Covers.lt_next (h : x.Covers n d) (hd : 0 < d) :
    n * one < 2 * leadingBit * 2 ^ x.shift * d := by
  have hsignificand := x.significand_lt
  have hunit : 0 < 2 ^ x.shift * d := Nat.mul_pos (Nat.pow_pos (by decide)) hd
  have hmost : x.significand * (2 ^ x.shift * d) ≤ (2 * leadingBit - 1) * (2 ^ x.shift * d) :=
    Nat.mul_le_mul_right _ (by omega)
  have hhigh := h.le_high
  rw [high_mul] at hhigh
  rw [leadingBit] at *
  rw [Nat.mul_assoc]
  omega

/-- Only a power of two covers fractions below its level. -/
theorem Covers.significand_eq_of_lt (h : x.Covers n d) (hd : 0 < d) (hpos : 0 < x.shift)
    (hlt : n * one < leadingBit * (2 ^ x.shift * d)) : x.significand = leadingBit := by
  have hunit : 0 < 2 ^ x.shift * d := Nat.mul_pos (Nat.pow_pos (by decide)) hd
  refine Nat.le_antisymm (Nat.not_lt.1 fun hgt => ?_)
    (leadingBit_le_significand (Nat.ne_of_gt hpos))
  have hmore : (leadingBit + 1) * (2 ^ x.shift * d) ≤ x.significand * (2 ^ x.shift * d) :=
    Nat.mul_le_mul_right _ hgt
  have hlow := h.low_le
  rw [low_mul] at hlow
  rw [Nat.add_mul] at hmore
  split at hlow <;> omega

/-- Below a power of two values lie twice as close, and what it covers there is rounded up to it
one level lower. -/
theorem Covers.nearestMagnitude_of_lt (h : x.Covers n d) (hfinite : x.isFinite = true)
    (hd : 0 < d) (hpos : 0 < x.shift) (hlt : n * one < leadingBit * (2 ^ x.shift * d)) :
    nearestMagnitude n d = x.magnitude := by
  have hboundary := h.significand_eq_of_lt hd hpos hlt
  have hlimit : x.magnitude < infinityMagnitude := of_decide_eq_true hfinite
  have hmagnitude := x.magnitude_eq
  have hlow := h.low_le
  obtain ⟨t, ht⟩ := Nat.exists_eq_add_of_lt hpos
  rw [Nat.zero_add] at ht
  have hdouble : 2 ^ x.shift * d = 2 * (2 ^ t * d) := by
    rw [ht, Nat.pow_succ]
    ring
  rw [low_mul, if_pos ⟨hboundary, hpos⟩, hdouble, hboundary] at hlow
  rw [hdouble] at hlt
  have hround : roundHalfEven (n * one) (d * 2 ^ t) = 2 * leadingBit := by
    rw [Nat.mul_comm d]
    rw [leadingBit] at *
    exact roundHalfEven_eq (by omega) (by omega) (fun hodd => by omega)
      (Nat.mul_pos (Nat.pow_pos (by decide)) hd)
  have hcount : x.magnitude = t * leadingBit + 2 * leadingBit := by
    rw [hmagnitude, hboundary, ht, Nat.add_mul]
    omega
  rw [nearestMagnitude_at (t := t) hd, hround, ← hcount, Nat.min_eq_left (Nat.le_of_lt hlimit)]
  · refine .inr ?_
    rw [leadingBit, Nat.mul_assoc] at *
    omega
  · rw [leadingBit, Nat.mul_assoc] at *
    omega

/-- What a value covers is rounded to it. -/
theorem nearestMagnitude_eq (h : x.Covers n d) (hfinite : x.isFinite = true) (hd : 0 < d) :
    nearestMagnitude n d = x.magnitude := by
  by_cases hbelow : 0 < x.shift ∧ n * one < leadingBit * (2 ^ x.shift * d)
  · exact h.nearestMagnitude_of_lt hfinite hd hbelow.1 hbelow.2
  · have hlimit : x.magnitude < infinityMagnitude := of_decide_eq_true hfinite
    have hlevel : x.shift = 0 ∨ leadingBit * 2 ^ x.shift * d ≤ n * one := by
      rw [Nat.mul_assoc]
      omega
    rw [nearestMagnitude_at hd hlevel (h.lt_next hd), h.roundHalfEven_significand hd, ← x.magnitude_eq,
      Nat.min_eq_left (Nat.le_of_lt hlimit)]

end

/-! ## Units -/

theorem one_eq : one = 2 ^ 1074 := by
  unfold one
  generalize 1074 = n
  rfl

theorem one_pos : 0 < one := by
  unfold one
  generalize 1074 = n
  exact Nat.pow_pos (by decide)

/-! ## Rounding keeps the order -/

theorem roundHalfEven_le {n n' : Nat} (h : n ≤ n') (d : Nat) :
    roundHalfEven n d ≤ roundHalfEven n' d := by
  rcases Nat.lt_or_eq_of_le (Nat.div_le_div_right (c := d) h) with hlt | heq
  · calc roundHalfEven n d ≤ n / d + 1 := (roundHalfEven_bounds n d).2
      _ ≤ n' / d := hlt
      _ ≤ roundHalfEven n' d := (roundHalfEven_bounds n' d).1
  · have hrest : n % d ≤ n' % d := by
      have hdiv := Nat.div_add_mod n d
      have hdiv' := Nat.div_add_mod n' d
      rw [heq] at hdiv
      omega
    simp only [roundHalfEven, heq]
    split
    · split
      · exact Nat.le_refl _
      · split <;> omega
    · rw [if_neg (show ¬ 2 * (n' % d) < d by omega)]
      split
      · rw [if_pos (show d < 2 * (n' % d) by omega)]
      · split <;> omega

/-- Every fraction has a level. -/
theorem exists_level (n : Nat) {d : Nat} (hd : 0 < d) :
    ∃ t, (t = 0 ∨ leadingBit * 2 ^ t * d ≤ n * one) ∧ n * one < 2 * leadingBit * 2 ^ t * d := by
  by_cases hsmall : n * one / d < 2 * leadingBit
  · refine ⟨0, .inl rfl, ?_⟩
    rw [Nat.pow_zero, Nat.mul_one]
    exact (Nat.div_lt_iff_lt_mul hd).1 hsmall
  · have hpos : n * one / d ≠ 0 := fun hzero => hsmall (by rw [hzero]; decide)
    obtain ⟨hlow, hhigh⟩ := (Nat.log2_eq_iff hpos).1 rfl
    have hlog : 52 ≤ (n * one / d).log2 :=
      (Nat.le_log2 hpos).2 (Nat.le_trans (by decide) (Nat.not_lt.1 hsmall))
    obtain ⟨t, ht⟩ := Nat.exists_eq_add_of_le hlog
    rw [ht, Nat.pow_add] at hlow
    rw [ht, Nat.add_right_comm, Nat.pow_add] at hhigh
    exact ⟨t, .inr ((Nat.le_div_iff_mul_le hd).1 hlow), (Nat.div_lt_iff_lt_mul hd).1 hhigh⟩

/-- Of two fractions the larger one is not rounded to less. -/
theorem nearestMagnitude_le {n n' d : Nat} (h : n ≤ n') (hd : 0 < d) :
    nearestMagnitude n d ≤ nearestMagnitude n' d := by
  obtain ⟨t, hlow, hhigh⟩ := exists_level n hd
  obtain ⟨t', hlow', hhigh'⟩ := exists_level n' hd
  have hscaled : n * one ≤ n' * one := Nat.mul_le_mul_right one h
  rw [nearestMagnitude_at hd hlow hhigh, nearestMagnitude_at hd hlow' hhigh']
  generalize n * one = scaled at *
  generalize n' * one = scaled' at *
  refine min_le_min_right _ ?_
  rcases Nat.lt_trichotomy t t' with hlt | rfl | hgt
  · -- on the lower level rounding runs over into the next one at most
    have hround : roundHalfEven scaled (d * 2 ^ t) ≤ 2 * leadingBit := by
      have hle : scaled ≤ 2 * leadingBit * (d * 2 ^ t) := by
        rw [Nat.mul_comm d, ← Nat.mul_assoc]
        exact Nat.le_of_lt hhigh
      have hrounded := roundHalfEven_le hle (d * 2 ^ t)
      rwa [roundHalfEven_mul _ (Nat.mul_pos hd (Nat.pow_pos (by decide)))] at hrounded
    have hround' : leadingBit ≤ roundHalfEven scaled' (d * 2 ^ t') := by
      have hle : leadingBit * (d * 2 ^ t') ≤ scaled' := by
        rw [Nat.mul_comm d, ← Nat.mul_assoc]
        exact hlow'.resolve_left (Nat.ne_of_gt (Nat.zero_lt_of_lt hlt))
      have hrounded := roundHalfEven_le hle (d * 2 ^ t')
      rwa [roundHalfEven_mul _ (Nat.mul_pos hd (Nat.pow_pos (by decide)))] at hrounded
    have hlevels : (t + 1) * leadingBit ≤ t' * leadingBit := Nat.mul_le_mul_right _ hlt
    rw [Nat.succ_mul] at hlevels
    omega
  · exact Nat.add_le_add_left (roundHalfEven_le hscaled _) _
  · have hlevels : 2 * leadingBit * 2 ^ t' * d ≤ leadingBit * 2 ^ t * d := by
      refine Nat.mul_le_mul_right d ?_
      calc 2 * leadingBit * 2 ^ t' = leadingBit * 2 ^ (t' + 1) := by ring
        _ ≤ leadingBit * 2 ^ t := Nat.mul_le_mul_left _ (Nat.pow_le_pow_right (by decide) hgt)
    have hreached := hlow.resolve_left (Nat.ne_of_gt (Nat.zero_lt_of_lt hgt))
    omega

theorem nearestMagnitude_le_infinity (n : Nat) {d : Nat} (hd : 0 < d) :
    nearestMagnitude n d ≤ infinityMagnitude := by
  obtain ⟨t, hlow, hhigh⟩ := exists_level n hd
  rw [nearestMagnitude_at hd hlow hhigh]
  exact Nat.min_le_right _ _

theorem magnitude_ofRatio (negative : Bool) (n : Nat) {d : Nat} (hd : 0 < d) :
    (ofRatio negative n d).magnitude = nearestMagnitude n d :=
  magnitude_ofMagnitude negative
    (Nat.lt_of_le_of_lt (nearestMagnitude_le_infinity n hd) (by decide))

/-- Patterns are in the order of their values. -/
theorem units_le {x y : Binary64} (h : x.magnitude ≤ y.magnitude) : x.units ≤ y.units := by
  have hx := x.magnitude_eq
  have hy := y.magnitude_eq
  have hshift : x.shift ≤ y.shift := Nat.sub_le_sub_right (Nat.div_le_div_right h) 1
  rw [units, units]
  rcases Nat.lt_or_eq_of_le hshift with hlt | heq
  · calc x.significand * 2 ^ x.shift ≤ 2 * leadingBit * 2 ^ x.shift :=
          Nat.mul_le_mul_right _ (Nat.le_of_lt x.significand_lt)
      _ = leadingBit * 2 ^ (x.shift + 1) := by ring
      _ ≤ leadingBit * 2 ^ y.shift :=
          Nat.mul_le_mul_left _ (Nat.pow_le_pow_right (by decide) hlt)
      _ ≤ y.significand * 2 ^ y.shift :=
          Nat.mul_le_mul_right _
            (leadingBit_le_significand (Nat.ne_of_gt (Nat.zero_lt_of_lt hlt)))
  · rw [heq] at hx ⊢
    exact Nat.mul_le_mul_right _ (by omega)

/-- If a product of natural numbers is finite, so is that of smaller ones. -/
theorem mul_isFinite_of_le {a b a' b' : Nat} (ha : a ≤ a') (hb : b ≤ b')
    (hfinite : ((ofNat a').mul (ofNat b')).isFinite = true) :
    ((ofNat a).mul (ofNat b)).isFinite = true := by
  have hone : 0 < one * one := Nat.mul_pos one_pos one_pos
  have hunits : ∀ {m n : Nat}, m ≤ n → (ofNat m).units ≤ (ofNat n).units := by
    intro m n hle
    refine units_le ?_
    rw [ofNat, ofNat, magnitude_ofRatio _ _ Nat.one_pos, magnitude_ofRatio _ _ Nat.one_pos]
    exact nearestMagnitude_le hle Nat.one_pos
  rw [isFinite, decide_eq_true_eq, mul, magnitude_ofRatio _ _ hone] at hfinite ⊢
  exact Nat.lt_of_le_of_lt
    (nearestMagnitude_le (Nat.mul_le_mul (hunits ha) (hunits hb)) hone) hfinite

/-! ## Natural numbers -/

/-- A natural number of at most 53 bits times a small power of two is a value. -/
theorem ofNat_exact {a b : Nat} (ha : a < 2 ^ 53) (hb : b ≤ 64) :
    (ofNat (a * 2 ^ b)).negative = false ∧ (ofNat (a * 2 ^ b)).units = a * 2 ^ b * one := by
  rcases Nat.eq_zero_or_pos a with rfl | hpos
  · rw [Nat.zero_mul, Nat.zero_mul]
    decide +kernel
  · -- the significand is the number with its leading bit in place
    obtain ⟨hlow, hhigh⟩ := (Nat.log2_eq_iff (Nat.ne_of_gt hpos)).1 (rfl : a.log2 = a.log2)
    have hlog : a.log2 < 53 := (Nat.log2_lt (Nat.ne_of_gt hpos)).2 ha
    generalize a.log2 = k at *
    have hleast : leadingBit ≤ a * 2 ^ (52 - k) := by
      calc leadingBit = 2 ^ (k + (52 - k)) := by rw [Nat.add_sub_of_le (by omega)]; rfl
        _ = 2 ^ k * 2 ^ (52 - k) := Nat.pow_add _ _ _
        _ ≤ a * 2 ^ (52 - k) := Nat.mul_le_mul_right _ hlow
    have hmost : a * 2 ^ (52 - k) < 2 * leadingBit := by
      calc a * 2 ^ (52 - k) < 2 ^ (k + 1) * 2 ^ (52 - k) :=
            Nat.mul_lt_mul_of_pos_right hhigh (Nat.pow_pos (by decide))
        _ = 2 ^ (k + 1 + (52 - k)) := (Nat.pow_add _ _ _).symm
        _ = 2 * leadingBit := by rw [show k + 1 + (52 - k) = 53 by omega]; rfl
    have hscaled : a * 2 ^ b * one = a * 2 ^ (52 - k) * 2 ^ (k + b + 1022) := by
      rw [one_eq, Nat.mul_assoc, Nat.mul_assoc, ← Nat.pow_add, ← Nat.pow_add,
        show 52 - k + (k + b + 1022) = b + 1074 by omega]
    generalize a * 2 ^ (52 - k) = s at *
    have hpower : 0 < 2 ^ (k + b + 1022) := Nat.pow_pos (by decide)
    have hnearest : nearestMagnitude (a * 2 ^ b) 1 = (k + b + 1022) * leadingBit + s := by
      rw [nearestMagnitude_at (t := k + b + 1022) Nat.one_pos, hscaled, Nat.one_mul,
        roundHalfEven_mul s hpower, Nat.min_eq_left]
      · rw [infinityMagnitude, leadingBit] at *
        omega
      · rw [hscaled, Nat.mul_one]
        exact .inr (Nat.mul_le_mul_right _ hleast)
      · rw [hscaled, Nat.mul_one]
        exact Nat.mul_lt_mul_of_pos_right hmost hpower
    have hlt : (k + b + 1022) * leadingBit + s < signBit := by
      rw [signBit, leadingBit] at *
      omega
    rw [ofNat, ofRatio, hnearest]
    refine ⟨negative_ofMagnitude false hlt, ?_⟩
    obtain ⟨hshift, hsignificand⟩ :=
      parts_of_magnitude (magnitude_ofMagnitude false hlt) hleast hmost
    rw [units, hshift, hsignificand, hscaled]
    rfl

theorem powerOfTen_exact {k : Nat} (h : k ≤ 22) :
    (powerOfTen k).negative = false ∧ (powerOfTen k).units = 10 ^ k * one := by
  have hfive : 5 ^ k < 2 ^ 53 := by
    calc 5 ^ k ≤ 5 ^ 22 := Nat.pow_le_pow_right (by decide) h
      _ < 2 ^ 53 := by decide
  have hten : Nat.pow 10 k = 5 ^ k * 2 ^ k := Nat.mul_pow 5 2 k
  have hexact := ofNat_exact hfive (show k ≤ 64 by omega)
  rw [powerOfTen, hten]
  rw [← hten] at hexact ⊢
  exact hexact

/-! ## One multiplication or division -/

/-- A quotient of a number and a power of ten that are both values is rounded once. -/
theorem div_powerOfTen {x : Binary64} {g k : Nat} (hg : g < 2 ^ 53) (hk : k ≤ 22)
    (hcovers : x.Covers g (10 ^ k)) (hfinite : x.isFinite = true) :
    (ofNat g).div (powerOfTen k) = ofMagnitude false x.magnitude := by
  have hnumber := ofNat_exact hg (Nat.zero_le 64)
  rw [Nat.pow_zero, Nat.mul_one] at hnumber
  obtain ⟨hsign, hunits⟩ := hnumber
  obtain ⟨hsign', hunits'⟩ := powerOfTen_exact hk
  have hten : 0 < 10 ^ k := Nat.pow_pos (by decide)
  rw [div, hsign, hsign', hunits, hunits', ofRatio,
    nearestMagnitude_eq (hcovers.congr hten (Nat.mul_pos hten one_pos) (by ring)) hfinite
      (Nat.mul_pos hten one_pos)]
  rfl

theorem mul_powerOfTen {x : Binary64} {g k : Nat} (hg : g < 2 ^ 53) (hk : k ≤ 22)
    (hcovers : x.Covers (g * 10 ^ k) 1) (hfinite : x.isFinite = true) :
    (ofNat g).mul (powerOfTen k) = ofMagnitude false x.magnitude := by
  have hnumber := ofNat_exact hg (Nat.zero_le 64)
  rw [Nat.pow_zero, Nat.mul_one] at hnumber
  obtain ⟨hsign, hunits⟩ := hnumber
  obtain ⟨hsign', hunits'⟩ := powerOfTen_exact hk
  rw [mul, hsign, hsign', hunits, hunits', ofRatio,
    nearestMagnitude_eq (hcovers.congr Nat.one_pos (Nat.mul_pos one_pos one_pos) (by ring)) hfinite
      (Nat.mul_pos one_pos one_pos)]
  rfl

end EntityStore.Binary64
