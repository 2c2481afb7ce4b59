import EntityStore.Proofs.Decimal.Length
import EntityStore.Proofs.Json.Floats

/-!
# Every finite value is read as a value

What is written for a finite value may be read as its neighbour, but it is read
(`exists_asBinary64?_float`). A number is refused for its size alone: if its
digits, times the power of ten that they are counted in, come to infinity. For
decimals as large as that the two roundings could go past the largest value, and
do so for one that is as near to it as `1.7976931348623158e308`, but no value is
written so. The products that are largest for their power of ten are checked one
by one (`products_isFinite`); smaller ones are finite because rounding keeps the
order, and the largest value is a case of its own.
-/

namespace EntityStore.Json

open Decimal (Scaled limit largest)

/-- The largest products that are written with the last powers of ten are finite. -/
theorem products_isFinite : ((List.range 19).all fun k =>
    ((Binary64.ofNat (min (limit / Nat.pow 10 (290 + k)) (27 * Binary64.leadingBit))).mul
      (.powerOfTen (290 + k))).isFinite) = true := by
  decide +kernel

theorem mul_powerOfTen_isFinite {g e : Nat} (hdigits : g ≤ 27 * Binary64.leadingBit)
    (hlimit : g * 10 ^ e ≤ limit) (he : e ≤ 308) :
    ((Binary64.ofNat g).mul (.powerOfTen e)).isFinite = true := by
  have hpowers : ∀ {k}, e ≤ k → Nat.pow 10 e ≤ Nat.pow 10 k :=
    fun hk => Nat.pow_le_pow_right (by decide) hk
  rcases Nat.lt_or_ge e 290 with hlt | hge
  · have hfirst := List.all_eq_true.1 products_isFinite 0 (List.mem_range.2 (by decide))
    have hmost : 27 * Binary64.leadingBit ≤
        min (limit / Nat.pow 10 (290 + 0)) (27 * Binary64.leadingBit) := by
      decide +kernel
    exact Binary64.mul_isFinite_of_le (Nat.le_trans hdigits hmost) (hpowers (by omega)) hfirst
  · obtain ⟨k, rfl⟩ := Nat.exists_eq_add_of_le hge
    have hlast := List.all_eq_true.1 products_isFinite k (List.mem_range.2 (by omega))
    have hmost : g ≤ limit / Nat.pow 10 (290 + k) :=
      (Nat.le_div_iff_mul_le (Nat.pow_pos (by decide))).2 hlimit
    exact Binary64.mul_isFinite_of_le (Nat.le_min.2 ⟨hmost, hdigits⟩) (Nat.le_refl _) hlast

/-- What is written for a finite value does not come to infinity. -/
theorem shortest_mul_isFinite {x : Binary64} (hfinite : x.isFinite = true) {e : Nat}
    (he : (Decimal.shortest x).exponent = e) :
    ((Binary64.ofNat (Decimal.shortest x).significand).mul (.powerOfTen e)).isFinite = true := by
  rcases Decimal.magnitude_lt_or_eq_largest hfinite with hlt | heq
  · have hpower := (Decimal.shortest_exponent_bounds hfinite).2
    exact mul_powerOfTen_isFinite (Decimal.shortest_significand_le hfinite)
      (Decimal.shortest_le_limit hlt he) (by omega)
  · rw [Decimal.shortest_of_largest heq] at he ⊢
    obtain rfl : e = 292 := (Int.ofNat.inj he).symm
    decide +kernel

/-- Gathered digits come to a value, unless they are too large for one. -/
theorem exists_scale? (negative : Bool) {g : Nat} {e : Int} (hpower : e ≤ 308)
    (hfinite : ∀ k : Nat, e = k → ((Binary64.ofNat g).mul (.powerOfTen k)).isFinite = true) :
    ∃ x, scale? negative g e = some x := by
  rcases Int.lt_or_le e 0 with hsign | hsign
  · rw [scale?, if_pos hsign]
    exact ⟨_, rfl⟩
  · rw [scale?, if_neg (Int.not_lt.2 hsign), if_pos hpower]
    dsimp only
    rw [if_pos (hfinite e.natAbs (by omega))]
    exact ⟨_, rfl⟩

/-- Every finite value is written as a number that is read. -/
theorem exists_asBinary64?_float {x : Binary64} (hfinite : x.isFinite = true) :
    ∃ y, (Json.float x).asBinary64? = some y := by
  have hdigits := Decimal.shortest_significand_le hfinite
  obtain ⟨hfinest, hcoarsest⟩ := Decimal.shortest_exponent_bounds hfinite
  obtain ⟨zeros, hzeros, hscaled⟩ := layout_scaled x.negative
    (Decimal.digits_ne_nil (Decimal.shortest x).significand) (Decimal.shortest x).exponent
  rw [Decimal.value_digits] at hscaled
  change (written x).scaled = _ at hscaled
  -- zeros come only behind digits that end before the point, and those are few
  have hsize : (Decimal.shortest x).significand * 10 ^ zeros < UInt64.size := by
    rcases hzeros with rfl | ⟨-, hlength⟩
    · rw [Nat.pow_zero, Nat.mul_one]
      exact Nat.lt_of_le_of_lt hdigits (by decide)
    · have hvalue := value_lt (Decimal.digits (Decimal.shortest x).significand)
      rw [Decimal.value_digits] at hvalue
      calc (Decimal.shortest x).significand * 10 ^ zeros
          < 10 ^ (Decimal.digits (Decimal.shortest x).significand).length * 10 ^ zeros :=
            Nat.mul_lt_mul_of_pos_right hvalue (Nat.pow_pos (by decide))
        _ = 10 ^ ((Decimal.digits (Decimal.shortest x).significand).length + zeros) :=
            (Nat.pow_add _ _ _).symm
        _ ≤ 10 ^ 17 := Nat.pow_le_pow_right (by decide) hlength
        _ < UInt64.size := by decide
  have hlength : (written x).fraction.length ≤ 17 + 6 :=
    length_written_fraction_le (Nat.lt_of_le_of_lt hdigits (by decide))
  have hread := real?_eq_scale? (n := written x) (by rwa [hscaled])
    (by rw [hscaled]; dsimp only; omega) (Nat.le_trans hlength (by decide))
  rw [hscaled] at hread
  obtain ⟨y, hy⟩ : ∃ y, scale? (written x).negative
      ((Decimal.shortest x).significand * 10 ^ zeros) ((Decimal.shortest x).exponent - zeros) =
      some y := by
    refine exists_scale? _ (by omega) fun k hk => ?_
    obtain rfl : zeros = 0 := by omega
    rw [Nat.pow_zero, Nat.mul_one]
    exact shortest_mul_isFinite hfinite (by omega)
  exact ⟨y, asBinary64?_of_real? hfinite (hread.trans hy)⟩

end EntityStore.Json
