import EntityStore.Proofs.Json.Numbers

/-!
# Floating-point values that JSON reads back

A floating-point value is written as a decimal that rounds to it, but it is read
with one rounding for the digits, one for the power of ten and one for their
product or quotient. If the digits take at most 53 bits and the power of ten is
the twenty-second or a lower one, both are values themselves, so that the only
rounding is the last. What is written with so few digits is therefore read back
(`asBinary64?_float`). Whether a value is of this kind is told by what is written
for it, which has one zero behind the point if there would be no digit.
-/

namespace EntityStore.Json

open Decimal (Digit Scaled)

/-! ## Digits -/

theorem valueFrom_eq (ds : List Digit) : ∀ n,
    Decimal.valueFrom n ds = n * 10 ^ ds.length + Decimal.value ds := by
  induction ds with
  | nil => exact fun n => (Nat.mul_one n).symm
  | cons d ds ih =>
      intro n
      have hfrom : ∀ m, Decimal.valueFrom m (d :: ds) = Decimal.valueFrom (m * 10 + d.val) ds :=
        fun _ => rfl
      rw [Decimal.value, hfrom, hfrom, ih, ih (0 * 10 + d.val), List.length_cons]
      ring

theorem value_append (ds es : List Digit) :
    Decimal.value (ds ++ es) = Decimal.value ds * 10 ^ es.length + Decimal.value es := by
  rw [Decimal.value, Decimal.valueFrom_append, valueFrom_eq]
  rfl

theorem value_replicate_zero (n : Nat) : Decimal.value (List.replicate n 0) = 0 := by
  induction n with
  | zero => rfl
  | succ n ih => exact ih

theorem value_lt (ds : List Digit) : Decimal.value ds < 10 ^ ds.length := by
  induction ds with
  | nil => exact Nat.one_pos
  | cons d ds ih =>
      rw [← List.singleton_append, value_append, List.length_append, Nat.pow_add]
      have hd : Decimal.value [d] + 1 ≤ 10 := by
        rw [show Decimal.value [d] = d.val from Nat.zero_add _]
        exact d.isLt
      have hmul := Nat.mul_le_mul_right (10 ^ ds.length) hd
      rw [Nat.add_mul, Nat.one_mul] at hmul
      exact Nat.lt_of_lt_of_le (Nat.add_lt_add_left ih _) hmul

/-- A number has at most one digit more than it has in powers of ten. -/
theorem length_digits_le {n k : Nat} (h : n < 10 ^ (k + 1)) :
    (Decimal.digits n).length ≤ k + 1 := by
  rcases digits_isWhole n with hzero | ⟨d, ds, hds, hd⟩
  · rw [hzero]
    exact Nat.succ_pos k
  · have hvalue := Decimal.value_digits n
    rw [hds, ← List.singleton_append, value_append] at hvalue
    have hleast : 1 * 10 ^ ds.length ≤ Decimal.value [d] * 10 ^ ds.length := by
      refine Nat.mul_le_mul_right _ (Nat.pos_of_ne_zero fun hzero => hd ?_)
      simpa [Decimal.value, Decimal.valueFrom] using hzero
    rw [hds, List.length_cons]
    refine Nat.succ_le_of_lt ((Nat.pow_lt_pow_iff_right (show 1 < 10 by decide)).1 ?_)
    omega

/-! ## Numbers as decimals -/

/-- The exponent that a number shows. -/
def Number.shown (n : Number) : Int :=
  match n.exponent with
  | none => 0
  | some e => if e.negative then -(Decimal.value e.digits : Int) else Decimal.value e.digits

/-- The digits of a number without its point, and the power of ten that they are counted in. -/
def Number.scaled (n : Number) : Scaled :=
  ⟨Decimal.value (n.whole ++ n.fraction), n.shown - n.fraction.length⟩

/-- Few digits and a small power of ten are rounded once. -/
theorem scale?_eq (negative : Bool) {g : Nat} {e : Int} {x : Binary64}
    (hcovers : x.Covers (Scaled.mk g e).numerator (Scaled.mk g e).denominator)
    (hfinite : x.isFinite = true) (hdigits : g < 2 ^ 53) (hpower : e.natAbs ≤ 22) :
    scale? negative g e = some (.ofMagnitude negative x.magnitude) := by
  have hlimit : x.magnitude < Binary64.infinityMagnitude := of_decide_eq_true hfinite
  have hsmall : x.magnitude < Binary64.signBit := Nat.lt_trans hlimit (by decide)
  have hsigned : (if negative then (Binary64.ofMagnitude false x.magnitude).neg
      else .ofMagnitude false x.magnitude) = .ofMagnitude negative x.magnitude := by
    cases negative with
    | false => rfl
    | true =>
        rw [if_pos rfl, Binary64.neg, Binary64.negative_ofMagnitude false hsmall,
          Binary64.magnitude_ofMagnitude false hsmall]
        rfl
  cases e with
  | negSucc e =>
      have hread : x.Covers g (10 ^ (e + 1)) := by
        have hnumerator : (Scaled.mk g (.negSucc e)).numerator = g := Nat.mul_one g
        rw [hnumerator] at hcovers
        exact hcovers
      have hscaled : scaleDown (e + 1) (e + 1) (.ofNat g) = .ofMagnitude false x.magnitude := by
        rw [scaleDown, if_pos (show e + 1 ≤ 308 from Nat.le_trans hpower (by decide))]
        exact Binary64.div_powerOfTen hdigits hpower hread hfinite
      rw [scale?, if_pos (Int.negSucc_lt_zero e), ← hsigned, ← hscaled]
      rfl
  | ofNat e =>
      have hread : x.Covers (g * 10 ^ e) 1 := by
        have hdenominator : (Scaled.mk g (.ofNat e)).denominator = 1 := by
          rw [Scaled.denominator, Int.ofNat_eq_natCast, Int.toNat_neg_natCast, Nat.pow_zero]
        rw [hdenominator] at hcovers
        exact hcovers
      have hscaled : (Binary64.ofNat g).mul (.powerOfTen e) = .ofMagnitude false x.magnitude :=
        Binary64.mul_powerOfTen hdigits hpower hread hfinite
      have hfits : (Binary64.ofMagnitude false x.magnitude).isFinite = true := by
        rw [Binary64.isFinite, Binary64.magnitude_ofMagnitude false hsmall]
        exact decide_eq_true hlimit
      have hwithin : (Int.ofNat e) ≤ 308 := by
        exact Int.ofNat_le.2 (Nat.le_trans hpower (by decide))
      have hsign : ¬ Int.ofNat e < 0 := Int.not_lt.2 (Int.natCast_nonneg e)
      rw [scale?, if_neg hsign, if_pos hwithin]
      change (if ((Binary64.ofNat g).mul (.powerOfTen e)).isFinite then _ else _) = _
      rw [hscaled, if_pos hfits, ← hsigned]
      exact congrArg (fun y => some (if negative then Binary64.neg y else y)) hscaled

/-- If all digits are gathered, a number that is not whole is what they come to at its power of
ten. -/
theorem real?_eq_scale? {n : Number} (hsize : n.scaled.significand < UInt64.size)
    (hpower : n.scaled.exponent.natAbs ≤ 0x3FFFFFFF) (hlength : n.fraction.length ≤ 0x3FFFFFFF) :
    n.real? = scale? n.negative n.scaled.significand n.scaled.exponent := by
  have hsplit : Decimal.valueFrom (Decimal.value n.whole) n.fraction = n.scaled.significand :=
    (Decimal.valueFrom_append 0 n.whole n.fraction).symm
  have hwhole : gather 0 n.whole = (Decimal.value n.whole, []) :=
    gather_eq _ 0 (Nat.lt_of_le_of_lt (valueFrom_ge n.fraction (Decimal.value n.whole))
      (by rwa [hsplit]))
  have hfraction : gather (Decimal.value n.whole) n.fraction = (n.scaled.significand, []) := by
    rw [gather_eq _ _ (by rwa [hsplit]), hsplit]
  simp only [Number.real?, hwhole, hfraction, List.length_nil, Nat.sub_zero, Nat.cast_zero,
    Int.zero_sub]
  cases hexponent : n.exponent with
  | none =>
      have hpoint : n.scaled.exponent = -(n.fraction.length : Int) := by
        simp only [Number.scaled, Number.shown, hexponent, Int.zero_sub]
      rw [hpoint]
  | some e =>
      have hpoint : n.scaled.exponent =
          (if e.negative then -(Decimal.value e.digits : Int) else Decimal.value e.digits) -
            n.fraction.length := by
        simp only [Number.scaled, Number.shown, hexponent]
      have hadd : addExponents (-(n.fraction.length : Int))
          (if e.negative then -(Decimal.value e.digits : Int) else Decimal.value e.digits) =
          n.scaled.exponent := by
        rw [addExponents, show (exponentLimit : Int) = 0x7FFFFFFF from rfl]
        omega
      have hgiven : ¬ exponentLimit < Decimal.value e.digits := by
        rw [exponentLimit]
        split at hpoint <;> omega
      dsimp only
      rw [if_neg hgiven, hadd]

/-- A number of few digits near the point is read as the value that its decimal rounds to. -/
theorem real?_eq {n : Number} {x : Binary64}
    (hcovers : x.Covers n.scaled.numerator n.scaled.denominator) (hfinite : x.isFinite = true)
    (hdigits : n.scaled.significand < 2 ^ 53) (hpower : n.scaled.exponent.natAbs ≤ 22)
    (hlength : n.fraction.length ≤ 0x3FFFFFFF) :
    n.real? = some (.ofMagnitude n.negative x.magnitude) := by
  rw [real?_eq_scale? (Nat.lt_trans hdigits (by decide)) (Nat.le_trans hpower (by decide)) hlength]
  exact scale?_eq n.negative hcovers hfinite hdigits hpower

/-- A number with a fraction or an exponent is no whole number. -/
theorem value?_eq_real? {n : Number} (h : n.fraction ≠ [] ∨ n.exponent ≠ none) :
    n.value? = n.real?.map .real := by
  rw [Number.value?]
  split
  · next hfraction hexponent =>
      rcases h with h | h
      · exact absurd hfraction h
      · exact absurd hexponent h
  · rfl

/-! ## How values are written -/

theorem layout_negative (negative : Bool) (ds : List Digit) (e : Int) :
    (layout negative ds e).negative = negative := by
  rw [layout]
  split
  · rfl
  · split
    · rfl
    · split <;> rfl

/-- However digits are laid out, there is a fraction or an exponent. -/
theorem layout_not_whole (negative : Bool) {ds : List Digit} (hds : ds ≠ []) (e : Int) :
    (layout negative ds e).fraction ≠ [] ∨ (layout negative ds e).exponent ≠ none := by
  rw [layout]
  split
  · exact .inl (List.cons_ne_nil _ _)
  · split
    · refine .inl fun hempty => ?_
      have hlength := List.drop_eq_nil_iff.1 hempty
      omega
    · split
      · exact .inl fun hempty => hds (List.append_eq_nil_iff.1 hempty).2
      · exact .inr (Option.some_ne_none _)

/-- Digits are laid out as the decimal that they were given as, with zeros behind them if they
would end before the point: then the last zero stands behind the point, and there are seventeen
digits at most. -/
theorem layout_scaled (negative : Bool) {ds : List Digit} (hds : ds ≠ []) (e : Int) :
    ∃ zeros : Nat, (zeros = 0 ∨ e - zeros = -1 ∧ ds.length + zeros ≤ 17) ∧
      (layout negative ds e).scaled = ⟨Decimal.value ds * 10 ^ zeros, e - zeros⟩ := by
  have hlength : 0 < ds.length := List.length_pos_iff.2 hds
  -- but for the first case the digits stand as they are, so that only the power is to be counted
  have hsame : ∀ {n : Number}, Decimal.value (n.whole ++ n.fraction) = Decimal.value ds →
      n.shown - n.fraction.length = e →
      ∃ zeros : Nat, (zeros = 0 ∨ e - zeros = -1 ∧ ds.length + zeros ≤ 17) ∧
        n.scaled = ⟨Decimal.value ds * 10 ^ zeros, e - zeros⟩ := by
    intro n hvalue hpower
    refine ⟨0, .inl rfl, ?_⟩
    rw [Number.scaled, hvalue, hpower, Nat.pow_zero, Nat.mul_one]
    exact congrArg (Scaled.mk _) (Int.sub_zero e).symm
  rw [layout]
  split
  · next hwhole =>
      rw [mostPlacesBefore] at hwhole
      refine ⟨e.toNat + 1, .inr (by omega), ?_⟩
      rw [Number.scaled]
      refine congrArg₂ Scaled.mk ?_ ?_
      · have hzeros : ds ++ List.replicate e.toNat 0 ++ [0] =
            ds ++ List.replicate (e.toNat + 1) (0 : Digit) := by
          rw [List.replicate_succ', List.append_assoc]
        rw [hzeros, value_append, value_replicate_zero, List.length_replicate, Nat.add_zero]
      · change (0 : Int) - (1 : Nat) = _
        omega
  · split
    · next hpoint =>
        refine hsame (by rw [List.take_append_drop]) ?_
        change (0 : Int) - ((ds.drop _).length : Nat) = e
        rw [List.length_drop]
        omega
    · split
      · next hpoint =>
          refine hsame ?_ ?_
          · rw [value_append, value_append, value_replicate_zero, Nat.zero_mul, Nat.zero_add]
            change 0 * 10 ^ _ + Decimal.value ds = _
            rw [Nat.zero_mul, Nat.zero_add]
          · change (0 : Int) - ((List.replicate _ (0 : Digit) ++ ds).length : Nat) = e
            rw [List.length_append, List.length_replicate]
            omega
      · refine hsame (by rw [List.take_append_drop]) ?_
        simp only [Number.shown, Decimal.value_digits, List.length_drop, decide_eq_true_eq]
        split <;> omega

theorem length_fraction_le (negative : Bool) {ds : List Digit} (hds : ds ≠ []) (e : Int) :
    (layout negative ds e).fraction.length ≤ ds.length + 5 := by
  have hlength : 0 < ds.length := List.length_pos_iff.2 hds
  rw [layout]
  split
  · exact Nat.le_trans (show 1 ≤ 5 by decide) (Nat.le_add_left 5 _)
  · split
    · rw [List.length_drop]
      omega
    · split
      · next hpoint =>
          rw [mostPlacesAfter] at hpoint
          rw [List.length_append, List.length_replicate]
          omega
      · rw [List.length_drop]
        omega

/-- What a finite value is written as. -/
def written (x : Binary64) : Number :=
  layout x.negative (Decimal.digits (Decimal.shortest x).significand) (Decimal.shortest x).exponent

/-- A finite value that is written with few digits, none of them far from the point. -/
structure IsShort (x : Binary64) : Prop where
  isFinite : x.isFinite = true
  digits : (written x).scaled.significand < 2 ^ 53
  power : (written x).scaled.exponent.natAbs ≤ 22

/-- A value is written as a decimal that rounds to it. -/
theorem written_covers (x : Binary64) :
    x.Covers (written x).scaled.numerator (written x).scaled.denominator := by
  have hcovers := Decimal.shortest_covers x
  obtain ⟨zeros, -, hscaled⟩ := layout_scaled x.negative
    (Decimal.digits_ne_nil (Decimal.shortest x).significand) (Decimal.shortest x).exponent
  rw [Decimal.value_digits] at hscaled
  change (written x).scaled = _ at hscaled
  rw [hscaled]
  generalize Decimal.shortest x = s at *
  refine hcovers.congr (Nat.pow_pos (by decide)) (Nat.pow_pos (by decide)) ?_
  simp only [Scaled.numerator, Scaled.denominator, Nat.mul_assoc, ← Nat.pow_add]
  refine congrArg (fun k => s.significand * 10 ^ k) ?_
  omega

/-- A finite value is read as what is written for it, which is never a whole number. -/
theorem asBinary64?_of_real? {x y : Binary64} (hfinite : x.isFinite = true)
    (hread : (written x).real? = some y) : (Json.float x).asBinary64? = some y := by
  have hreal : (written x).fraction ≠ [] ∨ (written x).exponent ≠ none :=
    layout_not_whole x.negative (Decimal.digits_ne_nil _) _
  have hvalue : (written x).value? = some (.real y) := by
    rw [value?_eq_real? hreal, hread]
    rfl
  rw [float, if_pos hfinite]
  change asBinary64? (.number (written x)) = _
  rw [asBinary64?, hvalue]

theorem length_written_fraction_le {x : Binary64} {k : Nat}
    (h : (Decimal.shortest x).significand < 10 ^ (k + 1)) :
    (written x).fraction.length ≤ k + 6 := by
  have hfraction := length_fraction_le x.negative
    (Decimal.digits_ne_nil (Decimal.shortest x).significand) (Decimal.shortest x).exponent
  have hdigits := length_digits_le h
  rw [written]
  omega

/-- A value that is written with few digits is read back. -/
theorem asBinary64?_float {x : Binary64} (h : IsShort x) : (Json.float x).asBinary64? = some x := by
  have hdigits := h.digits
  obtain ⟨zeros, -, hscaled⟩ := layout_scaled x.negative
    (Decimal.digits_ne_nil (Decimal.shortest x).significand) (Decimal.shortest x).exponent
  have hsignificand : (Decimal.shortest x).significand < 10 ^ (15 + 1) := by
    rw [written, hscaled, Decimal.value_digits] at hdigits
    have hle := Nat.le_mul_of_pos_right (Decimal.shortest x).significand
      (show 0 < 10 ^ zeros from Nat.pow_pos (by decide))
    dsimp only at hdigits
    omega
  have hread := real?_eq (written_covers x) h.isFinite h.digits h.power
    (Nat.le_trans (length_written_fraction_le hsignificand) (by decide))
  have hnegative : (written x).negative = x.negative := layout_negative x.negative _ _
  rw [hnegative, Binary64.ofMagnitude_magnitude] at hread
  exact asBinary64?_of_real? h.isFinite hread

end EntityStore.Json
