import EntityStore.Json.Decode
import EntityStore.Json.Reader
import EntityStore.Json.Writer
import EntityStore.Proofs.Decimal
import EntityStore.Proofs.Decimal.Shortest
import Mathlib

/-!
# JSON numbers are read back

A number is read back digit by digit, whatever follows it, unless that could
belong to a number too (`number?_renderNumber`). What can be written so are the
numbers whose whole part is one zero or begins with no zero, and whose exponent
has a digit (`Number.IsProper`). Those that a whole number or a floating-point
value is written as are of this kind.

Nothing is said here of the value: that of a whole number is the number again
(`asInt64?_int`), for its digits are gathered into the 64 bits that it comes
from. That of a floating-point value is another matter.
-/

namespace EntityStore.Json

open Decimal (Digit)

/-- Digits that a whole part can be: one zero, or digits that begin with no zero. -/
def IsWhole (ds : List Digit) : Prop :=
  ds = Decimal.digits 0 ∨ ∃ d rest, ds = d :: rest ∧ d.val ≠ 0

/-- A number that a text can hold. -/
structure Number.IsProper (n : Number) : Prop where
  whole : IsWhole n.whole
  exponent : ∀ {e}, n.exponent = some e → e.digits ≠ []

/-- Bytes that end a number: nothing, or what separates and closes. -/
def endsNumber : Bytes → Bool
  | [] => true
  | b :: _ => b == 0x2C || b == 0x5D || b == 0x7D

/-- Bytes that do not go on with a digit. -/
def endsDigits : Bytes → Bool
  | [] => true
  | b :: _ => (Digit.ofCode? b.toNat).isNone

theorem endsDigits_of_endsNumber {rest : Bytes} (h : endsNumber rest = true) :
    endsDigits rest = true := by
  cases rest with
  | nil => rfl
  | cons b rest =>
      simp only [endsNumber, Bool.or_eq_true, beq_iff_eq] at h
      rcases h with (rfl | rfl) | rfl <;> rfl

/-! ## Digits -/

theorem ofCode?_byte (d : Digit) : Digit.ofCode? (48 + d.val).toUInt8.toNat = some d := by
  revert d
  decide

theorem leadingDigits_of_ends {rest : Bytes} (h : endsDigits rest = true) :
    leadingDigits rest = ([], rest) := by
  cases rest with
  | nil => rfl
  | cons b rest =>
      rw [endsDigits, Option.isNone_iff_eq_none] at h
      rw [leadingDigits, Decimal.leadingDigits, h]

/-- Digits are read as far as they go. -/
theorem leadingDigits_renderDigits (ds : List Digit) {rest : Bytes} (h : endsDigits rest = true) :
    leadingDigits (renderDigits ds ++ rest) = (ds, rest) := by
  induction ds with
  | nil => exact leadingDigits_of_ends h
  | cons d ds ih =>
      rw [leadingDigits] at ih ⊢
      rw [renderDigits, List.map_cons, List.cons_append, Decimal.leadingDigits, ofCode?_byte]
      change (let (ds', after) := Decimal.leadingDigits UInt8.toNat (renderDigits ds ++ rest)
        (d :: ds', after)) = _
      rw [ih]

/-- A digit that is not zero is no zero byte. -/
theorem digitByte_ne {d : Digit} (h : d.val ≠ 0) : (48 + d.val).toUInt8 ≠ 0x30 := by
  revert d
  decide

theorem digitByte_ne_sign (d : Digit) : (48 + d.val).toUInt8 ≠ 0x2D := by
  revert d
  decide

/-! ## The parts of a number -/

theorem wholePart?_renderDigits {ds : List Digit} (h : IsWhole ds) {rest : Bytes}
    (hrest : endsDigits rest = true) : wholePart? (renderDigits ds ++ rest) = some (ds, rest) := by
  rcases h with rfl | ⟨d, ds, rfl, hd⟩
  · rfl
  · have hlead := leadingDigits_renderDigits (d :: ds) hrest
    have hbyte := digitByte_ne hd
    rw [renderDigits, List.map_cons, List.cons_append] at hlead ⊢
    rw [wholePart?]
    · rw [hlead]
    · intro more heq
      exact absurd (List.cons.inj heq).1 hbyte

theorem fractionPart?_nil {rest : Bytes} (h : ∀ more, rest ≠ 0x2E :: more) :
    fractionPart? rest = some ([], rest) := by
  rw [fractionPart?]
  intro more heq
  exact h more heq

theorem fractionPart?_renderDigits {ds : List Digit} (hds : ds ≠ []) {rest : Bytes}
    (hrest : endsDigits rest = true) :
    fractionPart? (0x2E :: (renderDigits ds ++ rest)) = some (ds, rest) := by
  rw [fractionPart?, leadingDigits_renderDigits ds hrest]
  cases ds with
  | nil => exact absurd rfl hds
  | cons d ds => rfl

/-- What stands for an exponent. -/
def renderExponent : Option Exponent → Bytes
  | none => []
  | some e => 0x65 :: (if e.negative then 0x2D else 0x2B) :: renderDigits e.digits

theorem exponentPart?_renderExponent {e : Option Exponent}
    (he : ∀ {x}, e = some x → x.digits ≠ []) {rest : Bytes} (hrest : endsNumber rest = true) :
    exponentPart? (renderExponent e ++ rest) = some (e, rest) := by
  cases e with
  | none =>
      cases rest with
      | nil => rfl
      | cons b rest =>
          simp only [endsNumber, Bool.or_eq_true, beq_iff_eq] at hrest
          rcases hrest with (rfl | rfl) | rfl <;> rfl
  | some e =>
      have hdigits : ∀ negative, exponentDigits? negative (renderDigits e.digits ++ rest) =
          some (some ⟨negative, e.digits⟩, rest) := by
        intro negative
        rw [exponentDigits?, leadingDigits_renderDigits _ (endsDigits_of_endsNumber hrest)]
        cases hds : e.digits with
        | nil => exact absurd hds (he rfl)
        | cons d ds => rfl
      cases e with
      | mk negative digits =>
          cases negative with
          | true => exact hdigits true
          | false => exact hdigits false

theorem endsDigits_renderExponent (e : Option Exponent) {rest : Bytes}
    (hrest : endsNumber rest = true) : endsDigits (renderExponent e ++ rest) = true := by
  cases e with
  | none => exact endsDigits_of_endsNumber hrest
  | some e => rfl

theorem renderExponent_ne_point (e : Option Exponent) {rest : Bytes}
    (hrest : endsNumber rest = true) (more : Bytes) : renderExponent e ++ rest ≠ 0x2E :: more := by
  cases e with
  | none =>
      rintro rfl
      exact Bool.false_ne_true hrest
  | some e =>
      intro heq
      exact absurd (List.cons.inj heq).1 (by decide)

/-! ## Numbers -/

/-- What stands for the fraction of a number. -/
def renderFraction (ds : List Digit) : Bytes := if ds.isEmpty then [] else 0x2E :: renderDigits ds

theorem renderNumber_eq (n : Number) :
    renderNumber n = (if n.negative then [0x2D] else []) ++ (renderDigits n.whole ++
      (renderFraction n.fraction ++ renderExponent n.exponent)) := by
  rw [renderNumber, List.append_assoc, List.append_assoc]
  cases n.exponent <;> rfl

theorem unsigned?_render {n : Number} (h : n.IsProper) {rest : Bytes}
    (hrest : endsNumber rest = true) :
    unsigned? n.negative (renderDigits n.whole ++
      (renderFraction n.fraction ++ (renderExponent n.exponent ++ rest))) = some (n, rest) := by
  have hexponent := exponentPart?_renderExponent h.exponent hrest
  have hends := endsDigits_renderExponent n.exponent hrest
  have hfraction : fractionPart? (renderFraction n.fraction ++
      (renderExponent n.exponent ++ rest)) =
      some (n.fraction, renderExponent n.exponent ++ rest) := by
    rw [renderFraction]
    split
    · next hempty =>
        rw [List.isEmpty_iff.1 hempty]
        exact fractionPart?_nil (renderExponent_ne_point n.exponent hrest)
    · next hempty => exact fractionPart?_renderDigits (by simpa using hempty) hends
  have hwhole : endsDigits (renderFraction n.fraction ++ (renderExponent n.exponent ++ rest)) =
      true := by
    rw [renderFraction]
    split
    · exact hends
    · rfl
  rw [unsigned?, wholePart?_renderDigits h.whole hwhole]
  simp only [Option.bind_eq_bind, Option.bind_some, hfraction, hexponent, pure]

theorem IsWhole.exists_cons {ds : List Digit} (h : IsWhole ds) : ∃ d rest, ds = d :: rest := by
  rcases h with rfl | ⟨d, rest, rfl, -⟩
  · exact ⟨0, [], rfl⟩
  · exact ⟨d, rest, rfl⟩

/-- The first byte of a number is its sign or a digit. -/
theorem renderNumber_head {n : Number} (h : n.IsProper) :
    ∃ a more, renderNumber n = a :: more ∧ (a = 0x2D ∨ ∃ d : Digit, a = (48 + d.val).toUInt8) := by
  obtain ⟨d, ds, hwhole⟩ := h.whole.exists_cons
  rw [renderNumber_eq, hwhole]
  cases n.negative with
  | true => exact ⟨_, _, rfl, .inl rfl⟩
  | false => exact ⟨_, _, rfl, .inr ⟨d, rfl⟩⟩

/-- A number is read back, whatever ends it. -/
theorem number?_renderNumber {n : Number} (h : n.IsProper) {rest : Bytes}
    (hrest : endsNumber rest = true) : number? (renderNumber n ++ rest) = some (n, rest) := by
  have hread := unsigned?_render h hrest
  rw [renderNumber_eq]
  simp only [List.append_assoc]
  cases hnegative : n.negative with
  | true =>
      rw [hnegative] at hread
      exact hread
  | false =>
      rw [hnegative] at hread
      obtain ⟨d, ds, hwhole⟩ := h.whole.exists_cons
      rw [hwhole, renderDigits, List.map_cons, List.cons_append] at hread ⊢
      change number? ((48 + d.val).toUInt8 :: _) = _
      rw [number?]
      · exact hread
      · intro more heq
        exact digitByte_ne_sign d (List.cons.inj heq).1

/-! ## Whole numbers -/

/-- The digits of a number begin with no zero, unless it is zero. -/
theorem digits_isWhole (n : Nat) : IsWhole (Decimal.digits n) := by
  have hwithin : ∀ more n, n ≤ more → IsWhole (Decimal.digitsWithin more n) := by
    intro more
    induction more with
    | zero =>
        intro n hn
        obtain rfl : n = 0 := by omega
        exact .inl rfl
    | succ more ih =>
        intro n hn
        rw [Decimal.digitsWithin]
        split
        · next hlt =>
            rcases Nat.eq_zero_or_pos n with rfl | hpos
            · exact .inl rfl
            · refine .inr ⟨_, [], rfl, fun hzero => ?_⟩
              have hval : n % 10 = 0 := hzero
              omega
        · next hge =>
            rcases ih (n / 10) (by omega) with hzero | ⟨d, ds, hds, hd⟩
            · have hvalue : Decimal.value (Decimal.digitsWithin more (n / 10)) = n / 10 :=
                Decimal.value_digitsWithin (by omega)
              rw [hzero] at hvalue
              have : n / 10 = 0 := hvalue.symm
              omega
            · rw [hds]
              exact .inr ⟨d, _, rfl, hd⟩
  exact hwithin n n (Nat.le_refl n)

theorem int_isProper (n : Int) :
    (Number.mk (n < 0) (Decimal.digits n.natAbs) [] none).IsProper :=
  ⟨digits_isWhole n.natAbs, fun h => by cases h⟩

theorem valueFrom_ge (ds : List Digit) : ∀ n, n ≤ Decimal.valueFrom n ds := by
  induction ds with
  | nil => exact fun n => Nat.le_refl n
  | cons d ds ih =>
      intro n
      have hstep := ih (n * 10 + d.val)
      change n ≤ Decimal.valueFrom (n * 10 + d.val) ds
      omega

/-- Digits whose number fits are all gathered. -/
theorem gather_eq (ds : List Digit) : ∀ n, Decimal.valueFrom n ds < UInt64.size →
    gather n ds = (Decimal.valueFrom n ds, []) := by
  induction ds with
  | nil => exact fun n _ => rfl
  | cons d ds ih =>
      intro n h
      change Decimal.valueFrom (n * 10 + d.val) ds < _ at h
      have hlt := Nat.lt_of_le_of_lt (valueFrom_ge ds (n * 10 + d.val)) h
      rw [gather, if_pos hlt, ih _ h]
      rfl

theorem gather_digits {n : Nat} (h : n < UInt64.size) : gather 0 (Decimal.digits n) = (n, []) := by
  have hvalue : Decimal.valueFrom 0 (Decimal.digits n) = n := Decimal.value_digits n
  rw [gather_eq _ 0 (by rwa [hvalue]), hvalue]

theorem asInt?_int {n : Int} (hlow : -0x8000000000000000 ≤ n) (hhigh : n ≤ 0xFFFFFFFFFFFFFFFF) :
    asInt? (Json.int n) = some n := by
  have hfits : n.natAbs < UInt64.size := by
    rw [show UInt64.size = 0x10000000000000000 from rfl]
    omega
  rw [int, asInt?, Number.value?, gather_digits hfits]
  rcases Int.lt_or_le n 0 with hneg | hpos
  · simp only [decide_eq_true hneg, Bool.not_true, Bool.false_eq_true, if_false]
    rw [if_pos (by omega), show -(n.natAbs : Int) = n by omega]
    exact congrArg some (Int64.toInt_ofInt_of_le (by omega) (by omega))
  · simp only [decide_eq_false (Int.not_lt.2 hpos), Bool.not_false, if_true]
    rw [Nat.toUInt64, UInt64.toNat_ofNat_of_lt' hfits]
    exact congrArg some (by omega)

/-- A whole number of 64 bits is read from what it is written as. -/
theorem asInt64?_int (n : Int64) : asInt64? (Json.int n.toInt) = some n := by
  have hlow : -0x8000000000000000 ≤ n.toInt := n.le_toInt
  have hhigh : n.toInt < 0x8000000000000000 := n.toInt_lt
  rw [asInt64?, asIntIn?, asInt?_int hlow (by omega), Option.bind_some, if_pos ⟨hlow, by omega⟩,
    Option.map_some, Int64.ofInt_toInt]

theorem nat_eq_int (n : Nat) : Json.nat n = Json.int n := by
  rw [nat, int, decide_eq_false (by omega), Int.natAbs_natCast]

theorem asUInt64?_nat (n : UInt64) : asUInt64? (Json.nat n.toNat) = some n := by
  have hlt : n.toNat < 0x10000000000000000 := n.toNat_lt
  rw [nat_eq_int, asUInt64?, asIntIn?, asInt?_int (by omega) (by omega), Option.bind_some,
    if_pos ⟨by omega, by omega⟩, Option.map_some, Int.toNat_natCast]
  exact congrArg some UInt64.ofNat_toNat

/-! ## Floating-point values -/

/-- Digits that begin with no zero are laid out as a number that a text can hold. -/
theorem layout_isProper (negative : Bool) {n : Nat} {exponent : Int} (h : n = 0 → exponent = 0) :
    (layout negative (Decimal.digits n) exponent).IsProper := by
  rcases digits_isWhole n with hzero | ⟨d, ds, hds, hd⟩
  · have hvalue := Decimal.value_digits n
    rw [hzero] at hvalue
    obtain rfl := h hvalue.symm
    rw [hzero]
    exact ⟨.inl rfl, fun he => by cases he⟩
  · rw [hds, layout]
    split
    · exact ⟨.inr ⟨d, _, rfl, hd⟩, fun he => by cases he⟩
    · split
      · next hpoint =>
          refine ⟨.inr ⟨d, ds.take (((d :: ds).length + exponent).toNat - 1), ?_, hd⟩,
            fun he => by cases he⟩
          rw [← List.take_succ_cons, Nat.sub_add_cancel (by omega)]
      · split
        · exact ⟨.inl rfl, fun he => by cases he⟩
        · refine ⟨.inr ⟨d, [], rfl, hd⟩, fun he => ?_⟩
          obtain rfl := Option.some.inj he
          exact Decimal.digits_ne_nil _

end EntityStore.Json
