import EntityStore.Key
import EntityStore.Proofs.Decimal
import EntityStore.Proofs.MessagePack.RoundTrip
import EntityStore.Proofs.Ranked

/-!
# The order of keys and their texts

A store knows two things of a key: where it ranks, and how it is written. The
rank is the order that the type is known for (`EntityKey.IsLawful.rank_lt_iff`):
texts by code point, numbers by size, identifiers byte by byte. A key is read
back from its text (`EntityKey.IsLawful.ofText?_text`), so no two keys are
written alike.

The two have nothing to do with each other. Nine is before ten, and `"10"` is
before `"9"`; so what is listed in the order of keys need not be in the order of
the texts that it shows.
-/

namespace EntityStore

namespace EntityKey

/-- Keys rank as they are ordered, and each is read back from its text. -/
structure IsLawful (κ : Type) [EntityKey κ] [LT κ] : Prop where
  rank_lt_iff : ∀ {a b : κ}, rank a b = .lt ↔ a < b
  ofText?_text : ∀ k : κ, EntityKey.ofText? (EntityKey.text k) = some k

theorem IsLawful.text_injective {κ : Type} [EntityKey κ] [LT κ] (h : IsLawful κ) :
    Function.Injective (EntityKey.text : κ → String) := by
  intro a b hab
  have ha := h.ofText?_text a
  rw [hab, h.ofText?_text] at ha
  exact (Option.some.inj ha).symm

/-! ## Texts and numbers -/

theorem string_isLawful : IsLawful String := ⟨Ranked.string_lt_iff, fun _ => rfl⟩

theorem natOfTextUpTo?_text {high n : Nat} (h : n ≤ high) :
    natOfTextUpTo? high (Decimal.text n) = some n := by
  rw [natOfTextUpTo?, Decimal.natOfText?_text, Option.filter_some, decide_eq_true h, if_pos rfl]

theorem intOfTextIn?_intText {low high n : Int} (hlow : low ≤ n) (hhigh : n ≤ high) :
    intOfTextIn? low high (Decimal.intText n) = some n := by
  rw [intOfTextIn?, Decimal.intOfText?_intText, Option.filter_some,
    decide_eq_true ⟨hlow, hhigh⟩, if_pos rfl]

theorem int32_isLawful : IsLawful Int32 where
  rank_lt_iff := Ranked.int_lt_iff.trans Int32.lt_iff_toInt_lt.symm
  ofText?_text n := by
    have hlow := n.le_toInt
    have hhigh := n.toInt_lt
    change (intOfTextIn? _ _ (Decimal.intText n.toInt)).map Int32.ofInt = _
    rw [intOfTextIn?_intText (by omega) (by omega), Option.map_some, Int32.ofInt_toInt]

theorem int64_isLawful : IsLawful Int64 where
  rank_lt_iff := Ranked.int_lt_iff.trans Int64.lt_iff_toInt_lt.symm
  ofText?_text n := by
    have hlow := n.le_toInt
    have hhigh := n.toInt_lt
    change (intOfTextIn? _ _ (Decimal.intText n.toInt)).map Int64.ofInt = _
    rw [intOfTextIn?_intText (by omega) (by omega), Option.map_some, Int64.ofInt_toInt]

theorem uint32_isLawful : IsLawful UInt32 where
  rank_lt_iff := Ranked.nat_lt_iff.trans UInt32.lt_iff_toNat_lt.symm
  ofText?_text n := by
    have hhigh := n.toNat_lt
    change (natOfTextUpTo? _ (Decimal.text n.toNat)).map Nat.toUInt32 = _
    rw [natOfTextUpTo?_text (by omega), Option.map_some]
    exact congrArg some UInt32.ofNat_toNat

theorem uint64_isLawful : IsLawful UInt64 where
  rank_lt_iff := Ranked.nat_lt_iff.trans UInt64.lt_iff_toNat_lt.symm
  ofText?_text n := by
    have hhigh := n.toNat_lt
    change (natOfTextUpTo? _ (Decimal.text n.toNat)).map Nat.toUInt64 = _
    rw [natOfTextUpTo?_text (by omega), Option.map_some]
    exact congrArg some UInt64.ofNat_toNat

end EntityKey

/-! ## Identifiers -/

namespace Uuid

/-- The bytes of an identifier, the highest first. -/
def bytes (u : Uuid) : Bytes := Pack.bigEndian 16 u.bits.toNat

/-- An identifier comes first if its bytes do. -/
instance : LT Uuid := ⟨fun u v => u.bytes < v.bytes⟩

/-- Numbers of a leading place and a rest are ordered by the place and then by the rest. -/
theorem place_lt_iff {base r r' q q' : Nat} (hr : r < base) (hr' : r' < base) :
    r + base * q < r' + base * q' ↔ q < q' ∨ q = q' ∧ r < r' := by
  rcases Nat.lt_trichotomy q q' with hlt | rfl | hgt
  · have hle : base * (q + 1) ≤ base * q' := Nat.mul_le_mul_left base hlt
    rw [Nat.mul_succ] at hle
    omega
  · omega
  · have hle : base * (q' + 1) ≤ base * q := Nat.mul_le_mul_left base hgt
    rw [Nat.mul_succ] at hle
    omega

/-- Bytes with the highest first are ordered as their numbers. -/
theorem bigEndian_lt_iff {count m n : Nat} : Pack.bigEndian count m < Pack.bigEndian count n ↔
    m % 256 ^ count < n % 256 ^ count := by
  induction count with
  | zero => simp [Pack.bigEndian, Nat.mod_one]
  | succ count ih =>
      have hbyte : ∀ k, (k / Nat.pow 256 count % 256).toUInt8.toNat = k / 256 ^ count % 256 :=
        fun k => Utf8.toNat_toUInt8 (Nat.mod_lt _ (by decide))
      have hpos : 0 < 256 ^ count := Nat.pow_pos (by decide)
      rw [Pack.bigEndian, Pack.bigEndian, List.cons_lt_cons_iff, UInt8.lt_iff_toNat_lt,
        ← UInt8.toNat_inj, hbyte, hbyte, ih, Nat.pow_succ, Nat.mod_mul, Nat.mod_mul,
        place_lt_iff (Nat.mod_lt m hpos) (Nat.mod_lt n hpos)]

theorem rank_lt_iff {u v : Uuid} : rank u v = .lt ↔ u < v := by
  have hbytes : u < v ↔ u.bytes < v.bytes := Iff.rfl
  have hu : u.bits.toNat < 256 ^ 16 := u.bits.isLt
  have hv : v.bits.toNat < 256 ^ 16 := v.bits.isLt
  rw [hbytes, bytes, bytes, bigEndian_lt_iff, Nat.mod_eq_of_lt hu, Nat.mod_eq_of_lt hv]
  exact Ranked.nat_lt_iff

theorem digit?_hexDigit {n : Nat} (h : n < 16) : Hex.digit? (Text.hexDigit n) = some n := by
  have hall : ∀ m : Fin 16, Hex.digit? (Text.hexDigit m) = some m.val := by decide
  exact hall ⟨n, h⟩

theorem length_paddedHex (count n : Nat) : (paddedHex count n).length = count := by
  induction count with
  | zero => rfl
  | succ count ih => rw [paddedHex, List.length_cons, ih]

theorem mem_paddedHex {count n : Nat} {c : Char} (h : c ∈ paddedHex count n) :
    ∃ d : Fin 16, c = Text.hexDigit d := by
  induction count with
  | zero => cases h
  | succ count ih =>
      rcases List.mem_cons.1 h with rfl | h
      · exact ⟨⟨_, Nat.mod_lt _ (by decide)⟩, rfl⟩
      · exact ih h

theorem foldl_paddedHex (count n : Nat) : ∀ read,
    (paddedHex count n).foldl (fun n d => do return (← n) * 16 + (← Hex.digit? d)) (some read) =
      some (read * 16 ^ count + n % 16 ^ count) := by
  induction count with
  | zero =>
      intro read
      rw [paddedHex, List.foldl_nil, Nat.pow_zero, Nat.mul_one, Nat.mod_one, Nat.add_zero]
  | succ count ih =>
      intro read
      have hdigit : Hex.digit? (Text.hexDigit (n / Nat.pow 16 count % 16)) =
          some (n / 16 ^ count % 16) := digit?_hexDigit (Nat.mod_lt _ (by decide))
      rw [paddedHex, List.foldl_cons, hdigit]
      refine (ih (read * 16 + n / 16 ^ count % 16)).trans (congrArg some ?_)
      rw [Nat.pow_succ, Nat.mod_mul, Nat.add_mul, Nat.mul_assoc, Nat.mul_comm 16,
        Nat.mul_comm (n / 16 ^ count % 16)]
      omega

/-- A hexadecimal digit opens no brace, is no hyphen and begins no formal name. -/
theorem hexDigit_ne (d : Fin 16) : Text.hexDigit d ≠ '\x7b' ∧ Text.hexDigit d ≠ '-' ∧
    (Text.hexDigit d).toLower ≠ 'u' := by
  revert d
  decide

/-- Nothing stands around hexadecimal digits. -/
theorem unwrapped_eq {cs : List Char} (h : ∀ c ∈ cs, ∃ d : Fin 16, c = Text.hexDigit d) :
    unwrapped cs = cs := by
  rw [unwrapped.eq_def]
  split
  · next rest =>
      obtain ⟨d, hd⟩ := h _ List.mem_cons_self
      exact absurd hd.symm (hexDigit_ne d).1
  · refine if_neg fun hprefix => ?_
    have hmem : 'u' ∈ cs.map Char.toLower :=
      (List.isPrefixOf_iff_prefix.1 hprefix).subset (by decide)
    obtain ⟨c, hc, hlower⟩ := List.mem_map.1 hmem
    obtain ⟨d, rfl⟩ := h c hc
    exact (hexDigit_ne d).2.2 hlower

theorem ofText?_plain (u : Uuid) : ofText? u.plain = some u := by
  have hhex : ∀ c ∈ u.digits, ∃ d : Fin 16, c = Text.hexDigit d := fun _ => mem_paddedHex
  have hplain : u.digits.filter (· ≠ '-') = u.digits := by
    refine List.filter_eq_self.2 fun c hc => ?_
    obtain ⟨d, rfl⟩ := hhex c hc
    exact decide_eq_true (hexDigit_ne d).2.1
  have hlt : u.bits.toNat < 16 ^ 32 := u.bits.isLt
  have hvalue : hexValue? u.digits = some u.bits.toNat := by
    rw [hexValue?, digits, foldl_paddedHex, Nat.zero_mul, Nat.zero_add, Nat.mod_eq_of_lt hlt]
  rw [ofText?, plain, String.toList_ofList, unwrapped_eq hhex, hplain,
    if_pos ⟨length_paddedHex 32 _, .inl rfl⟩, hvalue]
  change some (Uuid.mk (BitVec.ofNat 128 u.bits.toNat)) = some u
  rw [BitVec.ofNat_toNat, BitVec.setWidth_eq]

theorem isLawful : EntityKey.IsLawful Uuid := ⟨rank_lt_iff, ofText?_plain⟩

end Uuid

/-! ## All of them -/

/-- The types of keys. -/
inductive KeyType where
  | text
  | int32
  | int64
  | uint32
  | uint64
  | uuid

namespace KeyType

/-- The keys of a type. -/
def Key : KeyType → Type
  | .text => String
  | .int32 => Int32
  | .int64 => Int64
  | .uint32 => UInt32
  | .uint64 => UInt64
  | .uuid => Uuid

instance : (t : KeyType) → EntityKey t.Key
  | .text => inferInstanceAs (EntityKey String)
  | .int32 => inferInstanceAs (EntityKey Int32)
  | .int64 => inferInstanceAs (EntityKey Int64)
  | .uint32 => inferInstanceAs (EntityKey UInt32)
  | .uint64 => inferInstanceAs (EntityKey UInt64)
  | .uuid => inferInstanceAs (EntityKey Uuid)

instance : (t : KeyType) → LT t.Key
  | .text => inferInstanceAs (LT String)
  | .int32 => inferInstanceAs (LT Int32)
  | .int64 => inferInstanceAs (LT Int64)
  | .uint32 => inferInstanceAs (LT UInt32)
  | .uint64 => inferInstanceAs (LT UInt64)
  | .uuid => inferInstanceAs (LT Uuid)

theorem isLawful : (t : KeyType) → EntityKey.IsLawful t.Key
  | .text => EntityKey.string_isLawful
  | .int32 => EntityKey.int32_isLawful
  | .int64 => EntityKey.int64_isLawful
  | .uint32 => EntityKey.uint32_isLawful
  | .uint64 => EntityKey.uint64_isLawful
  | .uuid => Uuid.isLawful

end KeyType

end EntityStore
