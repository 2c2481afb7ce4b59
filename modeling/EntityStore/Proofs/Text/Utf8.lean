import EntityStore.Text.Utf8
import Mathlib.Data.List.Basic

/-!
# UTF-8 is read back

Every text is read from the bytes it is written as. A character takes one to
four bytes by its code point, and the first byte tells the reader how many; the
bits of the code point are spread over them six at a time, so that what is read
is the code point again, and at least as large as a character of so many bytes
has to be.
-/

namespace EntityStore.Utf8

theorem toNat_toUInt8 {n : Nat} (h : n < 0x100) : n.toUInt8.toNat = n := by
  rw [Nat.toUInt8, UInt8.toNat_ofNat', Nat.mod_eq_of_lt h]

/-- A continuation byte carries six bits. -/
theorem tail_byte (n : Nat) :
    isTail (0x80 + n % 0x40).toUInt8 = true ∧ tailBits (0x80 + n % 0x40).toUInt8 = n % 0x40 := by
  have hlt : 0x80 + n % 0x40 < 0x100 := by omega
  have hvalue := toNat_toUInt8 hlt
  refine ⟨?_, ?_⟩
  · rw [isTail, Bool.and_eq_true, decide_eq_true_eq, decide_eq_true_eq]
    omega
  · unfold tailBits
    generalize (0x80 + n % 0x40).toUInt8.toNat = k at *
    omega

theorem charAtLeast?_toNat {c : Char} {least : Nat} (h : least ≤ c.toNat) :
    charAtLeast? least c.toNat = some c := by
  have hvalid : c.toNat.isValidChar := c.valid
  rw [charAtLeast?, dif_pos hvalid, if_pos h]
  exact congrArg some (Char.ext rfl)

theorem toNat_lt (c : Char) : c.toNat < 0x110000 := by
  rcases c.valid with h | h
  · exact Nat.lt_trans h (by decide)
  · exact h.2

theorem decodeChars?_ascii {c : Char} (h : c.toNat < 0x80) (rest : Bytes) :
    decodeChars? (encodeChar c ++ rest) = (decodeChars? rest).map (c :: ·) := by
  have ha := toNat_toUInt8 (n := c.toNat) (by omega)
  have hchar : Char.ofNat c.toNat = c := Char.ofNat_toNat c
  rw [encodeChar]
  simp only [if_pos h, List.cons_append, List.nil_append]
  rw [decodeChars?.eq_def]
  simp only [ha, if_pos h, hchar]

theorem decodeChars?_two {c : Char} (hlow : 0x80 ≤ c.toNat) (h : c.toNat < 0x800) (rest : Bytes) :
    decodeChars? (encodeChar c ++ rest) = (decodeChars? rest).map (c :: ·) := by
  have ha := toNat_toUInt8 (n := 0xC0 + c.toNat / 0x40) (by omega)
  obtain ⟨hb, hbits⟩ := tail_byte c.toNat
  have hcode : (0xC0 + c.toNat / 0x40 - 0xC0) * 0x40 + c.toNat % 0x40 = c.toNat := by omega
  have hchar := charAtLeast?_toNat hlow
  rw [encodeChar]
  simp only [if_neg (Nat.not_lt.2 hlow), if_pos h, List.cons_append, List.nil_append]
  rw [decodeChars?.eq_def]
  simp only [ha, hb, hbits, hcode, hchar, Bool.not_true, Bool.false_eq_true, if_false,
    Option.bind_some]
  rw [if_neg (by omega), if_neg (by omega), if_pos (by omega)]

theorem decodeChars?_three {c : Char} (hlow : 0x800 ≤ c.toNat) (h : c.toNat < 0x10000)
    (rest : Bytes) :
    decodeChars? (encodeChar c ++ rest) = (decodeChars? rest).map (c :: ·) := by
  have ha := toNat_toUInt8 (n := 0xE0 + c.toNat / 0x1000) (by omega)
  obtain ⟨hb, hbits⟩ := tail_byte (c.toNat / 0x40)
  obtain ⟨hd, hdbits⟩ := tail_byte c.toNat
  have hcode : (0xE0 + c.toNat / 0x1000 - 0xE0) * 0x1000 + c.toNat / 0x40 % 0x40 * 0x40 +
      c.toNat % 0x40 = c.toNat := by omega
  have hchar := charAtLeast?_toNat hlow
  rw [encodeChar]
  simp only [if_neg (show ¬ c.toNat < 0x80 by omega), if_neg (Nat.not_lt.2 hlow), if_pos h,
    List.cons_append, List.nil_append]
  rw [decodeChars?.eq_def]
  simp only [ha, hb, hd, hbits, hdbits, hcode, hchar, Bool.not_true, Bool.false_eq_true, if_false,
    Option.bind_some]
  rw [if_neg (by omega), if_neg (by omega), if_neg (by omega), if_pos (by omega)]

theorem decodeChars?_four {c : Char} (hlow : 0x10000 ≤ c.toNat) (rest : Bytes) :
    decodeChars? (encodeChar c ++ rest) = (decodeChars? rest).map (c :: ·) := by
  have hmost := toNat_lt c
  have ha := toNat_toUInt8 (n := 0xF0 + c.toNat / 0x40000) (by omega)
  obtain ⟨hb, hbits⟩ := tail_byte (c.toNat / 0x1000)
  obtain ⟨hd, hdbits⟩ := tail_byte (c.toNat / 0x40)
  obtain ⟨he, hebits⟩ := tail_byte c.toNat
  have hcode : (0xF0 + c.toNat / 0x40000 - 0xF0) * 0x40000 + c.toNat / 0x1000 % 0x40 * 0x1000 +
      c.toNat / 0x40 % 0x40 * 0x40 + c.toNat % 0x40 = c.toNat := by omega
  have hchar := charAtLeast?_toNat hlow
  rw [encodeChar]
  simp only [if_neg (show ¬ c.toNat < 0x80 by omega), if_neg (show ¬ c.toNat < 0x800 by omega),
    if_neg (Nat.not_lt.2 hlow), List.cons_append, List.nil_append]
  rw [decodeChars?.eq_def]
  simp only [ha, hb, hd, he, hbits, hdbits, hebits, hcode, hchar, Bool.not_true,
    Bool.false_eq_true, if_false, Option.bind_some]
  rw [if_neg (by omega), if_neg (by omega), if_neg (by omega), if_neg (by omega),
    if_pos (by omega)]

theorem decodeChars?_encodeChar (c : Char) (rest : Bytes) :
    decodeChars? (encodeChar c ++ rest) = (decodeChars? rest).map (c :: ·) := by
  rcases Nat.lt_or_ge c.toNat 0x80 with h | h
  · exact decodeChars?_ascii h rest
  · rcases Nat.lt_or_ge c.toNat 0x800 with h' | h'
    · exact decodeChars?_two h h' rest
    · rcases Nat.lt_or_ge c.toNat 0x10000 with h'' | h''
      · exact decodeChars?_three h' h'' rest
      · exact decodeChars?_four h'' rest

theorem decodeChars?_flatMap (cs : List Char) :
    decodeChars? (cs.flatMap encodeChar) = some cs := by
  induction cs with
  | nil => rfl
  | cons c cs ih => rw [List.flatMap_cons, decodeChars?_encodeChar, ih, Option.map_some]

theorem decode?_encode (s : String) : decode? (encode s) = some s := by
  rw [decode?, encode, decodeChars?_flatMap, Option.map_some, String.ofList_toList]

end EntityStore.Utf8
