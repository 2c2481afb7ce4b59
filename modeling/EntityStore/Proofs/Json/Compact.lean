import EntityStore.Proofs.Json.RoundTrip

/-!
# Values are written as texts

A value whose texts and names are those of strings is written as UTF-8
(`IsLegible.isText`), so `Json.compact` is the text that its bytes spell, and
reading this text is reading the bytes (`IsLegible.parse?_compact`). Everything
that the writer adds is ASCII. In a text it replaces ASCII by ASCII only, for of
a longer character every byte is above, so no character is torn.
-/

namespace EntityStore

namespace Utf8

/-- Bytes that characters are written as. -/
def IsText (bytes : Bytes) : Prop := ∃ cs : List Char, cs.flatMap encodeChar = bytes

theorem IsText.append {a b : Bytes} (ha : IsText a) (hb : IsText b) : IsText (a ++ b) := by
  obtain ⟨cs, rfl⟩ := ha
  obtain ⟨ds, rfl⟩ := hb
  exact ⟨cs ++ ds, List.flatMap_append⟩

theorem isText_nil : IsText [] := ⟨[], rfl⟩

theorem IsText.flatMap {α : Type} {f : α → Bytes} {l : List α} (h : ∀ a ∈ l, IsText (f a)) :
    IsText (l.flatMap f) := by
  induction l with
  | nil => exact isText_nil
  | cons a l ih =>
      rw [List.flatMap_cons]
      exact (h a List.mem_cons_self).append (ih fun b hb => h b (List.mem_cons_of_mem a hb))

theorem encodeChar_ascii {b : UInt8} (h : b < 0x80) : encodeChar (Char.ofNat b.toNat) = [b] := by
  have hall : ∀ n : Fin 128, encodeChar (Char.ofNat n.val) = [n.val.toUInt8] := by
    decide +kernel
  have hb : b.toNat.toUInt8 = b := UInt8.ofNat_toNat
  rw [hall ⟨b.toNat, h⟩, hb]

theorem IsText.cons {b : UInt8} (hb : b < 0x80) {bytes : Bytes} (h : IsText bytes) :
    IsText (b :: bytes) := by
  obtain ⟨cs, rfl⟩ := h
  exact ⟨Char.ofNat b.toNat :: cs, by rw [List.flatMap_cons, encodeChar_ascii hb]; rfl⟩

theorem isText_ascii {bytes : Bytes} (h : ∀ b ∈ bytes, b < 0x80) : IsText bytes := by
  induction bytes with
  | nil => exact isText_nil
  | cons b bytes ih =>
      exact .cons (h b List.mem_cons_self) (ih fun a ha => h a (List.mem_cons_of_mem b ha))

/-- Text is read as a string that is written as this text. -/
theorem IsText.exists_decode? {bytes : Bytes} (h : IsText bytes) :
    ∃ s, decode? bytes = some s ∧ encode s = bytes := by
  obtain ⟨cs, rfl⟩ := h
  exact ⟨String.ofList cs, by rw [decode?, decodeChars?_flatMap, Option.map_some],
    by rw [encode, String.toList_ofList]⟩

/-- The bytes of a character that takes more than one. -/
theorem le_of_mem_encodeChar {c : Char} (h : 0x80 ≤ c.toNat) {b : UInt8} (hb : b ∈ encodeChar c) :
    0x80 ≤ b := by
  have hlt := toNat_lt c
  have hbyte : ∀ n, 0x80 ≤ n → n < 0x100 → 0x80 ≤ n.toUInt8 := by
    intro n hlow hhigh
    rw [UInt8.le_iff_toNat_le, toNat_toUInt8 hhigh]
    exact hlow
  rw [encodeChar] at hb
  simp only [if_neg (Nat.not_lt.2 h)] at hb
  split at hb
  · simp only [List.mem_cons, List.not_mem_nil, or_false] at hb
    rcases hb with rfl | rfl <;> exact hbyte _ (by omega) (by omega)
  · split at hb
    · simp only [List.mem_cons, List.not_mem_nil, or_false] at hb
      rcases hb with rfl | rfl | rfl <;> exact hbyte _ (by omega) (by omega)
    · simp only [List.mem_cons, List.not_mem_nil, or_false] at hb
      rcases hb with rfl | rfl | rfl | rfl <;> exact hbyte _ (by omega) (by omega)

end Utf8

namespace Json

open Utf8 (IsText)

/-- A value whose texts and names are those of strings, and whose numbers a text can hold. -/
inductive IsLegible : Json → Prop where
  | null : IsLegible .null
  | bool (b : Bool) : IsLegible (.bool b)
  | number {n : Number} (h : n.IsProper) : IsLegible (.number n)
  | string (s : String) : IsLegible (string s)
  | array {items : List Json} (h : ∀ v ∈ items, IsLegible v) : IsLegible (.array items)
  | record {members : List (String × Json)} (h : ∀ m ∈ members, IsLegible m.2) :
      IsLegible (record members)

theorem IsLegible.isProper {v : Json} (h : v.IsLegible) : v.IsProper := by
  induction h with
  | null => exact .null
  | bool b => exact .bool b
  | number h => exact .number h
  | string s => exact string_isProper s
  | array _ ih => exact .array ih
  | record _ ih => exact record_isProper ih

/-! ## Texts and numbers -/

theorem escapeByte_ascii {a : UInt8} (h : a < 0x80) : ∀ b ∈ escapeByte a, b < 0x80 := by
  have hall : ∀ n : Fin 128, (escapeByte n.val.toUInt8).all (· < 0x80) = true := by
    decide +kernel
  have ha : a.toNat.toUInt8 = a := UInt8.ofNat_toNat
  have hcase := hall ⟨a.toNat, h⟩
  rw [ha, List.all_eq_true] at hcase
  exact fun b hb => of_decide_eq_true (hcase b hb)

theorem escapeByte_of_le {a : UInt8} (h : 0x80 ≤ a) : escapeByte a = [a] := by
  have hall : ∀ n : Fin 256, 128 ≤ n.val → escapeByte n.val.toUInt8 = [n.val.toUInt8] := by
    decide +kernel
  have ha : a.toNat.toUInt8 = a := UInt8.ofNat_toNat
  have hcase := hall ⟨a.toNat, a.toNat_lt⟩ h
  rwa [ha] at hcase

/-- A character as it stands in a text: escaped if it is ASCII, and otherwise untouched. -/
theorem isText_escapedChar (c : Char) : IsText ((Utf8.encodeChar c).flatMap escapeByte) := by
  rcases Nat.lt_or_ge c.toNat 0x80 with h | h
  · have hchar : Utf8.encodeChar c = [c.toNat.toUInt8] := by rw [Utf8.encodeChar]; exact if_pos h
    rw [hchar, List.flatMap_singleton]
    refine Utf8.isText_ascii (escapeByte_ascii ?_)
    rw [UInt8.lt_iff_toNat_lt, Utf8.toNat_toUInt8 (by omega)]
    exact h
  · have hsame : (Utf8.encodeChar c).flatMap escapeByte = Utf8.encodeChar c := by
      rw [List.flatMap_congr fun b hb => escapeByte_of_le (Utf8.le_of_mem_encodeChar h hb)]
      exact List.flatMap_singleton' _
    rw [hsame]
    exact ⟨[c], List.flatMap_singleton _ _⟩

theorem isText_renderText (s : String) : IsText (renderText (RawText.ofString s)) := by
  have hpieces : (RawText.ofString s).flatMap renderPiece =
      s.toList.flatMap fun c => (Utf8.encodeChar c).flatMap escapeByte := by
    rw [RawText.ofString, List.flatMap_map, Utf8.encode, List.flatMap_assoc]
    rfl
  rw [renderText, hpieces]
  exact (IsText.cons (by decide) (.flatMap fun c _ => isText_escapedChar c)).append
    (.cons (by decide) Utf8.isText_nil)

theorem renderDigits_ascii (ds : List Decimal.Digit) : ∀ b ∈ renderDigits ds, b < 0x80 := by
  have hall : ∀ d : Decimal.Digit, (48 + d.val).toUInt8 < 0x80 := by decide
  intro b hb
  obtain ⟨d, -, rfl⟩ := List.mem_map.1 hb
  exact hall d

theorem isText_renderNumber (n : Number) : IsText (renderNumber n) := by
  have hdigits : ∀ ds, IsText (renderDigits ds) :=
    fun ds => Utf8.isText_ascii (renderDigits_ascii ds)
  rw [renderNumber_eq]
  refine .append ?_ (.append (hdigits _) (.append ?_ ?_))
  · split
    · exact .cons (by decide) Utf8.isText_nil
    · exact Utf8.isText_nil
  · rw [renderFraction]
    split
    · exact Utf8.isText_nil
    · exact .cons (by decide) (hdigits _)
  · cases n.exponent with
    | none => exact Utf8.isText_nil
    | some e =>
        refine .cons (by decide) (.cons ?_ (hdigits _))
        split <;> decide

/-! ## Values -/

theorem isText_renderMoreItems {items : List Json} (h : ∀ v ∈ items, IsText v.render) :
    IsText (renderMoreItems items) := by
  induction items with
  | nil => rw [renderMoreItems]; exact .cons (by decide) Utf8.isText_nil
  | cons v rest ih =>
      rw [renderMoreItems]
      exact .cons (by decide) ((h v List.mem_cons_self).append
        (ih fun w hw => h w (List.mem_cons_of_mem v hw)))

theorem isText_renderMoreMembers {members : List (String × Json)}
    (h : ∀ m ∈ members, IsText m.2.render) :
    IsText (renderMoreMembers (members.map fun m => (RawText.ofString m.1, m.2))) := by
  induction members with
  | nil => rw [List.map_nil, renderMoreMembers]; exact .cons (by decide) Utf8.isText_nil
  | cons m rest ih =>
      rw [List.map_cons, renderMoreMembers]
      exact .cons (by decide) ((isText_renderText m.1).append (.cons (by decide)
        ((h m List.mem_cons_self).append (ih fun w hw => h w (List.mem_cons_of_mem m hw)))))

theorem IsLegible.isText {v : Json} (h : v.IsLegible) : IsText v.render := by
  induction h with
  | null => rw [render]; exact ⟨_, rfl⟩
  | bool b => rw [render]; exact ⟨_, rfl⟩
  | @number n h => rw [render]; exact isText_renderNumber n
  | string s => rw [Json.string, render]; exact isText_renderText s
  | @array items _ ih =>
      rw [render]
      refine .cons (by decide) ?_
      cases items with
      | nil => rw [renderItems]; exact .cons (by decide) Utf8.isText_nil
      | cons v rest =>
          rw [renderItems]
          exact (ih v List.mem_cons_self).append
            (isText_renderMoreItems fun w hw => ih w (List.mem_cons_of_mem v hw))
  | @record members _ ih =>
      rw [Json.record, render]
      refine .cons (by decide) ?_
      cases members with
      | nil => rw [List.map_nil, renderMembers]; exact .cons (by decide) Utf8.isText_nil
      | cons m rest =>
          rw [List.map_cons, renderMembers]
          exact (isText_renderText m.1).append (.cons (by decide)
            ((ih m List.mem_cons_self).append
              (isText_renderMoreMembers fun w hw => ih w (List.mem_cons_of_mem m hw))))

/-- The text of a value is what its bytes spell. -/
theorem IsLegible.encode_compact {v : Json} (h : v.IsLegible) :
    Utf8.encode v.compact = v.render := by
  obtain ⟨s, hdecode, hencode⟩ := h.isText.exists_decode?
  rw [compact, hdecode, Option.getD_some, hencode]

/-- The text of a value is read as this value. -/
theorem IsLegible.parse?_compact {v : Json} (h : v.IsLegible) :
    parse? (Utf8.encode v.compact) = some v.reread := by
  rw [h.encode_compact, parse?_render h.isProper]

end Json

end EntityStore
