import EntityStore.Json.Reader
import EntityStore.Json.Writer
import EntityStore.Proofs.Text.Utf8

/-!
# JSON texts are read back

A text is read back piece by piece, up to the quote that ends it. The pieces
need not be the same: a control character that has no letter for its escape is
written by its four hexadecimal digits and comes back as the unit that they
stand for. It stands for the same byte, so the text is the same
(`RawText.bytes?_reread`), and a text that was a `String` is that `String` again
(`RawText.decode?_ofString`).
-/

namespace EntityStore.Json

/-- Whether a byte is written by its hexadecimal digits: a control without a letter of its own. -/
def isSpelled (b : UInt8) : Bool :=
  b < 0x20 && !(b == 0x08 || b == 0x0C || b == 0x0A || b == 0x0D || b == 0x09)

/-- A piece as it comes back. -/
def Piece.reread : Piece → Piece
  | .byte b => if isSpelled b then .unit b.toUInt16 else .byte b
  | .unit u => .unit u

/-- A text as it comes back. -/
def RawText.reread (t : RawText) : RawText := t.map Piece.reread

/-! ## Hexadecimal digits -/

theorem hexValue?_hexByte {n : Nat} (h : n < 16) : hexValue? (hexByte n) = some n := by
  have hall : ∀ m : Fin 16, hexValue? (hexByte m) = some m.val := by decide
  exact hall ⟨n, h⟩

/-- Four hexadecimal digits are read as the unit that they were written for. -/
theorem unit?_hexBytes (u : UInt16) :
    unit? (hexByte (u.toNat / 0x1000)) (hexByte (u.toNat / 0x100 % 0x10))
      (hexByte (u.toNat / 0x10 % 0x10)) (hexByte (u.toNat % 0x10)) = some u := by
  have hlt : u.toNat < 0x10000 := u.toNat_lt
  have hsum : u.toNat / 0x1000 * 0x1000 + u.toNat / 0x100 % 0x10 * 0x100 +
      u.toNat / 0x10 % 0x10 * 0x10 + u.toNat % 0x10 = u.toNat := by omega
  rw [unit?, hexValue?_hexByte (by omega), hexValue?_hexByte (by omega),
    hexValue?_hexByte (by omega), hexValue?_hexByte (by omega)]
  simp only [Option.bind_eq_bind, Option.bind_some, hsum, pure]
  exact congrArg some (UInt16.ofNat_toNat)

/-! ## Pieces -/

theorem rawText?_quote (rest : Bytes) : rawText? (0x22 :: rest) = some ([], rest) := by
  rw [rawText?.eq_def]
  rfl

theorem rawText?_unit (u : UInt16) (more : Bytes) :
    rawText? (renderPiece (.unit u) ++ more) =
      (rawText? more).map fun p => (.unit u :: p.1, p.2) := by
  simp only [renderPiece, List.cons_append, List.nil_append]
  rw [rawText?.eq_def]
  simp only [unit?_hexBytes]
  cases rawText? more <;> rfl

theorem rawText?_short {b c : UInt8} (hshort : shortEscape? c = some b) (hc : c ≠ 0x75)
    (more : Bytes) :
    rawText? (0x5C :: c :: more) = (rawText? more).map fun p => (.byte b :: p.1, p.2) := by
  rw [rawText?.eq_def]
  dsimp only
  rw [if_neg (by decide), if_pos (by decide)]
  split
  · next heq => exact absurd (List.cons.inj heq).1 hc
  · next heq =>
      obtain ⟨rfl, rfl⟩ := List.cons.inj heq
      rw [hshort]
      cases rawText? more <;> rfl
  · next heq => cases heq

theorem rawText?_plain {b : UInt8} (hquote : b ≠ 0x22) (hslash : b ≠ 0x5C) (hlow : ¬ b < 0x20)
    (more : Bytes) :
    rawText? (b :: more) = (rawText? more).map fun p => (.byte b :: p.1, p.2) := by
  rw [rawText?.eq_def]
  dsimp only
  rw [if_neg (by simpa using hquote), if_neg (by simpa using hslash), if_neg hlow]
  cases rawText? more <;> rfl

/-- A control is spelled as the unit of its number is. -/
theorem escapeByte_of_isSpelled {b : UInt8} (h : isSpelled b = true) :
    escapeByte b = renderPiece (.unit b.toUInt16) := by
  have hall : ∀ n : Fin 32, isSpelled n.val.toUInt8 = true →
      escapeByte n.val.toUInt8 = renderPiece (.unit n.val.toUInt8.toUInt16) := by decide
  have hlow : b.toNat < 32 := by
    rw [isSpelled, Bool.and_eq_true, decide_eq_true_eq] at h
    exact h.1
  have hb : b.toNat.toUInt8 = b := UInt8.ofNat_toNat
  have hcase := hall ⟨b.toNat, hlow⟩
  rw [hb] at hcase
  exact hcase h

/-- A byte is spelled, has a short escape, or stands for itself. -/
theorem escapeByte_cases (b : UInt8) :
    isSpelled b = true ∨ isSpelled b = false ∧
      ((∃ c, shortEscape? c = some b ∧ c ≠ 0x75 ∧ escapeByte b = [0x5C, c]) ∨
        (b ≠ 0x22 ∧ b ≠ 0x5C ∧ ¬ b < 0x20 ∧ escapeByte b = [b])) := by
  cases hspelled : isSpelled b with
  | true => exact .inl rfl
  | false =>
      refine .inr ⟨rfl, ?_⟩
      by_cases hquote : b = 0x22
      · subst hquote
        exact .inl ⟨0x22, by decide, by decide, rfl⟩
      by_cases hslash : b = 0x5C
      · subst hslash
        exact .inl ⟨0x5C, by decide, by decide, rfl⟩
      by_cases hlow : b < 0x20
      · rw [isSpelled, decide_eq_true hlow, Bool.true_and] at hspelled
        simp only [Bool.not_eq_false', Bool.or_eq_true, beq_iff_eq] at hspelled
        rcases hspelled with (((rfl | rfl) | rfl) | rfl) | rfl
        · exact .inl ⟨0x62, by decide, by decide, rfl⟩
        · exact .inl ⟨0x66, by decide, by decide, rfl⟩
        · exact .inl ⟨0x6E, by decide, by decide, rfl⟩
        · exact .inl ⟨0x72, by decide, by decide, rfl⟩
        · exact .inl ⟨0x74, by decide, by decide, rfl⟩
      · have hne : ∀ c : UInt8, c < 0x20 → (b == c) = false := by
          intro c hc
          rw [beq_eq_false_iff_ne]
          rintro rfl
          exact hlow hc
        refine .inr ⟨hquote, hslash, hlow, ?_⟩
        rw [escapeByte, if_neg (by simpa using hquote), if_neg (by simpa using hslash)]
        simp only [hne 0x08 (by decide), hne 0x0C (by decide), hne 0x0A (by decide),
          hne 0x0D (by decide), hne 0x09 (by decide), Bool.false_eq_true, if_false, if_neg hlow]

theorem rawText?_byte (b : UInt8) (more : Bytes) :
    rawText? (renderPiece (.byte b) ++ more) =
      (rawText? more).map fun p => ((Piece.byte b).reread :: p.1, p.2) := by
  rcases escapeByte_cases b with hspelled | ⟨hspelled, hbyte⟩
  · rw [renderPiece, escapeByte_of_isSpelled hspelled, rawText?_unit, Piece.reread,
      if_pos hspelled]
  · rw [Piece.reread, hspelled, if_neg Bool.false_ne_true, renderPiece]
    rcases hbyte with ⟨c, hshort, hc, hescape⟩ | ⟨hquote, hslash, hlow, hescape⟩
    · rw [hescape]
      exact rawText?_short hshort hc more
    · rw [hescape]
      exact rawText?_plain hquote hslash hlow more

theorem rawText?_piece (p : Piece) (more : Bytes) :
    rawText? (renderPiece p ++ more) = (rawText? more).map fun q => (p.reread :: q.1, q.2) := by
  cases p with
  | byte b => exact rawText?_byte b more
  | unit u => exact rawText?_unit u more

theorem rawText?_pieces (t : RawText) (rest : Bytes) :
    rawText? (t.flatMap renderPiece ++ 0x22 :: rest) = some (t.reread, rest) := by
  induction t with
  | nil => exact rawText?_quote rest
  | cons p t ih =>
      rw [List.flatMap_cons, List.append_assoc, rawText?_piece, ih]
      rfl

/-! ## What texts stand for -/

/-- A spelled control is no half of a pair, and a character of one byte. -/
theorem spelled_unit {b : UInt8} (h : isSpelled b = true) :
    isHighSurrogate b.toUInt16 = false ∧ isLowSurrogate b.toUInt16 = false ∧
      Utf8.encodeChar (Char.ofNat b.toUInt16.toNat) = [b] := by
  have hall : ∀ n : Fin 32, isHighSurrogate n.val.toUInt8.toUInt16 = false ∧
      isLowSurrogate n.val.toUInt8.toUInt16 = false ∧
      Utf8.encodeChar (Char.ofNat n.val.toUInt8.toUInt16.toNat) = [n.val.toUInt8] := by decide
  have hlow : b.toNat < 32 := by
    rw [isSpelled, Bool.and_eq_true, decide_eq_true_eq] at h
    exact h.1
  have hb : b.toNat.toUInt8 = b := UInt8.ofNat_toNat
  have hcase := hall ⟨b.toNat, hlow⟩
  rwa [hb] at hcase

theorem bytes?_byte_reread (b : UInt8) (t : RawText) :
    RawText.bytes? ((Piece.byte b).reread :: t) = (RawText.bytes? t).map (b :: ·) := by
  rw [Piece.reread]
  split
  · next h =>
      obtain ⟨hhigh, hlow, hchar⟩ := spelled_unit h
      rw [RawText.bytes?.eq_def]
      simp only [hhigh, hlow, hchar, Bool.false_eq_true, if_false, List.cons_append,
        List.nil_append]
  · rw [RawText.bytes?]

theorem RawText.bytes?_reread (t : RawText) : t.reread.bytes? = t.bytes? := by
  induction t using RawText.bytes?.induct with
  | case1 => rfl
  | case2 b rest ih =>
      rw [RawText.bytes?, ← ih]
      exact bytes?_byte_reread b _
  | case3 u hhigh v rest hlow ih =>
      change RawText.bytes? (.unit u :: .unit v :: RawText.reread rest) = _
      rw [RawText.bytes?.eq_def, RawText.bytes?.eq_def (.unit u :: .unit v :: rest)]
      simp only [hhigh, hlow, if_true, ih]
  | case4 u hhigh v rest hlow =>
      change RawText.bytes? (.unit u :: .unit v :: RawText.reread rest) = _
      rw [RawText.bytes?.eq_def, RawText.bytes?.eq_def (.unit u :: .unit v :: rest)]
      simp only [hhigh, if_true, if_neg hlow]
  | case5 u rest hhigh hrest =>
      -- A first half stands alone, and a control that comes back spelled is no second half.
      cases rest with
      | nil => rfl
      | cons p rest =>
          cases p with
          | unit v => exact (hrest v rest rfl).elim
          | byte b =>
              change RawText.bytes? (.unit u :: (Piece.byte b).reread :: RawText.reread rest) = _
              cases h : isSpelled b with
              | true =>
                  rw [Piece.reread, if_pos h, RawText.bytes?.eq_def,
                    RawText.bytes?.eq_def (.unit u :: .byte b :: rest)]
                  simp only [hhigh, if_true, (spelled_unit h).2.1, Bool.false_eq_true, if_false]
              | false =>
                  rw [Piece.reread, if_neg (by rw [h]; exact Bool.false_ne_true),
                    RawText.bytes?.eq_def, RawText.bytes?.eq_def (.unit u :: .byte b :: rest)]
                  simp only [hhigh, if_true]
  | case6 u rest hhigh hlow =>
      change RawText.bytes? (.unit u :: RawText.reread rest) = _
      rw [RawText.bytes?.eq_def, RawText.bytes?.eq_def (.unit u :: rest)]
      simp only [if_neg hhigh, if_pos hlow]
  | case7 u rest hhigh hlow ih =>
      change RawText.bytes? (.unit u :: RawText.reread rest) = _
      rw [RawText.bytes?.eq_def, RawText.bytes?.eq_def (.unit u :: rest)]
      simp only [if_neg hhigh, if_neg hlow, ih]

theorem RawText.decode?_ofString (s : String) : (ofString s).reread.decode? = some s := by
  have hbytes : ∀ bytes : Bytes, RawText.bytes? (bytes.map .byte) = some bytes := by
    intro bytes
    induction bytes with
    | nil => rfl
    | cons b bytes ih => rw [List.map_cons, RawText.bytes?, ih, Option.map_some]
  rw [decode?, RawText.bytes?_reread, ofString, hbytes, Option.bind_some, Utf8.decode?_encode]

end EntityStore.Json
