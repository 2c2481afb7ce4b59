import EntityStore.Search.Registry
import Mathlib.Data.List.Basic

/-!
# Normal ids are in normal form

An id is brought into normal form when it is registered, when it is asked for,
and once more when it is looked up, so the form has to be one that stays as it
is. Blanks are taken off first and letters made small afterwards. The second
pass finds no blank at the ends, because no letter becomes a blank, and no
capital, because no lowercase is a capital itself (`Text.capitals_apart`) and a
sigma is never made into another capital.

That no lowercase is a capital is a fact about the table. It is checked range
against range: two ranges overlap only where both have every second code point,
and then they have different ones.
-/

namespace EntityStore.Text

/-! ## What the table says -/

/-- Whether no lowercase of a run lies within the given bounds. -/
def CaseRange.avoids (r : CaseRange) (first last : Nat) : Bool :=
  (r.lower + (r.last - r.first)).blt first || last.blt r.lower

/-- Whether no lowercase of one run is a letter of the other. -/
def CaseRange.isApart (r r' : CaseRange) : Bool :=
  r.avoids r'.first r'.last ||
    ((r.step.beq 2 || r.last.beq r.first) && r'.step.beq 2 &&
      ((r.lower + r'.first) % 2).beq 1)

/-- Code points that no lowercase has: blanks, the dotted capital I and the surrogates. -/
def forbidden : List (Nat × Nat) := [
  (9, 13), (0x20, 0x20), (0x85, 0x85), (0xA0, 0xA0), (0x130, 0x130), (0x1680, 0x1680),
  (0x2000, 0x200A), (0x2028, 0x2029), (0x202F, 0x202F), (0x205F, 0x205F), (0x3000, 0x3000),
  (0xD800, 0xDFFF)]

theorem capitals_apart : (capitals.all fun r => capitals.all r.isApart) = true := by
  decide +kernel

theorem capitals_avoid :
    (capitals.all fun r => forbidden.all fun p => r.avoids p.1 p.2) = true := by
  decide +kernel

theorem capitals_end :
    (capitals.all fun r => (r.lower + (r.last - r.first)).blt 0x110000) = true := by
  decide +kernel

/-- The code point of the lowercase of a letter in a run. -/
def CaseRange.image (r : CaseRange) (n : Nat) : Nat := r.lower + (n - r.first)

theorem CaseRange.holds_iff {r : CaseRange} {n : Nat} :
    r.holds n = true ↔ r.first ≤ n ∧ n ≤ r.last ∧ (n - r.first) % r.step = 0 := by
  simp [holds, and_assoc]

theorem CaseRange.avoids_image {r : CaseRange} {n first last : Nat} (h : r.holds n = true)
    (havoids : r.avoids first last = true) : r.image n < first ∨ last < r.image n := by
  obtain ⟨hfirst, hlast, -⟩ := holds_iff.1 h
  simp only [avoids, Bool.or_eq_true, Nat.blt_eq] at havoids
  rw [image]
  omega

theorem holds_image {r r' : CaseRange} (hr : r ∈ capitals) (hr' : r' ∈ capitals) {n : Nat}
    (h : r.holds n = true) : r'.holds (r.image n) = false := by
  have hapart := List.all_eq_true.1 (List.all_eq_true.1 capitals_apart r hr) r' hr'
  refine Bool.eq_false_iff.2 fun himage => ?_
  obtain ⟨hfirst', hlast', hstep'⟩ := CaseRange.holds_iff.1 himage
  rw [CaseRange.isApart, Bool.or_eq_true] at hapart
  rcases hapart with havoids | hparity
  · have := CaseRange.avoids_image h havoids
    omega
  · obtain ⟨hfirst, hlast, hstep⟩ := CaseRange.holds_iff.1 h
    simp only [Bool.and_eq_true, Bool.or_eq_true, Nat.beq_eq] at hparity
    obtain ⟨⟨hsteps, htwo'⟩, hodd⟩ := hparity
    rw [htwo', CaseRange.image] at hstep'
    rw [CaseRange.image] at hfirst'
    rcases hsteps with htwo | hsingle
    · rw [htwo] at hstep
      omega
    · omega

theorem image_forbidden {r : CaseRange} (hr : r ∈ capitals) {n : Nat} (h : r.holds n = true) :
    ∀ p ∈ forbidden, r.image n < p.1 ∨ p.2 < r.image n := by
  intro p hp
  have havoids := List.all_eq_true.1 (List.all_eq_true.1 capitals_avoid r hr) p hp
  exact CaseRange.avoids_image h havoids

theorem image_valid {r : CaseRange} (hr : r ∈ capitals) {n : Nat} (h : r.holds n = true) :
    (r.image n).isValidChar := by
  have hsurrogate := image_forbidden hr h (0xD800, 0xDFFF) (by simp [forbidden])
  have hend := List.all_eq_true.1 capitals_end r hr
  obtain ⟨hfirst, hlast, -⟩ := CaseRange.holds_iff.1 h
  simp only [CaseRange.image, Nat.blt_eq] at hsurrogate hend
  simp only [CaseRange.image, Nat.isValidChar]
  omega

/-! ## Small characters -/

/-- A character that lowercase leaves alone. -/
def IsSmall (c : Char) : Prop := c.toNat ≠ 0x130 ∧ ∀ r ∈ capitals, r.holds c.toNat = false

theorem IsSmall.lowerChar_eq {c : Char} (h : IsSmall c) : lowerChar c = [c] := by
  have hfind : capitals.find? (·.holds c.toNat) = none := by
    refine List.find?_eq_none.2 fun r hr => ?_
    simp [h.2 r hr]
  rw [lowerChar, if_neg h.1, hfind]

theorem IsSmall.ne_capitalSigma {c : Char} (h : IsSmall c) : c ≠ capitalSigma := by
  rintro rfl
  have hsigma : (capitals.any (·.holds capitalSigma.toNat)) = true := by decide +kernel
  obtain ⟨r, hr, hholds⟩ := List.any_eq_true.1 hsigma
  rw [h.2 r hr] at hholds
  cases hholds

theorem isSmall_of_all {c : Char}
    (h : (c.toNat != 0x130 && capitals.all fun r => !r.holds c.toNat) = true) : IsSmall c := by
  rw [Bool.and_eq_true, bne_iff_ne] at h
  refine ⟨h.1, fun r hr => ?_⟩
  simpa using List.all_eq_true.1 h.2 r hr

theorem isBlank_eq_false {c : Char} (h : ∀ p ∈ forbidden, c.toNat < p.1 ∨ p.2 < c.toNat) :
    isBlank c = false := by
  simp only [forbidden, List.forall_mem_cons] at h
  simp only [isBlank, Bool.or_eq_false_iff, Bool.and_eq_false_iff, decide_eq_false_iff_not,
    beq_eq_false_iff_ne]
  omega

/-- The lowercase of a letter is small and no blank. -/
theorem image_isSmall {r : CaseRange} (hr : r ∈ capitals) {n : Nat} (h : r.holds n = true) :
    IsSmall (Char.ofNat (r.image n)) ∧ isBlank (Char.ofNat (r.image n)) = false := by
  have hforbidden := image_forbidden hr h
  have hcode : (Char.ofNat (r.image n)).toNat = r.image n := by
    rw [Char.ofNat, dif_pos (image_valid hr h)]
    rfl
  refine ⟨⟨?_, fun r' hr' => ?_⟩, isBlank_eq_false ?_⟩
  · have hdotted := hforbidden (0x130, 0x130) (by simp [forbidden])
    rw [hcode]
    dsimp only at hdotted
    omega
  · rw [hcode]
    exact holds_image hr hr' h
  · rw [hcode]
    exact hforbidden

/-- What stays of a character through lowercase. -/
def IsMadeSmall (c d : Char) : Prop := IsSmall d ∧ (isBlank c = false → isBlank d = false)

theorem mem_lowerChar {c d : Char} (h : d ∈ lowerChar c) : IsMadeSmall c d := by
  rw [lowerChar] at h
  split at h
  case isTrue =>
    rcases List.mem_pair.1 h with rfl | rfl
    · exact ⟨isSmall_of_all (by decide +kernel), fun _ => by decide⟩
    · exact ⟨isSmall_of_all (by decide +kernel), fun _ => by decide⟩
  case isFalse hdotted =>
    split at h
    case h_1 r hfind =>
      obtain rfl := List.mem_singleton.1 h
      have hholds := List.find?_some hfind
      have hlower := image_isSmall (List.mem_of_find?_eq_some hfind) hholds
      exact ⟨hlower.1, fun _ => hlower.2⟩
    case h_2 hfind =>
      obtain rfl := List.mem_singleton.1 h
      refine ⟨⟨hdotted, fun r hr => ?_⟩, id⟩
      simpa using List.find?_eq_none.1 hfind r hr

theorem lowerChar_ne_nil (c : Char) : lowerChar c ≠ [] := by
  rw [lowerChar]
  split
  · simp
  · split <;> simp

/-! ## Small texts -/

/-- The lowercase of one character where it stands. -/
def lowerAt (before : List Char) (c : Char) (rest : List Char) : List Char :=
  if c = capitalSigma then [if endsWord before rest then finalSigma else smallSigma]
  else lowerChar c

theorem lowerAfter_cons (before : List Char) (c : Char) (rest : List Char) :
    lowerAfter before (c :: rest) = lowerAt before c rest ++ lowerAfter (c :: before) rest := rfl

theorem mem_lowerAt {before rest : List Char} {c d : Char} (h : d ∈ lowerAt before c rest) :
    IsMadeSmall c d := by
  rw [lowerAt] at h
  split at h
  · obtain rfl := List.mem_singleton.1 h
    split
    · exact ⟨isSmall_of_all (by decide +kernel), fun _ => by decide⟩
    · exact ⟨isSmall_of_all (by decide +kernel), fun _ => by decide⟩
  · exact mem_lowerChar h

theorem lowerAt_ne_nil (before : List Char) (c : Char) (rest : List Char) :
    lowerAt before c rest ≠ [] := by
  rw [lowerAt]
  split
  · simp
  · exact lowerChar_ne_nil c

theorem isSmall_of_mem_lowerAfter {d : Char} :
    ∀ {before cs : List Char}, d ∈ lowerAfter before cs → IsSmall d
  | _, [], h => by cases h
  | before, c :: rest, h => by
    rw [lowerAfter_cons] at h
    rcases List.mem_append.1 h with hhere | hlater
    · exact (mem_lowerAt hhere).1
    · exact isSmall_of_mem_lowerAfter hlater

theorem lowerAfter_of_isSmall :
    ∀ {cs : List Char} (before : List Char), (∀ c ∈ cs, IsSmall c) → lowerAfter before cs = cs
  | [], _, _ => rfl
  | c :: rest, before, h => by
    obtain ⟨hc, hrest⟩ := List.forall_mem_cons.1 h
    rw [lowerAfter_cons, lowerAt, if_neg hc.ne_capitalSigma, hc.lowerChar_eq,
      lowerAfter_of_isSmall _ hrest]
    rfl

/-! ## Trimmed texts -/

/-- Characters with no blank at either end. -/
def IsTrimmed (cs : List Char) : Prop :=
  (∀ c ∈ cs.head?, isBlank c = false) ∧ ∀ c ∈ cs.getLast?, isBlank c = false

theorem dropWhile_of_head? {α : Type} {p : α → Bool} {l : List α}
    (h : ∀ x ∈ l.head?, p x = false) : l.dropWhile p = l := by
  cases l with
  | nil => rfl
  | cons x rest => simp [h x (by simp)]

theorem head?_dropWhile {α : Type} (p : α → Bool) (l : List α) :
    ∀ x ∈ (l.dropWhile p).head?, p x = false := by
  intro x hx
  have hnot := List.head?_dropWhile_not p l
  rw [Option.mem_def.1 hx] at hnot
  simpa using hnot

theorem trimChars_of_isTrimmed {cs : List Char} (h : IsTrimmed cs) : trimChars cs = cs := by
  rw [trimChars, dropWhile_of_head? h.1, dropEndWhile, dropWhile_of_head?, List.reverse_reverse]
  simpa using h.2

theorem getLast?_dropEndWhile {α : Type} (p : α → Bool) (l : List α) :
    ∀ x ∈ (dropEndWhile p l).getLast?, p x = false := by
  intro x hx
  rw [dropEndWhile, List.getLast?_reverse] at hx
  exact head?_dropWhile p _ x hx

theorem trimChars_isTrimmed (cs : List Char) : IsTrimmed (trimChars cs) := by
  refine ⟨fun c hc => ?_, getLast?_dropEndWhile _ _⟩
  have hprefix : trimChars cs <+: cs.dropWhile isBlank := by
    rw [trimChars, dropEndWhile, ← List.reverse_suffix, List.reverse_reverse]
    exact List.dropWhile_suffix _
  obtain ⟨dropped, hdropped⟩ := hprefix
  obtain ⟨rest, hrest⟩ := List.head?_eq_some_iff.1 (Option.mem_def.1 hc)
  have hhead : c ∈ (cs.dropWhile isBlank).head? := by
    rw [← hdropped, hrest]
    exact rfl
  exact head?_dropWhile isBlank cs c hhead

theorem lowerAfter_eq_nil_iff {before cs : List Char} : lowerAfter before cs = [] ↔ cs = [] := by
  cases cs with
  | nil => simp [lowerAfter]
  | cons c rest => simp [lowerAfter_cons, lowerAt_ne_nil]

theorem head?_lowerAfter {before cs : List Char} {d : Char}
    (h : d ∈ (lowerAfter before cs).head?) : ∃ c ∈ cs.head?, IsMadeSmall c d := by
  cases cs with
  | nil => cases h
  | cons c rest =>
    rw [lowerAfter_cons, List.head?_append_of_ne_nil _ (lowerAt_ne_nil before c rest)] at h
    exact ⟨c, rfl, mem_lowerAt (List.mem_of_head? h)⟩

theorem getLast?_lowerAfter {d : Char} :
    ∀ {before cs : List Char}, d ∈ (lowerAfter before cs).getLast? →
      ∃ c ∈ cs.getLast?, IsMadeSmall c d
  | _, [], h => by cases h
  | before, [c], h => by
    rw [lowerAfter_cons, lowerAfter, List.append_nil] at h
    exact ⟨c, rfl, mem_lowerAt (List.mem_of_getLast? h)⟩
  | before, c :: c' :: rest, h => by
    have hlater : lowerAfter (c :: before) (c' :: rest) ≠ [] := by
      simp [lowerAfter_eq_nil_iff]
    rw [lowerAfter_cons, List.getLast?_append_of_ne_nil _ hlater] at h
    obtain ⟨x, hx, hmade⟩ := getLast?_lowerAfter h
    exact ⟨x, by simpa using hx, hmade⟩

theorem lowerAfter_isTrimmed {cs : List Char} (h : IsTrimmed cs) :
    IsTrimmed (lowerAfter [] cs) := by
  constructor
  · intro d hd
    obtain ⟨c, hc, hmade⟩ := head?_lowerAfter hd
    exact hmade.2 (h.1 c hc)
  · intro d hd
    obtain ⟨c, hc, hmade⟩ := getLast?_lowerAfter hd
    exact hmade.2 (h.2 c hc)

theorem lowerAfter_lowerAfter (cs : List Char) :
    lowerAfter [] (lowerAfter [] cs) = lowerAfter [] cs :=
  lowerAfter_of_isSmall _ fun _ h => isSmall_of_mem_lowerAfter h

end EntityStore.Text

namespace EntityStore

open Text

theorem trim_normalId (id : String) : trim (normalId id) = normalId id := by
  have htrimmed := trimChars_of_isTrimmed (lowerAfter_isTrimmed (trimChars_isTrimmed id.toList))
  simp only [normalId, lowercase, trim, String.toList_ofList, htrimmed]

theorem lowercase_normalId (id : String) : lowercase (normalId id) = normalId id := by
  simp only [normalId, lowercase, String.toList_ofList, lowerAfter_lowerAfter]

/-- An id in normal form is its own normal form. -/
@[simp]
theorem normalId_normalId (id : String) : normalId (normalId id) = normalId id := by
  rw [normalId.eq_1 (normalId id), trim_normalId, lowercase_normalId]

end EntityStore
