import EntityStore.Key

/-!
# Decimal texts

A natural number is read back from its decimal text, and the text is digits and
nothing else; a whole number has a minus sign before them if it is negative. So
no two numbers share a text, and a text that ends in a number shows where the
number begins if the character before it is no digit.
-/

namespace EntityStore.Decimal

theorem char_ne_colon (d : Digit) : d.char ≠ ':' := by
  revert d
  decide

theorem char_ne_plus (d : Digit) : d.char ≠ '+' := by
  revert d
  decide

theorem char_ne_minus (d : Digit) : d.char ≠ '-' := by
  revert d
  decide

theorem ofCode?_char (d : Digit) : Digit.ofCode? d.char.toNat = some d := by
  revert d
  decide

theorem digits_ne_nil (n : Nat) : digits n ≠ [] := by
  rw [digits]
  cases n with
  | zero => exact List.cons_ne_nil _ _
  | succ n =>
      rw [digitsWithin]
      split
      · exact List.cons_ne_nil _ _
      · exact List.append_ne_nil_of_right_ne_nil _ (List.cons_ne_nil _ _)

theorem toList_text (n : Nat) : (text n).toList = (digits n).map Digit.char := by
  rw [text, String.toList_ofList]

theorem mapM_ofCode? (ds : List Digit) :
    (ds.map Digit.char).mapM (fun c => Digit.ofCode? c.toNat) = some ds := by
  induction ds with
  | nil => rfl
  | cons d ds ih =>
      rw [List.map_cons, List.mapM_cons, ofCode?_char, ih]
      rfl

theorem ofText?_digits (n : Nat) : ofText? ((digits n).map Digit.char) = some (digits n) := by
  have hne : ((digits n).map Digit.char).isEmpty = false := by
    rw [List.isEmpty_map, List.isEmpty_eq_false_iff]
    exact digits_ne_nil n
  rw [ofText?, hne]
  exact mapM_ofCode? (digits n)

theorem natOfText?_text (n : Nat) : EntityKey.natOfText? (text n) = some n := by
  have hread : (ofText? ((digits n).map Digit.char)).map value = some n := by
    rw [ofText?_digits, Option.map_some, value_digits]
  rw [EntityKey.natOfText?, toList_text]
  split
  · next ds hds =>
      obtain ⟨d, -, hplus⟩ := List.mem_map.1 (hds ▸ List.mem_cons_self : '+' ∈ _)
      exact absurd hplus (char_ne_plus d)
  · exact hread

theorem intOfText?_intText (n : Int) : EntityKey.intOfText? (intText n) = some n := by
  rw [intText]
  split
  · next hneg =>
      have htext : ("-" ++ text n.natAbs).toList = '-' :: (digits n.natAbs).map Digit.char := by
        rw [String.toList_append, toList_text]
        rfl
      rw [EntityKey.intOfText?, htext]
      change (ofText? ((digits n.natAbs).map Digit.char)).map (fun ds => -(value ds : Int)) = some n
      rw [ofText?_digits, Option.map_some, value_digits]
      exact congrArg some (by omega)
  · next hpos =>
      rw [EntityKey.intOfText?, toList_text]
      split
      · next ds hds =>
          obtain ⟨d, -, hminus⟩ := List.mem_map.1 (hds ▸ List.mem_cons_self : '-' ∈ _)
          exact absurd hminus (char_ne_minus d)
      · have habs : Int.ofNat n.natAbs = n := Int.natAbs_of_nonneg (Int.not_lt.1 hpos)
        rw [natOfText?_text, Option.map_some, habs]

theorem text_inj {m n : Nat} (h : text m = text n) : m = n := by
  have hm := natOfText?_text m
  rw [h, natOfText?_text] at hm
  exact (Option.some.inj hm).symm

theorem colon_notMem_text (n : Nat) : ':' ∉ (text n).toList := by
  rw [toList_text]
  intro h
  obtain ⟨d, -, hd⟩ := List.mem_map.1 h
  exact char_ne_colon d hd

end EntityStore.Decimal
