import EntityStore.MessagePack.Decode
import EntityStore.MessagePack.Reader
import EntityStore.MessagePack.Writer
import EntityStore.Proofs.Text.Utf8
import Mathlib

/-!
# MessagePack values are read back

A value is read back from what it is written as (`parse?_render`) if every
length in it fits the four bytes that the longest marker has for it, and arrays,
maps and extensions do not nest deeper than they are read. A marker is the
shortest that holds its number, so each kind has a case for every width; what
they share is that a number is read back from its bytes (`number?_bigEndian`).

What is written says where it ends, so whatever bytes follow, the same value is
read (`parse?_render_append`), and no other value begins like it
(`eq_of_isPrefix_render`).

The number of steps is bounded as for any reader here: each value takes one and
at least one byte, and each element or entry one more.
-/

namespace EntityStore.Pack

/-- A value whose lengths fit four bytes and that nests at most to the given depth. -/
inductive IsSized : Nat → Pack → Prop where
  | nil (depth : Nat) : IsSized depth .nil
  | bool (depth : Nat) (b : Bool) : IsSized depth (.bool b)
  | unsigned (depth : Nat) (n : UInt64) : IsSized depth (.unsigned n)
  | signed (depth : Nat) (n : Int64) : IsSized depth (.signed n)
  | float (depth : Nat) (x : Binary64) : IsSized depth (.float x)
  | text (depth : Nat) {bytes : Bytes} (h : bytes.length < 0x100000000) :
      IsSized depth (.text bytes)
  | binary (depth : Nat) {bytes : Bytes} (h : bytes.length < 0x100000000) :
      IsSized depth (.binary bytes)
  | extension (depth : Nat) (kind : UInt8) {bytes : Bytes} (h : bytes.length < 0x100000000) :
      IsSized (depth + 1) (.extension kind bytes)
  | array {depth : Nat} {items : List Pack} (h : items.length < 0x100000000)
      (hitems : ∀ v ∈ items, IsSized depth v) : IsSized (depth + 1) (.array items)
  | map {depth : Nat} {entries : List (Pack × Pack)} (h : entries.length < 0x100000000)
      (hkeys : ∀ e ∈ entries, IsSized depth e.1) (hvalues : ∀ e ∈ entries, IsSized depth e.2) :
      IsSized (depth + 1) (.map entries)

/-! ## Numbers as bytes -/

theorem length_bigEndian (count n : Nat) : (bigEndian count n).length = count := by
  induction count with
  | zero => rfl
  | succ count ih => rw [bigEndian, List.length_cons, ih]

theorem foldl_bigEndian (count n : Nat) : ∀ read,
    (bigEndian count n).foldl (fun n b => n * 256 + b.toNat) read =
      read * 256 ^ count + n % 256 ^ count := by
  induction count with
  | zero =>
      intro read
      rw [bigEndian, List.foldl_nil, Nat.pow_zero, Nat.mul_one, Nat.mod_one, Nat.add_zero]
  | succ count ih =>
      intro read
      -- the first byte is what `n` has above the `count` bytes that are left to read
      have hbyte : (n / Nat.pow 256 count % 256).toUInt8.toNat = n / 256 ^ count % 256 :=
        Utf8.toNat_toUInt8 (Nat.mod_lt _ (by decide))
      rw [bigEndian, List.foldl_cons, ih, hbyte, Nat.pow_succ, Nat.mod_mul, Nat.add_mul,
        Nat.mul_assoc, Nat.mul_comm 256, Nat.mul_comm (n / 256 ^ count % 256)]
      omega

theorem ofBigEndian_bigEndian {count n : Nat} (h : n < 256 ^ count) :
    ofBigEndian (bigEndian count n) = n := by
  rw [ofBigEndian, foldl_bigEndian, Nat.zero_mul, Nat.zero_add, Nat.mod_eq_of_lt h]

theorem take?_append {bytes : Bytes} {count : Nat} (h : bytes.length = count) (rest : Bytes) :
    take? count (bytes ++ rest) = some (bytes, rest) := by
  subst h
  rw [take?, if_pos (by rw [List.length_append]; exact Nat.le_add_right _ _), List.take_left,
    List.drop_left]

theorem number?_bigEndian {count n : Nat} (h : n < 256 ^ count) (rest : Bytes) :
    number? count (bigEndian count n ++ rest) = some (n, rest) := by
  rw [number?, take?_append (length_bigEndian count n), Option.map_some]
  dsimp only
  rw [ofBigEndian_bigEndian h]

theorem counted?_bigEndian {width : Nat} {bytes : Bytes} (h : bytes.length < 256 ^ width)
    (rest : Bytes) :
    counted? width (bigEndian width bytes.length ++ (bytes ++ rest)) = some (bytes, rest) := by
  rw [counted?, number?_bigEndian h, Option.bind_some]
  exact take?_append rfl rest

/-- A number of either sign is read from the bytes of its remainder. -/
theorem signedNumber?_bigEndian {count : Nat} {range n : Int}
    (hrange : ((256 ^ count : Nat) : Int) = range) (hlow : -range ≤ 2 * n) (hhigh : 2 * n < range)
    (rest : Bytes) :
    signedNumber? count (bigEndian count (n % range).toNat ++ rest) =
      some (Int64.ofInt n, rest) := by
  have hlt : (n % range).toNat < 256 ^ count := by
    have hmod := Int.emod_lt_of_pos n (show 0 < range by omega)
    omega
  have hpow : ((Nat.pow 256 count : Nat) : Int) = range := hrange
  -- the lower half of the range stands for itself, the upper half for the negative numbers
  have hmod : n % range = if 0 ≤ n then n else n + range := by
    split
    · exact Int.emod_eq_of_lt (by assumption) (by omega)
    · rw [← Int.add_emod_right]
      exact Int.emod_eq_of_lt (by omega) (by omega)
  rw [signedNumber?, number?_bigEndian hlt, Option.map_some]
  simp only [hmod]
  by_cases hsign : 0 ≤ n
  · rw [if_pos hsign, if_pos (by omega), show (n.toNat : Int) = n by omega]
  · rw [if_neg hsign, if_neg (by omega),
      show (((n + range).toNat : Nat) : Int) - (Nat.pow 256 count : Nat) = n by omega]

/-! ## Markers -/

theorem opening?_small {n : Nat} (h : n < 0xC0) (rest : Bytes) :
    opening? (n.toUInt8 :: rest) = smallOpening? n rest := by
  have hn := Utf8.toNat_toUInt8 (n := n) (by omega)
  have hlt : n.toUInt8 < 0xC0 := by
    rw [UInt8.lt_iff_toNat_lt, hn]
    exact h
  rw [opening?, if_pos hlt, hn]

/-- After its marker and a length, what is counted is read as far as the length says. -/
theorem opening?_counted {marker : UInt8} {width : Nat} {kind : Bytes → Pack}
    (hmarker : ∀ r, opening? (marker :: r) =
      whole ((counted? width r).map fun (b, rest) => (kind b, rest)))
    {bytes : Bytes} (h : bytes.length < 256 ^ width) (rest : Bytes) :
    opening? (marker :: bigEndian width bytes.length ++ (bytes ++ rest)) =
      some (.whole (kind bytes), rest) := by
  rw [List.cons_append, hmarker, counted?_bigEndian h]
  rfl

/-- After its marker, a number of elements or entries is read. -/
theorem opening?_count {marker : UInt8} {width : Nat} {kind : Nat → Opening}
    (hmarker : ∀ r, opening? (marker :: r) =
      (number? width r).map fun (count, rest) => (kind count, rest))
    {n : Nat} (h : n < 256 ^ width) (rest : Bytes) :
    opening? (marker :: bigEndian width n ++ rest) = some (kind n, rest) := by
  rw [List.cons_append, hmarker, number?_bigEndian h]
  rfl

theorem opening?_text {bytes : Bytes} (h : bytes.length < 0x100000000) (rest : Bytes) :
    opening? (textHeader bytes.length ++ (bytes ++ rest)) = some (.whole (.text bytes), rest) := by
  rw [textHeader]
  split
  · rw [List.singleton_append, opening?_small (by omega), smallOpening?, if_neg (by omega),
      if_neg (by omega), if_neg (by omega), Nat.add_sub_cancel_left, take?_append rfl]
    rfl
  · split
    · next hlt => exact opening?_counted (fun _ => rfl) hlt rest
    · split
      · next hlt => exact opening?_counted (fun _ => rfl) hlt rest
      · exact opening?_counted (fun _ => rfl) h rest

theorem opening?_binary {bytes : Bytes} (h : bytes.length < 0x100000000) (rest : Bytes) :
    opening? (binaryHeader bytes.length ++ (bytes ++ rest)) =
      some (.whole (.binary bytes), rest) := by
  rw [binaryHeader]
  split
  · next hlt => exact opening?_counted (fun _ => rfl) hlt rest
  · split
    · next hlt => exact opening?_counted (fun _ => rfl) hlt rest
    · exact opening?_counted (fun _ => rfl) h rest

theorem opening?_extension (kind : UInt8) {bytes : Bytes} (h : bytes.length < 0x100000000)
    (rest : Bytes) :
    opening? (extensionHeader bytes.length ++ kind :: (bytes ++ rest)) =
      some (.whole (.extension kind bytes), rest) := by
  have hread : ∀ {marker : UInt8} {width : Nat},
      (∀ r, opening? (marker :: r) =
        whole ((number? width r).bind fun (length, rest) => extension? length rest)) →
      bytes.length < 256 ^ width →
      opening? (marker :: bigEndian width bytes.length ++ kind :: (bytes ++ rest)) =
        some (.whole (.extension kind bytes), rest) := by
    intro marker width hmarker hlt
    rw [List.cons_append, hmarker, number?_bigEndian hlt, Option.bind_some]
    dsimp only
    rw [extension?, take?_append rfl]
    rfl
  rw [extensionHeader]
  split
  · next hlt => exact hread (fun _ => rfl) hlt
  · split
    · next hlt => exact hread (fun _ => rfl) hlt
    · exact hread (fun _ => rfl) h

theorem opening?_array {n : Nat} (h : n < 0x100000000) (rest : Bytes) :
    opening? (arrayHeader n ++ rest) = some (.array n, rest) := by
  rw [arrayHeader]
  split
  · rw [List.singleton_append, opening?_small (by omega), smallOpening?, if_neg (by omega),
      if_neg (by omega), if_pos (by omega), Nat.add_sub_cancel_left]
  · split
    · next hlt => exact opening?_count (fun _ => rfl) hlt rest
    · exact opening?_count (fun _ => rfl) h rest

theorem opening?_map {n : Nat} (h : n < 0x100000000) (rest : Bytes) :
    opening? (mapHeader n ++ rest) = some (.map n, rest) := by
  rw [mapHeader]
  split
  · rw [List.singleton_append, opening?_small (by omega), smallOpening?, if_neg (by omega),
      if_pos (by omega), Nat.add_sub_cancel_left]
  · split
    · next hlt => exact opening?_count (fun _ => rfl) hlt rest
    · exact opening?_count (fun _ => rfl) h rest

theorem opening?_unsigned (n : UInt64) (rest : Bytes) :
    opening? (renderUnsigned n.toNat ++ rest) = some (.whole (.unsigned n), rest) := by
  have hn : n.toNat.toUInt64 = n := UInt64.ofNat_toNat
  have hread : ∀ {marker : UInt8} {width : Nat},
      (∀ r, opening? (marker :: r) =
        whole ((number? width r).map fun (b, rest) => (.unsigned b.toUInt64, rest))) →
      n.toNat < 256 ^ width →
      opening? (marker :: bigEndian width n.toNat ++ rest) = some (.whole (.unsigned n), rest) := by
    intro marker width hmarker hlt
    rw [List.cons_append, hmarker, number?_bigEndian hlt, Option.map_some]
    dsimp only
    rw [hn]
    rfl
  rw [renderUnsigned]
  split
  · next hlt =>
      rw [List.singleton_append, opening?_small (by omega), smallOpening?, if_pos hlt, hn]
  · split
    · next hlt => exact hread (fun _ => rfl) hlt
    · split
      · next hlt => exact hread (fun _ => rfl) hlt
      · split
        · next hlt => exact hread (fun _ => rfl) hlt
        · exact hread (fun _ => rfl) n.toNat_lt

/-- A small negative number is its own marker. -/
theorem opening?_negative {n : Int} (hlow : -0x20 ≤ n) (hneg : n < 0) (rest : Bytes) :
    opening? ((n + 0x100).toNat.toUInt8 :: rest) =
      some (.whole (.signed (Int64.ofInt n)), rest) := by
  have hbyte := Utf8.toNat_toUInt8 (n := (n + 0x100).toNat) (by omega)
  have hmarker : ∀ m : UInt8, m.toNat ≤ (n + 0x100).toNat → ¬ (n + 0x100).toNat.toUInt8 < m := by
    intro m hm
    rw [UInt8.lt_iff_toNat_lt, hbyte]
    omega
  rw [opening?, if_neg (hmarker 0xC0 (show 0xC0 ≤ _ by omega)),
    if_neg (hmarker 0xCA (show 0xCA ≤ _ by omega)), if_neg (hmarker 0xD9 (show 0xD9 ≤ _ by omega)),
    hbyte, longOpening?, if_neg (by omega), if_neg (by omega), if_neg (by omega),
    show ((n + 0x100).toNat : Int) - 256 = n by omega]

theorem opening?_signed (n : Int64) (rest : Bytes) :
    opening? (renderSigned n.toInt ++ rest) = some (.whole (.signed n), rest) := by
  have hn : Int64.ofInt n.toInt = n := Int64.ofInt_toInt n
  have hread : ∀ {marker : UInt8} {width : Nat} {range : Int},
      (∀ r, opening? (marker :: r) =
        whole ((signedNumber? width r).map fun p => (.signed p.1, p.2))) →
      ((256 ^ width : Nat) : Int) = range → -range ≤ 2 * n.toInt → 2 * n.toInt < range →
      opening? (marker :: bigEndian width (n.toInt % range).toNat ++ rest) =
        some (.whole (.signed n), rest) := by
    intro marker width range hmarker hrange hlow hhigh
    rw [List.cons_append, hmarker, signedNumber?_bigEndian hrange hlow hhigh, hn]
    rfl
  rw [renderSigned]
  split
  · next hlt =>
      rw [List.singleton_append, opening?_negative hlt.1 hlt.2, hn]
  · split
    · next hlt => exact hread (fun _ => rfl) rfl (by omega) (by omega)
    · split
      · next hlt => exact hread (fun _ => rfl) rfl (by omega) (by omega)
      · split
        · next hlt => exact hread (fun _ => rfl) rfl (by omega) (by omega)
        · have hlow := n.le_toInt
          have hhigh := n.toInt_lt
          exact hread (fun _ => rfl) rfl (by omega) (by omega)

theorem opening?_float (x : Binary64) (rest : Bytes) :
    opening? (0xCB :: (bigEndian 8 x.bits.toNat ++ rest)) = some (.whole (.float x), rest) := by
  have h64 : ∀ r, opening? (0xCB :: r) =
      whole ((number? 8 r).map fun (b, rest) => (.float ⟨b.toUInt64⟩, rest)) := fun _ => rfl
  have hbits : x.bits.toNat.toUInt64 = x.bits := UInt64.ofNat_toNat
  rw [h64, number?_bigEndian x.bits.toNat_lt, Option.map_some]
  dsimp only
  rw [hbits]
  rfl

theorem length_pos_of_opening {bytes rest : Bytes} {o : Opening}
    (h : opening? (bytes ++ []) = some (o, rest)) : 0 < bytes.length := by
  cases bytes with
  | nil => cases h
  | cons b bytes => exact Nat.succ_pos _

/-! ## Values without parts -/

/-- A value takes a byte at least, and is read from what it is written as, whatever follows. -/
structure ReadsBack (depth : Nat) (v : Pack) : Prop where
  length_pos : 0 < v.render.length
  value?_eq : ∀ (bound : Nat) (rest : Bytes), 2 * v.render.length ≤ bound + 1 →
    value? bound depth (v.render ++ rest) = some (v, rest)

theorem readsBack_of_opening {depth : Nat} {v : Pack}
    (hopen : ∀ rest, opening? (v.render ++ rest) = some (.whole v, rest))
    (hdeep : ∀ kind b, v = .extension kind b → depth ≠ 0) : ReadsBack depth v := by
  have hpos := length_pos_of_opening (hopen [])
  refine ⟨hpos, fun bound rest hbound => ?_⟩
  cases bound with
  | zero => omega
  | succ bound =>
      rw [value?, hopen]
      cases v with
      | extension kind b => exact if_neg (hdeep kind b rfl)
      | _ => rfl

/-! ## Elements and entries -/

theorem items?_renderItems {depth : Nat} (items : List Pack) : ∀ {bound : Nat} {rest : Bytes},
    (∀ v ∈ items, ReadsBack depth v) → 2 * (renderItems items).length ≤ bound →
    items? bound depth items.length (renderItems items ++ rest) = some (items, rest) := by
  induction items with
  | nil =>
      intro bound rest _ _
      rw [items?.eq_def]
      rfl
  | cons v items ih =>
      intro bound rest hitems hbound
      obtain ⟨hpos, hv⟩ := hitems v List.mem_cons_self
      rw [renderItems, List.length_append] at hbound
      cases bound with
      | zero => omega
      | succ bound =>
          rw [renderItems, List.append_assoc, List.length_cons, items?, hv _ _ (by omega)]
          dsimp only
          rw [ih (fun w hw => hitems w (List.mem_cons_of_mem v hw)) (by omega)]
          rfl

theorem entries?_renderEntries {depth : Nat} (entries : List (Pack × Pack)) :
    ∀ {bound : Nat} {rest : Bytes},
      (∀ e ∈ entries, ReadsBack depth e.1) → (∀ e ∈ entries, ReadsBack depth e.2) →
      2 * (renderEntries entries).length ≤ bound →
      entries? bound depth entries.length (renderEntries entries ++ rest) =
        some (entries, rest) := by
  induction entries with
  | nil =>
      intro bound rest _ _ _
      rw [entries?.eq_def]
      rfl
  | cons e entries ih =>
      intro bound rest hkeys hvalues hbound
      obtain ⟨k, v⟩ := e
      obtain ⟨hpos, hk⟩ : ReadsBack depth k := hkeys (k, v) List.mem_cons_self
      obtain ⟨-, hv⟩ : ReadsBack depth v := hvalues (k, v) List.mem_cons_self
      rw [renderEntries, List.length_append, List.length_append] at hbound
      cases bound with
      | zero => omega
      | succ bound =>
          rw [renderEntries, List.append_assoc, List.append_assoc, List.length_cons, entries?,
            hk _ _ (by omega)]
          dsimp only
          rw [hv _ _ (by omega)]
          dsimp only
          rw [ih (fun e he => hkeys e (List.mem_cons_of_mem _ he))
            (fun e he => hvalues e (List.mem_cons_of_mem _ he)) (by omega)]
          rfl

theorem array_readsBack {depth : Nat} {items : List Pack} (h : items.length < 0x100000000)
    (hitems : ∀ v ∈ items, ReadsBack depth v) : ReadsBack (depth + 1) (.array items) := by
  have hpos := length_pos_of_opening (opening?_array h [])
  have hrender : (Pack.array items).render = arrayHeader items.length ++ renderItems items := by
    rw [render]
  have hlength := congrArg List.length hrender
  rw [List.length_append] at hlength
  refine ⟨by omega, fun bound rest hbound => ?_⟩
  cases bound with
  | zero => omega
  | succ bound =>
      rw [hrender, List.append_assoc, value?, opening?_array h]
      dsimp only
      rw [items?_renderItems items hitems (by omega)]
      rfl

theorem map_readsBack {depth : Nat} {entries : List (Pack × Pack)}
    (h : entries.length < 0x100000000) (hkeys : ∀ e ∈ entries, ReadsBack depth e.1)
    (hvalues : ∀ e ∈ entries, ReadsBack depth e.2) : ReadsBack (depth + 1) (.map entries) := by
  have hpos := length_pos_of_opening (opening?_map h [])
  have hrender : (Pack.map entries).render = mapHeader entries.length ++ renderEntries entries := by
    rw [render]
  have hlength := congrArg List.length hrender
  rw [List.length_append] at hlength
  refine ⟨by omega, fun bound rest hbound => ?_⟩
  cases bound with
  | zero => omega
  | succ bound =>
      rw [hrender, List.append_assoc, value?, opening?_map h]
      dsimp only
      rw [entries?_renderEntries entries hkeys hvalues (by omega)]
      rfl

/-! ## Values -/

theorem IsSized.readsBack {depth : Nat} {v : Pack} (h : v.IsSized depth) : ReadsBack depth v := by
  induction h with
  | nil => exact readsBack_of_opening (fun _ => rfl) nofun
  | bool depth b => exact readsBack_of_opening (fun _ => by cases b <;> rfl) nofun
  | unsigned depth n =>
      exact readsBack_of_opening (fun rest => by rw [render, opening?_unsigned]) nofun
  | signed depth n =>
      exact readsBack_of_opening (fun rest => by rw [render, opening?_signed]) nofun
  | float depth x =>
      refine readsBack_of_opening (fun rest => ?_) nofun
      rw [render]
      exact opening?_float x rest
  | text depth h =>
      refine readsBack_of_opening (fun rest => ?_) nofun
      rw [render, List.append_assoc, opening?_text h]
  | binary depth h =>
      refine readsBack_of_opening (fun rest => ?_) nofun
      rw [render, List.append_assoc, opening?_binary h]
  | extension depth kind h =>
      refine readsBack_of_opening (fun rest => ?_) fun _ _ _ => Nat.succ_ne_zero depth
      rw [render, List.append_assoc]
      exact opening?_extension kind h rest
  | array h _ ih => exact array_readsBack h ih
  | map h _ _ ihkeys ihvalues => exact map_readsBack h ihkeys ihvalues

theorem parse?_render_append {v : Pack} (h : v.IsSized deepest) (rest : Bytes) :
    parse? (v.render ++ rest) = some v := by
  have hread := h.readsBack.value?_eq (2 * (v.render ++ rest).length + 1) rest
    (by rw [List.length_append]; omega)
  rw [parse?, hread]
  rfl

theorem parse?_render {v : Pack} (h : v.IsSized deepest) : parse? v.render = some v := by
  have hread := parse?_render_append h []
  rwa [List.append_nil] at hread

/-- No value is written as a proper prefix of what another one is written as. -/
theorem eq_of_isPrefix_render {v w : Pack} (hv : v.IsSized deepest) (hw : w.IsSized deepest)
    (h : v.render <+: w.render) : v = w := by
  obtain ⟨rest, hrest⟩ := h
  have hread := parse?_render_append hv rest
  rw [hrest, parse?_render hw] at hread
  exact (Option.some.inj hread).symm

/-! ## The bytes of parts -/

theorem length_le_render_text (bytes : Bytes) : bytes.length ≤ (Pack.text bytes).render.length := by
  rw [render, List.length_append]
  omega

theorem renderItems_length_lt (items : List Pack) :
    (renderItems items).length < (Pack.array items).render.length := by
  have hheader : 0 < (arrayHeader items.length).length := by
    rw [arrayHeader]
    split
    · simp
    · split <;> simp
  rw [render, List.length_append]
  omega

theorem render_length_le_renderItems {v : Pack} {items : List Pack} (h : v ∈ items) :
    v.render.length ≤ (renderItems items).length := by
  induction items with
  | nil => cases h
  | cons w items ih =>
      rw [renderItems, List.length_append]
      rcases List.mem_cons.1 h with rfl | h
      · omega
      · have hle := ih h
        omega

theorem length_le_renderItems (items : List Pack) (h : ∀ v ∈ items, 0 < v.render.length) :
    items.length ≤ (renderItems items).length := by
  induction items with
  | nil => simp
  | cons v items ih =>
      have hv := h v List.mem_cons_self
      have hle := ih fun w hw => h w (List.mem_cons_of_mem v hw)
      rw [renderItems, List.length_append, List.length_cons]
      omega

theorem render_length_le_renderEntries {k v : Pack} {entries : List (Pack × Pack)}
    (h : (k, v) ∈ entries) : v.render.length ≤ (renderEntries entries).length := by
  induction entries with
  | nil => cases h
  | cons e entries ih =>
      obtain ⟨k', v'⟩ := e
      rw [renderEntries, List.length_append, List.length_append]
      rcases List.mem_cons.1 h with heq | h
      · cases heq
        omega
      · have hle := ih h
        omega

theorem render_length_le_record {name : String} {v : Pack} {members : List (String × Pack)}
    (h : (name, v) ∈ members) : v.render.length ≤ (record members).render.length := by
  have hmem : (string name, v) ∈ members.map fun m => (string m.1, m.2) :=
    List.mem_map.2 ⟨(name, v), h, rfl⟩
  have hle := render_length_le_renderEntries hmem
  rw [record, render, List.length_append]
  omega

/-! ## What readers make of values -/

theorem int_isSized (depth : Nat) (n : Int64) : (Pack.int n).IsSized depth := by
  rw [int]
  split
  · exact .unsigned depth _
  · exact .signed depth n

theorem asString?_string (s : String) : (Pack.string s).asString? = some s := Utf8.decode?_encode s

theorem asInt64?_int (n : Int64) : asInt64? (Pack.int n) = some n := by
  rw [int]
  split
  · next h =>
      have hlt := n.toInt_lt
      have hn : n.toInt.toNat.toUInt64.toNat = n.toInt.toNat :=
        UInt64.toNat_ofNat_of_lt' (show n.toInt.toNat < 0x10000000000000000 by omega)
      rw [asInt64?, hn, if_pos (by omega), Int.toNat_of_nonneg h, Int64.ofInt_toInt]
  · rfl

end EntityStore.Pack
