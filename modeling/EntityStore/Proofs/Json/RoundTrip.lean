import EntityStore.Proofs.Json.Numbers
import EntityStore.Proofs.Json.Texts

/-!
# JSON values are read back

A value is read back from what it is written as (`parse?_render`), with its
texts as they come back, if its numbers are ones that a text can hold, and an
object may have blanks around it (`parse?_object`). The induction follows the
value. What it needs of whatever is read next is that it ends a number, as
commas and closing brackets do; and the reader takes fewer steps than twice the
number of bytes, for each value, element and member costs it one step and takes
at least one byte, and an element or member takes one byte more for what
separates or closes it.
-/

namespace EntityStore.Json

/-- A value whose numbers a text can hold. -/
inductive IsProper : Json → Prop where
  | null : IsProper .null
  | bool (b : Bool) : IsProper (.bool b)
  | number {n : Number} (h : n.IsProper) : IsProper (.number n)
  | text (t : RawText) : IsProper (.text t)
  | array {items : List Json} (h : ∀ v ∈ items, IsProper v) : IsProper (.array items)
  | object {members : List (RawText × Json)} (h : ∀ m ∈ members, IsProper m.2) :
      IsProper (.object members)

mutual

/-- A value as it comes back. -/
def reread : Json → Json
  | .null => .null
  | .bool b => .bool b
  | .number n => .number n
  | .text t => .text t.reread
  | .array items => .array (rereadItems items)
  | .object members => .object (rereadMembers members)

/-- Elements as they come back. -/
def rereadItems : List Json → List Json
  | [] => []
  | v :: rest => reread v :: rereadItems rest

/-- Members as they come back. -/
def rereadMembers : List (RawText × Json) → List (RawText × Json)
  | [] => []
  | (name, v) :: rest => (name.reread, reread v) :: rereadMembers rest

end

theorem rereadItems_eq_map (items : List Json) : rereadItems items = items.map reread := by
  induction items with
  | nil => rfl
  | cons v rest ih => rw [rereadItems, ih, List.map_cons]

theorem rereadMembers_eq_map (members : List (RawText × Json)) :
    rereadMembers members = members.map fun m => (m.1.reread, m.2.reread) := by
  induction members with
  | nil => rfl
  | cons m rest ih => rw [rereadMembers, ih, List.map_cons]

/-- A value is read from what it is written as, whatever ends it. -/
def ReadsBack (v : Json) : Prop :=
  ∀ (bound : Nat) (rest : Bytes), 2 * v.render.length ≤ bound → endsNumber rest = true →
    value? bound (v.render ++ rest) = some (v.reread, rest)

/-! ## Blanks and first bytes -/

theorem skipBlanks_cons {a : UInt8} (h : isBlank a = false) (rest : Bytes) :
    skipBlanks (a :: rest) = a :: rest := by
  rw [skipBlanks, List.dropWhile_cons_of_neg]
  rw [h]
  exact Bool.false_ne_true

theorem literal?_append (word rest : Bytes) : literal? word (word ++ rest) = some rest := by
  rw [literal?, if_pos (List.isPrefixOf_iff_prefix.2 (List.prefix_append word rest)),
    List.drop_left]

/-- The first byte of a number begins nothing else. -/
theorem number_head {a : UInt8} (h : a = 0x2D ∨ ∃ d : Decimal.Digit, a = (48 + d.val).toUInt8) :
    isBlank a = false ∧ a ≠ 0x5D ∧ (a == 0x22) = false ∧ (a == 0x5B) = false ∧
      (a == 0x7B) = false ∧ (a == 0x6E) = false ∧ (a == 0x74) = false ∧ (a == 0x66) = false := by
  rcases h with rfl | ⟨d, rfl⟩
  · decide
  · revert d
    decide

/-- No value begins with a blank or a closing bracket. -/
theorem render_head {v : Json} (h : v.IsProper) :
    ∃ a more, v.render = a :: more ∧ isBlank a = false ∧ a ≠ 0x5D := by
  cases h with
  | null => exact ⟨0x6E, _, by rw [render]; rfl, by decide, by decide⟩
  | bool b =>
      cases b with
      | true => exact ⟨0x74, _, by rw [render]; rfl, by decide, by decide⟩
      | false => exact ⟨0x66, _, by rw [render]; rfl, by decide, by decide⟩
  | number hn =>
      obtain ⟨a, more, hrender, hhead⟩ := renderNumber_head hn
      obtain ⟨hblank, hclose, -⟩ := number_head hhead
      exact ⟨a, more, by rw [render, hrender], hblank, hclose⟩
  | text t => exact ⟨0x22, _, by rw [render, renderText]; rfl, by decide, by decide⟩
  | array _ => exact ⟨0x5B, _, by rw [render], by decide, by decide⟩
  | object _ => exact ⟨0x7B, _, by rw [render], by decide, by decide⟩

theorem render_length_pos {v : Json} (h : v.IsProper) : 0 < v.render.length := by
  obtain ⟨a, more, hrender, -⟩ := render_head h
  rw [hrender]
  exact Nat.succ_pos _

/-! ## Values without parts -/

theorem null_readsBack : ReadsBack .null := by
  intro bound rest hbound _
  cases bound with
  | zero => cases hbound
  | succ bound =>
      rw [render, value?.eq_def]
      exact congrArg (Option.map (Json.null, ·)) (literal?_append (Utf8.encode "ull") rest)

theorem bool_readsBack (b : Bool) : ReadsBack (.bool b) := by
  intro bound rest hbound _
  cases bound with
  | zero => cases b <;> cases hbound
  | succ bound =>
      rw [render, value?.eq_def]
      cases b with
      | true =>
          exact congrArg (Option.map (Json.bool true, ·))
            (literal?_append (Utf8.encode "rue") rest)
      | false =>
          exact congrArg (Option.map (Json.bool false, ·))
            (literal?_append (Utf8.encode "alse") rest)

theorem number_readsBack {n : Number} (h : n.IsProper) : ReadsBack (.number n) := by
  intro bound rest hbound hrest
  have hpos := render_length_pos (.number h)
  cases bound with
  | zero => omega
  | succ bound =>
      have hread := number?_renderNumber h hrest
      obtain ⟨a, more, hrender, hhead⟩ := renderNumber_head h
      obtain ⟨hblank, -, h1, h2, h3, h4, h5, h6⟩ := number_head hhead
      rw [hrender, List.cons_append] at hread
      rw [render, hrender, List.cons_append, value?, skipBlanks_cons hblank]
      simp only [h1, h2, h3, h4, h5, h6, Bool.false_eq_true, if_false, hread]
      rfl

theorem renderText_append (t : RawText) (rest : Bytes) :
    renderText t ++ rest = 0x22 :: (t.flatMap renderPiece ++ 0x22 :: rest) := by
  rw [renderText, List.append_assoc]
  rfl

theorem text_readsBack (t : RawText) : ReadsBack (.text t) := by
  intro bound rest hbound _
  cases bound with
  | zero => cases hbound
  | succ bound =>
      rw [render, renderText_append, value?, skipBlanks_cons (by decide)]
      dsimp only
      rw [if_pos (by decide), rawText?_pieces]
      rfl

/-! ## Elements -/

theorem items?_renderItems (items : List Json) : ∀ (v : Json) (bound : Nat) (rest : Bytes),
    ReadsBack v → (∀ w ∈ items, ReadsBack w) →
    2 * (renderItems (v :: items)).length ≤ bound →
    items? bound (renderItems (v :: items) ++ rest) = some (rereadItems (v :: items), rest) := by
  induction items with
  | nil =>
      intro v bound rest hv _ hbound
      rw [renderItems, renderMoreItems, List.length_append, List.length_singleton] at hbound
      cases bound with
      | zero => omega
      | succ bound =>
          rw [renderItems, renderMoreItems, List.append_assoc, items?,
            hv _ _ (by omega) (by rfl)]
          rfl
  | cons w items ih =>
      intro v bound rest hv hitems hbound
      have hmore : renderMoreItems (w :: items) = 0x2C :: renderItems (w :: items) := by
        rw [renderMoreItems, renderItems]
      rw [renderItems, hmore, List.length_append, List.length_cons] at hbound
      cases bound with
      | zero => omega
      | succ bound =>
          have hrest := ih w bound rest (hitems w List.mem_cons_self)
            (fun u hu => hitems u (List.mem_cons_of_mem w hu)) (by omega)
          rw [renderItems, hmore, List.append_assoc, List.cons_append, items?,
            hv _ _ (by omega) (by rfl)]
          simp only [skipBlanks_cons (show isBlank 0x2C = false by decide), hrest]
          rfl

theorem array_readsBack {items : List Json} (hproper : ∀ v ∈ items, IsProper v)
    (h : ∀ v ∈ items, ReadsBack v) : ReadsBack (.array items) := by
  intro bound rest hbound _
  rw [render, List.length_cons] at hbound
  cases bound with
  | zero => cases hbound
  | succ bound =>
      rw [render, List.cons_append, value?, skipBlanks_cons (by decide)]
      cases items with
      | nil => rfl
      | cons v items =>
          have hread := items?_renderItems items v bound rest
            (h v List.mem_cons_self) (fun w hw => h w (List.mem_cons_of_mem v hw)) (by omega)
          -- a closing bracket is looked for before the first element, which does not begin with one
          obtain ⟨a, more, hrender, hblank, hclose⟩ := render_head (hproper v List.mem_cons_self)
          rw [renderItems, hrender, List.cons_append, List.cons_append] at hread ⊢
          dsimp only
          rw [if_neg (by decide), if_pos (by decide), skipBlanks_cons hblank]
          split
          · next heq => exact absurd (List.cons.inj heq).1 hclose
          · rw [hread]
            rfl

/-! ## Members -/

theorem members?_last (name : RawText) {v : Json} (hv : ReadsBack v) {bound : Nat}
    (hbound : 2 * v.render.length ≤ bound) (rest : Bytes) :
    members? (bound + 1) (renderText name ++ 0x3A :: (v.render ++ 0x7D :: rest)) =
      some ([(name.reread, v.reread)], rest) := by
  have hvalue := hv bound (0x7D :: rest) hbound rfl
  rw [renderText_append, members?, skipBlanks_cons (by decide)]
  simp only [rawText?_pieces, skipBlanks_cons (show isBlank 0x3A = false by decide), hvalue,
    skipBlanks_cons (show isBlank 0x7D = false by decide)]

theorem members?_next (name : RawText) {v : Json} (hv : ReadsBack v) {bound : Nat}
    (hbound : 2 * v.render.length ≤ bound) (more : Bytes) :
    members? (bound + 1) (renderText name ++ 0x3A :: (v.render ++ 0x2C :: more)) =
      (members? bound more).map fun (members, rest) =>
        ((name.reread, v.reread) :: members, rest) := by
  have hvalue := hv bound (0x2C :: more) hbound rfl
  rw [renderText_append, members?, skipBlanks_cons (by decide)]
  simp only [rawText?_pieces, skipBlanks_cons (show isBlank 0x3A = false by decide), hvalue,
    skipBlanks_cons (show isBlank 0x2C = false by decide)]

theorem members?_renderMembers (members : List (RawText × Json)) :
    ∀ (name : RawText) (v : Json) (bound : Nat) (rest : Bytes),
      ReadsBack v → (∀ m ∈ members, ReadsBack m.2) →
      2 * (renderMembers ((name, v) :: members)).length ≤ bound →
      members? bound (renderMembers ((name, v) :: members) ++ rest) =
        some (rereadMembers ((name, v) :: members), rest) := by
  induction members with
  | nil =>
      intro name v bound rest hv _ hbound
      rw [renderMembers, renderMoreMembers, List.length_append, List.length_cons,
        List.length_append, List.length_singleton] at hbound
      cases bound with
      | zero => omega
      | succ bound =>
          rw [renderMembers, renderMoreMembers, List.append_assoc, List.cons_append,
            List.append_assoc]
          exact members?_last name hv (by omega) rest
  | cons w members ih =>
      intro name v bound rest hv hmembers hbound
      obtain ⟨next, u⟩ := w
      have hmore : renderMoreMembers ((next, u) :: members) =
          0x2C :: renderMembers ((next, u) :: members) := by
        rw [renderMoreMembers, renderMembers]
      rw [renderMembers, hmore, List.length_append, List.length_cons, List.length_append,
        List.length_cons] at hbound
      cases bound with
      | zero => omega
      | succ bound =>
          have hu : ReadsBack u := hmembers (next, u) List.mem_cons_self
          have hrest := ih next u bound rest hu
            (fun m hm => hmembers m (List.mem_cons_of_mem _ hm)) (by omega)
          rw [renderMembers, hmore, List.append_assoc, List.cons_append, List.append_assoc,
            List.cons_append, members?_next name hv (by omega), hrest]
          rfl

/-- An object is read whatever follows it, for its closing brace ends it. -/
theorem value?_object {members : List (RawText × Json)} (h : ∀ m ∈ members, ReadsBack m.2)
    {bound : Nat} (hbound : 2 * (object members).render.length ≤ bound) (rest : Bytes) :
    value? bound ((object members).render ++ rest) = some ((object members).reread, rest) := by
  rw [render, List.length_cons] at hbound
  cases bound with
  | zero => cases hbound
  | succ bound =>
      rw [render, List.cons_append, value?, skipBlanks_cons (by decide)]
      cases members with
      | nil => rfl
      | cons m members =>
          obtain ⟨name, v⟩ := m
          have hv : ReadsBack v := h (name, v) List.mem_cons_self
          have hread := members?_renderMembers members name v bound rest hv
            (fun w hw => h w (List.mem_cons_of_mem _ hw)) (by omega)
          rw [renderMembers, List.append_assoc, renderText_append] at hread ⊢
          simp only [skipBlanks_cons (show isBlank 0x22 = false by decide), hread]
          rfl

theorem object_readsBack {members : List (RawText × Json)} (h : ∀ m ∈ members, ReadsBack m.2) :
    ReadsBack (.object members) :=
  fun _ rest hbound _ => value?_object h hbound rest

/-! ## Values -/

theorem IsProper.readsBack {v : Json} (h : v.IsProper) : ReadsBack v := by
  induction h with
  | null => exact null_readsBack
  | bool b => exact bool_readsBack b
  | number hn => exact number_readsBack hn
  | text t => exact text_readsBack t
  | array h ih => exact array_readsBack h ih
  | object _ ih => exact object_readsBack ih

theorem parse?_render {v : Json} (h : v.IsProper) : parse? v.render = some v.reread := by
  have hread := h.readsBack (2 * v.render.length + 1) [] (by omega) rfl
  rw [List.append_nil] at hread
  rw [parse?, hread]
  rfl

/-! ## Blanks around values -/

/-- Bytes that are blanks and nothing else. -/
def AreBlanks (bytes : Bytes) : Prop := ∀ b ∈ bytes, isBlank b = true

theorem value?_blanks {before : Bytes} (h : AreBlanks before) (bound : Nat) (bytes : Bytes) :
    value? bound (before ++ bytes) = value? bound bytes := by
  cases bound with
  | zero => rw [value?, value?]
  | succ bound =>
      have hskip : skipBlanks (before ++ bytes) = skipBlanks bytes :=
        List.dropWhile_append_of_pos h
      rw [value?, value?, hskip]

/-- An object is read back with blanks around it, and not if anything else follows it. -/
theorem parse?_object {members : List (RawText × Json)} (h : (object members).IsProper)
    {before : Bytes} (hbefore : AreBlanks before) (after : Bytes) :
    (AreBlanks after →
      parse? (before ++ (object members).render ++ after) = some (object members).reread) ∧
    (¬ AreBlanks after → parse? (before ++ (object members).render ++ after) = none) := by
  have hmembers : ∀ m ∈ members, ReadsBack m.2 := by
    cases h with
    | object h => exact fun m hm => (h m hm).readsBack
  have hread : value? (2 * (before ++ (object members).render ++ after).length + 1)
      (before ++ (object members).render ++ after) = some ((object members).reread, after) := by
    rw [List.append_assoc, value?_blanks hbefore]
    refine value?_object hmembers ?_ after
    rw [List.length_append, List.length_append]
    omega
  have hblanks : (skipBlanks after).isEmpty = true ↔ AreBlanks after := by
    rw [List.isEmpty_iff]
    exact List.dropWhile_eq_nil_iff
  constructor
  · intro hafter
    simp only [parse?, hread, hblanks.2 hafter, if_true]
  · intro hafter
    simp only [parse?, hread, if_neg (mt hblanks.1 hafter)]

/-! ## What readers make of values that come back -/

theorem string_isProper (s : String) : (Json.string s).IsProper := .text _

theorem record_isProper {members : List (String × Json)} (h : ∀ m ∈ members, m.2.IsProper) :
    (record members).IsProper := by
  refine .object fun m hm => ?_
  obtain ⟨m', hm', rfl⟩ := List.mem_map.1 hm
  exact h m' hm'

theorem float_isProper (x : Binary64) : (Json.float x).IsProper := by
  rw [float]
  split
  · exact .number (layout_isProper _ Decimal.shortest_exponent_eq_zero)
  · exact .null

theorem float_reread (x : Binary64) : (Json.float x).reread = Json.float x := by
  rw [float]
  split <;> rw [reread]

theorem int_reread (n : Int) : (Json.int n).reread = Json.int n := by
  rw [int, reread]

theorem asString?_reread (s : String) : (Json.string s).reread.asString? = some s := by
  rw [string, reread, asString?, RawText.decode?_ofString]

/-- A list that is read item by item. -/
theorem mapM_map_of_reads {α β γ : Type} {read? : β → Option γ} {f : α → β} {g : α → γ}
    (h : ∀ a, read? (f a) = some (g a)) (l : List α) : (l.map f).mapM read? = some (l.map g) := by
  rw [List.mapM_map, show read? ∘ f = fun a => pure (g a) from funext h, List.mapM_pure]
  rfl

/-- A record comes back with its members as they come back. -/
theorem asRecord?_reread {known : List String} {members : List (String × Json)}
    (h : knownOnce known (members.map Prod.fst) = true) :
    (record members).reread.asRecord? known =
      some ⟨true, members.map fun m => (m.1, m.2.reread)⟩ := by
  have hmember : ∀ m : String × Json,
      (do return (← (RawText.ofString m.1).reread.decode?, m.2.reread)) =
        some (m.1, m.2.reread) := by
    intro m
    rw [RawText.decode?_ofString]
    rfl
  rw [record, reread, rereadMembers_eq_map, asRecord?, List.map_map,
    mapM_map_of_reads (g := fun m => (m.1, m.2.reread)) hmember]
  simp only [Option.bind_eq_bind, Option.bind_some, List.map_map]
  exact if_pos h

end EntityStore.Json
