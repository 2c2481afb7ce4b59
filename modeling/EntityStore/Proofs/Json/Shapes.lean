import EntityStore.Json.Shape
import EntityStore.Proofs.Json.Compact

/-!
# Shapes are read back

A reader undoes a writer (`Reads`) if it reads what the writer wrote once that
comes back from a text. The parts of a shape do so by themselves: texts, whole
numbers, names out of a choice, lists and pairs of what is read back, and the
members of a record. A shape is then the sum of its parts.

Members leave a choice. One that is absent may be left out or be null, and one
that has the value which is read in its absence may be left out or be written. A
`Style` makes this choice for every name, and whatever it is, the reader finds
what was there.
-/

namespace EntityStore.Json

variable {α : Type}

/-- A reader that undoes a writer, and for which null is no value. -/
structure Reads (read? : Json → Option α) (write : α → Json) : Prop where
  legible : ∀ a, (write a).IsLegible
  read_reread : ∀ a, read? (write a).reread = some a
  read_null : read? .null = none

/-- What was written as a text is read from it. -/
theorem Reads.parse?_compact {read? : Json → Option α} {write : α → Json} (h : Reads read? write)
    (a : α) : (parse? (Utf8.encode (write a).compact)).bind read? = some a := by
  rw [(h.legible a).parse?_compact, Option.bind_some, h.read_reread]

/-! ## Texts, numbers, names, lists and pairs -/

theorem string_reads : Reads asString? string where
  legible := .string
  read_reread := asString?_reread
  read_null := rfl

theorem uint64_reads : Reads (ofJson? : Json → Option UInt64) toJson where
  legible n := .number ⟨digits_isWhole n.toNat, fun h => by cases h⟩
  read_reread n := by
    have hsame : (Json.nat n.toNat).reread = Json.nat n.toNat := by rw [nat, reread]
    change asUInt64? (Json.nat n.toNat).reread = some n
    rw [hsame, asUInt64?_nat]
  read_null := rfl

/-- Names out of a choice. -/
theorem names_reads {name : α → String} {ofName? : String → Option α}
    (h : ∀ a, ofName? (name a) = some a) :
    Reads (fun v => v.asName?.bind ofName?) (fun a => string (name a)) where
  legible a := .string (name a)
  read_reread a := by
    have hname : (string (name a)).reread.asName? = some (name a) := asString?_reread (name a)
    rw [hname, Option.bind_some, h]
  read_null := rfl

theorem Reads.list {read? : Json → Option α} {write : α → Json} (h : Reads read? write) :
    Reads (asList? read?) (JsonShape.listToJson write) where
  legible l := .array fun v hv => by
    obtain ⟨a, -, rfl⟩ := List.mem_map.1 hv
    exact h.legible a
  read_reread l := by
    rw [JsonShape.listToJson, reread, rereadItems_eq_map, asList?, List.map_map,
      mapM_map_of_reads (f := reread ∘ write) h.read_reread, List.map_id']
  read_null := rfl

theorem pair_reads {β : Type} {first? : Json → Option α} {second? : Json → Option β}
    {first : α → Json} {second : β → Json} (hfirst : Reads first? first)
    (hsecond : Reads second? second) :
    Reads (asPair? first? second?) (fun p : α × β => .array [first p.1, second p.2]) where
  legible p := by
    refine .array ?_
    simp only [List.forall_mem_cons]
    exact ⟨hfirst.legible p.1, hsecond.legible p.2, List.forall_mem_nil _⟩
  read_reread p := by
    rw [reread, rereadItems, rereadItems, rereadItems, asPair?, hfirst.read_reread,
      hsecond.read_reread]
    rfl
  read_null := rfl

/-- A value that may be null, and is not. -/
theorem Reads.asOption?_reread {read? : Json → Option α} {write : α → Json}
    (h : Reads read? write) (a : α) : asOption? read? (write a).reread = some (some a) := by
  have hread := h.read_reread a
  rw [asOption?, hread, Option.map_some]
  intro hnull
  rw [hnull, h.read_null] at hread
  cases hread

/-- A value that is null if it is absent. -/
theorem Reads.orNull_legible {read? : Json → Option α} {write : α → Json} (h : Reads read? write)
    (a : Option α) : (orNull write a).IsLegible := by
  cases a with
  | none => exact .null
  | some a => exact h.legible a

theorem Reads.asOption?_orNull {read? : Json → Option α} {write : α → Json}
    (h : Reads read? write) (a : Option α) :
    asOption? read? (orNull write a).reread = some a := by
  cases a with
  | none => rfl
  | some a => exact h.asOption?_reread a

/-! ## Records -/

/-- Members as they come back, those that are there. -/
def Record.present (members : List (String × Option Json)) : Record :=
  ⟨true, members.filterMap fun m => m.2.map fun v => (m.1, v.reread)⟩

/-- A member that is legible if it is there. -/
def MemberIsLegible (m : String × Option Json) : Prop := ∀ v ∈ m.2, v.IsLegible

theorem required_isLegible {name : String} {v : Json} (h : v.IsLegible) :
    MemberIsLegible (name, some v) := by
  intro w hw
  obtain rfl := Option.some.inj hw
  exact h

theorem present_isLegible {members : List (String × Option Json)}
    (h : ∀ m ∈ members, MemberIsLegible m) : (Json.present members).IsLegible := by
  refine .record fun m hm => ?_
  obtain ⟨m', hm', hsome⟩ := List.mem_filterMap.1 hm
  obtain ⟨v, hv, rfl⟩ := Option.map_eq_some_iff.1 hsome
  exact h m' hm' v hv

/-- The names of the members that are there stand in the order of all names. -/
theorem present_names_sublist (members : List (String × Option Json)) :
    ((members.filterMap fun m => m.2.map fun v => (m.1, v)).map Prod.fst).Sublist
      (members.map Prod.fst) := by
  induction members with
  | nil => exact .slnil
  | cons m members ih =>
      obtain ⟨name, v⟩ := m
      cases v with
      | none => exact ih.cons name
      | some v => exact ih.cons_cons name

/-- A record comes back with the members that are there. -/
theorem asRecord?_present {known : List String} {members : List (String × Option Json)}
    (h : (members.map Prod.fst).Nodup) :
    (Json.present members).reread.asRecord? known = some (Record.present members) := by
  have hnodup := (present_names_sublist members).nodup h
  have honce : knownOnce known
      ((members.filterMap fun m => m.2.map fun v => (m.1, v)).map Prod.fst) = true :=
    List.all_eq_true.2 fun name _ =>
      decide_eq_true (List.nodup_iff_count_le_one.1 hnodup name)
  rw [Json.present, asRecord?_reread honce, Record.present, List.map_filterMap]
  simp only [Option.map_map, Function.comp_def]

/-- A shape that is read member by member. -/
theorem record_reads {members : α → List (String × Option Json)} {known : List String}
    {build? : Record → Option α} (hnames : ∀ a, ((members a).map Prod.fst).Nodup)
    (hlegible : ∀ a, ∀ m ∈ members a, MemberIsLegible m)
    (hbuild : ∀ a, build? (Record.present (members a)) = some a) :
    Reads (fun v => (v.asRecord? known).bind build?) (fun a => Json.present (members a)) where
  legible a := present_isLegible (hlegible a)
  read_reread a := by rw [asRecord?_present (hnames a), Option.bind_some, hbuild]
  read_null := rfl

theorem Record.get?_present_of_notMem {members : List (String × Option Json)} {name : String}
    (h : name ∉ members.map Prod.fst) : (Record.present members).get? name = none := by
  refine List.lookup_eq_none_iff.2 fun p hp => ?_
  obtain ⟨m, hm, hsome⟩ := List.mem_filterMap.1 hp
  obtain ⟨v, -, rfl⟩ := Option.map_eq_some_iff.1 hsome
  refine bne_iff_ne.2 ?_
  rintro rfl
  exact h (List.mem_map_of_mem hm)

/-- Under the name of a member stands what it is written as, if it is there. -/
theorem Record.get?_present {members : List (String × Option Json)}
    (h : (members.map Prod.fst).Nodup) {name : String} {v : Option Json}
    (hmem : (name, v) ∈ members) : (Record.present members).get? name = v.map reread := by
  obtain ⟨before, after, rfl⟩ := List.append_of_mem hmem
  rw [List.map_append, List.map_cons, List.nodup_middle, List.nodup_cons, List.mem_append,
    not_or] at h
  have hbefore := get?_present_of_notMem h.1.1
  have hafter := get?_present_of_notMem h.1.2
  rw [get?, present] at hbefore hafter ⊢
  rw [List.filterMap_append, List.lookup_append, hbefore, Option.none_or]
  cases v with
  | none => exact hafter
  | some v => exact List.lookup_cons_self

section

variable {members : List (String × Option Json)} (hnames : (members.map Prod.fst).Nodup)
  {read? : Json → Option α} {write : α → Json}

include hnames

theorem Record.required?_present (h : Reads read? write) (name : String) (a : α)
    (hmem : (name, some (write a)) ∈ members) :
    (Record.present members).required? name read? = some a := by
  rw [required?, get?_present hnames hmem, Option.map_some, Option.bind_some, h.read_reread]

end

/-! ## What a writer may choose -/

/-- Which absent members are written as null, by name, and which members are left out as long as
they have the value that is read in their absence. -/
structure Style where
  nulls : String → Bool
  omits : String → Bool

namespace Style

/-- A member that may be absent. -/
def optional (style : Style) (name : String) (write : α → Json) (a : Option α) :
    String × Option Json :=
  (name, match a with
    | some a => some (write a)
    | none => if style.nulls name then some .null else none)

/-- A member that has a default. -/
def withDefault (style : Style) (name : String) (isDefault : Bool) (v : Json) :
    String × Option Json :=
  (name, if isDefault && style.omits name then none else some v)

variable (style : Style) {read? : Json → Option α} {write : α → Json}

theorem optional_isLegible (h : Reads read? write) {name : String} (a : Option α) :
    MemberIsLegible (style.optional name write a) := by
  cases a with
  | some a => exact required_isLegible (h.legible a)
  | none =>
      intro v hv
      rw [optional] at hv
      dsimp only at hv
      split at hv
      · obtain rfl := Option.some.inj hv
        exact .null
      · cases hv

theorem withDefault_isLegible {name : String} {isDefault : Bool} {v : Json} (h : v.IsLegible) :
    MemberIsLegible (style.withDefault name isDefault v) := by
  rw [withDefault]
  split
  · intro w hw
    cases hw
  · exact required_isLegible h

variable {members : List (String × Option Json)} (hnames : (members.map Prod.fst).Nodup)

include hnames

/-- An absent member is read as absent, whether it is left out or null. -/
theorem optional?_present (h : Reads read? write) (name : String) (a : Option α)
    (hmem : style.optional name write a ∈ members) :
    (Record.present members).optional? name read? = some a := by
  cases a with
  | none =>
      rw [Record.optional?, Record.withDefault?, Record.get?_present hnames hmem]
      cases style.nulls name <;> rfl
  | some a =>
      rw [Record.optional?, Record.withDefault?, Record.get?_present hnames hmem]
      exact h.asOption?_reread a

/-- A member is read as its default when it is left out, and is only left out then. -/
theorem withDefault?_present (h : Reads read? write) (name : String) {isDefault : Bool}
    (default a : α) (hdefault : isDefault = true → a = default)
    (hmem : style.withDefault name isDefault (write a) ∈ members) :
    (Record.present members).withDefault? name default read? = some a := by
  rw [Record.withDefault?, Record.get?_present hnames hmem]
  cases hleft : isDefault && style.omits name with
  | true =>
      rw [hdefault (Bool.and_eq_true_iff.1 hleft).1]
      rfl
  | false => exact h.read_reread a

end Style

end EntityStore.Json
