import EntityStore.Doc
import EntityStore.Proofs.Json.Shapes
import EntityStore.Proofs.MessagePack.RoundTrip

/-!
# Documents come back from both formats

From MessagePack a document comes back as it is stored, without its memo, if its
texts and lists are short enough for the format to count (`Doc.messagePack_reads`).

From JSON it comes back so but for its float (`Doc.json_reads`). A float is
written as its shortest decimal, which is read with one rounding more than the
nearest value takes, so that what is read may be a neighbour; and what is no
number is written as null, which is no float at all.
-/

namespace EntityStore.Doc

/-! ## JSON -/

section

open Json

theorem pairs_reads : Reads (asList? (asPair? asString? asString?))
    (JsonShape.listToJson fun p : String × String => pairToJson p.1 p.2) :=
  (pair_reads string_reads string_reads).list

theorem pairsToJson_eq {α : Type} (first second : α → String) (l : List α) :
    Json.array (l.map fun a => pairToJson (first a) (second a)) =
      JsonShape.listToJson (fun p : String × String => pairToJson p.1 p.2)
        (l.map fun a => (first a, second a)) := by
  rw [JsonShape.listToJson, List.map_map]
  rfl

theorem pairsToJson_isLegible {α : Type} (first second : α → String) (l : List α) :
    (Json.array (l.map fun a => pairToJson (first a) (second a))).IsLegible := by
  rw [pairsToJson_eq]
  exact pairs_reads.legible _

theorem asPairs?_reread {α : Type} (first second : α → String) (l : List α) :
    asList? (asPair? asString? asString?)
        (Json.array (l.map fun a => pairToJson (first a) (second a))).reread =
      some (l.map fun a => (first a, second a)) := by
  rw [pairsToJson_eq]
  exact pairs_reads.read_reread _

/-- A document is written with numbers that a text can hold. -/
theorem toJson_isProper (d : Doc) : (toJson d).IsProper := by
  refine record_isProper fun m hm => ?_
  simp only [List.mem_cons, List.not_mem_nil, or_false] at hm
  rcases hm with rfl | rfl | rfl | rfl | rfl | rfl
  · exact string_isProper d.id
  · exact (pairsToJson_isLegible Reference.key Reference.value d.references).isProper
  · exact (pairsToJson_isLegible Property.name Property.value d.properties).isProper
  · exact (string_reads.orNull_legible d.version).isProper
  · exact .number (int_isProper _)
  · exact float_isProper d.float

/-- A document comes back without its memo and with its float as it is read, if it is. -/
theorem ofJson?_reread (d : Doc) :
    ofJson? (toJson d).reread =
      (Json.float d.float).asBinary64?.map fun x => { d.stored with float := x } := by
  obtain ⟨r, hrecord, hr⟩ : ∃ r, (toJson d).reread.asRecord? memberNames = some r ∧ r = _ :=
    ⟨_, asRecord?_reread (by rfl), rfl⟩
  have hid : r.get? "id" = some (string d.id).reread := by rw [hr]; rfl
  have hrefs : r.get? "refs" =
      some (array (d.references.map fun r => pairToJson r.key r.value)).reread := by rw [hr]; rfl
  have hprops : r.get? "props" =
      some (array (d.properties.map fun p => pairToJson p.name p.value)).reread := by rw [hr]; rfl
  have hversion : r.get? "version" = some (orNull string d.version).reread := by rw [hr]; rfl
  have hnumber : r.get? "n" = some (int d.number.toInt) := by
    rw [hr]
    exact congrArg some (int_reread _)
  have hfloat : r.get? "f" = some (Json.float d.float) := by
    rw [hr]
    exact congrArg some (float_reread _)
  simp only [JsonShape.ofJson?, hrecord, Option.bind_eq_bind, Option.bind_some, Record.required?,
    Record.nullable?, hid, hrefs, hprops, hversion, hnumber, hfloat, asString?_reread,
    asPairs?_reread, string_reads.asOption?_orNull, Json.asInt64?_int]
  cases (Json.float d.float).asBinary64? with
  | none => rfl
  | some x =>
      simp only [Option.bind_some, Option.map_some, List.map_map, Function.comp_def, stored]
      simp

theorem json_reads (d : Doc) :
    (Json.parse? (toJson d).render).bind ofJson? =
      (Json.float d.float).asBinary64?.map fun x => { d.stored with float := x } := by
  rw [Json.parse?_render d.toJson_isProper, Option.bind_some, ofJson?_reread]

/-- A document comes back with blanks around it, and not if anything else follows it. -/
theorem json_reads_between (d : Doc) {before : Bytes} (hbefore : AreBlanks before)
    (after : Bytes) :
    (AreBlanks after → (Json.parse? (before ++ (toJson d).render ++ after)).bind ofJson? =
      (Json.float d.float).asBinary64?.map fun x => { d.stored with float := x }) ∧
    (¬ AreBlanks after →
      (Json.parse? (before ++ (toJson d).render ++ after)).bind ofJson? = (none : Option Doc)) := by
  obtain ⟨hread, hrefused⟩ := Json.parse?_object d.toJson_isProper hbefore after
  refine ⟨fun hafter => ?_, fun hafter => ?_⟩
  · rw [show parse? (before ++ (toJson d).render ++ after) = some (toJson d).reread from
      hread hafter, Option.bind_some, ofJson?_reread]
  · rw [show parse? (before ++ (toJson d).render ++ after) = none from hrefused hafter]
    rfl

end

/-! ## MessagePack -/

section

open Pack

/-- A text that is short enough for its length to take four bytes. -/
def IsShort (s : String) : Prop := (Utf8.encode s).length < 0x100000000

/-- A document whose texts and lists are short enough for their lengths to take four bytes. -/
structure IsSized (d : Doc) : Prop where
  id : IsShort d.id
  references : d.references.length < 0x100000000
  referenceKeys : ∀ r ∈ d.references, IsShort r.key
  referenceValues : ∀ r ∈ d.references, IsShort r.value
  properties : d.properties.length < 0x100000000
  propertyNames : ∀ p ∈ d.properties, IsShort p.name
  propertyValues : ∀ p ∈ d.properties, IsShort p.value
  version : ∀ v ∈ d.version, IsShort v

theorem pairToPack_isSized (depth : Nat) {a b : String} (ha : IsShort a) (hb : IsShort b) :
    (pairToPack a b).IsSized (depth + 1) := by
  refine .array (by simp) fun v hv => ?_
  rcases List.mem_cons.1 hv with rfl | hv
  · exact .text depth ha
  · obtain rfl := List.mem_singleton.1 hv
    exact .text depth hb

theorem pairsToPack_isSized {α : Type} (depth : Nat) (first second : α → String) {l : List α}
    (hlength : l.length < 0x100000000) (hfirst : ∀ a ∈ l, IsShort (first a))
    (hsecond : ∀ a ∈ l, IsShort (second a)) :
    (Pack.array (l.map fun a => pairToPack (first a) (second a))).IsSized (depth + 2) := by
  refine .array (by rwa [List.length_map]) fun v hv => ?_
  obtain ⟨a, ha, rfl⟩ := List.mem_map.1 hv
  exact pairToPack_isSized depth (hfirst a ha) (hsecond a ha)

theorem orNilString_isSized (depth : Nat) {text : Option String} (h : ∀ s ∈ text, IsShort s) :
    (Pack.orNil Pack.string text).IsSized depth := by
  cases text with
  | none => exact .nil depth
  | some s => exact .text depth (h s rfl)

/-- A document nests three deep, its lists of pairs inside its record. -/
theorem toPack_isSized {d : Doc} (h : d.IsSized) : (toPack d).IsSized deepest := by
  change (Pack.record _).IsSized (1020 + 3)
  have hnames : ∀ name ∈ memberNames, IsShort name := by
    unfold IsShort
    decide
  refine .map (by simp) (fun e he => ?_) fun e he => ?_
  · simp only [List.map_cons, List.map_nil, List.mem_cons, List.not_mem_nil, or_false] at he
    rcases he with rfl | rfl | rfl | rfl | rfl | rfl <;>
      exact .text _ (hnames _ (by decide))
  · simp only [List.map_cons, List.map_nil, List.mem_cons, List.not_mem_nil, or_false] at he
    rcases he with rfl | rfl | rfl | rfl | rfl | rfl
    · exact .text _ h.id
    · exact pairsToPack_isSized 1020 Reference.key Reference.value h.references h.referenceKeys
        h.referenceValues
    · exact pairsToPack_isSized 1020 Property.name Property.value h.properties h.propertyNames
        h.propertyValues
    · exact orNilString_isSized _ h.version
    · exact int_isSized _ d.number
    · exact .float _ d.float

theorem string_length_le_pairToPack (a b : String) :
    (Utf8.encode a).length < (pairToPack a b).render.length ∧
      (Utf8.encode b).length < (pairToPack a b).render.length := by
  have hlt := renderItems_length_lt [string a, string b]
  have ha : (Utf8.encode a).length ≤ (string a).render.length := length_le_render_text _
  have hb : (Utf8.encode b).length ≤ (string b).render.length := length_le_render_text _
  have hfirst : (string a).render.length ≤ (renderItems [string a, string b]).length :=
    render_length_le_renderItems (by simp)
  have hsecond : (string b).render.length ≤ (renderItems [string a, string b]).length :=
    render_length_le_renderItems (by simp)
  rw [pairToPack]
  omega

/-- Pairs and their texts are no more than the bytes that the pairs take. -/
theorem pairs_length_le {α : Type} (first second : α → String) (l : List α) :
    l.length ≤ (Pack.array (l.map fun a => pairToPack (first a) (second a))).render.length ∧
      ∀ a ∈ l, (Utf8.encode (first a)).length ≤
          (Pack.array (l.map fun a => pairToPack (first a) (second a))).render.length ∧
        (Utf8.encode (second a)).length ≤
          (Pack.array (l.map fun a => pairToPack (first a) (second a))).render.length := by
  have hlt := renderItems_length_lt (l.map fun a => pairToPack (first a) (second a))
  constructor
  · have hcount := length_le_renderItems (l.map fun a => pairToPack (first a) (second a))
      fun v hv => by
        obtain ⟨a, -, rfl⟩ := List.mem_map.1 hv
        have hpair := (string_length_le_pairToPack (first a) (second a)).1
        omega
    rw [List.length_map] at hcount
    omega
  · intro a ha
    have hpair := string_length_le_pairToPack (first a) (second a)
    have hmem : pairToPack (first a) (second a) ∈
        l.map fun a => pairToPack (first a) (second a) := List.mem_map_of_mem ha
    have hle := render_length_le_renderItems hmem
    omega

/-- A document that is written in fewer bytes than four bytes can count has short texts and
lists. -/
theorem isSized_of_length {d : Doc} (h : (toPack d).render.length < 0x100000000) : d.IsSized := by
  have hmember : ∀ name v, (name, v) ∈ [
      ("id", Pack.string d.id),
      ("refs", .array (d.references.map fun r => pairToPack r.key r.value)),
      ("props", .array (d.properties.map fun p => pairToPack p.name p.value)),
      ("version", Pack.orNil .string d.version),
      ("n", .int d.number),
      ("f", .float d.float)] → v.render.length < 0x100000000 := by
    intro name v hmem
    exact Nat.lt_of_le_of_lt (render_length_le_record hmem) h
  have hid := hmember "id" (.string d.id) (by simp)
  have hrefs := hmember "refs" (.array (d.references.map fun r => pairToPack r.key r.value))
    (by simp)
  have hprops := hmember "props" (.array (d.properties.map fun p => pairToPack p.name p.value))
    (by simp)
  have hversion := hmember "version" (Pack.orNil .string d.version) (by simp)
  obtain ⟨hcount, hpairs⟩ := pairs_length_le Reference.key Reference.value d.references
  obtain ⟨hcount', hpairs'⟩ := pairs_length_le Property.name Property.value d.properties
  refine ⟨?_, by omega, fun r hr => ?_, fun r hr => ?_, by omega, fun p hp => ?_, fun p hp => ?_,
    fun v hv => ?_⟩
  · exact Nat.lt_of_le_of_lt (length_le_render_text _) hid
  · exact Nat.lt_of_le_of_lt (hpairs r hr).1 hrefs
  · exact Nat.lt_of_le_of_lt (hpairs r hr).2 hrefs
  · exact Nat.lt_of_le_of_lt (hpairs' p hp).1 hprops
  · exact Nat.lt_of_le_of_lt (hpairs' p hp).2 hprops
  · rw [Option.mem_def.1 hv] at hversion
    exact Nat.lt_of_le_of_lt (length_le_render_text _) hversion

theorem asPairs?_toPack {α : Type} (first second : α → String) (l : List α) :
    asList? (asPair? asString? asString?)
        (Pack.array (l.map fun a => pairToPack (first a) (second a))) =
      some (l.map fun a => (first a, second a)) := by
  have hpair : ∀ a, asPair? asString? asString? (pairToPack (first a) (second a)) =
      some (first a, second a) := by
    intro a
    rw [pairToPack, asPair?, listed?]
    simp only [asString?_string]
    rfl
  rw [asList?, listed?, Option.bind_some, Json.mapM_map_of_reads hpair]

theorem asOption?_orNil (text : Option String) :
    asOption? asString? (Pack.orNil Pack.string text) = some text := by
  cases text with
  | none => rfl
  | some s => exact congrArg (Option.map some) (asString?_string s)

/-- The members of a document by their places. -/
theorem asRecord?_toPack (d : Doc) :
    (toPack d).asRecord? memberNames = some ⟨true, [
      (0, .string d.id),
      (1, .array (d.references.map fun r => pairToPack r.key r.value)),
      (2, .array (d.properties.map fun p => pairToPack p.name p.value)),
      (3, Pack.orNil .string d.version),
      (4, .int d.number),
      (5, .float d.float)]⟩ := by
  have hid : memberIndex? memberNames (.string "id") = some (some 0) := by decide
  have hrefs : memberIndex? memberNames (.string "refs") = some (some 1) := by decide
  have hprops : memberIndex? memberNames (.string "props") = some (some 2) := by decide
  have hversion : memberIndex? memberNames (.string "version") = some (some 3) := by decide
  have hnumber : memberIndex? memberNames (.string "n") = some (some 4) := by decide
  have hfloat : memberIndex? memberNames (.string "f") = some (some 5) := by decide
  simp only [toPack, record, List.map_cons, List.map_nil, asRecord?, List.mapM_cons,
    List.mapM_nil, hid, hrefs, hprops, hversion, hnumber, hfloat, Option.bind_eq_bind,
    Option.bind_some, pure]
  rfl

theorem ofPack?_toPack (d : Doc) : ofPack? (toPack d) = some d.stored := by
  have hfloat : asBinary64? (Pack.float d.float) = some d.float := rfl
  simp only [PackShape.ofPack?, asRecord?_toPack, Option.bind_eq_bind, Option.bind_some,
    Record.required?, Record.nullable?, List.lookup, Nat.reduceBEq, asString?_string,
    asPairs?_toPack, asOption?_orNil, Pack.asInt64?_int, hfloat, List.map_map, Function.comp_def,
    stored]
  simp

/-- Documents are written alike if and only if they are stored alike. -/
theorem toPack_inj {d d' : Doc} : toPack d = toPack d' ↔ d.stored = d'.stored := by
  constructor
  · intro h
    have hread := ofPack?_toPack d
    rw [h, ofPack?_toPack] at hread
    exact (Option.some.inj hread).symm
  · intro h
    -- the memo is not written
    have hwritten : toPack d.stored = toPack d'.stored := congrArg toPack h
    exact hwritten

theorem messagePack_reads_append {d : Doc} (h : d.IsSized) (rest : Bytes) :
    (Pack.parse? ((toPack d).render ++ rest)).bind ofPack? = some d.stored := by
  rw [Pack.parse?_render_append (toPack_isSized h), Option.bind_some, ofPack?_toPack]

theorem messagePack_reads {d : Doc} (h : d.IsSized) :
    (Pack.parse? (toPack d).render).bind ofPack? = some d.stored := by
  have hread := messagePack_reads_append h []
  rwa [List.append_nil] at hread

end

end EntityStore.Doc
