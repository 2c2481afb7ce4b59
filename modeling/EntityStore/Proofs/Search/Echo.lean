import EntityStore.Proofs.Json.Shapes
import EntityStore.Proofs.SortedMap
import EntityStore.Store.Search

/-!
# Requests and settings come back

A request is read back from its text, and so are settings. What may be left out
may be written too and the other way round: a request can be written in any
`Json.Style`, and it is the plain one that the writer has
(`SearchRequest.inStyle`). A search answers with the request that it was asked,
so what can be sent again is that request.
-/

namespace EntityStore

open Json (Reads Style)

namespace Json.Style

/-- The style in which empty headers are left out, and nothing else that has a default. -/
def plain : Style where
  nulls _ := false
  omits name := name == "headers"

theorem optional_plain {α : Type} (name : String) (write : α → Json) (a : Option α) :
    plain.optional name write a = (name, a.map write) := by
  cases a <;> rfl

theorem withDefault_plain {name : String} (h : name ≠ "headers") (isDefault : Bool) (v : Json) :
    plain.withDefault name isDefault v = (name, some v) := by
  have homits : plain.omits name = false := beq_false_of_ne h
  rw [withDefault, homits, Bool.and_false, if_neg Bool.false_ne_true]

end Json.Style

/-! ## Filters and orders -/

theorem FilterOp.reads : Reads (ofJson? : Json → Option FilterOp) toJson :=
  Json.names_reads fun op => by cases op <;> rfl

theorem Direction.reads : Reads (ofJson? : Json → Option Direction) toJson :=
  Json.names_reads fun d => by cases d <;> rfl

namespace Filter

def members (f : Filter) : List (String × Option Json) := [
  ("field", some (.string f.field)), ("op", some (toJson f.op)), ("value", some (.string f.value))]

theorem members_nodup (f : Filter) : (f.members.map Prod.fst).Nodup := by
  change ["field", "op", "value"].Nodup
  decide

theorem reads : Reads (ofJson? : Json → Option Filter) toJson := by
  refine Json.record_reads members_nodup (fun f => ?_) fun f => ?_
  · simp only [members, List.forall_mem_cons]
    exact ⟨Json.required_isLegible (.string _), Json.required_isLegible (FilterOp.reads.legible _),
      Json.required_isLegible (.string _), List.forall_mem_nil _⟩
  · have hnames := f.members_nodup
    have hfield := Json.Record.required?_present hnames Json.string_reads "field" f.field
      (by simp [members])
    have hop := Json.Record.required?_present hnames FilterOp.reads "op" f.op (by simp [members])
    have hvalue := Json.Record.required?_present hnames Json.string_reads "value" f.value
      (by simp [members])
    simp only [Option.bind_eq_bind, Option.bind_some, hfield, hop, hvalue]
    rfl

end Filter

namespace OrderBy

variable (style : Style)

def members (o : OrderBy) : List (String × Option Json) := [
  ("field", some (.string o.field)),
  style.withDefault "direction" (o.direction == .ascending) (toJson o.direction)]

theorem members_nodup (o : OrderBy) : ((o.members style).map Prod.fst).Nodup := by
  change ["field", "direction"].Nodup
  decide

/-- An order as it is written in a style. -/
def inStyle (o : OrderBy) : Json := Json.present (o.members style)

theorem reads : Reads (ofJson? : Json → Option OrderBy) (inStyle style) := by
  refine Json.record_reads (members_nodup style) (fun o => ?_) fun o => ?_
  · simp only [members, List.forall_mem_cons]
    exact ⟨Json.required_isLegible (.string _),
      style.withDefault_isLegible (Direction.reads.legible _), List.forall_mem_nil _⟩
  · have hnames := o.members_nodup style
    have hfield := Json.Record.required?_present hnames Json.string_reads "field" o.field
      (by simp [members])
    have hdirection := style.withDefault?_present hnames Direction.reads "direction" .ascending
      o.direction eq_of_beq (by simp [members])
    simp only [Option.bind_eq_bind, Option.bind_some, hfield, hdirection]
    rfl

theorem toJson_eq_inStyle (o : OrderBy) : toJson o = o.inStyle .plain := by
  rw [inStyle, members, Style.withDefault_plain (by decide)]
  rfl

end OrderBy

/-! ## Requests -/

namespace SearchRequest

variable (style : Style)

def members (r : SearchRequest) : List (String × Option Json) := [
  style.optional "id" .string r.id,
  style.withDefault "select" r.select.isEmpty (JsonShape.listToJson .string r.select),
  style.withDefault "filters" r.filters.isEmpty (JsonShape.listToJson toJson r.filters),
  style.optional "order_by" (OrderBy.inStyle style) r.orderBy,
  style.optional "skip" toJson r.skip,
  style.optional "top" toJson r.top]

theorem members_nodup (r : SearchRequest) : ((r.members style).map Prod.fst).Nodup := by
  change ["id", "select", "filters", "order_by", "skip", "top"].Nodup
  decide

/-- A request as it is written in a style. -/
def inStyle (r : SearchRequest) : Json := Json.present (r.members style)

theorem reads : Reads (ofJson? : Json → Option SearchRequest) (inStyle style) := by
  refine Json.record_reads (members_nodup style) (fun r => ?_) fun r => ?_
  · simp only [members, List.forall_mem_cons]
    exact ⟨style.optional_isLegible Json.string_reads _,
      style.withDefault_isLegible (Json.string_reads.list.legible _),
      style.withDefault_isLegible (Filter.reads.list.legible _),
      style.optional_isLegible (OrderBy.reads style) _,
      style.optional_isLegible Json.uint64_reads _,
      style.optional_isLegible Json.uint64_reads _, List.forall_mem_nil _⟩
  · have hnames := r.members_nodup style
    have hid := style.optional?_present hnames Json.string_reads "id" r.id (by simp [members])
    have hselect := style.withDefault?_present hnames Json.string_reads.list "select" [] r.select
      List.isEmpty_iff.1 (by simp [members])
    have hfilters := style.withDefault?_present hnames Filter.reads.list "filters" [] r.filters
      List.isEmpty_iff.1 (by simp [members])
    have horder := style.optional?_present hnames (OrderBy.reads style) "order_by" r.orderBy
      (by simp [members])
    have hskip := style.optional?_present hnames Json.uint64_reads "skip" r.skip
      (by simp [members])
    have htop := style.optional?_present hnames Json.uint64_reads "top" r.top (by simp [members])
    simp only [Option.bind_eq_bind, Option.bind_some, hid, hselect, hfilters, horder, hskip, htop]
    rfl

theorem toJson_eq_inStyle (r : SearchRequest) : toJson r = r.inStyle .plain := by
  rw [inStyle, members, Style.optional_plain, Style.withDefault_plain (by decide),
    Style.withDefault_plain (by decide), Style.optional_plain, Style.optional_plain,
    Style.optional_plain, ← funext OrderBy.toJson_eq_inStyle]
  rfl

end SearchRequest

/-! ## Settings -/

namespace Settings

theorem headers_reads : Reads (Json.asMap? Json.asString?) headersToJson where
  legible m := .record fun e he => by
    obtain ⟨e', -, rfl⟩ := List.mem_map.1 he
    exact .string e'.2
  read_reread m := by
    have hentry : ∀ e : String × String,
        (do return (← (Json.RawText.ofString e.1).reread.decode?,
          ← Json.asString? (Json.string e.2).reread)) = some e := by
      intro e
      rw [Json.RawText.decode?_ofString, Json.asString?_reread]
      rfl
    rw [headersToJson, Json.record, Json.reread, Json.rereadMembers_eq_map, Json.asMap?,
      List.map_map, List.map_map, Json.mapM_map_of_reads (g := fun e => e) hentry, List.map_id']
    exact congrArg some m.ofList_entries
  read_null := rfl

variable (style : Style)

def members (s : Settings) : List (String × Option Json) := [
  style.optional "correlation_id" .string s.correlationId,
  style.optional "caller" .string s.caller,
  style.withDefault "headers" s.headers.isEmpty (headersToJson s.headers)]

theorem members_nodup (s : Settings) : ((s.members style).map Prod.fst).Nodup := by
  change ["correlation_id", "caller", "headers"].Nodup
  decide

/-- Settings as they are written in a style. -/
def inStyle (s : Settings) : Json := Json.present (s.members style)

theorem reads : Reads (ofJson? : Json → Option Settings) (inStyle style) := by
  refine Json.record_reads (members_nodup style) (fun s => ?_) fun s => ?_
  · simp only [members, List.forall_mem_cons]
    exact ⟨style.optional_isLegible Json.string_reads _,
      style.optional_isLegible Json.string_reads _,
      style.withDefault_isLegible (headers_reads.legible _), List.forall_mem_nil _⟩
  · have hnames := s.members_nodup style
    have hid := style.optional?_present hnames Json.string_reads "correlation_id" s.correlationId
      (by simp [members])
    have hcaller := style.optional?_present hnames Json.string_reads "caller" s.caller
      (by simp [members])
    have hheaders := style.withDefault?_present hnames headers_reads "headers" .empty s.headers
      SortedMap.eq_empty (by simp [members])
    simp only [Option.bind_eq_bind, Option.bind_some, hid, hcaller, hheaders]
    rfl

/-- Settings are written without what is absent, and without headers if there are none. -/
theorem exists_toJson_eq_record (s : Settings) : ∃ written, toJson s = Json.record written ∧
    written.map Prod.fst =
      (if s.correlationId.isSome then ["correlation_id"] else []) ++
      (if s.caller.isSome then ["caller"] else []) ++
      (if s.headers.isEmpty then [] else ["headers"]) := by
  refine ⟨_, rfl, ?_⟩
  cases s.correlationId <;> cases s.caller <;> cases s.headers.isEmpty <;> rfl

theorem toJson_eq_inStyle (s : Settings) : toJson s = s.inStyle .plain := by
  have homits : Style.plain.omits "headers" = true := rfl
  rw [inStyle, members, Style.optional_plain, Style.optional_plain, Style.withDefault, homits,
    Bool.and_true]
  rfl

end Settings

/-! ## Answers -/

section

variable {κ ε σ τ ρ : Type} [EntityKey κ] [Paged ρ]

/-- However a search ends, its answer has the request. -/
theorem Store.searchWith_key (s : Store κ ε σ τ) (load : Loader κ ε σ ρ) (request : SearchRequest)
    (settings : Option Settings) (st : State κ ε σ τ) :
    (s.searchWith load request settings st).1.key = some request := by
  rw [searchWith]
  split
  · rfl
  · rw [searchIn]
    dsimp only
    split <;> rfl

end

namespace SearchRequest

/-- Requests and settings survive their texts. A request is read back from its text, and so are
settings, which are written without what is absent and without headers if there are none. A request
is read back as well from the text of every other style: with any of its absent parts null instead
of left out, without its selection or its filters if these are empty, and without the direction of
its order if that is ascending. The same holds of settings. So the request that a search answers
with, whichever way it ends, is the one that was sent once it has been through a text, and sending
it again is the same search. -/
theorem requests_and_settings_return :
    (∀ r : SearchRequest, JsonShape.parse? (JsonShape.text r) = some r) ∧
    (∀ s : Settings, JsonShape.parse? (JsonShape.text s) = some s ∧
      ∃ written, toJson s = Json.record written ∧ written.map Prod.fst =
        (if s.correlationId.isSome then ["correlation_id"] else []) ++
        (if s.caller.isSome then ["caller"] else []) ++
        (if s.headers.isEmpty then [] else ["headers"])) ∧
    (∀ r : SearchRequest, toJson r = r.inStyle .plain ∧
      ∀ style, JsonShape.parse? (r.inStyle style).compact = some r) ∧
    (∀ s : Settings, toJson s = s.inStyle .plain ∧
      ∀ style, JsonShape.parse? (s.inStyle style).compact = some s) ∧
    ∀ {κ ε σ τ : Type} [EntityKey κ] (s : Store κ ε σ τ) (st : State κ ε σ τ)
      (request : SearchRequest) (settings : Option Settings),
      ((s.search request settings st).1.key.bind fun r =>
        JsonShape.parse? (JsonShape.text r)) = some request ∧
      ((s.searchEntities request settings st).1.key.bind fun r =>
        JsonShape.parse? (JsonShape.text r)) = some request := by
  have hstyles : ∀ (r : SearchRequest) (style : Style),
      JsonShape.parse? (r.inStyle style).compact = some r :=
    fun r style => (reads style).parse?_compact r
  have hrequest : ∀ r : SearchRequest, JsonShape.parse? (JsonShape.text r) = some r := by
    intro r
    rw [JsonShape.text, r.toJson_eq_inStyle, hstyles]
  have hsettings : ∀ (s : Settings) (style : Style),
      JsonShape.parse? (s.inStyle style).compact = some s :=
    fun s style => (Settings.reads style).parse?_compact s
  refine ⟨hrequest, fun s => ⟨?_, s.exists_toJson_eq_record⟩,
    fun r => ⟨r.toJson_eq_inStyle, hstyles r⟩, fun s => ⟨s.toJson_eq_inStyle, hsettings s⟩,
    fun s st request settings => ⟨?_, ?_⟩⟩
  · rw [JsonShape.text, s.toJson_eq_inStyle, hsettings]
  · rw [Store.search, Store.searchWith_key, Option.bind_some, hrequest]
  · rw [Store.searchEntities, Store.searchWith_key, Option.bind_some, hrequest]

/-- With all choices the other way: what may be left out is left out, and what is absent is null. -/
example :
    let r : SearchRequest := {
      filters := [⟨"n", .startsWith, "é"⟩]
      orderBy := some ⟨"n", .ascending⟩
      top := some 18446744073709551615 }
    (r.inStyle ⟨fun _ => true, fun _ => true⟩).compact =
      "\x7b\"id\":null,\"filters\":[\x7b\"field\":\"n\",\"op\":\"starts_with\"," ++
        "\"value\":\"é\"\x7d],\"order_by\":\x7b\"field\":\"n\"\x7d,\"skip\":null," ++
        "\"top\":18446744073709551615\x7d" := by
  decide +kernel

end SearchRequest

end EntityStore
