import EntityStore.Proofs.Doc.Formats
import EntityStore.Proofs.Interleaving.Provenance
import EntityStore.Proofs.Json.Floats
import EntityStore.Proofs.Store.Documents

/-!
# What is created is what is read

A document that was created is answered, and read from then on, as it comes back
from the format of its store: the answer shows the copy that was decoded from
the blob, and as long as nothing else is written under the key, so does every
read. With MessagePack that is the document without its memo. With JSON its
float is the one that the written decimal is read as. That is the float that was
given if it is written with few digits, and need not be otherwise
(`Doc.altered_comes_back_changed`).
-/

namespace EntityStore

variable {κ σ τ : Type} [EntityKey κ]

namespace Doc

/-- A format that documents are stored in. -/
inductive Format where
  | json
  | messagePack

namespace Format

/-- The serializer of a format. -/
def serializer : Format → Serializer Doc σ
  | .json => .json
  | .messagePack => .messagePack

/-- What a float comes back as, if it does. -/
def readFloat? : Format → Binary64 → Option Binary64
  | .json, x => (Json.float x).asBinary64?
  | .messagePack, x => some x

/-- Floats that are sure to come back as themselves. -/
def Keeps : Format → Binary64 → Prop
  | .json, x => Json.IsShort x
  | .messagePack, _ => True

/-- Whether a format can hold the texts and lists of a document. -/
def Holds : Format → Doc → Prop
  | .json, _ => True
  | .messagePack, d => d.IsSized

theorem serializer_isPure (format : Format) : (format.serializer : Serializer Doc σ).IsPure := by
  cases format with
  | json => exact Serializer.json_isPure
  | messagePack => exact Serializer.messagePack_isPure

theorem readFloat?_of_keeps {format : Format} {x : Binary64} (h : format.Keeps x) :
    format.readFloat? x = some x := by
  cases format with
  | json => exact Json.asBinary64?_float h
  | messagePack => rfl

end Format

theorem readOrFail_eq_ok {α : Type} {fault : String} {r : Option α} {a : α}
    (h : Serializer.readOrFail fault r = .ok a) : r = some a := by
  cases r with
  | none => cases h
  | some b => exact congrArg some (Except.ok.inj h)

/-- What a context over a format reads back. -/
theorem copy_eq {x : Context Doc σ} {format : Format}
    (hserializer : x.serializer = format.serializer) (hcodec : x.codec.IsLossless) {d copy : Doc}
    (hd : format.Holds d) {blob : Bytes}
    (h : x.Stores d blob copy) :
    ∃ float, format.readFloat? d.float = some float ∧ copy = { d.stored with float } := by
  obtain ⟨raw, ⟨a, hser⟩, ⟨b, hdes⟩, -, -⟩ := h.serialized hcodec
  rw [hserializer] at hser hdes
  cases format with
  | json =>
      obtain rfl : (toJson d).render = raw := Except.ok.inj hser
      have hread := readOrFail_eq_ok hdes
      rw [json_reads, Option.map_eq_some_iff] at hread
      obtain ⟨float, hfloat, rfl⟩ := hread
      exact ⟨float, hfloat, rfl⟩
  | messagePack =>
      obtain rfl : (toPack d).render = raw := Except.ok.inj hser
      have hread := readOrFail_eq_ok hdes
      rw [messagePack_reads hd] at hread
      exact ⟨d.float, rfl, (Option.some.inj hread).symm⟩

/-- What was created is what is read. In every world that clients lead a store to, the answer to a
creation shows the document as it comes back from the format of the store, and so does every read
that is answered 200, until something else is written under the key. That is the document without
its memo if and only if the format reads its float back, as it does if the float is written with few
digits, or stored as its bits. -/
theorem created_comes_back (s : Store κ Doc σ τ) (format : Format)
    (hserializer : s.context.serializer = format.serializer)
    (hcodec : s.context.codec.IsLossless) (hs : s.searches.OnlyDecodes) {w : World κ Doc σ τ}
    (hw : s.Lives w) {before since : List (LogEntry κ Doc)} {entry : LogEntry κ Doc} {d : Doc}
    {r : Response κ Doc} (hlog : w.log = before ++ entry :: since)
    (hcreated : entry.created? = some (d, r)) (hd : format.Holds d) :
    ∃ float, format.readFloat? d.float = some float ∧
      r.entity = some { d.stored with float } ∧
      (r.entity = some d.stored ↔ format.readFloat? d.float = some d.float) ∧
      (format.Keeps d.float → r.entity = some d.stored) ∧
      ((∀ later ∈ since, later.writes s (s.makers.key d) = false) →
        ∀ target settings r', (s.read target settings w.state).1 = .ok r' → r'.code = .ok →
          r'.key = some (s.makers.key d) → r'.entity = r.entity) := by
  have hx : s.context.IsSteady :=
    Context.isSteady_of_lossless hcodec (hserializer ▸ format.serializer_isPure)
  obtain ⟨⟨settings, hcall⟩, hanswer, hwrites⟩ := LogEntry.of_created? (s := s) hcreated
  have hmem : entry ∈ w.log := hlog ▸ List.mem_append_right _ List.mem_cons_self
  obtain ⟨c, hwrote, hkey⟩ := (hw.sound hs).recorded.wrote hmem hwrites
  -- the candidate that was stored was made for this very document, and its copy was answered
  have hentity := hwrote.entity_eq hanswer
  obtain ⟨key, draft, hdrafts, hmakes⟩ := hwrote.makes
  rw [hcall] at hdrafts
  cases hdrafts
  obtain ⟨float, hfloat, hcopy⟩ := copy_eq hserializer hcodec hd hmakes.stores
  have hexact : r.entity = some d.stored ↔ format.readFloat? d.float = some d.float := by
    rw [hentity, hcopy, hfloat]
    constructor
    · intro heq
      exact congrArg some (congrArg Doc.float (Option.some.inj heq))
    · intro heq
      rw [Option.some.inj heq]
      rfl
  refine ⟨float, hfloat, by rw [hentity, hcopy], hexact,
    fun hkeeps => hexact.2 (Format.readFloat?_of_keeps hkeeps),
    fun hsince target settings' r' hread hok hk => ?_⟩
  · rw [hentity]
    rw [← hkey] at hsince hk
    exact hw.read_of_last hs hx hlog hwrote hsince hread hok hk

/-- The world after a document was created in a store. -/
def afterCreation (s : Store κ Doc σ τ) (session : σ) (tokens : τ) (d : Doc) : World κ Doc σ τ :=
  World.reached s session tokens [.call 0 (.entity (.create d none)), .go 0]

/-- A document with a control character in it, a float that JSON reads back, and a memo. -/
def kept : Doc :=
  { id := "a", references := [⟨"isbn", "\x07"⟩], float := ⟨0xBFF8000000000000⟩, memo := "x" }

theorem kept_comes_back :
    ∃ before entry r, (afterCreation store () 0 kept).log = before ++ [entry] ∧
      entry.created? = some (kept, r) ∧ r.entity = some kept.stored ∧
      ∃ r', (store.read (.key "a") none (afterCreation store () 0 kept).state).1 = .ok r' ∧
        r'.code = .ok ∧ r'.entity = some kept.stored := by
  obtain ⟨first, entry, hlog⟩ :
      ∃ first entry, (afterCreation store () 0 kept).log = [first, entry] :=
    List.length_eq_two.1 (by decide +kernel)
  have hdocs : (afterCreation store () 0 kept).log.map (fun entry => entry.created?.map Prod.fst) =
      [none, some kept] := by decide +kernel
  rw [hlog, List.map_cons, List.map_cons] at hdocs
  obtain ⟨⟨d, r⟩, hcreated, hd⟩ :=
    Option.map_eq_some_iff.1 (List.cons.inj (List.cons.inj hdocs).2).1
  obtain rfl : d = kept := hd
  have hsplit : (afterCreation store () 0 kept).log = [first] ++ entry :: [] := hlog
  obtain ⟨float, -, -, -, hkeeps, hreads⟩ :=
    created_comes_back store .json rfl Codec.identity_isLossless store_onlyDecodes
      (Store.lives_reached () 0 _) hsplit hcreated trivial
  have hshort : Json.IsShort kept.float :=
    ⟨by decide +kernel, by decide +kernel, by decide +kernel⟩
  have hentity : r.entity = some kept.stored := hkeeps hshort
  have hfound : (match (store.read (.key "a") none (afterCreation store () 0 kept).state).1 with
      | .ok r' => decide (r'.code = .ok ∧ r'.key = some "a")
      | .error _ => false) = true := by decide +kernel
  cases hread : (store.read (.key "a") none (afterCreation store () 0 kept).state).1 with
  | error err =>
      rw [hread] at hfound
      cases hfound
  | ok r' =>
      rw [hread] at hfound
      obtain ⟨hok, hkey⟩ := of_decide_eq_true hfound
      have hsame := hreads (fun _ hnil => by cases hnil) _ _ r' hread hok hkey
      exact ⟨[first], entry, r, hlog, hcreated, hentity, r', rfl, hok, hsame.trans hentity⟩

/-- A document with a float that JSON reads as its neighbour. -/
def altered : Doc := { id := "a", float := ⟨0x3FFB2A1C8A6605BC⟩ }

theorem altered_comes_back_changed :
    ((afterCreation store () 0 altered).log.filterMap LogEntry.created?).map
        (fun p => (p.1.float, p.2.entity.map Doc.float)) =
      [(⟨0x3FFB2A1C8A6605BC⟩, some ⟨0x3FFB2A1C8A6605BD⟩)] := by
  decide +kernel

end Doc

end EntityStore
