import EntityStore.Proofs.Doc.Formats
import EntityStore.Proofs.Json.Finite
import EntityStore.Proofs.Store.Made

/-!
# A document in JSON comes back, but for its float

A document whose float is finite is read back from its JSON text as it was
written, float and memo apart: the memo is not written, and the float may be
read as its neighbour. The text may have blanks around it, and nothing else after
it. A float that is no number is written as null, which is no float, so such a
document does not come back at all.

Since the reader undoes the writer on all that is not the float, two documents
with one text agree on that.
-/

namespace EntityStore.Doc

open Json (AreBlanks)

variable {σ : Type}

/-- Two documents that differ in their floats and their memos at most. -/
structure AgreesApartFromFloat (d d' : Doc) : Prop where
  id : d.id = d'.id
  references : d.references = d'.references
  properties : d.properties = d'.properties
  version : d.version = d'.version
  number : d.number = d'.number

/-- A document as it comes back from JSON: with a float of its own and without its memo. -/
structure IsJsonCopyOf (copy d : Doc) : Prop extends copy.AgreesApartFromFloat d where
  memo : copy.memo = ""

/-- What reading the text of a document makes of it, with blanks around it. -/
theorem json_deserialize (d : Doc) {before after : Bytes} (hbefore : AreBlanks before)
    (hafter : AreBlanks after) (s : σ) :
    (Serializer.json : Serializer Doc σ).deserialize (before ++ (toJson d).render ++ after) s =
      (Serializer.readOrFail (fault (before ++ (toJson d).render ++ after))
        ((Json.float d.float).asBinary64?.map fun x => { d.stored with float := x }), s) := by
  rw [← (json_reads_between d hbefore after).1 hafter]
  rfl

theorem asBinary64?_of_not_finite {x : Binary64} (h : x.isFinite = false) :
    (Json.float x).asBinary64? = none := by
  rw [Json.float, h]
  rfl

/-- A document with a finite float has one copy that its text is read as. -/
theorem exists_jsonCopy {d : Doc} (h : d.float.isFinite = true) :
    ∃ copy : Doc, copy.IsJsonCopyOf d ∧
      ∀ {before after}, AreBlanks before → AreBlanks after → ∀ s : σ,
        Serializer.json.deserialize (before ++ (toJson d).render ++ after) s = (.ok copy, s) := by
  obtain ⟨x, hx⟩ := Json.exists_asBinary64?_float h
  refine ⟨{ d.stored with float := x }, ⟨⟨rfl, rfl, rfl, rfl, rfl⟩, rfl⟩, ?_⟩
  intro before after hbefore hafter s
  rw [json_deserialize d hbefore hafter, hx]
  rfl

/-- JSON keeps all of a document but its float and its memo. Writing a document succeeds. If its
float is finite, its text is read as one copy that has everything else of it and no memo, with any
blanks before and after the text, and behind any codec that loses nothing. If its float is infinite
or no number, reading the text fails, with blanks around it or not, and behind a codec too. It fails
as well, whatever the float, if anything but blanks follows the text. Documents with finite floats
that have one text agree on everything but the float and the memo. -/
theorem json_decodes_encoded (d : Doc) :
    (∀ s : σ, Serializer.json.serialize d s = (.ok (toJson d).render, s)) ∧
    (d.float.isFinite = true → ∃ copy : Doc, copy.IsJsonCopyOf d ∧
      (∀ before after, AreBlanks before → AreBlanks after → ∀ s : σ,
        Serializer.json.deserialize (before ++ (toJson d).render ++ after) s = (.ok copy, s)) ∧
      ∀ x : Context Doc σ, x.serializer = .json → x.codec.IsLossless →
        ∀ blob a, (x.encode d a).1 = .ok blob → ∀ b, (x.decode blob b).1 = .ok copy) ∧
    (∀ before after, AreBlanks before → ¬ AreBlanks after → ∀ s : σ, ∃ reason,
      (Serializer.json : Serializer Doc σ).deserialize (before ++ (toJson d).render ++ after) s =
        (.error (.serialization reason), s)) ∧
    (d.float.isFinite = false →
      (∀ before after, AreBlanks before → AreBlanks after → ∀ s : σ, ∃ reason,
        (Serializer.json : Serializer Doc σ).deserialize (before ++ (toJson d).render ++ after) s =
          (.error (.serialization reason), s)) ∧
      ∀ x : Context Doc σ, x.serializer = .json → x.codec.IsLossless →
        ∀ blob a, (x.encode d a).1 = .ok blob → ∀ b, ∃ reason,
          (x.decode blob b).1 = .error (.serialization reason)) ∧
    ∀ d' : Doc, d.float.isFinite = true → d'.float.isFinite = true →
      (toJson d).render = (toJson d').render → d.AgreesApartFromFloat d' := by
  have hnone : AreBlanks [] := fun b hb => by cases hb
  -- behind a codec that loses nothing stands the text itself
  have hbehind : ∀ x : Context Doc σ, x.serializer = .json → x.codec.IsLossless →
      ∀ blob a, (x.encode d a).1 = .ok blob → ∀ b, ∃ c,
        x.decode blob b = Serializer.json.deserialize ([] ++ (toJson d).render ++ []) c := by
    intro x hserializer hcodec blob a hencoded b
    obtain ⟨raw, hser, -, hdecode⟩ := Context.serialized_of_encoded hcodec hencoded
    obtain ⟨c, hc⟩ := hdecode b
    rw [hserializer] at hser hc
    obtain rfl : (toJson d).render = raw := Except.ok.inj hser
    exact ⟨c, by rw [hc, List.nil_append, List.append_nil]⟩
  refine ⟨fun _ => rfl, fun hfinite => ?_, fun before after hbefore hafter s => ?_,
    fun hfinite => ?_, fun d' hfinite hfinite' htext => ?_⟩
  · obtain ⟨copy, hcopy, hread⟩ := exists_jsonCopy (σ := σ) hfinite
    refine ⟨copy, hcopy, fun _ _ hbefore hafter => hread hbefore hafter,
      fun x hserializer hcodec blob a hencoded b => ?_⟩
    obtain ⟨c, hc⟩ := hbehind x hserializer hcodec blob a hencoded b
    rw [hc, hread hnone hnone]
  · refine ⟨fault (before ++ (toJson d).render ++ after), ?_⟩
    simp only [Serializer.json, (json_reads_between d hbefore after).2 hafter]
    rfl
  · have hrefused : ∀ before after, AreBlanks before → AreBlanks after → ∀ s : σ, ∃ reason,
        (Serializer.json : Serializer Doc σ).deserialize (before ++ (toJson d).render ++ after) s =
          (.error (.serialization reason), s) := by
      intro before after hbefore hafter s
      rw [json_deserialize d hbefore hafter, asBinary64?_of_not_finite hfinite]
      exact ⟨_, rfl⟩
    refine ⟨hrefused, fun x hserializer hcodec blob a hencoded b => ?_⟩
    obtain ⟨c, hc⟩ := hbehind x hserializer hcodec blob a hencoded b
    obtain ⟨reason, hreason⟩ := hrefused [] [] hnone hnone c
    exact ⟨reason, by rw [hc, hreason]⟩
  · obtain ⟨copy, hcopy, hread⟩ := exists_jsonCopy (σ := Unit) hfinite
    obtain ⟨copy', hcopy', hread'⟩ := exists_jsonCopy (σ := Unit) hfinite'
    have hsame := hread hnone hnone ()
    rw [htext, hread' hnone hnone ()] at hsame
    obtain rfl : copy' = copy := Except.ok.inj (congrArg Prod.fst hsame)
    exact ⟨hcopy.id.symm.trans hcopy'.id, hcopy.references.symm.trans hcopy'.references,
      hcopy.properties.symm.trans hcopy'.properties, hcopy.version.symm.trans hcopy'.version,
      hcopy.number.symm.trans hcopy'.number⟩

/-- A document with a quote, a backslash, control characters and one outside the basic plane in its
texts, the least number there is and the greatest float. -/
def escaped : Doc :=
  { id := "\"\\\x00\x1F😀", references := [⟨"", "\n"⟩], properties := [⟨"ß", "\x7F"⟩],
    version := some "", number := -9223372036854775808, float := ⟨0x7FEFFFFFFFFFFFFF⟩,
    memo := "x" }

/-- It comes back from between blanks, but not from before another byte, and not once its float is
no number. Without its version it would have another text. -/
theorem escaped_decodes :
    (∃ copy : Doc, copy.IsJsonCopyOf escaped ∧
      (Serializer.json.deserialize ([0x20, 0x0A] ++ (toJson escaped).render ++ [0x09]) ()).1 =
        .ok copy) ∧
    (∃ reason, ((Serializer.json : Serializer Doc Unit).deserialize
      ([] ++ (toJson escaped).render ++ [0x2C]) ()).1 = .error (.serialization reason)) ∧
    (∃ reason, ((Serializer.json : Serializer Doc Unit).deserialize
      ([] ++ (toJson { escaped with float := .notANumber false }).render ++ [0x20]) ()).1 =
        .error (.serialization reason)) ∧
    (toJson escaped).render ≠ (toJson { escaped with version := none }).render := by
  have hblanks : AreBlanks [0x20, 0x0A] ∧ AreBlanks [0x09] ∧ AreBlanks [] ∧ AreBlanks [0x20] ∧
      ¬ AreBlanks [0x2C] := by
    simp only [AreBlanks]
    decide +kernel
  obtain ⟨hbefore, hafter, hnone, hspace, hcomma⟩ := hblanks
  obtain ⟨-, hread, hmore, -, hapart⟩ := json_decodes_encoded (σ := Unit) escaped
  obtain ⟨-, -, -, hnull, -⟩ :=
    json_decodes_encoded (σ := Unit) { escaped with float := .notANumber false }
  obtain ⟨copy, hcopy, hcopied, -⟩ := hread (by decide)
  obtain ⟨reason, hreason⟩ := hmore [] [0x2C] hnone hcomma ()
  obtain ⟨nullReason, hnullReason⟩ := (hnull (by decide)).1 [] [0x20] hnone hspace ()
  refine ⟨⟨copy, hcopy, by rw [hcopied _ _ hbefore hafter]⟩, ⟨reason, by rw [hreason]⟩,
    ⟨nullReason, by rw [hnullReason]⟩, fun htext => ?_⟩
  have hagrees := hapart { escaped with version := none } (by decide) (by decide) htext
  exact absurd hagrees.version (by decide)

end EntityStore.Doc
