import EntityStore.Proofs.Doc.Formats
import EntityStore.Proofs.Store.Made

/-!
# An encoded document says where it ends

A document in MessagePack is read back from its bytes whatever follows them, for
every length comes before what it counts. So the bytes of a document are no
proper prefix of those of another one, and two documents have the same bytes if
and only if they differ in nothing but the memo, which is not written.
-/

namespace EntityStore.Doc

variable {σ : Type}

/-- MessagePack keeps documents apart and reads them back. Writing a document whose texts and lists
are short enough for the format to count succeeds, and the bytes are read as the document without
its memo, its float bit for bit, whatever bytes follow. The same goes for a context over the
format: as it is if its codec does nothing, and behind any codec that loses nothing. The bytes of
one document begin those of another one if and only if the two are the same but for the memo, and
then all of the bytes are the same. -/
theorem messagePack_decodes_encoded {d : Doc} (h : d.IsSized) :
    (∀ s : σ, Serializer.messagePack.serialize d s = (.ok (toPack d).render, s)) ∧
    (∀ rest (s : σ),
      Serializer.messagePack.deserialize ((toPack d).render ++ rest) s = (.ok d.stored, s)) ∧
    (let x : Context Doc σ := ⟨.messagePack, .identity⟩
      ∀ s, x.encode d s = (.ok (toPack d).render, s) ∧
        ∀ rest, x.decode ((toPack d).render ++ rest) s = (.ok d.stored, s)) ∧
    (∀ x : Context Doc σ, x.serializer = .messagePack → x.codec.IsLossless →
      ∀ blob a, (x.encode d a).1 = .ok blob → ∀ b, (x.decode blob b).1 = .ok d.stored) ∧
    ∀ {d' : Doc}, d'.IsSized →
      ((toPack d).render <+: (toPack d').render ↔ d.stored = d'.stored) ∧
      ((toPack d).render = (toPack d').render ↔ d.stored = d'.stored) := by
  have hread : ∀ rest (s : σ),
      Serializer.messagePack.deserialize ((toPack d).render ++ rest) s = (.ok d.stored, s) := by
    intro rest s
    simp only [Serializer.messagePack, messagePack_reads_append h]
    rfl
  refine ⟨fun _ => rfl, hread, fun s => ⟨rfl, fun rest => hread rest s⟩,
    fun x hserializer hcodec blob a hencoded b => ?_, fun {d'} h' => ?_⟩
  · obtain ⟨raw, hser, -, hdecode⟩ := Context.serialized_of_encoded hcodec hencoded
    obtain ⟨c, hc⟩ := hdecode b
    rw [hserializer] at hser hc
    obtain rfl : (toPack d).render = raw := Except.ok.inj hser
    have hraw := hread [] c
    rw [List.append_nil] at hraw
    rw [hc, hraw]
  · have hstored : (toPack d).render <+: (toPack d').render → d.stored = d'.stored := by
      intro hp
      exact toPack_inj.1 (Pack.eq_of_isPrefix_render (toPack_isSized h) (toPack_isSized h') hp)
    have hbytes : d.stored = d'.stored → (toPack d).render = (toPack d').render := by
      intro heq
      rw [toPack_inj.2 heq]
    have hbegins : (toPack d).render = (toPack d').render →
        (toPack d).render <+: (toPack d').render := by
      intro heq
      rw [heq]
    exact ⟨⟨hstored, fun heq => hbegins (hbytes heq)⟩, fun heq => hstored (hbegins heq), hbytes⟩

/-- A document with texts outside ASCII, a number below every small marker and a float that is no
number. -/
def varied : Doc :=
  { id := "é\x00😀", references := [⟨"isbn", "\"1"⟩, ⟨"isbn", "\"1"⟩], properties := [⟨"", "ß"⟩],
    version := some "", number := -129, float := ⟨0xFFF8000000000001⟩, memo := "x" }

/-- It comes back from its bytes and two more, and with another pattern of its float it would have
bytes that do not begin like these. -/
theorem varied_decodes :
    (Serializer.messagePack.deserialize ((toPack varied).render ++ [0xC0, 0xFF]) ()).1 =
        .ok varied.stored ∧
      ¬ (toPack varied).render <+:
        (toPack { varied with float := ⟨0x7FF8000000000000⟩ }).render := by
  have hsized : varied.IsSized := isSized_of_length (by decide +kernel)
  have hother : IsSized { varied with float := ⟨0x7FF8000000000000⟩ } :=
    isSized_of_length (by decide +kernel)
  obtain ⟨-, hread, -, -, hbegins⟩ := messagePack_decodes_encoded (σ := Unit) hsized
  refine ⟨by rw [hread], fun hp => ?_⟩
  have hstored := (hbegins hother).1.1 hp
  exact absurd (congrArg Doc.float hstored) (by decide)

end EntityStore.Doc
