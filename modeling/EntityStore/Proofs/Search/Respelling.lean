import EntityStore.Proofs.Search.Registrations
import EntityStore.Store.Search
import Mathlib.Data.List.TakeWhile

/-!
# Ids that are spelled differently

Two ids that differ in the case of ASCII letters and in the blanks at their ends
have one normal form. The case of ASCII letters, and no other one, is what
`Char.toLower` takes away. Lowercase looks at characters through a few tables
only, at those beside a sigma as well as at the one it stands at, and to all of
these tables a capital of ASCII and its lowercase are the same
(`Text.toLower_isAlike`).

A search brings the id it is asked for into normal form twice, and a default is
brought into it when it is set and when it is looked up. Since the second time
changes nothing, the algorithm that runs is the one that was registered under
that normal form, however the id is spelled.
-/

namespace EntityStore.Text

/-! ## The case of ASCII letters -/

/-- Two characters that lowercase and trimming take alike. -/
structure IsAlike (c d : Char) : Prop where
  lower_eq : lowerChar c = lowerChar d
  cased_eq : isCased c = isCased d
  ignorable_eq : isCaseIgnorable c = isCaseIgnorable d
  blank_eq : isBlank c = isBlank d
  sigma_iff : c = capitalSigma ↔ d = capitalSigma

instance (c d : Char) : Decidable (IsAlike c d) :=
  decidable_of_iff (lowerChar c = lowerChar d ∧ isCased c = isCased d ∧
      isCaseIgnorable c = isCaseIgnorable d ∧ isBlank c = isBlank d ∧
      (c = capitalSigma ↔ d = capitalSigma))
    ⟨fun ⟨h₁, h₂, h₃, h₄, h₅⟩ => ⟨h₁, h₂, h₃, h₄, h₅⟩, fun ⟨h₁, h₂, h₃, h₄, h₅⟩ => ⟨h₁, h₂, h₃, h₄, h₅⟩⟩

theorem ascii_capitals_alike : ∀ n < 26,
    IsAlike (Char.ofNat (0x41 + n)).toLower (Char.ofNat (0x41 + n)) := by
  decide +kernel

theorem toLower_isAlike (c : Char) : IsAlike c.toLower c := by
  by_cases h : c.val ≥ 'A'.val ∧ c.val ≤ 'Z'.val
  · have hcode : 0x41 ≤ c.toNat ∧ c.toNat ≤ 0x5A := h
    have hc : Char.ofNat (0x41 + (c.toNat - 0x41)) = c := by
      rw [show 0x41 + (c.toNat - 0x41) = c.toNat by omega, Char.ofNat_toNat]
    have halike := ascii_capitals_alike (c.toNat - 0x41) (by omega)
    rwa [hc] at halike
  · have hsame : c.toLower = c := dif_neg h
    rw [hsame]
    exact ⟨rfl, rfl, rfl, rfl, Iff.rfl⟩

theorem meetsCased_map (cs : List Char) : meetsCased (cs.map Char.toLower) = meetsCased cs := by
  have hignorable : isCaseIgnorable ∘ Char.toLower = isCaseIgnorable :=
    funext fun c => (toLower_isAlike c).ignorable_eq
  rw [meetsCased, meetsCased, List.dropWhile_map, hignorable]
  cases cs.dropWhile isCaseIgnorable with
  | nil => rfl
  | cons c _ => exact (toLower_isAlike c).cased_eq

theorem lowerAt_map (before : List Char) (c : Char) (rest : List Char) :
    lowerAt (before.map Char.toLower) c.toLower (rest.map Char.toLower) =
      lowerAt before c rest := by
  have halike := toLower_isAlike c
  rw [lowerAt, lowerAt, endsWord, endsWord, meetsCased_map, meetsCased_map, halike.lower_eq]
  exact if_congr halike.sigma_iff rfl rfl

theorem lowerAfter_map (before cs : List Char) :
    lowerAfter (before.map Char.toLower) (cs.map Char.toLower) = lowerAfter before cs := by
  induction cs generalizing before with
  | nil => rfl
  | cons c rest ih =>
      rw [List.map_cons, lowerAfter_cons, lowerAfter_cons, lowerAt_map, ← List.map_cons, ih]

theorem dropWhile_isBlank_map (cs : List Char) :
    (cs.map Char.toLower).dropWhile isBlank = (cs.dropWhile isBlank).map Char.toLower := by
  have hblank : isBlank ∘ Char.toLower = isBlank :=
    funext fun c => (toLower_isAlike c).blank_eq
  rw [List.dropWhile_map, hblank]

theorem trimChars_map (cs : List Char) :
    trimChars (cs.map Char.toLower) = (trimChars cs).map Char.toLower := by
  simp only [trimChars, dropEndWhile, dropWhile_isBlank_map, ← List.map_reverse]

/-! ## Blanks at the ends -/

/-- A text of some characters with blanks around them. -/
def IsPadded (s : String) (core : List Char) : Prop :=
  ∃ before after, s.toList = before ++ core ++ after ∧
    (∀ c ∈ before, isBlank c = true) ∧ ∀ c ∈ after, isBlank c = true

theorem IsPadded.trimChars_eq {s : String} {core : List Char} (h : IsPadded s core) :
    trimChars s.toList = trimChars core := by
  obtain ⟨before, after, hs, hbefore, hafter⟩ := h
  have hafter' : ∀ c ∈ after.reverse, isBlank c = true :=
    fun c hc => hafter c (List.mem_reverse.1 hc)
  rw [hs, List.append_assoc, trimChars, List.dropWhile_append_of_pos hbefore, List.dropWhile_append]
  split
  · next hempty =>
      rw [trimChars, List.isEmpty_iff.1 hempty, List.dropWhile_eq_nil_iff.2 hafter]
  · rw [trimChars, dropEndWhile, dropEndWhile, List.reverse_append,
      List.dropWhile_append_of_pos hafter']

end EntityStore.Text

namespace EntityStore

/-- Two texts that differ in the case of ASCII letters and in the blanks at their ends at most. -/
def Respelled (s t : String) : Prop :=
  ∃ core core', Text.IsPadded s core ∧ Text.IsPadded t core' ∧
    core.map Char.toLower = core'.map Char.toLower

theorem Respelled.normalId_eq {s t : String} (h : Respelled s t) : normalId s = normalId t := by
  obtain ⟨core, core', hs, ht, hcase⟩ := h
  have hlower : ∀ cs, Text.lowerAfter [] (Text.trimChars cs) =
      Text.lowerAfter [] (Text.trimChars (cs.map Char.toLower)) := by
    intro cs
    rw [Text.trimChars_map]
    exact (Text.lowerAfter_map [] _).symm
  simp only [normalId, Text.lowercase, Text.trim, String.toList_ofList, hs.trimChars_eq,
    ht.trimChars_eq]
  rw [hlower core, hlower core', hcase]

theorem Respelled.refl (s : String) : Respelled s s := by
  have hpadded : Text.IsPadded s s.toList := ⟨[], [], by simp, nofun, nofun⟩
  exact ⟨s.toList, s.toList, hpadded, hpadded, rfl⟩

variable {κ ε σ τ ρ : Type}

/-! ## Look-ups -/

namespace SearchRegistry

variable {calls : List (RegistryCall κ ε σ)} {r : SearchRegistry κ ε σ}

theorem first?_empty (l : List (Algorithm κ ε σ)) : first? "" l = none := by
  refine List.find?_eq_none.2 fun a _ => ?_
  simp

theorem get?_after (calls : List (RegistryCall κ ε σ)) (id : String) :
    (after calls empty).get? id = first? (normalId id) (offered calls) :=
  find?_after calls empty (normalId id)

/-- What is stored is found under every spelling. -/
theorem get?_of_respelled {a : Algorithm κ ε σ} {t : String}
    (ha : r.algorithms.find? (normalId a.id) = some a) (ht : Respelled a.id t) :
    r.get? t = some a := by
  rw [get?, ← ht.normalId_eq, ha]

theorem normalId_defaultId {id : String} (hid : (after calls empty).defaultId = some id) :
    normalId id = id := by
  obtain ⟨a, ha⟩ := mem_ids_iff.1 (empty_hasDefault.after calls hid)
  have hfirst : first? id (offered calls) = some a := (find?_after calls empty id).symm.trans ha
  rw [← (of_first? hfirst).2, normalId_normalId]

end SearchRegistry

namespace Store

open SearchRegistry

variable {s : Store κ ε σ τ} {calls : List (RegistryCall κ ε σ)}

/-- The algorithm that a request is answered with. -/
theorem get?_searchId (hs : s.searches = after calls empty) (request : SearchRequest) :
    s.searches.get? (s.searchId request) =
      ((request.id.map normalId).or s.searches.defaultId).bind (first? · (offered calls)) := by
  rw [searchId, hs, get?_after]
  cases request.id with
  | some id =>
      rw [resolveId, Option.getD_some, normalId_normalId]
      rfl
  | none =>
      rw [resolveId]
      cases hdefault : (after calls empty).defaultId with
      | some id =>
          rw [Option.getD_some, normalId_defaultId hdefault]
          rfl
      | none =>
          have hempty : normalId "" = "" := by decide +kernel
          rw [Option.getD_none, hempty, first?_empty]
          rfl

end Store

/-- However ids are spelled, they are brought into one normal form: it is its own normal form, and
that of a text with other ASCII case and other blanks at its ends. So a search over a registry that
any calls set up runs the algorithm that was registered under the normal form of the id it is asked
for, or of the default, and no other one. An algorithm that was registered is found under every
spelling of its id, whatever is called later, and one that was made the default under some spelling
is what a request without an id finds. -/
theorem spellings_agree [EntityKey κ] [Paged ρ] (calls : List (RegistryCall κ ε σ)) :
    (∀ id, normalId (normalId id) = normalId id) ∧
    (∀ {s t}, Respelled s t → normalId s = normalId t) ∧
    let r := SearchRegistry.after calls .empty
    (∀ (s : Store κ ε σ τ), s.searches = r →
      ∀ (load : Loader κ ε σ ρ) request settings st,
      let told := st.notify s.observers (.beforeSearch request)
      s.searchWith load request settings st =
        match ((request.id.map normalId).or r.defaultId).bind
            (SearchRegistry.first? · (SearchRegistry.offered calls)) with
        | none => s.notSearched request settings told
        | some a => s.searchIn load a (s.takeSnapshot told) request settings told) ∧
    (∀ (c : RegistryCall κ ε σ) {a}, c.offered? = some a → c.fault? r.ids = none →
      ∀ more, let r' := SearchRegistry.after more (c.perform r).2
        r'.get? a.id = some a ∧ ∀ {t}, Respelled a.id t → r'.get? t = some a) ∧
    ∀ {id t}, Respelled id t → normalId id ∈ r.ids →
      let r' := (RegistryCall.perform (.setDefault t) r).2
      ∃ a, r.get? id = some a ∧ normalId a.id = normalId id ∧
        (r'.resolveId none).bind r'.get? = some a := by
  refine ⟨normalId_normalId, Respelled.normalId_eq, ?_⟩
  intro r
  refine ⟨fun s hs load request settings st => ?_,
    fun c {a} hoffered hfault more => ?_, fun {id t} ht hknown => ?_⟩
  · have hget := Store.get?_searchId hs request
    rw [hs] at hget
    cases hfound : ((request.id.map normalId).or r.defaultId).bind
        (SearchRegistry.first? · (SearchRegistry.offered calls)) with
    | none =>
        rw [hfound] at hget
        simp only [Store.searchWith, hs, hget]
    | some a =>
        rw [hfound] at hget
        simp only [Store.searchWith, hs, hget]
  · have hstored : (c.perform r).2.algorithms.find? (normalId a.id) = some a := by
      rw [c.perform_eq, hfault, hoffered]
      exact SortedMap.find?_insert_self _ _ _
    have hkept : (SearchRegistry.after more (c.perform r).2).algorithms.find? (normalId a.id) =
        some a := by
      rw [SearchRegistry.find?_after, hstored, Option.some_or]
    exact ⟨SearchRegistry.get?_of_respelled hkept (.refl a.id),
      SearchRegistry.get?_of_respelled hkept⟩
  · obtain ⟨a, ha⟩ := SearchRegistry.mem_ids_iff.1 hknown
    have hfirst := (SearchRegistry.find?_after calls .empty (normalId id)).symm.trans ha
    have hfault : (RegistryCall.setDefault t : RegistryCall κ ε σ).fault? r.ids = none := by
      rw [RegistryCall.fault?, ← ht.normalId_eq, if_pos hknown]
    refine ⟨a, ha, (SearchRegistry.of_first? hfirst).2, ?_⟩
    rw [RegistryCall.perform_eq, hfault, SearchRegistry.resolveId, RegistryCall.newDefault?,
      Option.some_or, Option.bind_some, SearchRegistry.get?, normalId_normalId, ← ht.normalId_eq]
    exact ha

/-- A store with the registry that four calls set up. -/
def namesStore : Store String Unit Unit Unit where
  collectionId := "c"
  readOnly := false
  eager := false
  makers := { key := fun _ => "k" }
  versionPolicy := none
  signaturePolicy := none
  context :=
    { serializer :=
        { formatId := "unit"
          serialize := fun _ s => (.ok [], s)
          deserialize := fun _ s => (.ok (), s) }
      codec := .identity }
  searches := .after SearchRegistry.fourCalls .empty
  observers := []

theorem names_respelled : Respelled " Names\t" "\u3000nAMEs\u2003" :=
  have hblank : ∀ c, Text.isBlank c = true → ∀ d ∈ [c], Text.isBlank d = true :=
    fun _ hc => List.forall_mem_singleton.2 hc
  ⟨"Names".toList, "nAMEs".toList,
    ⟨[' '], ['\t'], rfl, hblank _ (by decide), hblank _ (by decide)⟩,
    ⟨['\u3000'], ['\u2003'], rfl, hblank _ (by decide), hblank _ (by decide)⟩, rfl⟩

/-- An algorithm that was registered with blanks around its id is found under another spelling with
other blanks, a search under that spelling is answered, and so is one without an id once the default
was chosen by it. -/
theorem names_found :
    let r := SearchRegistry.after SearchRegistry.fourCalls .empty
    normalId " Names\t" = normalId "\u3000nAMEs\u2003" ∧
    (namesStore.searchWith (Hits.table { id := some "\u3000nAMEs\u2003" })
      { id := some "\u3000nAMEs\u2003" } none (.start () ())).1.code = .ok ∧
    ((RegistryCall.register (SearchRegistry.idle " Names\t")).perform .empty).2.get?
      "\u3000nAMEs\u2003" = some (SearchRegistry.idle " Names\t") ∧
    ∃ a, r.get? " Names\t" = some a ∧ normalId a.id = "names" ∧
      (((RegistryCall.setDefault "\u3000nAMEs\u2003").perform r).2.resolveId none).bind
        ((RegistryCall.setDefault "\u3000nAMEs\u2003").perform r).2.get? = some a := by
  intro r
  have hnames : normalId " Names\t" = "names" := by decide +kernel
  have hrespelled : normalId "\u3000nAMEs\u2003" = "names" := by decide +kernel
  have hfirst : SearchRegistry.first? "names" (SearchRegistry.offered SearchRegistry.fourCalls) =
      some (SearchRegistry.idle " Names\t") := by
    simp [SearchRegistry.first?, SearchRegistry.offered, SearchRegistry.fourCalls,
      RegistryCall.offered?, SearchRegistry.idle, Algorithm.ofFunction, hnames]
  obtain ⟨-, hagree, hsearch, -, hdefault⟩ :=
    spellings_agree (τ := Unit) (ρ := Table) SearchRegistry.fourCalls
  obtain ⟨-, -, -, hregistered, -⟩ :=
    spellings_agree (κ := String) (ε := Unit) (σ := Unit) (τ := Unit) (ρ := Table) []
  refine ⟨hagree names_respelled, ?_, ?_, ?_⟩
  · have hsearches : namesStore.searches = .after SearchRegistry.fourCalls .empty := by
      rw [namesStore]
    rw [hsearch namesStore hsearches, Option.map_some, hrespelled, Option.some_or, Option.bind_some,
      hfirst]
    rfl
  · exact (hregistered (.register (SearchRegistry.idle " Names\t")) rfl (by decide +kernel) []).2
      names_respelled
  · have hknown : normalId " Names\t" ∈ r.ids := by decide +kernel
    obtain ⟨a, ha, hid, hfound⟩ := hdefault names_respelled hknown
    exact ⟨a, ha, hid.trans hnames, hfound⟩

end EntityStore
