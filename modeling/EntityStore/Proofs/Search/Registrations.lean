import EntityStore.Proofs.Ranked
import EntityStore.Proofs.Search.NormalId
import EntityStore.Proofs.SortedMap

/-!
# What a search registry holds

A registry is set up by three calls, which are data here, so that "any sequence
of calls" is a list. A call works in place (`RegistryCall.perform`): whatever it
changed before it failed would stay changed. It checks first and changes
afterwards, so a failed call leaves the registry as it was, and what it makes of
the registry is what the function of the registry says (`perform_eq`).

From that a look-up after a run is known exactly (`find?_after`): under a normal
form stands the algorithm that was there before, or else the first one of that
form that was offered. So nothing is replaced or removed, and whatever is in the
registry is there under its normal form.
-/

namespace EntityStore

variable {κ ε σ : Type}

namespace SearchRegistry

variable {r : SearchRegistry κ ε σ} {id : String}

theorem mem_ids_iff : id ∈ r.ids ↔ ∃ a, r.algorithms.find? id = some a :=
  SortedMap.mem_keys_iff

theorem contains_iff_mem_ids : r.algorithms.contains id = true ↔ id ∈ r.ids := by
  rw [SortedMap.contains_iff, mem_ids_iff]

end SearchRegistry

/-! ## Calls -/

inductive RegistryCall (κ ε σ : Type) where
  | register (a : Algorithm κ ε σ)
  | registerDefault (a : Algorithm κ ε σ)
  | setDefault (id : String)

namespace RegistryCall

open SearchRegistry (contains_iff_mem_ids)

def registerInPlace (a : Algorithm κ ε σ) (r : SearchRegistry κ ε σ) :
    Except StoreError Unit × SearchRegistry κ ε σ :=
  let id := normalId a.id
  if id.isEmpty then (.error (.configuration "search id must be a non-empty string"), r)
  else if r.algorithms.contains id then (.error (.duplicateSearch id), r)
  else (.ok (), { r with algorithms := r.algorithms.insert id a })

/-- The answer to a call, and the registry as it stands afterwards, after a failure as well. -/
def perform (c : RegistryCall κ ε σ) (r : SearchRegistry κ ε σ) :
    Except StoreError Unit × SearchRegistry κ ε σ :=
  match c with
  | .register a => registerInPlace a r
  | .registerDefault a =>
    let id := normalId a.id
    match registerInPlace a r with
    | (.error err, r) => (.error err, r)
    | (.ok (), r) => (.ok (), { r with defaultId := some id })
  | .setDefault id =>
    let id := normalId id
    if !r.algorithms.contains id then (.error (.unknownSearch id), r)
    else (.ok (), { r with defaultId := some id })

/-- What a call makes of a registry that is handed over to it. -/
def result (c : RegistryCall κ ε σ) (r : SearchRegistry κ ε σ) :
    Except StoreError (SearchRegistry κ ε σ) :=
  match c with
  | .register a => r.register a
  | .registerDefault a => r.registerDefault a
  | .setDefault id => r.setDefault id

/-- Why a call fails, by the ids that are taken. -/
def fault? (c : RegistryCall κ ε σ) (ids : List String) : Option StoreError :=
  match c with
  | .register a | .registerDefault a =>
    if normalId a.id = "" then
      some (.configuration "search id must be a non-empty string")
    else if normalId a.id ∈ ids then some (.duplicateSearch (normalId a.id))
    else none
  | .setDefault id => if normalId id ∈ ids then none else some (.unknownSearch (normalId id))

/-- The algorithm that a call offers. -/
def offered? : RegistryCall κ ε σ → Option (Algorithm κ ε σ)
  | .register a | .registerDefault a => some a
  | .setDefault _ => none

/-- The default that a call asks for. -/
def newDefault? : RegistryCall κ ε σ → Option String
  | .register _ => none
  | .registerDefault a => some (normalId a.id)
  | .setDefault id => some (normalId id)

variable {r : SearchRegistry κ ε σ} {c : RegistryCall κ ε σ}

theorem fault?_of_offered {a : Algorithm κ ε σ} (h : c.offered? = some a) (ids : List String) :
    c.fault? ids = (register a).fault? ids := by
  cases c with
  | register b =>
      obtain rfl := Option.some.inj h
      rfl
  | registerDefault b =>
      obtain rfl := Option.some.inj h
      rfl
  | setDefault id => cases h

theorem registerInPlace_eq (a : Algorithm κ ε σ) (r : SearchRegistry κ ε σ) :
    registerInPlace a r = match (register a).fault? r.ids with
      | some err => (.error err, r)
      | none => (.ok (), { r with algorithms := r.algorithms.insert (normalId a.id) a }) := by
  simp only [registerInPlace, fault?, String.isEmpty_iff, contains_iff_mem_ids]
  split
  · rfl
  · split <;> rfl

/-- What a call does: it fails and changes nothing, or it takes up what it offers and the default
that it asks for. -/
theorem perform_eq (c : RegistryCall κ ε σ) (r : SearchRegistry κ ε σ) :
    c.perform r = match c.fault? r.ids with
      | some err => (.error err, r)
      | none => (.ok (), {
          algorithms := match c.offered? with
            | some a => r.algorithms.insert (normalId a.id) a
            | none => r.algorithms
          defaultId := c.newDefault?.or r.defaultId }) := by
  cases c with
  | register a =>
      simp only [perform, registerInPlace_eq, offered?, newDefault?, Option.none_or]
  | registerDefault a =>
      have hsame : (registerDefault a).fault? r.ids = (register a).fault? r.ids := rfl
      simp only [perform, registerInPlace_eq, hsame, offered?, newDefault?, Option.some_or]
      cases (register a).fault? r.ids <;> rfl
  | setDefault id =>
      simp only [perform, fault?, Bool.not_eq_true', Bool.eq_false_iff, ne_eq,
        contains_iff_mem_ids, ite_not, offered?, newDefault?, Option.some_or]
      split <;> rfl

/-- Working in place comes to the same as handing the registry over. -/
theorem perform_eq_result (c : RegistryCall κ ε σ) (r : SearchRegistry κ ε σ) :
    c.perform r = match c.result r with
      | .ok r' => (.ok (), r')
      | .error err => (.error err, r) := by
  have hregister : ∀ a, registerInPlace a r = match r.register a with
      | .ok r' => (.ok (), r')
      | .error err => (.error err, r) := by
    intro a
    rw [registerInPlace, SearchRegistry.register]
    generalize normalId a.id = id
    generalize r.algorithms.contains id = taken
    cases id.isEmpty <;> cases taken <;> rfl
  cases c with
  | register a => simp only [perform, hregister, result]
  | registerDefault a =>
      simp only [perform, hregister, result, SearchRegistry.registerDefault]
      cases r.register a <;> rfl
  | setDefault id =>
      simp only [perform, result, SearchRegistry.setDefault]
      cases r.algorithms.contains (normalId id) <;> rfl

theorem perform_of_fault {err : StoreError} (h : c.fault? r.ids = some err) :
    c.perform r = (.error err, r) ∧ c.result r = .error err := by
  have hperform : c.perform r = (.error err, r) := by
    rw [c.perform_eq, h]
  refine ⟨hperform, ?_⟩
  rw [c.perform_eq_result] at hperform
  cases hresult : c.result r with
  | error err' =>
      rw [hresult] at hperform
      rw [Except.error.inj (congrArg Prod.fst hperform)]
  | ok r' =>
      rw [hresult] at hperform
      cases congrArg Prod.fst hperform

theorem perform_of_no_fault (h : c.fault? r.ids = none) :
    (c.perform r).1 = .ok () ∧ c.result r = .ok (c.perform r).2 := by
  have hperform : (c.perform r).1 = .ok () := by
    rw [c.perform_eq, h]
  refine ⟨hperform, ?_⟩
  rw [c.perform_eq_result] at hperform ⊢
  cases hresult : c.result r with
  | error err =>
      rw [hresult] at hperform
      cases hperform
  | ok r' => rfl

end RegistryCall

/-! ## Runs -/

namespace SearchRegistry

def after (calls : List (RegistryCall κ ε σ)) (r : SearchRegistry κ ε σ) : SearchRegistry κ ε σ :=
  calls.foldl (fun r c => (c.perform r).2) r

/-- The algorithms that calls offer, in their order. -/
def offered (calls : List (RegistryCall κ ε σ)) : List (Algorithm κ ε σ) :=
  calls.filterMap RegistryCall.offered?

/-- The first of some algorithms with a normal form, which must not be empty. -/
def first? (id : String) (l : List (Algorithm κ ε σ)) : Option (Algorithm κ ε σ) :=
  l.find? fun a => id ≠ "" ∧ normalId a.id = id

variable {r : SearchRegistry κ ε σ} {c : RegistryCall κ ε σ}

theorem of_first? {id : String} {l : List (Algorithm κ ε σ)} {a : Algorithm κ ε σ}
    (h : first? id l = some a) : id ≠ "" ∧ normalId a.id = id := by
  have hsome := List.find?_some h
  simpa using hsome

/-- A call leaves what is stored under an id, or stores there what it offers. -/
theorem find?_perform (c : RegistryCall κ ε σ) (r : SearchRegistry κ ε σ) (id : String) :
    (c.perform r).2.algorithms.find? id =
      (r.algorithms.find? id).or (first? id c.offered?.toList) := by
  rw [c.perform_eq]
  cases hoffered : c.offered? with
  | none =>
      have hnothing : first? id (none : Option (Algorithm κ ε σ)).toList = none := rfl
      rw [hnothing, Option.or_none]
      cases c.fault? r.ids <;> rfl
  | some a =>
      have hfirst : first? id (some a).toList =
          if id ≠ "" ∧ normalId a.id = id then some a else none := by
        rw [first?, Option.toList_some, List.find?_singleton]
        simp only [decide_eq_true_eq]
      rw [hfirst, RegistryCall.fault?_of_offered hoffered, RegistryCall.fault?]
      by_cases hempty : normalId a.id = ""
      · have hnot : ¬ (id ≠ "" ∧ normalId a.id = id) := fun h => h.1 (h.2 ▸ hempty)
        rw [if_pos hempty, if_neg hnot, Option.or_none]
      rw [if_neg hempty]
      by_cases htaken : normalId a.id ∈ r.ids
      · rw [if_pos htaken]
        by_cases hid : normalId a.id = id
        · obtain ⟨b, hb⟩ := SortedMap.mem_keys_iff.1 htaken
          rw [← hid, hb, Option.some_or]
        · rw [if_neg fun h => hid h.2, Option.or_none]
      · rw [if_neg htaken]
        by_cases hid : normalId a.id = id
        · have hfree : r.algorithms.find? id = none := by
            rw [← hid, ← SortedMap.contains_eq_false_iff, ← Bool.not_eq_true,
              contains_iff_mem_ids]
            exact htaken
          rw [if_pos ⟨hid ▸ hempty, hid⟩, hfree, ← hid]
          exact SortedMap.find?_insert_self _ _ _
        · rw [if_neg fun h => hid h.2, Option.or_none]
          exact SortedMap.find?_insert_of_ne _ _ (Ne.symm hid)

/-- Under an id stands what stood there before, or else the first algorithm of that normal form
that was offered. -/
theorem find?_after (calls : List (RegistryCall κ ε σ)) (r : SearchRegistry κ ε σ) (id : String) :
    (after calls r).algorithms.find? id =
      (r.algorithms.find? id).or (first? id (offered calls)) := by
  induction calls generalizing r with
  | nil => exact Option.or_none.symm
  | cons c rest ih =>
      have hoffered : offered (c :: rest) = c.offered?.toList ++ offered rest := by
        rw [offered, List.filterMap_cons]
        cases c.offered? <;> rfl
      rw [hoffered, first?, List.find?_append, ← Option.or_assoc]
      exact (ih _).trans (congrArg (Option.or · _) (find?_perform c r id))

/-! ## The default -/

theorem mem_ids_perform {id : String} (h : id ∈ r.ids) (c : RegistryCall κ ε σ) :
    id ∈ (c.perform r).2.ids := by
  obtain ⟨a, ha⟩ := mem_ids_iff.1 h
  exact mem_ids_iff.2 ⟨a, by rw [find?_perform, ha, Option.some_or]⟩

/-- The default is one of the algorithms. -/
def HasDefault (r : SearchRegistry κ ε σ) : Prop := ∀ {id}, r.defaultId = some id → id ∈ r.ids

/-- A default that a call sets is stored by then. -/
theorem mem_ids_of_newDefault? {id : String} (hfault : c.fault? r.ids = none)
    (hid : c.newDefault? = some id) : id ∈ (c.perform r).2.ids := by
  cases c with
  | register a => cases hid
  | registerDefault a =>
      obtain rfl := Option.some.inj hid
      rw [RegistryCall.perform_eq, hfault]
      exact mem_ids_iff.2 ⟨a, SortedMap.find?_insert_self _ _ _⟩
  | setDefault wanted =>
      obtain rfl := Option.some.inj hid
      refine mem_ids_perform ?_ _
      by_contra hunknown
      rw [RegistryCall.fault?, if_neg hunknown] at hfault
      cases hfault

theorem HasDefault.perform (h : r.HasDefault) (c : RegistryCall κ ε σ) :
    (c.perform r).2.HasDefault := by
  intro id hid
  cases hfault : c.fault? r.ids with
  | some err =>
      rw [c.perform_eq, hfault] at hid ⊢
      exact h hid
  | none =>
      have hor : (c.perform r).2.defaultId = c.newDefault?.or r.defaultId := by
        rw [c.perform_eq, hfault]
      rw [hor] at hid
      rcases Option.or_eq_some_iff.1 hid with hnew | ⟨-, hold⟩
      · exact mem_ids_of_newDefault? hfault hnew
      · exact mem_ids_perform (h hold) c

theorem HasDefault.after (h : r.HasDefault) (calls : List (RegistryCall κ ε σ)) :
    (after calls r).HasDefault := by
  induction calls generalizing r with
  | nil => exact h
  | cons c rest ih => exact ih (h.perform c)

theorem empty_hasDefault : (empty : SearchRegistry κ ε σ).HasDefault := nofun

/-! ## The order of ids -/

theorem ids_ascending (r : SearchRegistry κ ε σ) : r.ids.Pairwise (· < ·) := by
  rw [ids, SortedMap.keys, List.pairwise_map]
  exact r.algorithms.ascending.imp Ranked.string_lt_iff.1

/-! ## Registries that were set up -/

/-- What holds of a registry after any calls on an empty one. Algorithms are stored under the normal
forms of their ids, which are not empty, and these are listed in strictly ascending order. If there
is a default, it is stored, and a request without an id finds it. Under a normal form stands the
first algorithm of that form that was offered, and it stays there whatever is called later. A call
fails if and only if its id is empty or taken, or unknown where a default is chosen, and then
nothing changes; otherwise it takes up what it offers and the default that it asks for. Working in
place and handing the registry over come to the same. -/
theorem registrations_hold (calls : List (RegistryCall κ ε σ)) :
    let r := after calls empty
    (∀ {id a}, r.algorithms.find? id = some a →
      id ≠ "" ∧ Text.trim id = id ∧ Text.lowercase id = id ∧ normalId a.id = id) ∧
    (r.ids.Pairwise (· < ·) ∧ r.ids.Nodup) ∧
    (∀ {id}, r.defaultId = some id →
      id ∈ r.ids ∧ ∃ a, (r.resolveId none).bind r.get? = some a ∧ normalId a.id = id) ∧
    (∀ id, r.algorithms.find? id = first? id (offered calls)) ∧
    (∀ {id a}, r.algorithms.find? id = some a →
      ∀ more, (after more r).algorithms.find? id = some a) ∧
    (∀ (c : RegistryCall κ ε σ) err, c.fault? r.ids = some err →
      c.perform r = (.error err, r) ∧ c.result r = .error err) ∧
    ∀ c : RegistryCall κ ε σ, c.fault? r.ids = none →
      (c.perform r).1 = .ok () ∧ c.result r = .ok (c.perform r).2 ∧
      (∀ a ∈ c.offered?, (c.perform r).2.get? a.id = some a) ∧
      (c.perform r).2.defaultId = c.newDefault?.or r.defaultId := by
  intro r
  have hfirst : ∀ id, r.algorithms.find? id = first? id (offered calls) := find?_after calls empty
  have hstored : ∀ {id a}, r.algorithms.find? id = some a → id ≠ "" ∧ normalId a.id = id := by
    intro id a ha
    rw [hfirst] at ha
    exact of_first? ha
  have hdefault : r.HasDefault := empty_hasDefault.after calls
  refine ⟨fun {id a} ha => ?_, ⟨r.ids_ascending, r.algorithms.nodup_keys⟩, fun {id} hid => ?_,
    hfirst, fun {id a} ha more => ?_, fun c err hfault => ?_, fun c hfault => ?_⟩
  · obtain ⟨hne, hid⟩ := hstored ha
    rw [← hid]
    exact ⟨hid ▸ hne, trim_normalId _, lowercase_normalId _, rfl⟩
  · obtain ⟨a, ha⟩ := mem_ids_iff.1 (hdefault hid)
    refine ⟨hdefault hid, a, ?_, (hstored ha).2⟩
    rw [resolveId, hid, Option.bind_some, get?, ← (hstored ha).2, normalId_normalId]
    exact (hstored ha).2 ▸ ha
  · rw [find?_after, ha, Option.some_or]
  · exact RegistryCall.perform_of_fault hfault
  · obtain ⟨hok, hresult⟩ := RegistryCall.perform_of_no_fault hfault
    refine ⟨hok, hresult, fun a ha => ?_, ?_⟩
    · rw [c.perform_eq, hfault, ha]
      exact SortedMap.find?_insert_self _ _ _
    · rw [c.perform_eq, hfault]

/-- An algorithm that finds nothing. -/
def idle (id : String) : Algorithm String Unit Unit := .ofFunction id fun _ _ => .ok { items := [] }

/-- Four calls, of which the second and the third fail. The capital at the end of the last id is a
sigma, which becomes a final one. -/
def fourCalls : List (RegistryCall String Unit Unit) :=
  [.register (idle " Names\t"), .registerDefault (idle "NAMES"), .setDefault "words",
    .registerDefault (idle "ΛΟΓΟΣ")]

/-- The first of two algorithms with one normal form is stored, also once a third one is offered;
the default is the algorithm that the last call registered. -/
theorem fourCalls_hold :
    let r := after fourCalls empty
    r.ids = ["names", "λογος"] ∧ r.defaultId = some "λογος" ∧
    (Text.trim "names" = "names" ∧ Text.lowercase "names" = "names") ∧
    r.algorithms.find? "names" = some (idle " Names\t") ∧
    (after [.register (idle "names ")] r).algorithms.find? "names" = some (idle " Names\t") ∧
    (r.resolveId none).bind r.get? = some (idle "ΛΟΓΟΣ") ∧
    RegistryCall.perform (.registerDefault (idle "NAMES")) r =
      (.error (.duplicateSearch "names"), r) ∧
    (RegistryCall.perform (.setDefault "nAmEs") r).2.defaultId = some "names" := by
  intro r
  have hnames : normalId " Names\t" = "names" := by decide +kernel
  have hcapitals : normalId "NAMES" = "names" := by decide +kernel
  have hsigma : normalId "ΛΟΓΟΣ" = "λογος" := by decide +kernel
  have hmixed : normalId "nAmEs" = "names" := by decide +kernel
  have hids : r.ids = ["names", "λογος"] := by decide +kernel
  have hdefault : r.defaultId = some "λογος" := by decide +kernel
  obtain ⟨hnormal, -, -, hfirst, hstays, hfails, htakes⟩ := registrations_hold fourCalls
  have hstored : r.algorithms.find? "names" = some (idle " Names\t") := by
    rw [hfirst]
    simp [first?, offered, fourCalls, RegistryCall.offered?, idle, Algorithm.ofFunction, hnames]
  have hlast : r.algorithms.find? "λογος" = some (idle "ΛΟΓΟΣ") := by
    rw [hfirst]
    simp [first?, offered, fourCalls, RegistryCall.offered?, idle, Algorithm.ofFunction, hnames,
      hcapitals, hsigma]
  have hget : (r.resolveId none).bind r.get? = some (idle "ΛΟΓΟΣ") := by
    rw [resolveId, hdefault, Option.bind_some, get?, ← hsigma, normalId_normalId, hsigma]
    exact hlast
  have hduplicate : (RegistryCall.registerDefault (idle "NAMES")).fault? r.ids =
      some (.duplicateSearch "names") := by
    rw [hids]
    decide +kernel
  have hknown : (RegistryCall.setDefault "nAmEs" : RegistryCall String Unit Unit).fault? r.ids =
      none := by
    rw [hids]
    decide +kernel
  have htrimmed := hnormal hstored
  refine ⟨hids, hdefault, ⟨htrimmed.2.1, htrimmed.2.2.1⟩, hstored, hstays hstored _, hget,
    (hfails _ _ hduplicate).1, ?_⟩
  rw [(htakes _ hknown).2.2.2, RegistryCall.newDefault?, hmixed, Option.some_or]

end SearchRegistry

end EntityStore
