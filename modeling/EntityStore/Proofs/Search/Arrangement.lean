import EntityStore.Proofs.Search.Pages
import EntityStore.Proofs.Search.PropertyOrder

/-!
# What the scan finds, said without a scan

A list is arranged by a comparison if it holds the same values, none stands
before a lesser one, and values that tie stand in the order they had. There is
only one such list (`Arranges.unique`): of two, the heads are each no greater
than the other, so they tie, and each is the first of those it ties with. That
is the whole reason why a page may be cut from a list that is sorted anew for
every search.

Turning a comparison round moves the groups of values that tie, but nothing
within a group (`Arranges.reversed`). So descending is ascending read backwards
only if every group reads the same backwards.
-/

namespace EntityStore

variable {α : Type} {compare : α → α → Ordering}

/-- A list holds the values of another from the least to the greatest, those that tie in the order
they had. -/
structure Arranges (compare : α → α → Ordering) (l l' : List α) : Prop where
  perm : l'.Perm l
  sorted : l'.Pairwise fun a b => compare a b ≠ .gt
  stable : ∀ a, l'.filter (compare a · == .eq) = l.filter (compare a · == .eq)

/-- Groups of values that tie, each group before the next. -/
structure Tiers (compare : α → α → Ordering) (groups : List (List α)) : Prop where
  ne_nil : ∀ g ∈ groups, g ≠ []
  ties : ∀ g ∈ groups, ∀ a ∈ g, ∀ b ∈ g, compare a b = .eq
  ascending : groups.Pairwise fun g g' => ∀ a ∈ g, ∀ b ∈ g', compare a b = .lt

/-! ## There is one arrangement -/

theorem head_of_filter_cons {p : α → Bool} {a b : α} {l l' : List α}
    (h : (a :: l).filter p = (b :: l').filter p) (ha : p a = true) (hb : p b = true) :
    a = b ∧ l.filter p = l'.filter p := by
  rw [List.filter_cons_of_pos ha, List.filter_cons_of_pos hb] at h
  exact List.cons.inj h

/-- Lists that are sorted, and alike in what ties with any value, are the same. -/
theorem TotalPreorder.eq_of_sorted (h : TotalPreorder compare) : ∀ {l l' : List α},
    l.Pairwise (fun a b => compare a b ≠ .gt) → l'.Pairwise (fun a b => compare a b ≠ .gt) →
    (∀ a, l.filter (compare a · == .eq) = l'.filter (compare a · == .eq)) → l = l' := by
  have hself : ∀ a, (compare a a == .eq) = true := fun a => beq_iff_eq.2 (h.self_eq a)
  -- what a list holds the other holds, for it ties with itself
  have hmem : ∀ {l l' : List α} {a : α},
      (∀ a, l.filter (compare a · == .eq) = l'.filter (compare a · == .eq)) → a ∈ l → a ∈ l' := by
    intro l l' a hsame ha
    have hin : a ∈ l.filter (compare a · == .eq) := List.mem_filter.2 ⟨ha, hself a⟩
    rw [hsame a] at hin
    exact (List.mem_filter.1 hin).1
  intro l
  induction l with
  | nil =>
      intro l' _ _ hsame
      cases l' with
      | nil => rfl
      | cons b l' => exact absurd (hmem (fun a => (hsame a).symm) List.mem_cons_self) (by simp)
  | cons a l ih =>
      intro l' hl hl' hsame
      cases l' with
      | nil => exact absurd (hmem hsame List.mem_cons_self) (by simp)
      | cons b l' =>
          obtain ⟨hhead, htail⟩ := List.pairwise_cons.1 hl
          obtain ⟨hhead', htail'⟩ := List.pairwise_cons.1 hl'
          have hle : compare a b ≠ .gt := by
            rcases List.mem_cons.1 (hmem (fun a => (hsame a).symm) List.mem_cons_self) with rfl | hb
            · simp [h.self_eq]
            · exact hhead b hb
          have hge : compare b a ≠ .gt := by
            rcases List.mem_cons.1 (hmem hsame List.mem_cons_self) with rfl | ha
            · simp [h.self_eq]
            · exact hhead' a ha
          have htie : compare a b = .eq := by
            rw [h.swap_eq] at hge
            revert hle hge
            cases compare a b <;> simp
          obtain ⟨rfl, -⟩ := head_of_filter_cons (hsame a) (hself a) (beq_iff_eq.2 htie)
          rw [ih htail htail' fun c => ?_]
          have hc := hsame c
          by_cases hca : (compare c a == .eq) = true
          · exact (head_of_filter_cons hc hca hca).2
          · have hleft : ∀ rest : List α, (a :: rest).filter (compare c · == .eq) =
                rest.filter (compare c · == .eq) := fun _ => List.filter_cons_of_neg hca
            rwa [hleft, hleft] at hc

namespace Arranges

variable {l l' : List α}

theorem unique (h : TotalPreorder compare) {l'' : List α} (hl' : Arranges compare l l')
    (hl'' : Arranges compare l l'') : l' = l'' :=
  h.eq_of_sorted hl'.sorted hl''.sorted fun a => (hl'.stable a).trans (hl''.stable a).symm

/-- Only the values of the list can show that it is not stable. -/
theorem iff_of_mem (h : TotalPreorder compare) :
    Arranges compare l l' ↔ l'.Perm l ∧ (l'.Pairwise fun a b => compare a b ≠ .gt) ∧
      ∀ a ∈ l, l'.filter (compare a · == .eq) = l.filter (compare a · == .eq) := by
  refine ⟨fun ⟨hperm, hsorted, hstable⟩ => ⟨hperm, hsorted, fun a _ => hstable a⟩,
    fun ⟨hperm, hsorted, hstable⟩ => ⟨hperm, hsorted, fun a => ?_⟩⟩
  by_cases ha : ∃ b ∈ l, compare a b = .eq
  · obtain ⟨b, hb, hab⟩ := ha
    have hsame : (compare a · == .eq) = (compare b · == .eq) := by
      funext c
      rw [h.congr_left hab c]
    rw [hsame, hstable b hb]
  · have hnone : ∀ b ∈ l, ¬ (compare a b == .eq) = true :=
      fun b hb hab => ha ⟨b, hb, beq_iff_eq.1 hab⟩
    rw [List.filter_eq_nil_iff.2 hnone,
      List.filter_eq_nil_iff.2 fun b hb => hnone b (hperm.mem_iff.1 hb)]

/-- A merge sort arranges, since it is stable. -/
theorem mergeSort (h : TotalPreorder compare) (l : List α) :
    Arranges compare l (l.mergeSort fun a b => compare a b != .gt) := by
  have htrans : ∀ a b c, (compare a b != .gt) = true → (compare b c != .gt) = true →
      (compare a c != .gt) = true := by
    intro a b c hab hbc
    rw [bne_iff_ne] at hab hbc ⊢
    exact h.trans hab hbc
  have htotal : ∀ a b, ((compare a b != .gt) || (compare b a != .gt)) = true := by
    intro a b
    rw [Bool.or_eq_true, bne_iff_ne, bne_iff_ne]
    exact h.total a b
  have hperm := List.mergeSort_perm l fun a b => compare a b != .gt
  refine ⟨hperm, (List.pairwise_mergeSort htrans htotal l).imp bne_iff_ne.1, fun a => ?_⟩
  -- the values that tie with `a` are in order already, so they come through as they stand
  have hties : (l.filter (compare a · == .eq)).Pairwise fun b c => (compare b c != .gt) = true := by
    refine List.pairwise_of_forall_mem_list fun b hb c hc => ?_
    have hab := beq_iff_eq.1 (List.mem_filter.1 hb).2
    have hac := beq_iff_eq.1 (List.mem_filter.1 hc).2
    rw [bne_iff_ne, ← h.congr_left hab c, hac]
    simp
  have hkept := (List.sublist_mergeSort htrans htotal hties List.filter_sublist).filter
    (compare a · == .eq)
  rw [List.filter_filter, show (fun b => (compare a b == .eq) && (compare a b == .eq)) =
    (compare a · == .eq) from funext fun b => Bool.and_self _] at hkept
  exact (hkept.eq_of_length (hperm.filter _).length_eq.symm).symm

/-- Where all values tie nothing is moved. -/
theorem eq_of_ties (h : TotalPreorder compare) (hties : ∀ a ∈ l, ∀ b ∈ l, compare a b = .eq)
    (hl' : Arranges compare l l') : l' = l := by
  refine hl'.unique h ⟨.refl l, ?_, fun _ => rfl⟩
  refine List.pairwise_of_forall_mem_list fun a ha b hb => ?_
  simp [hties a ha b hb]

end Arranges

/-! ## Groups -/

namespace Tiers

variable {groups : List (List α)}

theorem tail {g : List α} (ht : Tiers compare (g :: groups)) : Tiers compare groups :=
  ⟨fun g' hg' => ht.ne_nil g' (List.mem_cons_of_mem g hg'),
    fun g' hg' => ht.ties g' (List.mem_cons_of_mem g hg'), (List.pairwise_cons.1 ht.ascending).2⟩

/-- A value before all others is a group of its own. -/
theorem push (h : TotalPreorder compare) {a : α} (ht : Tiers compare groups)
    (hlt : ∀ g ∈ groups, ∀ b ∈ g, compare a b = .lt) : Tiers compare ([a] :: groups) where
  ne_nil := List.forall_mem_cons.2 ⟨List.cons_ne_nil a [], ht.ne_nil⟩
  ties := by
    refine List.forall_mem_cons.2 ⟨fun b hb c hc => ?_, ht.ties⟩
    rw [List.mem_singleton.1 hb, List.mem_singleton.1 hc, h.self_eq]
  ascending := by
    refine List.pairwise_cons.2 ⟨fun g hg b hb => ?_, ht.ascending⟩
    rw [List.mem_singleton.1 hb]
    exact hlt g hg

/-- A value joins the first group if it ties with one of it. -/
theorem join (h : TotalPreorder compare) {a b : α} {g : List α}
    (ht : Tiers compare ((b :: g) :: groups)) (hab : compare a b = .eq) :
    Tiers compare ((a :: b :: g) :: groups) := by
  obtain ⟨hbefore, hrest⟩ := List.pairwise_cons.1 ht.ascending
  obtain ⟨hg, hties⟩ := List.forall_mem_cons.1 ht.ties
  have hb : ∀ c ∈ a :: b :: g, compare b c = .eq :=
    List.forall_mem_cons.2 ⟨h.eq_comm.1 hab, hg b List.mem_cons_self⟩
  refine ⟨List.forall_mem_cons.2 ⟨List.cons_ne_nil _ _, ht.tail.ne_nil⟩,
    List.forall_mem_cons.2 ⟨fun c hc d hd => ?_, hties⟩,
    List.pairwise_cons.2 ⟨fun g' hg' c hc d hd => ?_, hrest⟩⟩
  · rw [← h.congr_left (hb c hc) d, hb d hd]
  · rw [← h.congr_left (hb c hc) d, hbefore g' hg' b List.mem_cons_self d hd]

/-- A sorted list falls into groups. -/
theorem of_sorted (h : TotalPreorder compare) : ∀ {l : List α},
    l.Pairwise (fun a b => compare a b ≠ .gt) → ∃ groups, Tiers compare groups ∧
      groups.flatten = l := by
  intro l
  induction l with
  | nil => exact fun _ => ⟨[], ⟨nofun, nofun, .nil⟩, rfl⟩
  | cons a l ih =>
      intro hl
      obtain ⟨hhead, htail⟩ := List.pairwise_cons.1 hl
      obtain ⟨groups, ht, rfl⟩ := ih htail
      by_cases hlt : ∀ g ∈ groups, ∀ b ∈ g, compare a b = .lt
      · exact ⟨[a] :: groups, ht.push h hlt, rfl⟩
      -- it is not before all, so it ties with the first of the first group
      · cases groups with
        | nil => exact absurd nofun hlt
        | cons g rest =>
            cases g with
            | nil => exact absurd rfl (ht.ne_nil [] List.mem_cons_self)
            | cons b g =>
                refine ⟨(a :: b :: g) :: rest, ht.join h ?_, rfl⟩
                by_contra hab
                have hlt' : compare a b = .lt := by
                  have hle : compare a b ≠ .gt := hhead b (by simp)
                  revert hle hab
                  cases compare a b <;> simp
                refine hlt fun g' hg' c hc => h.lt_of_lt_of_ne_gt hlt' ?_
                rcases List.mem_cons.1 hg' with rfl | hg'
                · simp [ht.ties _ List.mem_cons_self b List.mem_cons_self c hc]
                · simp [(List.pairwise_cons.1 ht.ascending).1 g' hg' b List.mem_cons_self c hc]

/-- A value ties with those of one group at most, so it does not show in which order the groups
stand. -/
theorem filter_reverse (h : TotalPreorder compare) (a : α) : ∀ {groups : List (List α)},
    Tiers compare groups →
      groups.reverse.flatten.filter (compare a · == .eq) =
        groups.flatten.filter (compare a · == .eq) := by
  intro groups
  induction groups with
  | nil => exact fun _ => rfl
  | cons g rest ih =>
      intro ht
      have hrest := ih ht.tail
      rw [List.reverse_cons, List.flatten_append, List.flatten_singleton, List.filter_append, hrest,
        List.flatten_cons, List.filter_append]
      by_cases hg : ∃ b ∈ g, compare a b = .eq
      · obtain ⟨b, hb, hab⟩ := hg
        have hnone : rest.flatten.filter (compare a · == .eq) = [] := by
          refine List.filter_eq_nil_iff.2 fun c hc => ?_
          obtain ⟨g', hg', hc⟩ := List.mem_flatten.1 hc
          have hbc := (List.pairwise_cons.1 ht.ascending).1 g' hg' b hb c hc
          rw [h.congr_left hab c, hbc]
          decide
        rw [hnone, List.nil_append, List.append_nil]
      · have hnone : g.filter (compare a · == .eq) = [] := by
          refine List.filter_eq_nil_iff.2 fun b hb => ?_
          rw [beq_iff_eq]
          exact fun hab => hg ⟨b, hb, hab⟩
        rw [hnone, List.nil_append, List.append_nil]

theorem sorted_reverse (h : TotalPreorder compare) (ht : Tiers compare groups) :
    groups.reverse.flatten.Pairwise fun a b => (compare a b).swap ≠ .gt := by
  rw [List.pairwise_flatten, List.pairwise_reverse]
  refine ⟨fun g hg => ?_, ht.ascending.imp fun hlt b hb a ha => ?_⟩
  · refine List.pairwise_of_forall_mem_list fun a ha b hb => ?_
    simp [ht.ties g (List.mem_reverse.1 hg) a ha b hb]
  · rw [← h.swap_eq, hlt a ha b hb]
    simp

end Tiers

/-- Turning the comparison round turns the order of the groups round. -/
theorem Arranges.reversed (h : TotalPreorder compare) {l : List α} {groups : List (List α)}
    (ht : Tiers compare groups) (hl : Arranges compare l groups.flatten) :
    Arranges (fun a b => (compare a b).swap) l groups.reverse.flatten := by
  have hties : ∀ a : α, (fun b => (compare a b).swap == .eq) = (compare a · == .eq) := by
    intro a
    funext b
    cases compare a b <;> rfl
  refine ⟨(List.reverse_perm groups).flatten.trans hl.perm, ht.sorted_reverse h, fun a => ?_⟩
  rw [hties, ht.filter_reverse h, hl.stable]

/-- The groups in reverse are the list in reverse only if every group is its own reverse. -/
theorem flatten_reverse_eq_iff : ∀ {groups : List (List α)},
    groups.reverse.flatten = groups.flatten.reverse ↔ ∀ g ∈ groups, g.reverse = g := by
  intro groups
  induction groups with
  | nil => simp
  | cons g rest ih =>
      have hlength : rest.reverse.flatten.length = rest.flatten.reverse.length := by
        rw [List.length_reverse]
        exact (List.reverse_perm rest).flatten.length_eq
      rw [List.reverse_cons, List.flatten_append, List.flatten_singleton, List.flatten_cons,
        List.reverse_append, List.forall_mem_cons, ← ih, and_comm]
      constructor
      · intro hsame
        obtain ⟨hrest, hg⟩ := List.append_inj hsame hlength
        exact ⟨hrest, hg.symm⟩
      · rintro ⟨hrest, hg⟩
        rw [hrest, hg]

/-! ## Which containers match -/

/-- Which values of a property a filter lets through. -/
def Filter.Holds (f : Filter) : Option String → Prop
  | none => f.op = .differs
  | some v =>
    match f.op with
    | .equals => v = f.value
    | .differs => v ≠ f.value
    | .contains => f.value.toList <:+: v.toList
    | .startsWith => f.value.toList <+: v.toList

theorem Filter.occursIn_iff {part l : List Char} : occursIn part l = true ↔ part <:+: l := by
  induction l with
  | nil => rw [occursIn, List.isEmpty_iff, List.infix_nil]
  | cons c rest ih =>
      rw [occursIn, Bool.or_eq_true, List.isPrefixOf_iff_prefix, ih, List.infix_cons_iff]

theorem Filter.passes_iff {f : Filter} {v : Option String} : f.passes v = true ↔ f.Holds v := by
  cases v with
  | none => exact beq_iff_eq
  | some v =>
      rw [passes, Holds]
      cases f.op with
      | equals => exact beq_iff_eq
      | differs => exact bne_iff_ne
      | contains => exact occursIn_iff
      | startsWith => exact List.isPrefixOf_iff_prefix

instance (f : Filter) (v : Option String) : Decidable (f.Holds v) :=
  decidable_of_iff (f.passes v = true) Filter.passes_iff

variable {κ ε σ : Type}

/-- A container has a property if it lists it, and the value is that of the first of the name. -/
theorem Container.property_eq_some_iff {c : Container κ} {name v : String} :
    c.property name = some v ↔ ∃ before after, c.properties = before ++ ⟨name, v⟩ :: after ∧
      ∀ p ∈ before, p.name ≠ name := by
  rw [property, Property.first?, Option.map_eq_some_iff]
  constructor
  · rintro ⟨p, hp, rfl⟩
    obtain ⟨hname, before, after, hsplit, hbefore⟩ := List.find?_eq_some_iff_append.1 hp
    obtain rfl := beq_iff_eq.1 hname
    exact ⟨before, after, hsplit, fun q hq => by simpa using hbefore q hq⟩
  · rintro ⟨before, after, hsplit, hbefore⟩
    refine ⟨⟨name, v⟩, List.find?_eq_some_iff_append.2 ⟨beq_self_eq_true name, before, after,
      hsplit, fun q hq => ?_⟩, rfl⟩
    simpa using hbefore q hq

/-- A container passes every filter of a request. -/
def SearchRequest.Admits (request : SearchRequest) (c : Container κ) : Prop :=
  ∀ f ∈ request.filters, f.Holds (c.property f.field)

instance (request : SearchRequest) (c : Container κ) : Decidable (request.Admits c) :=
  inferInstanceAs (Decidable (∀ f ∈ request.filters, f.Holds (c.property f.field)))

/-- The containers of a snapshot that a request is about, in the order of the snapshot. -/
def Snapshot.admitted (snapshot : Snapshot κ) (request : SearchRequest) : List (Container κ) :=
  snapshot.containers.filter fun c => request.Admits c

/-- A list holds containers in the order that a request names, or as they were if it names none. -/
def SearchRequest.Orders (request : SearchRequest) (l l' : List (Container κ)) : Prop :=
  match request.orderBy with
  | none => l' = l
  | some order => Arranges order.compare l l'

deriving instance DecidableEq for ContainerParts

deriving instance DecidableEq for Container

instance [DecidableEq κ] (request : SearchRequest) (l l' : List (Container κ)) :
    Decidable (request.Orders l l') :=
  match h : request.orderBy with
  | none => decidable_of_iff (l' = l) (by rw [SearchRequest.Orders, h])
  | some order =>
    decidable_of_iff
      (l'.Perm l ∧ (l'.Pairwise fun a b => order.compare a b ≠ .gt) ∧
        ∀ a ∈ l, l'.filter (order.compare a · == .eq) = l.filter (order.compare a · == .eq))
      (by rw [SearchRequest.Orders, h]; exact (Arranges.iff_of_mem order.compare_isTotal).symm)

/-! ## What the scan finds -/

namespace Scan

theorem filter_passesAll (snapshot : Snapshot κ) (request : SearchRequest) :
    snapshot.containers.filter (passesAll request.filters) = snapshot.admitted request := by
  refine List.filter_congr fun c _ => ?_
  rw [Bool.eq_iff_iff, decide_eq_true_iff, passesAll, List.all_eq_true]
  exact forall₂_congr fun f _ => f.passes_iff

theorem page_eq_slice (request : SearchRequest) (l : List (Container κ)) :
    page request l = slice request.skip request.top l := by
  rw [page, upTo.eq_def, slice.eq_def]
  cases request.top <;> rfl

theorem ordered_orders (request : SearchRequest) (l : List (Container κ)) :
    request.Orders l (ordered request.orderBy l) := by
  rw [SearchRequest.Orders, ordered.eq_def]
  cases request.orderBy with
  | none => rfl
  | some order =>
      have hsame : (inOrder order : Container κ → Container κ → Bool) =
          fun a b => order.compare a b != .gt := by
        funext a b
        exact inOrder_eq order a b
      dsimp only
      rw [hsame]
      exact .mergeSort order.compare_isTotal l

theorem orders_iff {request : SearchRequest} {l l' : List (Container κ)} :
    request.Orders l l' ↔ l' = ordered request.orderBy l := by
  have hordered := ordered_orders request l
  refine ⟨fun h => ?_, fun h => h ▸ hordered⟩
  rw [SearchRequest.Orders] at h hordered
  cases horder : request.orderBy with
  | none =>
      rw [horder] at h
      exact h
  | some order =>
      rw [horder] at h hordered
      exact h.unique order.compare_isTotal hordered

theorem find?_unnamed_iff {request : SearchRequest} :
    (∃ f, request.filters.find? (·.field.isEmpty) = some f) ↔
      ∃ f ∈ request.filters, f.field = "" := by
  rw [← Option.isSome_iff_exists, List.find?_isSome]
  exact exists_congr fun f => and_congr_right fun _ => String.isEmpty_iff

theorem search_of_valid (request : SearchRequest) (h : ∀ f ∈ request.filters, f.field ≠ "")
    (id : String) (x : Context ε σ) (snapshot : Snapshot κ) (m : Memory ε σ) :
    (algorithm id).search x snapshot request m =
      (.ok {
        items := slice request.skip request.top
          (ordered request.orderBy (snapshot.admitted request)) }, m) := by
  have hnone : request.filters.find? (·.field.isEmpty) = none := by
    rw [← Option.not_isSome_iff_eq_none, Option.isSome_iff_exists, find?_unnamed_iff]
    rintro ⟨f, hf, hempty⟩
    exact h f hf hempty
  simp only [algorithm, Algorithm.ofFunction, search, hnone, hits, page_eq_slice, filter_passesAll]

theorem search_of_invalid {request : SearchRequest} (h : ∃ f ∈ request.filters, f.field = "")
    (id : String) (x : Context ε σ) (snapshot : Snapshot κ) (m : Memory ε σ) :
    ∃ f ∈ request.filters, f.field = "" ∧
      (algorithm id).search x snapshot request m = (.error (.error (unnamedField f)), m) := by
  obtain ⟨f, hf⟩ := find?_unnamed_iff.2 h
  have hempty : f.field.isEmpty = true := by simpa using List.find?_some hf
  refine ⟨f, List.mem_of_find?_eq_some hf, String.isEmpty_iff.1 hempty, ?_⟩
  simp only [algorithm, Algorithm.ofFunction, search, hf]

/-- Both directions show the same groups of containers that tie, from either end. -/
theorem exists_groups (field : String) (l : List (Container κ)) :
    ∃ groups, Tiers (OrderBy.compare ⟨field, .ascending⟩) groups ∧
      ordered (some ⟨field, .ascending⟩) l = groups.flatten ∧
      ordered (some ⟨field, .descending⟩) l = groups.reverse.flatten := by
  have htotal : TotalPreorder (OrderBy.compare ⟨field, .ascending⟩ : Container κ → _ → _) :=
    OrderBy.compare_isTotal _
  have hup : Arranges (OrderBy.compare ⟨field, .ascending⟩) l
      (ordered (some ⟨field, .ascending⟩) l) :=
    ordered_orders { orderBy := some ⟨field, .ascending⟩ } l
  have hdown : Arranges (OrderBy.compare ⟨field, .descending⟩) l
      (ordered (some ⟨field, .descending⟩) l) :=
    ordered_orders { orderBy := some ⟨field, .descending⟩ } l
  obtain ⟨groups, htiers, hflatten⟩ := Tiers.of_sorted htotal hup.sorted
  rw [← hflatten] at hup
  exact ⟨groups, htiers, hflatten.symm,
    hdown.unique (OrderBy.compare_isTotal _) (hup.reversed htotal htiers)⟩

/-- The scan finds what a request asks for. It refuses the request if a filter names no field, and
in no other case. Otherwise its hits are a slice of the one list that holds the containers passing
all filters in the order that the request names, ties as in the snapshot. An order in which all tie
is as good as none, and descending shows the groups of containers that tie from the other end, but
each group as ascending does. -/
theorem search_finds (id : String) (x : Context ε σ) (snapshot : Snapshot κ)
    (request : SearchRequest) (m : Memory ε σ) :
    let find : SearchRequest → Except Breakdown (Hits κ) × Memory ε σ :=
      fun request => (algorithm id).search x snapshot request m
    ((∃ reason, find request = (.error (.error (.invalidRequest reason)), m)) ↔
      ∃ f ∈ request.filters, f.field = "") ∧
    ((∀ f ∈ request.filters, f.field ≠ "") →
      (∃ arranged, (∀ l, request.Orders (snapshot.admitted request) l ↔ l = arranged) ∧
        find request = (.ok { items := slice request.skip request.top arranged }, m)) ∧
      (∀ order, request.orderBy = some order →
        (∀ a ∈ snapshot.admitted request, ∀ b ∈ snapshot.admitted request,
          order.compare a b = .eq) →
        find request = find { request with orderBy := none }) ∧
      ∀ field, ∃ groups : List (List (Container κ)),
        Tiers (OrderBy.compare ⟨field, .ascending⟩) groups ∧
        find { request with orderBy := some ⟨field, .ascending⟩ } =
          (.ok { items := slice request.skip request.top groups.flatten }, m) ∧
        find { request with orderBy := some ⟨field, .descending⟩ } =
          (.ok { items := slice request.skip request.top groups.reverse.flatten }, m) ∧
        (groups.reverse.flatten = groups.flatten.reverse ↔ ∀ g ∈ groups, g.reverse = g)) ∧
    (∀ c ∈ snapshot.containers, ∀ name v, c.property name = some v ↔
      ∃ before after, c.properties = before ++ ⟨name, v⟩ :: after ∧
        ∀ p ∈ before, p.name ≠ name) := by
  intro find
  refine ⟨⟨fun h => ?_, fun h => ?_⟩, fun hvalid => ⟨⟨_, fun l => orders_iff,
    search_of_valid request hvalid id x snapshot m⟩, fun order horder hties => ?_, fun field => ?_⟩,
    fun c _ name v => Container.property_eq_some_iff⟩
  · by_contra hnone
    obtain ⟨reason, h⟩ := h
    have hvalid : ∀ f ∈ request.filters, f.field ≠ "" := fun f hf hempty => hnone ⟨f, hf, hempty⟩
    have hfound := h.symm.trans (search_of_valid request hvalid id x snapshot m)
    cases hfound
  · obtain ⟨f, -, -, hrefused⟩ := search_of_invalid h id x snapshot m
    exact ⟨_, hrefused⟩
  · have hordered := ordered_orders request (snapshot.admitted request)
    rw [SearchRequest.Orders, horder] at hordered
    have hsame := hordered.eq_of_ties order.compare_isTotal hties
    have hplain : find { request with orderBy := none } =
        (.ok { items := slice request.skip request.top (snapshot.admitted request) }, m) :=
      search_of_valid { request with orderBy := none } hvalid id x snapshot m
    rw [hplain, ← hsame, ← horder]
    exact search_of_valid request hvalid id x snapshot m
  · obtain ⟨groups, htiers, hup, hdown⟩ := exists_groups field (snapshot.admitted request)
    have hfind (direction : Direction) : find { request with orderBy := some ⟨field, direction⟩ } =
        (.ok {
          items := slice request.skip request.top
            (ordered (some ⟨field, direction⟩) (snapshot.admitted request)) }, m) :=
      search_of_valid { request with orderBy := some ⟨field, direction⟩ } hvalid id x snapshot m
    exact ⟨groups, htiers, hup ▸ hfind .ascending, hdown ▸ hfind .descending,
      flatten_reverse_eq_iff⟩

/-- A container of a kind, with a rank or with none. -/
def ranked (key kind : String) (rank : Option String) : Container String where
  key
  properties := ⟨"kind", kind⟩ :: rank.toList.map (⟨"rank", ·⟩)
  handle := 0
  id := key
  blob := []

/-- Four books, two of one rank and one of none, and a film. -/
def shelf : Snapshot String where
  containers := [ranked "a" "book" (some "10"), ranked "b" "book" (some "1.0"),
    ranked "c" "film" (some "2"), ranked "d" "book" none, ranked "e" "book" (some "1")]
  etag := "shelf:5"

/-- The second book and the third by rank are `b` and `e` from either end, for they tie. Where books
are ordered by their kind they stand as on the shelf. -/
theorem shelf_found :
    let keys (r : Except Breakdown (Hits String) × Memory Doc Unit) : Option (List String) :=
      r.1.toOption.map fun hits => hits.items.map (·.key)
    let found (request : SearchRequest) : Option (List String) :=
      keys ((algorithm defaultId).search Doc.store.context shelf request (.start ()))
    found { Store.books with orderBy := some ⟨"rank", .ascending⟩ } = some ["d", "b", "e", "a"] ∧
    found { Store.books with orderBy := some ⟨"rank", .descending⟩ } = some ["a", "b", "e", "d"] ∧
    found { Store.books with orderBy := some ⟨"rank", .ascending⟩, skip := some 1, top := some 2 } =
      some ["b", "e"] ∧
    found { Store.books with orderBy := some ⟨"kind", .descending⟩ } = some ["a", "b", "d", "e"] ∧
    found { filters := [⟨"", .equals, ""⟩] } = none := by
  intro keys found
  have hfound : ∀ (request : SearchRequest) (l : List (Container String)),
      (∀ f ∈ request.filters, f.field ≠ "") → request.Orders (shelf.admitted request) l →
      found request = some ((slice request.skip request.top l).map (·.key)) := by
    intro request l hvalid horders
    obtain ⟨-, hfinds, -⟩ := search_finds defaultId Doc.store.context shelf request (.start ())
    obtain ⟨⟨arranged, hunique, hfind⟩, -⟩ := hfinds hvalid
    obtain rfl := (hunique l).1 horders
    exact congrArg keys hfind
  have hrefused : found { filters := [⟨"", .equals, ""⟩] } = none := by
    obtain ⟨hinvalid, -⟩ := search_finds defaultId Doc.store.context shelf
      { filters := [⟨"", .equals, ""⟩] } (.start ())
    obtain ⟨reason, hreason⟩ := hinvalid.2 ⟨_, List.mem_singleton_self _, rfl⟩
    exact congrArg keys hreason
  let a := ranked "a" "book" (some "10")
  let b := ranked "b" "book" (some "1.0")
  let d := ranked "d" "book" none
  let e := ranked "e" "book" (some "1")
  exact ⟨hfound _ [d, b, e, a] (by decide) (by decide +kernel),
    hfound _ [a, b, e, d] (by decide) (by decide +kernel),
    hfound _ [d, b, e, a] (by decide) (by decide +kernel),
    hfound _ [a, b, d, e] (by decide) (by decide +kernel), hrefused⟩

end Scan

end EntityStore
