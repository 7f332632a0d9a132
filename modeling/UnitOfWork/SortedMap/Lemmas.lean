import UnitOfWork.SortedMap

/-!
Looking up in sorted maps: a map is known by what `get?` answers, and each operation by what it
changes there.
-/

namespace UnitOfWork.SortedMap

variable {κ υ : Type} [Ord κ]

/-- The keys of a list of entries increase strictly. -/
abbrev Increasing (l : List (κ × υ)) : Prop :=
  l.Pairwise fun a b => compare a.1 b.1 = .lt

@[simp] theorem get?_empty (k : κ) : (∅ : SortedMap κ υ).get? k = none := rfl

theorem nodup_keys [Std.TransOrd κ] (m : SortedMap κ υ) : (m.entries.map Prod.fst).Nodup := by
  rw [List.Nodup, List.pairwise_map]
  refine m.sorted.imp fun {a b} hab he => ?_
  have hself : compare b.1 b.1 = .eq := Std.ReflCmp.compare_self
  rw [he, hself] at hab
  cases hab

variable [Std.TransOrd κ] [Std.LawfulEqOrd κ]

private theorem lookup_eq_some_iff {k : κ} {v : υ} {l : List (κ × υ)} (h : Increasing l) :
    lookup k l = some v ↔ (k, v) ∈ l := by
  induction l with
  | nil => simp [lookup]
  | cons e rest ih =>
    obtain ⟨a, w⟩ := e
    obtain ⟨hhead, htail⟩ := List.pairwise_cons.1 h
    have hrest : compare k a ≠ .gt → (k, v) ∉ rest := fun hk hm =>
      hk (Std.OrientedCmp.gt_of_lt (hhead _ hm))
    unfold lookup
    cases hk : compare k a with
    | lt =>
      have hne : k ≠ a := fun he => by simp [he] at hk
      simp [hne, hrest (by simp [hk])]
    | eq =>
      have he : k = a := Std.LawfulEqCmp.eq_of_compare hk
      subst he
      simp [hrest (by simp), eq_comm]
    | gt =>
      have hne : k ≠ a := fun he => by simp [he] at hk
      simp [hne, ih htail]

/-- A map answers exactly its entries. -/
theorem get?_eq_some_iff {m : SortedMap κ υ} {k : κ} {v : υ} :
    m.get? k = some v ↔ (k, v) ∈ m.entries := lookup_eq_some_iff m.sorted

/-- Increasing lists with the same entries are equal. -/
theorem eq_of_mem_iff {l₁ l₂ : List (κ × υ)} (h₁ : Increasing l₁) (h₂ : Increasing l₂)
    (h : ∀ e, e ∈ l₁ ↔ e ∈ l₂) : l₁ = l₂ := by
  induction l₁ generalizing l₂ with
  | nil =>
    cases l₂ with
    | nil => rfl
    | cons e₂ _ => simpa using h e₂
  | cons e₁ r₁ ih =>
    cases l₂ with
    | nil => simpa using h e₁
    | cons e₂ r₂ =>
      obtain ⟨hlt₁, hs₁⟩ := List.pairwise_cons.1 h₁
      obtain ⟨hlt₂, hs₂⟩ := List.pairwise_cons.1 h₂
      have hhead : e₁ = e₂ := by
        rcases List.mem_cons.1 ((h e₁).1 List.mem_cons_self) with he | hm₁
        · exact he
        rcases List.mem_cons.1 ((h e₂).2 List.mem_cons_self) with he | hm₂
        · exact he.symm
        have := Std.TransCmp.lt_trans (hlt₁ _ hm₂) (hlt₂ _ hm₁)
        simp at this
      subst hhead
      have irrefl : ∀ r : List (κ × υ), (∀ e ∈ r, compare e₁.1 e.1 = .lt) → e₁ ∉ r := by
        intro r hr hm
        have := hr _ hm
        simp at this
      congr 1
      refine ih hs₁ hs₂ fun e => ⟨fun hm => ?_, fun hm => ?_⟩
      · rcases List.mem_cons.1 ((h e).1 (List.mem_cons_of_mem _ hm)) with rfl | hm'
        · exact absurd hm (irrefl r₁ hlt₁)
        · exact hm'
      · rcases List.mem_cons.1 ((h e).2 (List.mem_cons_of_mem _ hm)) with rfl | hm'
        · exact absurd hm (irrefl r₂ hlt₂)
        · exact hm'

/-- Maps that answer alike are equal. -/
theorem ext_get? {m n : SortedMap κ υ} (h : ∀ k, m.get? k = n.get? k) : m = n := by
  apply SortedMap.ext
  refine eq_of_mem_iff m.sorted n.sorted fun ⟨k, v⟩ => ?_
  rw [← get?_eq_some_iff, ← get?_eq_some_iff, h]

private theorem mem_place_iff {k a : κ} {v w : υ} {l : List (κ × υ)} (h : Increasing l) :
    (a, w) ∈ place k v l ↔ (a = k ∧ w = v) ∨ (a ≠ k ∧ (a, w) ∈ l) := by
  fun_induction place k v l with
  | case1 => simp
  | case2 b u rest hk =>
    have hne : ∀ e ∈ (b, u) :: rest, e.1 ≠ k := by
      intro e he hek
      obtain ⟨hhead, _⟩ := List.pairwise_cons.1 h
      have hlt : compare k e.1 = .lt := by
        rcases List.mem_cons.1 he with rfl | he
        · exact hk
        · exact Std.TransCmp.lt_trans hk (hhead e he)
      simp [hek] at hlt
    constructor
    · intro hm
      rcases List.mem_cons.1 hm with he | hm
      · simp_all
      · exact .inr ⟨hne _ hm, hm⟩
    · rintro (⟨rfl, rfl⟩ | ⟨_, hm⟩)
      · exact List.mem_cons_self
      · exact List.mem_cons_of_mem _ hm
  | case3 b u rest hk =>
    have hkb : k = b := Std.LawfulEqCmp.eq_of_compare hk
    subst hkb
    obtain ⟨hhead, _⟩ := List.pairwise_cons.1 h
    have hne : (a, w) ∈ rest → a ≠ k := fun hm hak => by
      have := hhead _ hm
      simp [hak] at this
    by_cases hak : a = k
    · subst hak
      have : (a, w) ∉ rest := fun hm => hne hm rfl
      simp [this]
    · simp [hak]
  | case4 b u rest hk ih =>
    have hbk : b ≠ k := fun he => by simp [he] at hk
    rw [List.mem_cons, ih (List.pairwise_cons.1 h).2, List.mem_cons]
    by_cases hak : a = k
    · subst hak
      simp [Ne.symm hbk]
    · simp [hak]

private theorem mem_remove_iff {k a : κ} {w : υ} {l : List (κ × υ)} (h : Increasing l) :
    (a, w) ∈ remove k l ↔ a ≠ k ∧ (a, w) ∈ l := by
  fun_induction remove k l with
  | case1 => simp
  | case2 b u rest hk =>
    refine ⟨fun hm => ⟨fun hak => ?_, hm⟩, fun hm => hm.2⟩
    obtain ⟨hhead, _⟩ := List.pairwise_cons.1 h
    have hlt : compare k a = .lt := by
      rcases List.mem_cons.1 hm with he | hm
      · cases he
        exact hk
      · exact Std.TransCmp.lt_trans hk (hhead _ hm)
    simp [hak] at hlt
  | case3 b u rest hk =>
    have hkb : k = b := Std.LawfulEqCmp.eq_of_compare hk
    subst hkb
    obtain ⟨hhead, _⟩ := List.pairwise_cons.1 h
    have hne : (a, w) ∈ rest → a ≠ k := fun hm hak => by
      have := hhead _ hm
      simp [hak] at this
    by_cases hak : a = k
    · subst hak
      simpa using fun hm => hne hm rfl
    · simp [hak]
  | case4 b u rest hk ih =>
    have hbk : b ≠ k := fun he => by simp [he] at hk
    rw [List.mem_cons, ih (List.pairwise_cons.1 h).2, List.mem_cons]
    by_cases hab : a = b
    · subst hab
      simp [hbk]
    · simp [hab]

variable [DecidableEq κ]

theorem get?_insert (m : SortedMap κ υ) (k a : κ) (v : υ) :
    (m.insert k v).get? a = if a = k then some v else m.get? a := by
  apply Option.ext
  intro w
  rw [get?_eq_some_iff]
  simp only [insert, mem_place_iff m.sorted]
  by_cases h : a = k
  · simp [h, eq_comm]
  · simp [h, get?_eq_some_iff]

@[simp] theorem get?_insert_self (m : SortedMap κ υ) (k : κ) (v : υ) :
    (m.insert k v).get? k = some v := by simp [get?_insert]

theorem contains_insert (m : SortedMap κ υ) (k a : κ) (v : υ) :
    (m.insert k v).contains a = (decide (a = k) || m.contains a) := by
  rw [contains, get?_insert]
  by_cases h : a = k
  · simp [h]
  · rw [if_neg h, decide_eq_false h]
    rfl

theorem get?_erase (m : SortedMap κ υ) (k a : κ) :
    (m.erase k).get? a = if a = k then none else m.get? a := by
  apply Option.ext
  intro w
  rw [get?_eq_some_iff]
  simp only [erase, mem_remove_iff m.sorted]
  by_cases h : a = k
  · simp [h]
  · simp [h, get?_eq_some_iff]

/-- Putting back what is there changes nothing. -/
theorem insert_eq_self {m : SortedMap κ υ} {k : κ} {v : υ} (h : m.get? k = some v) :
    m.insert k v = m := by
  apply ext_get?
  intro a
  rw [get?_insert]
  split <;> simp_all

theorem insert_insert (m : SortedMap κ υ) (k : κ) (v w : υ) :
    (m.insert k v).insert k w = m.insert k w := by
  apply ext_get?
  intro a
  rw [get?_insert, get?_insert, get?_insert]
  by_cases h : a = k
  · rw [if_pos h, if_pos h]
  · rw [if_neg h, if_neg h, if_neg h]

private theorem get?_insertMany {l : List (κ × υ)} (h : Increasing l) (m : SortedMap κ υ) (k : κ) :
    (m.insertMany l).get? k = (lookup k l).or (m.get? k) := by
  induction l generalizing m with
  | nil => rfl
  | cons e rest ih =>
    obtain ⟨a, v⟩ := e
    obtain ⟨hhead, htail⟩ := List.pairwise_cons.1 h
    have hnone : compare k a ≠ .gt → lookup k rest = none := by
      intro hk
      rw [Option.eq_none_iff_forall_not_mem]
      intro w hw
      exact hk (Std.OrientedCmp.gt_of_lt (hhead _ ((lookup_eq_some_iff htail).1 hw)))
    have hstep : (m.insertMany ((a, v) :: rest)).get? k =
        (lookup k rest).or (if k = a then some v else m.get? k) := by
      rw [← get?_insert]
      exact ih htail (m.insert a v)
    rw [hstep, lookup]
    cases hk : compare k a with
    | lt =>
      have hne : k ≠ a := fun he => by simp [he] at hk
      simp [hnone (by simp [hk]), hne]
    | eq =>
      have he : k = a := Std.LawfulEqCmp.eq_of_compare hk
      rw [hnone (by simp [hk]), if_pos he]
      rfl
    | gt =>
      have hne : k ≠ a := fun he => by simp [he] at hk
      simp [hne]

theorem get?_override (m n : SortedMap κ υ) (k : κ) :
    (m.override n).get? k = (n.get? k).or (m.get? k) := get?_insertMany n.sorted m k

theorem override_assoc (l m n : SortedMap κ υ) :
    (l.override m).override n = l.override (m.override n) := by
  apply ext_get?
  intro k
  rw [get?_override, get?_override, get?_override, get?_override, Option.or_assoc]

/-- A map is put together from its entries. -/
theorem ofList_entries (m : SortedMap κ υ) : ofList m.entries = m := by
  apply ext_get?
  intro k
  rw [ofList, get?_insertMany m.sorted, get?_empty, Option.or_none]
  rfl

end UnitOfWork.SortedMap
