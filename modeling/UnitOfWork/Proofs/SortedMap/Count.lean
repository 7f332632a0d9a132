import Mathlib.Algebra.GroupWithZero.Nat
import UnitOfWork.SortedMap.Lemmas

/-! Adding up measures of the values of a map, and counting the values that satisfy a test. -/

namespace UnitOfWork.SortedMap

variable {κ υ : Type} [Ord κ]

section Total

variable (f : υ → Nat)

def total (m : SortedMap κ υ) : Nat := (m.entries.map fun e => f e.2).sum

private theorem sum_place (k : κ) (v : υ) (l : List (κ × υ)) :
    ((place k v l).map fun e => f e.2).sum + (lookup k l).elim 0 f =
      (l.map fun e => f e.2).sum + f v := by
  fun_induction place k v l with
  | case1 => simp [lookup]
  | case2 a w rest hk =>
    simp only [lookup, hk, List.map_cons, List.sum_cons, Option.elim_none]
    omega
  | case3 a w rest hk =>
    simp only [lookup, hk, List.map_cons, List.sum_cons, Option.elim_some]
    omega
  | case4 a w rest hk ih =>
    simp only [lookup, hk, List.map_cons, List.sum_cons]
    omega

private theorem sum_remove (k : κ) (l : List (κ × υ)) :
    ((remove k l).map fun e => f e.2).sum + (lookup k l).elim 0 f =
      (l.map fun e => f e.2).sum := by
  fun_induction remove k l with
  | case1 => rfl
  | case2 a w rest hk => simp [lookup, hk]
  | case3 a w rest hk =>
    simp only [lookup, hk, List.map_cons, List.sum_cons, Option.elim_some]
    omega
  | case4 a w rest hk ih =>
    simp only [lookup, hk, List.map_cons, List.sum_cons]
    omega

theorem total_insert [Std.TransOrd κ] (m : SortedMap κ υ) (k : κ) (v : υ) :
    (m.insert k v).total f + (m.get? k).elim 0 f = m.total f + f v := sum_place f k v m.entries

theorem total_erase (m : SortedMap κ υ) (k : κ) :
    (m.erase k).total f + (m.get? k).elim 0 f = m.total f := sum_remove f k m.entries

theorem size_eq_total (m : SortedMap κ υ) : m.size = m.total fun _ => 1 := by
  rw [size, total, List.map_const', List.sum_replicate_nat, Nat.mul_one]

theorem size_insert [Std.TransOrd κ] (m : SortedMap κ υ) (k : κ) (v : υ) :
    (m.insert k v).size + (m.get? k).elim 0 (fun _ => 1) = m.size + 1 := by
  rw [size_eq_total, size_eq_total]
  exact total_insert _ m k v

theorem size_erase (m : SortedMap κ υ) (k : κ) :
    (m.erase k).size + (m.get? k).elim 0 (fun _ => 1) = m.size := by
  rw [size_eq_total, size_eq_total]
  exact total_erase _ m k

end Total

section Entries

variable (f : κ × υ → Nat)

private theorem sum_place_le (k : κ) (v : υ) (l : List (κ × υ)) :
    ((place k v l).map f).sum ≤ (l.map f).sum + f (k, v) := by
  fun_induction place k v l with
  | case1 => simp
  | case2 a w rest hk =>
    simp only [List.map_cons, List.sum_cons]
    omega
  | case3 a w rest hk =>
    simp only [List.map_cons, List.sum_cons]
    omega
  | case4 a w rest hk ih =>
    simp only [List.map_cons, List.sum_cons]
    omega

private theorem sum_insertMany_le [Std.TransOrd κ] (m : SortedMap κ υ) (pairs : List (κ × υ)) :
    ((m.insertMany pairs).entries.map f).sum ≤ (m.entries.map f).sum + (pairs.map f).sum := by
  induction pairs generalizing m with
  | nil => exact Nat.le_refl _
  | cons e pairs ih =>
    have hfirst : ((m.insert e.1 e.2).entries.map f).sum ≤ (m.entries.map f).sum + f e :=
      sum_place_le f e.1 e.2 m.entries
    have hrest := ih (m.insert e.1 e.2)
    rw [List.map_cons, List.sum_cons]
    exact Nat.le_trans hrest (by omega)

/-- What is overridden is counted in one of the maps only. -/
theorem sum_override_le [Std.TransOrd κ] (m n : SortedMap κ υ) :
    ((m.override n).entries.map f).sum ≤ (m.entries.map f).sum + (n.entries.map f).sum :=
  sum_insertMany_le f m n.entries

end Entries

theorem length_override_le [Std.TransOrd κ] (m n : SortedMap κ υ) :
    (m.override n).entries.length ≤ m.entries.length + n.entries.length := by
  have hsum := sum_override_le (fun _ => 1) m n
  simpa [List.map_const'] using hsum

variable (p : υ → Bool)

def count (m : SortedMap κ υ) : Nat := m.entries.countP fun e => p e.2

/-- What a looked-up value adds to the count. -/
def weight (found : Option υ) : Nat := if found.any p then 1 else 0

@[simp] theorem weight_none : weight p none = 0 := rfl

theorem weight_some (v : υ) : weight p (some v) = if p v then 1 else 0 := rfl

theorem weight_eq_zero {found : Option υ} (h : ∀ v, found = some v → p v = false) :
    weight p found = 0 := by
  cases found with
  | none => exact weight_none p
  | some v => rw [weight_some, h v rfl, if_neg Bool.false_ne_true]

theorem weight_eq_elim (found : Option υ) :
    weight p found = found.elim 0 fun v => if p v then 1 else 0 := by
  cases found <;> rfl

theorem count_eq_total (m : SortedMap κ υ) : m.count p = m.total fun v => if p v then 1 else 0 := by
  unfold count total
  induction m.entries with
  | nil => rfl
  | cons e rest ih => rw [List.countP_cons, List.map_cons, List.sum_cons, ih, Nat.add_comm]

theorem count_insert [Std.TransOrd κ] (m : SortedMap κ υ) (k : κ) (v : υ) :
    (m.insert k v).count p + weight p (m.get? k) = m.count p + weight p (some v) := by
  rw [count_eq_total, count_eq_total, weight_eq_elim]
  exact total_insert _ m k v

theorem count_erase (m : SortedMap κ υ) (k : κ) :
    (m.erase k).count p + weight p (m.get? k) = m.count p := by
  rw [count_eq_total, count_eq_total, weight_eq_elim]
  exact total_erase _ m k

theorem count_pos_of_get? [Std.TransOrd κ] [Std.LawfulEqOrd κ] {m : SortedMap κ υ} {k : κ} {v : υ}
    (h : m.get? k = some v) (hp : p v = true) : 0 < m.count p :=
  List.countP_pos_iff.2 ⟨(k, v), get?_eq_some_iff.1 h, hp⟩

theorem count_eq_zero [Std.TransOrd κ] [Std.LawfulEqOrd κ] {m : SortedMap κ υ}
    (h : ∀ k v, m.get? k = some v → p v = false) : m.count p = 0 :=
  List.countP_eq_zero.2 fun ⟨k, v⟩ he => by simp [h k v (get?_eq_some_iff.2 he)]

end UnitOfWork.SortedMap
