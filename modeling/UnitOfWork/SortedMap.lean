/-! Finite maps listed in strictly increasing key order, so that equal contents are equal maps. -/

namespace UnitOfWork

/-- A finite map whose entries are listed in strictly increasing key order. -/
@[ext]
structure SortedMap (κ υ : Type) [Ord κ] where
  entries : List (κ × υ)
  sorted : entries.Pairwise fun a b => compare a.1 b.1 = .lt

namespace SortedMap

section Entries

variable {κ υ : Type} [Ord κ]

/-- The value listed under a key; the search stops at the first larger key. -/
def lookup (k : κ) : List (κ × υ) → Option υ
  | [] => none
  | (a, v) :: rest =>
    match compare k a with
    | .lt => none
    | .eq => some v
    | .gt => lookup k rest

/-- Lists a value under a key, in place of any earlier one. -/
def place (k : κ) (v : υ) : List (κ × υ) → List (κ × υ)
  | [] => [(k, v)]
  | (a, w) :: rest =>
    match compare k a with
    | .lt => (k, v) :: (a, w) :: rest
    | .eq => (k, v) :: rest
    | .gt => (a, w) :: place k v rest

/-- The list without the entry of a key. -/
def remove (k : κ) : List (κ × υ) → List (κ × υ)
  | [] => []
  | (a, w) :: rest =>
    match compare k a with
    | .lt => (a, w) :: rest
    | .eq => rest
    | .gt => (a, w) :: remove k rest

theorem mem_remove {k : κ} {e : κ × υ} {l : List (κ × υ)} (h : e ∈ remove k l) : e ∈ l := by
  fun_induction remove k l with
  | case1 => exact h
  | case2 => exact h
  | case3 => exact List.mem_cons_of_mem _ h
  | case4 a w rest _ ih =>
    rcases List.mem_cons.1 h with rfl | h
    · exact List.mem_cons_self
    · exact List.mem_cons_of_mem _ (ih h)

theorem mem_place {k : κ} {v : υ} {e : κ × υ} {l : List (κ × υ)} (h : e ∈ place k v l) :
    e = (k, v) ∨ e ∈ l := by
  fun_induction place k v l with
  | case1 => simpa using h
  | case2 => simpa using h
  | case3 => rcases List.mem_cons.1 h with h | h <;> simp [h]
  | case4 a w rest _ ih =>
    rcases List.mem_cons.1 h with rfl | h
    · simp
    · rcases ih h with h | h <;> simp [h]

theorem sorted_remove {k : κ} {l : List (κ × υ)}
    (h : l.Pairwise fun a b => compare a.1 b.1 = .lt) :
    (remove k l).Pairwise fun a b => compare a.1 b.1 = .lt := by
  fun_induction remove k l with
  | case1 => exact h
  | case2 => exact h
  | case3 => exact (List.pairwise_cons.1 h).2
  | case4 a w rest _ ih =>
    obtain ⟨hhead, htail⟩ := List.pairwise_cons.1 h
    exact List.pairwise_cons.2 ⟨fun e he => hhead e (mem_remove he), ih htail⟩

end Entries

variable {κ υ : Type} [Ord κ]

theorem sorted_place [Std.TransOrd κ] {k : κ} {v : υ} {l : List (κ × υ)}
    (h : l.Pairwise fun a b => compare a.1 b.1 = .lt) :
    (place k v l).Pairwise fun a b => compare a.1 b.1 = .lt := by
  fun_induction place k v l with
  | case1 => simp
  | case2 a w rest hk =>
    refine List.pairwise_cons.2 ⟨fun e he => ?_, h⟩
    rcases List.mem_cons.1 he with rfl | he
    · exact hk
    · exact Std.TransCmp.lt_trans hk ((List.pairwise_cons.1 h).1 e he)
  | case3 a w rest hk =>
    obtain ⟨hhead, htail⟩ := List.pairwise_cons.1 h
    exact List.pairwise_cons.2
      ⟨fun e he => Std.TransCmp.lt_of_eq_of_lt hk (hhead e he), htail⟩
  | case4 a w rest hk ih =>
    obtain ⟨hhead, htail⟩ := List.pairwise_cons.1 h
    refine List.pairwise_cons.2 ⟨fun e he => ?_, ih htail⟩
    rcases mem_place he with rfl | he
    · exact Std.OrientedCmp.lt_of_gt hk
    · exact hhead e he

instance [DecidableEq κ] [DecidableEq υ] : DecidableEq (SortedMap κ υ) := fun m n =>
  decidable_of_iff (m.entries = n.entries) SortedMap.ext_iff.symm

def empty : SortedMap κ υ := ⟨[], .nil⟩

instance : EmptyCollection (SortedMap κ υ) := ⟨empty⟩

instance : Inhabited (SortedMap κ υ) := ⟨empty⟩

def get? (m : SortedMap κ υ) (k : κ) : Option υ := lookup k m.entries

def contains (m : SortedMap κ υ) (k : κ) : Bool := (m.get? k).isSome

def size (m : SortedMap κ υ) : Nat := m.entries.length

def isEmpty (m : SortedMap κ υ) : Bool := m.entries.isEmpty

def keys (m : SortedMap κ υ) : List κ := m.entries.map (·.1)

def erase (m : SortedMap κ υ) (k : κ) : SortedMap κ υ :=
  ⟨remove k m.entries, sorted_remove m.sorted⟩

/-- The entries whose keys satisfy a test, in the same order. -/
def filterKeys (m : SortedMap κ υ) (p : κ → Bool) : SortedMap κ υ :=
  ⟨m.entries.filter fun e => p e.1, m.sorted.filter _⟩

def map {ω : Type} (f : υ → ω) (m : SortedMap κ υ) : SortedMap κ ω :=
  ⟨m.entries.map fun e => (e.1, f e.2), List.pairwise_map.2 m.sorted⟩

variable [Std.TransOrd κ]

def insert (m : SortedMap κ υ) (k : κ) (v : υ) : SortedMap κ υ :=
  ⟨place k v m.entries, sorted_place m.sorted⟩

/-- Inserts the pairs from left to right, so that the last pair of a key counts. -/
def insertMany (m : SortedMap κ υ) (pairs : List (κ × υ)) : SortedMap κ υ :=
  pairs.foldl (fun m e => m.insert e.1 e.2) m

def ofList (pairs : List (κ × υ)) : SortedMap κ υ := insertMany ∅ pairs

/-- Both maps together; where both have a key the second one counts. -/
def override (m n : SortedMap κ υ) : SortedMap κ υ := m.insertMany n.entries

end SortedMap

end UnitOfWork
