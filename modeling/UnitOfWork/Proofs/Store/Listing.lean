import UnitOfWork.Proofs.Store.Memory

/-! What the queries of a store list: the rows of one partition, by increasing row keys. -/

namespace UnitOfWork

/-- The entities of a partition, one for each row that stands in it. -/
structure Lists (row? : RowId → Option Row) (table partition : String) (es : List Entity) :
    Prop where
  sorted : es.Pairwise fun a b => compare a.key.row b.key.row = .lt
  mem_iff : ∀ e, e ∈ es ↔
    ∃ row r, row? ⟨table, partition, row⟩ = some r ∧ r.at ⟨partition, row⟩ = e

namespace Lists

variable {row? row'? : RowId → Option Row} {table partition : String} {es es' : List Entity}

theorem partition_eq (h : Lists row? table partition es) {e : Entity} (he : e ∈ es) :
    e.key.partition = partition := by
  obtain ⟨row, r, _, rfl⟩ := (h.mem_iff e).1 he
  rfl

/-- Rows with the same properties are listed in the same order. -/
theorem properties_eq (h : Lists row? table partition es) (h' : Lists row'? table partition es')
    (hrows : ∀ row, (row? ⟨table, partition, row⟩).map Row.properties =
      (row'? ⟨table, partition, row⟩).map Row.properties) :
    es.map (fun e => (e.key.row, e.properties)) = es'.map fun e => (e.key.row, e.properties) := by
  have hmem : ∀ {row? es}, Lists row? table partition es → ∀ row p,
      (row, p) ∈ es.map (fun e => (e.key.row, e.properties)) ↔
        (row? ⟨table, partition, row⟩).map Row.properties = some p := by
    intro row? es h row p
    simp only [List.mem_map, h.mem_iff, Option.map_eq_some_iff]
    constructor
    · rintro ⟨_, ⟨row, r, hr, rfl⟩, he⟩
      cases he
      exact ⟨r, hr, rfl⟩
    · rintro ⟨r, hr, rfl⟩
      exact ⟨r.at ⟨partition, row⟩, ⟨row, r, hr, rfl⟩, rfl⟩
  have hincreasing : ∀ {row? es}, Lists row? table partition es →
      SortedMap.Increasing (es.map fun e => (e.key.row, e.properties)) :=
    fun h => List.pairwise_map.2 h.sorted
  refine SortedMap.eq_of_mem_iff (hincreasing h) (hincreasing h') fun ⟨row, p⟩ => ?_
  rw [hmem h, hmem h', hrows]

end Lists

namespace MemoryStore

variable {s : MemoryStore} {table : String} {rows : TableRows}

theorem read_eq (s : MemoryStore) (table partition row : String) :
    s.read table partition row = (s.rowsOf table).map fun _ =>
      (s.row? ⟨table, partition, row⟩).map (·.at ⟨partition, row⟩) := by
  unfold read
  cases h : s.rowsOf table with
  | error e => rfl
  | ok rows =>
    rw [← get?_of_rowsOf h]
    rfl

theorem query_of_rowsOf (h : s.rowsOf table = .ok rows) (partition : String) :
    ∃ es, s.query table partition = .ok es ∧ Lists s.row? table partition es := by
  have hquery : s.query table partition =
      .ok ((rows.filterKeys (·.partition = partition)).entries.map fun e => e.2.at e.1) := by
    rw [query, h]
    rfl
  have hpartition : ∀ e ∈ (rows.filterKeys (·.partition = partition)).entries,
      e.1.partition = partition := by
    intro e he
    simpa using (List.mem_filter.1 he).2
  refine ⟨_, hquery, ?_, fun e => ?_⟩
  · rw [List.pairwise_map]
    refine (rows.filterKeys _).sorted.imp_of_mem fun {a b} ha hb hab => ?_
    have hkeys : (compare a.1.partition b.1.partition).then (compare a.1.row b.1.row) = .lt := hab
    have hself : compare partition partition = .eq := Std.ReflCmp.compare_self
    rw [hpartition a ha, hpartition b hb, hself] at hkeys
    exact hkeys
  · rw [List.mem_map]
    constructor
    · rintro ⟨⟨⟨p, row⟩, r⟩, he, rfl⟩
      obtain rfl : p = partition := hpartition _ he
      refine ⟨row, r, ?_, rfl⟩
      rw [← get?_of_rowsOf h]
      exact SortedMap.get?_eq_some_iff.2 (List.mem_filter.1 he).1
    · rintro ⟨row, r, hr, rfl⟩
      rw [← get?_of_rowsOf h] at hr
      refine ⟨(⟨partition, row⟩, r), List.mem_filter.2 ⟨?_, by simp⟩, rfl⟩
      exact SortedMap.get?_eq_some_iff.1 hr

end MemoryStore

end UnitOfWork
