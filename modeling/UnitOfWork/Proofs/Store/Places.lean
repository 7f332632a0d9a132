import Mathlib.Data.List.Nodup
import UnitOfWork.Proofs.SortedMap.Count
import UnitOfWork.Proofs.Store.Reachable

/-! The rows of a store are counted by the places that hold one. -/

namespace UnitOfWork

/-- All places that hold a row, each once. -/
structure Occupied (row? : RowId → Option Row) (places : List RowId) : Prop where
  nodup : places.Nodup
  mem_iff : ∀ id, id ∈ places ↔ ∃ r, row? id = some r

namespace MemoryStore

theorem rowCount_eq (s : MemoryStore) : s.rowCount = s.tables.total SortedMap.size := rfl

/-- The places of all rows, table by table. -/
def places (s : MemoryStore) : List RowId :=
  s.tables.entries.flatMap fun t => t.2.entries.map fun e => ⟨t.1, e.1.partition, e.1.row⟩

theorem mem_places {s : MemoryStore} {id : RowId} : id ∈ s.places ↔ ∃ r, s.row? id = some r := by
  rw [places, List.mem_flatMap]
  constructor
  · rintro ⟨⟨table, rows⟩, ht, hid⟩
    obtain ⟨⟨⟨partition, row⟩, r⟩, he, rfl⟩ := List.mem_map.1 hid
    refine ⟨r, Option.bind_eq_some_iff.2 ⟨rows, SortedMap.get?_eq_some_iff.2 ht, ?_⟩⟩
    exact SortedMap.get?_eq_some_iff.2 he
  · rintro ⟨r, hr⟩
    obtain ⟨rows, hrows, hrow⟩ := Option.bind_eq_some_iff.1 hr
    have he := SortedMap.get?_eq_some_iff.1 hrow
    exact ⟨_, SortedMap.get?_eq_some_iff.1 hrows, List.mem_map.2 ⟨_, he, rfl⟩⟩

theorem nodup_places (s : MemoryStore) : s.places.Nodup := by
  rw [places, List.nodup_flatMap]
  constructor
  · intro t _
    have hkeys := t.2.nodup_keys.map (f := fun k => RowId.mk t.1 k.partition k.row) fun a b he => by
      cases a
      cases b
      cases he
      rfl
    rwa [List.map_map] at hkeys
  · refine (List.pairwise_map.1 s.tables.nodup_keys).imp fun {a b} hab id ha hb => ?_
    obtain ⟨_, _, rfl⟩ := List.mem_map.1 ha
    obtain ⟨_, _, he⟩ := List.mem_map.1 hb
    exact hab (congrArg RowId.table he).symm

theorem length_places (s : MemoryStore) : s.places.length = s.rowCount := by
  rw [places, List.length_flatMap, rowCount_eq, SortedMap.total]
  simp only [List.length_map]
  rfl

end MemoryStore

/-- The places of a well-formed database stand in the keys of its entries. -/
theorem Database.WellFormed.exists_places {d : Database} (h : d.WellFormed) :
    ∃ places, Occupied d.row? places ∧ places.length = d.rows.size := by
  have hkey : ∀ key ∈ d.rows.entries.map Prod.fst,
      ∃ id, (∃ r, d.row? id = some r) ∧ PhysicalKey.encode id.table id.partition id.row = key := by
    intro key hmem
    obtain ⟨⟨_, bytes⟩, he, rfl⟩ := List.mem_map.1 hmem
    have hget := SortedMap.get?_eq_some_iff.2 he
    obtain ⟨id, r, hholds⟩ := h _ bytes hget
    have hstored : d.stored? id = some bytes := by rw [stored?, ← hholds.key_eq, hget]
    obtain ⟨r', hr', _⟩ := h.holds hstored
    exact ⟨id, ⟨r', hr'⟩, hholds.key_eq.symm⟩
  obtain ⟨places, hplaces, hkeys⟩ := DurableStore.exists_map_eq hkey
  refine ⟨places, ⟨?_, fun id => ⟨hplaces id, ?_⟩⟩, ?_⟩
  · apply List.Nodup.of_map fun id => PhysicalKey.encode id.table id.partition id.row
    rw [hkeys]
    exact d.rows.nodup_keys
  · rintro ⟨r, hr⟩
    obtain ⟨hstored, hholds⟩ := h.holds_of_row? hr
    have hmem := List.mem_map_of_mem (f := Prod.fst) (SortedMap.get?_eq_some_iff.1 hstored)
    rw [← hkeys] at hmem
    obtain ⟨id', hid', he⟩ := List.mem_map.1 hmem
    obtain ⟨h₁, h₂, h₃⟩ := PhysicalKey.encode_inj hholds.table_valid.zero_notMem
      hholds.partition_valid.zero_notMem hholds.row_valid.zero_notMem he
    obtain rfl : id' = id := by
      cases id'
      cases id
      simp_all
    exact hid'
  · rw [← List.length_map (f := fun id => PhysicalKey.encode id.table id.partition id.row), hkeys,
      List.length_map]
    rfl

namespace AnyStore

/-- The count of all rows. -/
def rowCount : AnyStore → Nat
  | .memory s => s.rowCount
  | .durable s => s.database.rows.size

/-- The count of rows is the number of places that hold one. -/
theorem rowCount_eq_length {s : AnyStore} (h : s.Sound) {places : List RowId}
    (hplaces : Occupied s.row? places) : s.rowCount = places.length := by
  have hperm : ∀ {places'}, Occupied s.row? places' → places'.Perm places := fun h' =>
    (List.perm_ext_iff_of_nodup h'.nodup hplaces.nodup).2 fun id =>
      (h'.mem_iff id).trans (hplaces.mem_iff id).symm
  cases s with
  | memory s =>
    have hall : Occupied s.row? s.places := ⟨s.nodup_places, fun _ => MemoryStore.mem_places⟩
    exact s.length_places.symm.trans (hperm hall).length_eq
  | durable s =>
    obtain ⟨all, hall, hlength⟩ := Database.WellFormed.exists_places h
    exact hlength.symm.trans (hperm hall).length_eq

end AnyStore

end UnitOfWork
