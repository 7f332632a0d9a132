import Mathlib.Algebra.Order.BigOperators.Group.List
import Mathlib.Algebra.Order.Group.Nat
import UnitOfWork.Proofs.Session.Enlistment
import UnitOfWork.Store.Memory

/-!
The records that an accumulator keeps beside its operations: their sizes, the sum of these and the
position of each row. They are in step with the operations whatever is enlisted, committed and
dropped, so that no position leads nowhere and no size taken off exceeds the sum.
-/

namespace UnitOfWork

/-- Every operation but an insert shows a token that is not blank. -/
theorem Operation.exists_token {op : Operation} (h : op.kind ≠ .insert) :
    ∃ token, op.token? = some token ∧ token.isBlank = false := by
  obtain ⟨key, change⟩ := op
  cases change with
  | insert => exact absurd rfl h
  | update _ held | delete held | replace _ held => exact ⟨held.token, rfl, held.not_blank⟩

namespace Accumulator

variable {a : Accumulator}

namespace Sound

theorem length_sizes (h : a.Sound) : a.sizes.length = a.ops.length := by
  rw [h.sizes, List.length_map]

/-- The size on record for one operation is part of the sum. -/
theorem size_le_bytes (h : a.Sound) {i size : Nat} (hsize : a.sizes[i]? = some size) :
    size ≤ a.payloadBytes := by
  rw [h.bytes]
  exact List.le_sum_of_mem (List.mem_of_getElem? hsize)

theorem pending?_of_position (h : a.Sound) {row : String} {i : Nat}
    (hi : a.positions.get? row = some i) :
    ∃ op, a.ops[i]? = some op ∧ op.row = row ∧
      a.pending? row = some (i, op, op.payloadSize) := by
  obtain ⟨op, hop, hrow⟩ := (h.position row i).1 hi
  refine ⟨op, hop, hrow, ?_⟩
  simp [pending?, hi, hop, h.size_of_op hop]

theorem within_limits (h : a.Sound) :
    a.length ≤ a.limits.operations ∧ a.payloadBytes ≤ a.limits.bytes :=
  Limits.admits_eq_true_iff.1 h.within

end Sound

/-- The sizes, their sum and the positions are those of the operations, which are for different
valid rows of the accumulator's partition and within its limits. -/
structure InStep (a : Accumulator) : Prop where
  length_sizes : a.sizes.length = a.ops.length
  sizes : ∀ (i : Nat) (op : Operation), a.ops[i]? = some op → a.sizes[i]? = some op.payloadSize
  bytes : a.payloadBytes = a.sizes.sum
  positions : ∀ row i, a.positions.get? row = some i ↔ ∃ op, a.ops[i]? = some op ∧ op.row = row
  rows : (a.ops.map Operation.row).Nodup
  partition : ∀ op ∈ a.ops, op.key.partition = a.partition.key
  valid : ∀ op ∈ a.ops, ValidKey op.row
  held : ∀ op ∈ a.ops, op.kind ≠ .insert →
    ∃ token, op.token? = some token ∧ token.isBlank = false
  length_le : a.length ≤ a.limits.operations
  bytes_le : a.payloadBytes ≤ a.limits.bytes
  /-- A position leads to an operation and a size, and the size can be taken off the sum. -/
  found : ∀ row i, a.positions.get? row = some i →
    ∃ (hop : i < a.ops.length) (hsize : i < a.sizes.length),
      a.pending? row = some (i, a.ops[i], a.sizes[i]) ∧ a.sizes[i] ≤ a.payloadBytes

/-- Whatever has been enlisted, committed to any store or dropped, the records of an accumulator are
in step with its operations. -/
theorem records_in_step (a : Accumulator) (ha : a.Reachable) : a.InStep := by
  have hsound : a.Sound := ha.sound
  constructor
  case length_sizes => exact hsound.length_sizes
  case sizes => exact fun i op hop => hsound.size_of_op hop
  case bytes => exact hsound.bytes
  case positions => exact hsound.position
  case rows => exact hsound.nodup_rows
  case partition => exact fun op hop => (hsound.keys op hop).1
  case valid => exact fun op hop => (hsound.keys op hop).2
  case held => exact fun op _ hkind => op.exists_token hkind
  case length_le => exact hsound.within_limits.1
  case bytes_le => exact hsound.within_limits.2
  case found =>
    intro row i hi
    obtain ⟨op, hop, -, hpending⟩ := hsound.pending?_of_position hi
    have hsize : a.sizes[i]? = some op.payloadSize := hsound.size_of_op hop
    have hle : op.payloadSize ≤ a.payloadBytes := hsound.size_le_bytes hsize
    obtain ⟨hlt, hop'⟩ := List.getElem?_eq_some_iff.1 hop
    obtain ⟨hlt', hsize'⟩ := List.getElem?_eq_some_iff.1 hsize
    refine ⟨hlt, hlt', ?_, ?_⟩
    · rw [hop', hsize']
      exact hpending
    · rw [hsize']
      exact hle

private def depot : Partition := ⟨"Depots", "d", by decide, by decide⟩

private def depotUpdate (row name : String) : Operation :=
  ⟨⟨"d", row⟩, .update (SortedMap.empty.insert name (.bool true)) ⟨⟨"read"⟩, by decide⟩⟩

/-- Two rows with an update each, a second update of the first row, and a commit that is refused
because the store has no such rows. -/
private def loadedDepot : Accumulator :=
  ((((((create depot ⟨2, 100⟩).register (depotUpdate "crate" "tag")).2.register
    (depotUpdate "pallet" "tag")).2.register (depotUpdate "crate" "sealed")).2.commit
    ({ config := {} } : MemoryStore) none).2.1)

theorem records_in_step_merged :
    loadedDepot.Reachable ∧ loadedDepot.InStep ∧ loadedDepot.sizes = [28, 20] ∧
      loadedDepot.payloadBytes = 48 ∧ loadedDepot.positions.get? "crate" = some 0 := by
  have hreachable : loadedDepot.Reachable :=
    .commit (.register (.register (.register (.create depot ⟨2, 100⟩) _) _) _) _ none
  exact ⟨hreachable, records_in_step loadedDepot hreachable, by decide +kernel,
    by decide +kernel, by decide +kernel⟩

end Accumulator

end UnitOfWork
