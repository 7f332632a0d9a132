import Mathlib.Algebra.GroupWithZero.Nat
import Mathlib.Data.List.Nodup
import UnitOfWork.Proofs.Batch.Staging
import UnitOfWork.Proofs.Session.Accumulator
import UnitOfWork.SortedMap.Lemmas

/-!
What is pending always makes a batch that the store accepts: sizes and positions are those of the
operations, no row is named twice, and the limits are kept.
-/

namespace UnitOfWork

/-- Limits that admit nothing but what the others admit. -/
def Limits.Within (a b : Limits) : Prop := a.operations ≤ b.operations ∧ a.bytes ≤ b.bytes

theorem Limits.min_within (a b : Limits) : (a.min b).Within b :=
  ⟨Nat.min_le_right .., Nat.min_le_right ..⟩

theorem Limits.Within.admits {a b : Limits} (h : a.Within b) {operations bytes : Nat}
    (ha : a.admits operations bytes = true) : b.admits operations bytes = true := by
  obtain ⟨hoperations, hbytes⟩ := admits_eq_true_iff.1 ha
  exact admits_eq_true_iff.2 ⟨Nat.le_trans hoperations h.1, Nat.le_trans hbytes h.2⟩

namespace Operation

@[simp] theorem row_toBatchOp (op : Operation) : op.toBatchOp.row = op.row := by
  unfold toBatchOp
  cases op.change <;> rfl

@[simp] theorem ifMatch?_toBatchOp (op : Operation) : op.toBatchOp.ifMatch? = op.token? := by
  unfold toBatchOp token?
  cases op.change <;> rfl

theorem map_row_toBatchOp (ops : List Operation) :
    (ops.map toBatchOp).map BatchOp.row = ops.map row := by
  simp [Function.comp_def]

/-- A batch is as large as its operations are together. -/
theorem payloadSize_map_toBatchOp (ops : List Operation) :
    Batch.payloadSize (ops.map toBatchOp) = (ops.map payloadSize).sum := by
  rw [Batch.payloadSize, List.map_map]
  rfl

@[simp] theorem key_mergedWith (pending next : Operation) :
    (pending.mergedWith next).key = pending.key := by
  unfold mergedWith
  split <;> rfl

@[simp] theorem row_mergedWith (pending next : Operation) :
    (pending.mergedWith next).row = pending.row :=
  congrArg EntityKey.row (pending.key_mergedWith next)

end Operation

namespace Accumulator

/-- The records of an accumulator are in step with its operations. -/
structure Sound (a : Accumulator) : Prop where
  sizes : a.sizes = a.ops.map Operation.payloadSize
  bytes : a.payloadBytes = a.sizes.sum
  position : ∀ row i, a.positions.get? row = some i ↔ ∃ op, a.ops[i]? = some op ∧ op.row = row
  keys : ∀ op ∈ a.ops, op.key.partition = a.partition.key ∧ ValidKey op.row
  within : a.limits.admits a.ops.length a.payloadBytes = true

theorem sound_create (partition : Partition) (limits : Limits) :
    (create partition limits).Sound where
  sizes := rfl
  bytes := rfl
  position row i := by simp [create]
  keys := nofun
  within := by simp [create, Limits.admits]

theorem sound_clear (a : Accumulator) : a.clear.Sound := sound_create ..

namespace Sound

variable {a : Accumulator}

theorem nodup_rows (h : a.Sound) : (a.ops.map Operation.row).Nodup := by
  rw [List.nodup_iff_getElem?_ne_getElem?]
  intro i j hij hj he
  rw [List.length_map] at hj
  have hlt := Nat.lt_trans hij hj
  have hi : a.ops[i]? = some a.ops[i] := List.getElem?_eq_getElem hlt
  have hj : a.ops[j]? = some a.ops[j] := List.getElem?_eq_getElem hj
  rw [List.getElem?_map, List.getElem?_map, hi, hj] at he
  have hrow : a.ops[i].row = a.ops[j].row := Option.some.inj he
  have hposition := (h.position a.ops[j].row i).2 ⟨_, hi, hrow⟩
  rw [(h.position a.ops[j].row j).2 ⟨_, hj, rfl⟩] at hposition
  exact absurd (Option.some.inj hposition) (Nat.ne_of_gt hij)

/-- The size on record for an operation is its own. -/
theorem size_of_op (h : a.Sound) {i : Nat} {op : Operation} (hop : a.ops[i]? = some op) :
    a.sizes[i]? = some op.payloadSize := by
  rw [h.sizes, List.getElem?_map, hop]
  rfl

/-- What is found to be pending for a row is there, with its own size. -/
theorem pending?_eq_some (h : a.Sound) {row : String} {i : Nat} {op : Operation} {size : Nat}
    (hpending : a.pending? row = some (i, op, size)) :
    a.positions.get? row = some i ∧ a.ops[i]? = some op ∧ op.row = row ∧
      size = op.payloadSize := by
  obtain ⟨i', hi, hrest⟩ := Option.bind_eq_some_iff.1 hpending
  obtain ⟨op', hop, hrest⟩ := Option.bind_eq_some_iff.1 hrest
  obtain ⟨size', hsize, he⟩ := Option.bind_eq_some_iff.1 hrest
  cases he
  obtain ⟨op', hop', hrow⟩ := (h.position row i).1 hi
  obtain rfl : op = op' := Option.some.inj (hop.symm.trans hop')
  rw [h.size_of_op hop] at hsize
  exact ⟨hi, hop, hrow, (Option.some.inj hsize).symm⟩

theorem pending?_eq_none (h : a.Sound) {row : String} (hnone : a.pending? row = none) :
    a.positions.get? row = none := by
  rw [Option.eq_none_iff_forall_ne_some]
  intro i hi
  obtain ⟨op, hop, _⟩ := (h.position row i).1 hi
  have hsize : a.sizes[i]? = some op.payloadSize := h.size_of_op hop
  rw [pending?, hi] at hnone
  simp [hop, hsize] at hnone

theorem position_append (h : a.Sound) {op : Operation}
    (hnew : a.positions.get? op.row = none) (row : String) (i : Nat) :
    (a.positions.insert op.row a.ops.length).get? row = some i ↔
      ∃ op', (a.ops ++ [op])[i]? = some op' ∧ op'.row = row := by
  rw [SortedMap.get?_insert]
  by_cases hrow : row = op.row
  · rw [if_pos hrow, hrow, Option.some.injEq]
    constructor
    · intro hi
      refine ⟨op, ?_, rfl⟩
      rw [← hi, List.getElem?_concat_length]
    · rintro ⟨op', hop', hrow'⟩
      rw [List.getElem?_append] at hop'
      split at hop'
      · have hposition := (h.position op.row i).2 ⟨op', hop', hrow'⟩
        rw [hnew] at hposition
        cases hposition
      · rename_i hlt
        have hlast := (List.getElem?_eq_some_iff.1 hop').1
        rw [List.length_singleton] at hlast
        omega
  · rw [if_neg hrow, h.position]
    constructor
    · rintro ⟨op', hop', hrow'⟩
      have hlt := (List.getElem?_eq_some_iff.1 hop').1
      exact ⟨op', (List.getElem?_append_left hlt).trans hop', hrow'⟩
    · rintro ⟨op', hop', hrow'⟩
      rw [List.getElem?_append] at hop'
      split at hop'
      · exact ⟨op', hop', hrow'⟩
      · have hmem := List.mem_singleton.1 (List.mem_of_getElem? hop')
        exact absurd (hrow'.symm.trans (congrArg Operation.row hmem)) hrow

/-- An operation is replaced by another one of its row. -/
theorem position_set (h : a.Sound) {k : Nat} {op op' : Operation} (hop : a.ops[k]? = some op)
    (hrow : op'.row = op.row) (row : String) (i : Nat) :
    a.positions.get? row = some i ↔ ∃ op, (a.ops.set k op')[i]? = some op ∧ op.row = row := by
  have hlt := (List.getElem?_eq_some_iff.1 hop).1
  rw [h.position, List.getElem?_set]
  by_cases hi : k = i
  · subst hi
    rw [if_pos rfl, if_pos hlt, hop]
    simp [hrow]
  · rw [if_neg hi]

end Sound

/-- Exchanging one number of a list changes the sum by the difference. -/
private theorem sum_set {l : List Nat} {k x : Nat} (hk : l[k]? = some x) (y : Nat) :
    (l.set k y).sum + x = l.sum + y := by
  induction l generalizing k with
  | nil => cases hk
  | cons first l ih =>
    cases k with
    | zero =>
      obtain rfl : first = x := Option.some.inj hk
      simp only [List.set_cons_zero, List.sum_cons]
      omega
    | succ k =>
      have hrest := ih (k := k) hk
      simp only [List.set_cons_succ, List.sum_cons]
      omega

/-- The size on record follows the exchange of an operation. -/
theorem Sound.bytes_set {a : Accumulator} (h : a.Sound) {k : Nat} {op : Operation}
    (hop : a.ops[k]? = some op) (size : Nat) :
    a.payloadBytes - op.payloadSize + size = (a.sizes.set k size).sum := by
  have hsize : a.sizes[k]? = some op.payloadSize := h.size_of_op hop
  have hsum := sum_set hsize size
  -- the size taken off is part of the sum, so nothing is cut off at zero
  have hpart := sum_set hsize 0
  have hbytes := h.bytes
  omega

theorem sound_register {a : Accumulator} (h : a.Sound) (op : Operation) :
    (a.register op).2.Sound := by
  have hcases := a.registered op
  generalize (a.register op).1 = answer, (a.register op).2 = a' at hcases ⊢
  cases hcases with
  | refused => exact h
  | appended hpartition hrow hnew hlimits =>
    constructor
    case sizes => simp [h.sizes]
    case bytes => simp [h.bytes]
    case position => exact h.position_append (h.pending?_eq_none hnew)
    case keys =>
      intro later hlater
      rcases List.mem_append.1 hlater with hold | hlast
      · exact h.keys later hold
      · obtain rfl := List.mem_singleton.1 hlast
        exact ⟨hpartition, hrow⟩
    case within => simpa using hlimits
  | @merged k size pending hpending hlimits =>
    obtain ⟨_, hop, _, rfl⟩ := h.pending?_eq_some hpending
    constructor
    case sizes => simp [h.sizes, List.map_set]
    case bytes => exact h.bytes_set hop (pending.mergedWith op).payloadSize
    case position => exact h.position_set hop (pending.row_mergedWith op)
    case keys =>
      intro later hlater
      rcases List.mem_or_eq_of_mem_set hlater with hold | rfl
      · exact h.keys later hold
      · obtain ⟨hpartition, hvalid⟩ := h.keys pending (List.mem_of_getElem? hop)
        rw [pending.key_mergedWith, pending.row_mergedWith]
        exact ⟨hpartition, hvalid⟩
    case within => simpa using hlimits

theorem sound_commit {σ : Type} [TableStore σ] {a : Accumulator} (h : a.Sound) (store : σ)
    (timeLeft : Option Duration) : (a.commit store timeLeft).2.1.Sound := by
  have hcases := a.committed store timeLeft
  generalize a.commit store timeLeft = committed at hcases ⊢
  cases hcases with
  | idle | refused | miscounted => exact h
  | applied => exact a.sound_clear

/-- What is pending makes a batch that every store accepts whose limits are no narrower. -/
theorem accept_of_sound {a : Accumulator} (h : a.Sound) {limits : Limits}
    (hlimits : a.limits.Within limits) :
    Batch.accept limits a.partition.table a.partition.key (a.ops.map Operation.toBatchOp) =
      .ok () := by
  have hsize : Batch.payloadSize (a.ops.map Operation.toBatchOp) = a.payloadBytes := by
    rw [Operation.payloadSize_map_toBatchOp, h.bytes, h.sizes]
  refine Batch.accept_eq_ok_iff.2 ⟨a.partition.table_valid, Batch.check_eq_ok_iff.2
    ⟨a.partition.key_valid, ?_, ?_, ?_⟩⟩
  · intro batchOp hmem
    obtain ⟨op, hop, rfl⟩ := List.mem_map.1 hmem
    rw [op.row_toBatchOp]
    exact (h.keys op hop).2
  · rw [Operation.map_row_toBatchOp]
    exact h.nodup_rows
  · rw [hsize, List.length_map]
    exact hlimits.admits h.within

end Accumulator

end UnitOfWork
