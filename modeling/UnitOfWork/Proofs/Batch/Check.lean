import Mathlib.Algebra.Order.BigOperators.Group.List
import Mathlib.Algebra.Order.Group.Nat
import UnitOfWork.Batch.Check

/-! Which batches pass the acceptance test. -/

namespace UnitOfWork

theorem Limits.admits_eq_true_iff {a : Limits} {operations bytes : Nat} :
    a.admits operations bytes = true ↔ operations ≤ a.operations ∧ bytes ≤ a.bytes := by
  rw [Limits.admits, Bool.and_eq_true, decide_eq_true_eq, decide_eq_true_eq]

namespace Batch

variable {limits : Limits} {table partition : String} {ops : List BatchOp}

theorem checkRows_eq_ok_iff {seen : List String} :
    checkRows seen ops = .ok () ↔
      (∀ op ∈ ops, ValidKey op.row) ∧ (∀ op ∈ ops, op.row ∉ seen) ∧
        (ops.map BatchOp.row).Nodup := by
  induction ops generalizing seen with
  | nil => simp [checkRows]
  | cons op ops ih =>
    rw [checkRows]
    cases hkey : checkKey "row key" op.row with
    | error fault =>
      refine ⟨nofun, fun h => ?_⟩
      rw [checkKey_eq_ok_iff.2 (h.1 op List.mem_cons_self)] at hkey
      cases hkey
    | ok _ =>
      have hvalid : ValidKey op.row := checkKey_eq_ok_iff.1 hkey
      by_cases hseen : op.row ∈ seen
      · simp [hseen]
      · have hfresh : (∀ later ∈ ops, later.row ∉ op.row :: seen) ↔
            op.row ∉ ops.map BatchOp.row ∧ ∀ later ∈ ops, later.row ∉ seen := by
          simp only [List.mem_cons, List.mem_map, not_or, not_exists, not_and, forall_and]
        rw [if_neg hseen, ih, hfresh]
        simp only [List.forall_mem_cons, List.map_cons, List.nodup_cons]
        constructor
        · rintro ⟨hkeys, ⟨hnotin, hrest⟩, hnodup⟩
          exact ⟨⟨hvalid, hkeys⟩, ⟨hseen, hrest⟩, hnotin, hnodup⟩
        · rintro ⟨⟨_, hkeys⟩, ⟨_, hrest⟩, hnotin, hnodup⟩
          exact ⟨hkeys, ⟨hnotin, hrest⟩, hnodup⟩

theorem check_eq_ok_iff :
    check limits partition ops = .ok () ↔
      ValidKey partition ∧ (∀ op ∈ ops, ValidKey op.row) ∧ (ops.map BatchOp.row).Nodup ∧
        limits.admits ops.length (payloadSize ops) = true := by
  have hrows := @checkRows_eq_ok_iff ops []
  simp only [List.not_mem_nil, not_false_eq_true, implies_true, true_and] at hrows
  rw [check, ← and_assoc (a := ∀ op ∈ ops, ValidKey op.row), ← hrows]
  cases hkey : checkKey "partition key" partition with
  | error fault =>
    refine ⟨nofun, fun h => ?_⟩
    rw [checkKey_eq_ok_iff.2 h.1] at hkey
    cases hkey
  | ok _ =>
    have hvalid : ValidKey partition := checkKey_eq_ok_iff.1 hkey
    cases checkRows [] ops with
    | error fault => simp
    | ok _ => simp [hvalid]

/-- Of a batch with valid keys that names no row twice only the limits are left to check. -/
theorem check_of_valid (hpartition : ValidKey partition) (hrows : ∀ op ∈ ops, ValidKey op.row)
    (hnodup : (ops.map BatchOp.row).Nodup) :
    check limits partition ops =
      if limits.admits ops.length (payloadSize ops) then .ok ()
      else .error (.batchTooLarge ops.length (payloadSize ops)) := by
  have hkey : checkKey "partition key" partition = .ok () := checkKey_eq_ok_iff.2 hpartition
  have hlist : checkRows [] ops = .ok () := checkRows_eq_ok_iff.2 ⟨hrows, by simp, hnodup⟩
  simp only [check, hkey, hlist]

theorem accept_eq_ok_iff :
    accept limits table partition ops = .ok () ↔
      ValidTableName table ∧ check limits partition ops = .ok () := by
  rw [accept, ← checkTableName_eq_ok_iff]
  cases checkTableName table <;> simp

/-- Any part of an accepted batch is accepted as a batch of its own. -/
theorem accept_of_sublist {part : List BatchOp} (h : accept limits table partition ops = .ok ())
    (hpart : part.Sublist ops) : accept limits table partition part = .ok () := by
  obtain ⟨htable, hcheck⟩ := accept_eq_ok_iff.1 h
  obtain ⟨hpartition, hrows, hnodup, hadmits⟩ := check_eq_ok_iff.1 hcheck
  have hlength : part.length ≤ ops.length := hpart.length_le
  have hsize : payloadSize part ≤ payloadSize ops :=
    (hpart.map BatchOp.payloadSize).sum_le_sum fun _ _ => Nat.zero_le _
  refine accept_eq_ok_iff.2 ⟨htable, check_eq_ok_iff.2 ⟨hpartition, fun op hop => ?_, ?_, ?_⟩⟩
  · exact hrows op (hpart.subset hop)
  · exact hnodup.sublist (hpart.map BatchOp.row)
  · simp only [Limits.admits, Bool.and_eq_true, decide_eq_true_eq] at hadmits ⊢
    omega

theorem checkRows_congr {seen : List String} {ops ops' : List BatchOp}
    (h : ops.map BatchOp.row = ops'.map BatchOp.row) : checkRows seen ops = checkRows seen ops' := by
  induction ops generalizing ops' seen with
  | nil =>
    cases ops' with
    | nil => rfl
    | cons => cases h
  | cons op ops ih =>
    cases ops' with
    | nil => cases h
    | cons op' ops' =>
      obtain ⟨hrow, hrest⟩ := List.cons.inj h
      rw [checkRows, checkRows, ← hrow, ih hrest]

/-- Of the operations only the rows and the sizes are looked at. -/
theorem accept_congr {ops ops' : List BatchOp} (hrows : ops.map BatchOp.row = ops'.map BatchOp.row)
    (hsizes : ops.map BatchOp.payloadSize = ops'.map BatchOp.payloadSize) :
    accept limits table partition ops = accept limits table partition ops' := by
  have hlength := congrArg List.length hrows
  rw [List.length_map, List.length_map] at hlength
  have hsize : payloadSize ops = payloadSize ops' := congrArg List.sum hsizes
  rw [accept, accept, check, check, checkRows_congr hrows, hlength, hsize]

/-- A batch is refused because of a name or because of its size. -/
theorem eq_of_check_error {e : StorageError} (h : check limits partition ops = .error e) :
    (∃ fault, e = .invalidKey fault) ∨ e = .batchTooLarge ops.length (payloadSize ops) := by
  unfold check at h
  split at h
  · cases h
    exact .inl ⟨_, rfl⟩
  split at h
  · cases h
    exact .inl ⟨_, rfl⟩
  split at h
  · cases h
  · cases h
    exact .inr rfl

theorem eq_of_accept_error {e : StorageError}
    (h : accept limits table partition ops = .error e) :
    (∃ fault, e = .invalidKey fault) ∨ e = .batchTooLarge ops.length (payloadSize ops) := by
  unfold accept at h
  split at h
  · cases h
    exact .inl ⟨_, rfl⟩
  · exact eq_of_check_error h

/-- A batch that is not accepted has surely not been applied. -/
theorem isAmbiguous_of_accept {e : StorageError} (h : accept limits table partition ops = .error e) :
    e.isAmbiguous = false := by
  rcases eq_of_accept_error h with ⟨fault, rfl⟩ | rfl
  · rfl
  · rfl

end Batch

end UnitOfWork
