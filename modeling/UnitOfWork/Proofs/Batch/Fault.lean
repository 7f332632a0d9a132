import Mathlib.Algebra.GroupWithZero.Nat
import UnitOfWork.Proofs.Batch.Check

/-!
What a batch is refused for before any row is looked at: the first rule that a key breaks, the first
operation whose row key breaks one or names a row again, and only then the limits.
-/

namespace UnitOfWork

/-- The first rule that a key breaks, in the order in which the rules are applied. -/
inductive KeyFault (role key : String) : NamingFault → Prop
  | empty (h : key = "") : KeyFault role key (.empty role)
  | tooLong (hnonempty : key ≠ "") (h : maxKeyBytes < key.utf8ByteSize) :
      KeyFault role key (.tooLong role key.utf8ByteSize)
  | forbidden {before later : List Char} {c : Char} (hnonempty : key ≠ "")
      (hlength : key.utf8ByteSize ≤ maxKeyBytes) (h : key.toList = before ++ c :: later)
      (hc : isForbiddenChar c = true) (hbefore : ∀ d ∈ before, isForbiddenChar d = false) :
      KeyFault role key (.forbidden role key c)

theorem checkKey_eq_error_iff {role key : String} {fault : NamingFault} :
    checkKey role key = .error fault ↔ KeyFault role key fault := by
  constructor
  · intro h
    unfold checkKey at h
    split at h
    · rename_i hempty
      cases h
      exact .empty hempty
    split at h
    · rename_i hempty hlong
      cases h
      exact .tooLong hempty hlong
    split at h
    · rename_i hempty hlong _ c hfound
      cases h
      obtain ⟨hc, before, later, hkey, hbefore⟩ := List.find?_eq_some_iff_append.1 hfound
      exact .forbidden hempty (Nat.not_lt.1 hlong) hkey hc fun d hd => by simpa using hbefore d hd
    · cases h
  · intro h
    unfold checkKey
    cases h with
    | empty hempty => rw [if_pos hempty]
    | tooLong hnonempty hlong => rw [if_neg hnonempty, if_pos hlong]
    | @forbidden before later c hnonempty hlength hkey hc hbefore =>
      have hfound : key.toList.find? isForbiddenChar = some c :=
        List.find?_eq_some_iff_append.2
          ⟨hc, before, later, hkey, fun d hd => by simp [hbefore d hd]⟩
      rw [if_neg hnonempty, if_neg (Nat.not_lt.2 hlength), hfound]

theorem exists_keyFault_iff {role key : String} :
    (∃ fault, KeyFault role key fault) ↔ ¬ ValidKey key := by
  simp only [← checkKey_eq_error_iff, ← @checkKey_eq_ok_iff role]
  cases checkKey role key <;> simp

/-- What is wrong with an operation, given the rows that earlier ones name. -/
inductive BatchOp.FaultAfter (seen : List String) (op : BatchOp) : NamingFault → Prop
  | key {fault : NamingFault} (h : KeyFault "row key" op.row fault) : FaultAfter seen op fault
  | repeated (hvalid : ValidKey op.row) (h : op.row ∈ seen) :
      FaultAfter seen op (.repeatedRow op.row)

namespace BatchOp

variable {op : BatchOp} {seen seen' : List String} {fault : NamingFault}

theorem FaultAfter.congr (h : op.FaultAfter seen fault) (hseen : ∀ row ∈ seen, row ∈ seen') :
    op.FaultAfter seen' fault := by
  cases h with
  | key hkey => exact .key hkey
  | repeated hvalid hrow => exact .repeated hvalid (hseen op.row hrow)

theorem exists_faultAfter_iff :
    (∃ fault, op.FaultAfter seen fault) ↔ ¬ (ValidKey op.row ∧ op.row ∉ seen) := by
  constructor
  · rintro ⟨fault, hkey | ⟨_, hrow⟩⟩ ⟨hvalid, hnew⟩
    · exact exists_keyFault_iff.1 ⟨fault, hkey⟩ hvalid
    · exact hnew hrow
  · intro h
    by_cases hvalid : ValidKey op.row
    · exact ⟨_, .repeated hvalid (by simpa [hvalid] using h)⟩
    · obtain ⟨fault, hkey⟩ := exists_keyFault_iff.2 hvalid
      exact ⟨fault, .key hkey⟩

end BatchOp

namespace Batch

variable {limits : Limits} {partition : String} {ops before later : List BatchOp} {op : BatchOp}
  {seen : List String} {fault : NamingFault}

/-- All row keys are well formed, and no two are the same. -/
structure WellNamed (ops : List BatchOp) : Prop where
  valid : ∀ op ∈ ops, ValidKey op.row
  nodup : (ops.map BatchOp.row).Nodup

theorem checkRows_eq_ok_iff_wellNamed : checkRows [] ops = .ok () ↔ WellNamed ops := by
  rw [checkRows_eq_ok_iff]
  simp only [List.not_mem_nil, not_false_eq_true, implies_true, true_and]
  exact ⟨fun h => ⟨h.1, h.2⟩, fun h => ⟨h.1, h.2⟩⟩

theorem checkRows_of_fault (h : op.FaultAfter seen fault) :
    checkRows seen (op :: later) = .error fault := by
  rw [checkRows]
  cases h with
  | key hkey => rw [checkKey_eq_error_iff.2 hkey]
  | repeated hvalid hrow => simp only [checkKey_eq_ok_iff.2 hvalid, if_pos hrow]

theorem checkRows_of_new (hvalid : ValidKey op.row) (hnew : op.row ∉ seen) :
    checkRows seen (op :: later) = checkRows (op.row :: seen) later := by
  rw [checkRows]
  simp only [checkKey_eq_ok_iff.2 hvalid, if_neg hnew]

/-- Behind operations without a fault, their rows count as seen. -/
theorem checkRows_append (h : checkRows seen before = .ok ()) :
    checkRows seen (before ++ later) =
      checkRows ((before.map BatchOp.row).reverse ++ seen) later := by
  induction before generalizing seen with
  | nil => rfl
  | cons first before ih =>
    obtain ⟨hvalid, hnew, -⟩ := checkRows_eq_ok_iff.1 h
    have hfirst := hvalid first List.mem_cons_self
    have hfresh := hnew first List.mem_cons_self
    rw [checkRows_of_new hfirst hfresh] at h
    rw [List.cons_append, checkRows_of_new hfirst hfresh, ih h]
    simp

theorem exists_fault_of_checkRows (h : checkRows seen ops = .error fault) :
    ∃ before op later, ops = before ++ op :: later ∧ checkRows seen before = .ok () ∧
      op.FaultAfter ((before.map BatchOp.row).reverse ++ seen) fault := by
  induction ops generalizing seen with
  | nil => cases h
  | cons first ops ih =>
    by_cases hfirst : ValidKey first.row ∧ first.row ∉ seen
    · obtain ⟨hvalid, hnew⟩ := hfirst
      rw [checkRows_of_new hvalid hnew] at h
      obtain ⟨before, op, later, rfl, hbefore, hop⟩ := ih h
      refine ⟨first :: before, op, later, rfl, ?_, by simpa using hop⟩
      rw [checkRows_of_new hvalid hnew, hbefore]
    · obtain ⟨fault', hfault⟩ := BatchOp.exists_faultAfter_iff.2 hfirst
      rw [checkRows_of_fault hfault] at h
      cases h
      exact ⟨[], first, ops, rfl, rfl, hfault⟩

/-- What is wrong with the first operation whose row key breaks a rule or repeats an earlier one. -/
def FirstFault (ops : List BatchOp) (fault : NamingFault) : Prop :=
  ∃ before op later, ops = before ++ op :: later ∧ WellNamed before ∧
    op.FaultAfter (before.map BatchOp.row) fault

theorem checkRows_eq_error_iff : checkRows [] ops = .error fault ↔ FirstFault ops fault := by
  constructor
  · intro h
    obtain ⟨before, op, later, hops, hbefore, hop⟩ := exists_fault_of_checkRows h
    exact ⟨before, op, later, hops, checkRows_eq_ok_iff_wellNamed.1 hbefore,
      hop.congr (by simp)⟩
  · rintro ⟨before, op, later, rfl, hbefore, hop⟩
    rw [checkRows_append (checkRows_eq_ok_iff_wellNamed.2 hbefore)]
    exact checkRows_of_fault (hop.congr (by simp))

/-- Behind a valid partition key, names are what the rows are refused for. -/
theorem check_eq_invalidKey_iff (hpartition : ValidKey partition) :
    check limits partition ops = .error (.invalidKey fault) ↔ FirstFault ops fault := by
  rw [check, checkKey_eq_ok_iff.2 hpartition, ← checkRows_eq_error_iff]
  dsimp only
  cases checkRows [] ops with
  | error e => simp
  | ok _ =>
    dsimp only
    split <;> simp

/-- The limits are looked at only once all names are found to be well formed. -/
theorem check_eq_batchTooLarge_iff (hpartition : ValidKey partition) {operations bytes : Nat} :
    check limits partition ops = .error (.batchTooLarge operations bytes) ↔
      WellNamed ops ∧ (limits.operations < ops.length ∨ limits.bytes < payloadSize ops) ∧
        operations = ops.length ∧ bytes = payloadSize ops := by
  rw [check, checkKey_eq_ok_iff.2 hpartition, ← checkRows_eq_ok_iff_wellNamed]
  dsimp only
  cases checkRows [] ops with
  | error e => simp
  | ok _ =>
    dsimp only
    by_cases hwithin : ops.length ≤ limits.operations ∧ payloadSize ops ≤ limits.bytes
    · rw [if_pos (Limits.admits_eq_true_iff.2 hwithin)]
      constructor
      · intro h
        cases h
      · intro h
        have hexceeds := h.2.1
        omega
    · rw [if_neg (mt Limits.admits_eq_true_iff.1 hwithin)]
      constructor
      · intro h
        cases h
        exact ⟨rfl, by omega, rfl, rfl⟩
      · rintro ⟨-, -, rfl, rfl⟩
        rfl

/--
The well-formed batches are accepted, and no others. A batch is refused for its partition key first,
then for the first operation whose row key breaks a rule or repeats an earlier one, and only if no
operation is at fault for its counts of operations and bytes.
-/
theorem check_finds_first_fault (limits : Limits) (partition : String) (ops : List BatchOp) :
    (check limits partition ops = .ok () ↔
      ValidKey partition ∧ (∀ op ∈ ops, ValidKey op.row) ∧ (ops.map BatchOp.row).Nodup ∧
        ops.length ≤ limits.operations ∧ (ops.map BatchOp.payloadSize).sum ≤ limits.bytes) ∧
    (∀ fault, KeyFault "partition key" partition fault →
      check limits partition ops = .error (.invalidKey fault)) ∧
    (ValidKey partition → ∀ e, check limits partition ops = .error e ↔
      (∃ fault, FirstFault ops fault ∧ e = .invalidKey fault) ∨
      WellNamed ops ∧ (limits.operations < ops.length ∨
        limits.bytes < (ops.map BatchOp.payloadSize).sum) ∧
          e = .batchTooLarge ops.length (ops.map BatchOp.payloadSize).sum) := by
  refine ⟨?_, fun fault hfault => ?_, fun hpartition e => ⟨fun h => ?_, ?_⟩⟩
  · rw [check_eq_ok_iff, Limits.admits_eq_true_iff]
    exact Iff.rfl
  · rw [check, checkKey_eq_error_iff.2 hfault]
  · obtain ⟨fault, rfl⟩ | rfl := eq_of_check_error h
    · exact .inl ⟨fault, (check_eq_invalidKey_iff hpartition).1 h, rfl⟩
    · obtain ⟨hnames, hexceeds, -, -⟩ := (check_eq_batchTooLarge_iff hpartition).1 h
      exact .inr ⟨hnames, hexceeds, rfl⟩
  · rintro (⟨fault, hfirst, rfl⟩ | ⟨hnames, hexceeds, rfl⟩)
    · exact (check_eq_invalidKey_iff hpartition).2 hfirst
    · exact (check_eq_batchTooLarge_iff hpartition).2 ⟨hnames, hexceeds, rfl, rfl⟩

/-- Two rows at fault and both limits exceeded. -/
private def misnamed : List BatchOp :=
  [.insert "a" ∅, .delete "b" ⟨"seen"⟩, .replace "a" ∅ ⟨"seen"⟩, .insert "" ∅]

theorem check_finds_first_fault_repeated :
    ValidKey "p" ∧ FirstFault misnamed (.repeatedRow "a") ∧
      check ⟨3, 9⟩ "p" misnamed = .error (.invalidKey (.repeatedRow "a")) ∧
      KeyFault "partition key" "" (.empty "partition key") ∧
      check ⟨3, 9⟩ "" misnamed = .error (.invalidKey (.empty "partition key")) := by
  have hpartition : ValidKey "p" := by decide
  have hbefore : WellNamed [.insert "a" ∅, .delete "b" ⟨"seen"⟩] := ⟨by decide, by decide⟩
  have hfault : (BatchOp.replace "a" ∅ ⟨"seen"⟩).FaultAfter ["a", "b"] (.repeatedRow "a") :=
    .repeated (by decide) (by decide)
  have hfirst : FirstFault misnamed (.repeatedRow "a") := ⟨_, _, _, rfl, hbefore, hfault⟩
  have hempty : KeyFault "partition key" "" (.empty "partition key") := .empty rfl
  exact ⟨hpartition, hfirst,
    ((check_finds_first_fault _ _ _).2.2 hpartition _).2 (.inl ⟨_, hfirst, rfl⟩), hempty,
    (check_finds_first_fault _ _ _).2.1 _ hempty⟩

end Batch

end UnitOfWork
