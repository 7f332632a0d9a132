import Mathlib.Data.List.Basic
import UnitOfWork.Batch.Staging
import UnitOfWork.Proofs.Batch.Check
import UnitOfWork.Proofs.SortedMap.Count
import UnitOfWork.SortedMap.Lemmas

/-!
What staging a batch comes to: the condition of each operation, the writes of a batch whose
conditions all hold, the versions it draws, and how the writes change a map of rows.
-/

namespace UnitOfWork

namespace BatchOp

/-- The token that the row has to carry; an insert names none. -/
def ifMatch? : BatchOp → Option Token
  | .insert _ _ => none
  | .merge _ _ t | .replace _ _ t | .delete _ t => some t

/-- Why an operation does not apply to what stands at its row, if it does not. -/
def rejection? (op : BatchOp) (existing : Option Row) : Option Rejection :=
  match op.ifMatch?, existing with
  | none, none => none
  | none, some _ => some .alreadyExists
  | some _, none => some .notFound
  | some t, some r => if r.token = t then none else some .preconditionFailed

/-- The properties that an operation leaves at its row, none if it deletes the row. -/
def leaves (op : BatchOp) (existing : Option Row) : Option Properties :=
  match op with
  | .insert _ p | .replace _ p _ => some p
  | .merge _ p _ => existing.map (·.properties.override p)
  | .delete _ _ => none

/-- Of the row only the properties count. -/
theorem leaves_congr (op : BatchOp) {existing existing' : Option Row}
    (h : existing.map Row.properties = existing'.map Row.properties) :
    op.leaves existing = op.leaves existing' := by
  cases op with
  | merge row p t =>
    have hmerge : ∀ e : Option Row, (merge row p t).leaves e =
        (e.map Row.properties).map (·.override p) := fun e => by
      cases e <;> rfl
    rw [hmerge, hmerge, h]
  | insert | replace | delete => rfl

/-- The row after an operation that applies. -/
def result (op : BatchOp) (existing : Option Row) (version : UInt64) : Option Row :=
  (op.leaves existing).map fun p => ⟨Token.ofVersion version, p⟩

@[simp] theorem properties_result (op : BatchOp) (existing : Option Row) (version : UInt64) :
    (op.result existing version).map Row.properties = op.leaves existing := by
  rw [result, Option.map_map]
  exact Option.map_id'

theorem apply_eq (op : BatchOp) (existing : Option Row) (version : UInt64) :
    op.apply existing version =
      match op.rejection? existing with
      | some reason => .error reason
      | none => .ok (op.result existing version) := by
  cases op <;> cases existing <;> simp only [apply, rejection?, ifMatch?, result, leaves]
  case merge.some | replace.some | delete.some => split <;> rfl
  all_goals rfl

/-- An operation that names a token applies only to a row that carries it. -/
theorem token_eq_of_rejection?_eq_none {op : BatchOp} {existing : Option Row} {t : Token}
    (h : op.rejection? existing = none) (ht : op.ifMatch? = some t) :
    ∃ r, existing = some r ∧ r.token = t := by
  cases existing with
  | none => simp [rejection?, ht] at h
  | some r => exact ⟨r, rfl, by simpa [rejection?, ht] using h⟩

/-- Whether an operation adds a row. -/
def isInsert : BatchOp → Bool
  | .insert .. => true
  | _ => false

/-- Whether an operation takes a row away. -/
def isDelete : BatchOp → Bool
  | .delete .. => true
  | _ => false

/-- An insert that applies has found no row and leaves one, a delete the other way round, and any
other operation finds and leaves one. -/
theorem balance {op : BatchOp} {existing : Option Row} (h : op.rejection? existing = none)
    (version : UInt64) :
    (op.result existing version).elim 0 (fun _ => 1) + (if op.isDelete then 1 else 0) =
      existing.elim 0 (fun _ => 1) + if op.isInsert then 1 else 0 := by
  cases op <;> cases existing <;>
    simp_all [rejection?, ifMatch?, result, leaves, isInsert, isDelete]

theorem result_eq_none_iff {op : BatchOp} {existing : Option Row}
    (h : op.rejection? existing = none) (version : UInt64) :
    op.result existing version = none ↔ op.isDelete = true := by
  cases op <;> cases existing <;> simp_all [rejection?, ifMatch?, result, leaves, isDelete]

end BatchOp

namespace Batch

/-- The first of some versions, and then the others. -/
theorem add_ofNat_succ (version : UInt64) (count : Nat) :
    version + UInt64.ofNat (count + 1) = version + 1 + UInt64.ofNat count := by
  rw [UInt64.ofNat_add, UInt64.add_comm (UInt64.ofNat count), UInt64.add_assoc]
  rfl

/--
Staging succeeds with these writes: each operation applies to the row as it was before the batch,
and the versions are drawn one after the other.
-/
inductive Stages (rows : String → Except StorageError (Option Row)) :
    UInt64 → List BatchOp → Writes → Prop
  | nil (version : UInt64) : Stages rows version [] []
  | cons {version : UInt64} {op : BatchOp} {ops : List BatchOp} {writes : Writes}
      {existing : Option Row} (hrow : rows op.row = .ok existing)
      (happlies : op.rejection? existing = none) (hrest : Stages rows (version + 1) ops writes) :
      Stages rows version (op :: ops) ((op.row, op.result existing (version + 1)) :: writes)

section Stages

variable {rows : String → Except StorageError (Option Row)} {index : Nat} {version : UInt64}
  {ops : List BatchOp} {writes : Writes}

theorem stage_cons (rows : String → Except StorageError (Option Row)) (index : Nat)
    (version : UInt64) (op : BatchOp) (ops : List BatchOp) :
    stage rows index version (op :: ops) =
      match rows op.row with
      | .error e => (.error e, version + 1)
      | .ok existing =>
        match op.rejection? existing with
        | some reason => (.error (.batchRejected index op.row reason), version + 1)
        | none =>
          let rest := stage rows (index + 1) (version + 1) ops
          (rest.1.map ((op.row, op.result existing (version + 1)) :: ·), rest.2) := by
  rw [stage]
  cases rows op.row with
  | error e => rfl
  | ok existing =>
    simp only [applyAt, BatchOp.apply_eq]
    cases op.rejection? existing <;> rfl

theorem stage_fst_eq_ok_iff :
    (stage rows index version ops).1 = .ok writes ↔ Stages rows version ops writes := by
  induction ops generalizing index version writes with
  | nil =>
    constructor
    · intro h
      cases h
      exact .nil version
    · intro h
      cases h
      rfl
  | cons op ops ih =>
    rw [stage_cons]
    cases hrow : rows op.row with
    | error e =>
      refine ⟨nofun, fun h => ?_⟩
      cases h with
      | cons hrow' => simp [hrow] at hrow'
    | ok existing =>
      dsimp only
      cases hrej : op.rejection? existing with
      | some reason =>
        refine ⟨nofun, fun h => ?_⟩
        cases h with
        | cons hrow' happlies => simp_all
      | none =>
        constructor
        · intro h
          cases hrest : (stage rows (index + 1) (version + 1) ops).1 with
          | error e => simp [hrest, Except.map] at h
          | ok rest =>
            rw [hrest] at h
            cases h
            exact .cons hrow hrej (ih.1 hrest)
        · intro h
          cases h with
          | cons hrow' _ hrest =>
            rw [hrow, Except.ok.injEq] at hrow'
            rw [ih.2 hrest, hrow']
            rfl

/-- Why an operation stops the staging of a batch at an index. -/
def stop? (rows : String → Except StorageError (Option Row)) (index : Nat) (op : BatchOp) :
    Option StorageError :=
  match rows op.row with
  | .error e => some e
  | .ok existing => (op.rejection? existing).map (.batchRejected index op.row ·)

theorem stop?_eq_none_iff {op : BatchOp} :
    stop? rows index op = none ↔
      ∃ existing, rows op.row = .ok existing ∧ op.rejection? existing = none := by
  unfold stop?
  cases rows op.row with
  | error e => simp
  | ok existing => simp

theorem stage_fst_cons (rows : String → Except StorageError (Option Row)) (index : Nat)
    (version : UInt64) (op : BatchOp) (ops : List BatchOp) :
    ∃ written, (stage rows index version (op :: ops)).1 =
      match stop? rows index op with
      | some e => .error e
      | none => (stage rows (index + 1) (version + 1) ops).1.map ((op.row, written) :: ·) := by
  rw [stage_cons]
  unfold stop?
  cases rows op.row with
  | error e => exact ⟨none, rfl⟩
  | ok existing =>
    refine ⟨op.result existing (version + 1), ?_⟩
    dsimp only
    cases op.rejection? existing <;> rfl

/-- Staging fails with the reason of the first operation that stops it. -/
theorem stage_fst_eq_error_iff {e : StorageError} :
    (stage rows index version ops).1 = .error e ↔
      ∃ before op after, ops = before ++ op :: after ∧
        (∀ b ∈ before, ∃ existing, rows b.row = .ok existing ∧ b.rejection? existing = none) ∧
        stop? rows (index + before.length) op = some e := by
  induction ops generalizing index version with
  | nil => simp [stage]
  | cons first ops ih =>
    obtain ⟨written, hstage⟩ := stage_fst_cons rows index version first ops
    rw [hstage]
    cases hfirst : stop? rows index first with
    | some f =>
      dsimp only
      constructor
      · intro h
        cases h
        exact ⟨[], first, ops, rfl, nofun, hfirst⟩
      · intro ⟨before, op, after, hops, hbefore, hstop⟩
        cases before with
        | nil =>
          obtain ⟨rfl, rfl⟩ := List.cons.inj hops
          rw [List.length_nil, Nat.add_zero, hfirst] at hstop
          rw [Option.some.inj hstop]
        | cons b before =>
          obtain ⟨rfl, rfl⟩ := List.cons.inj hops
          have hnone : stop? rows index first = none :=
            stop?_eq_none_iff.2 (hbefore first List.mem_cons_self)
          rw [hfirst] at hnone
          cases hnone
    | none =>
      have hmap : ((stage rows (index + 1) (version + 1) ops).1.map
          ((first.row, written) :: ·) = .error e) ↔
            (stage rows (index + 1) (version + 1) ops).1 = .error e := by
        cases (stage rows (index + 1) (version + 1) ops).1 <;> simp [Except.map]
      dsimp only
      rw [hmap, ih]
      constructor
      · intro ⟨before, op, after, hops, hbefore, hstop⟩
        have happlies := stop?_eq_none_iff.1 hfirst
        refine ⟨first :: before, op, after, by rw [hops, List.cons_append],
          List.forall_mem_cons.2 ⟨happlies, hbefore⟩, ?_⟩
        rwa [List.length_cons, Nat.add_comm before.length, ← Nat.add_assoc]
      · intro ⟨before, op, after, hops, hbefore, hstop⟩
        cases before with
        | nil =>
          obtain ⟨rfl, rfl⟩ := List.cons.inj hops
          rw [List.length_nil, Nat.add_zero, hfirst] at hstop
          cases hstop
        | cons b before =>
          obtain ⟨rfl, rfl⟩ := List.cons.inj hops
          refine ⟨before, op, after, rfl, fun b hb => hbefore b (List.mem_cons_of_mem _ hb), ?_⟩
          rwa [List.length_cons, Nat.add_comm before.length, ← Nat.add_assoc] at hstop

/-- The count of versions that staging draws: one for each operation up to the first that fails. -/
def draws (rows : String → Except StorageError (Option Row)) : List BatchOp → Nat
  | [] => 0
  | op :: ops =>
    match rows op.row with
    | .error _ => 1
    | .ok existing => if op.rejection? existing = none then draws rows ops + 1 else 1

theorem stage_snd (rows : String → Except StorageError (Option Row)) (index : Nat)
    (version : UInt64) (ops : List BatchOp) :
    (stage rows index version ops).2 = version + UInt64.ofNat (draws rows ops) := by
  induction ops generalizing index version with
  | nil => simp [stage, draws]
  | cons op ops ih =>
    rw [stage_cons, draws]
    cases rows op.row with
    | error e => rfl
    | ok existing =>
      dsimp only
      cases op.rejection? existing with
      | some reason => rfl
      | none => simp only [ih, if_pos, add_ofNat_succ]

theorem Stages.draws_eq (h : Stages rows version ops writes) : draws rows ops = ops.length := by
  induction h with
  | nil => rfl
  | cons hrow happlies _ ih => simp [draws, hrow, happlies, ih]

theorem Stages.stage_eq (h : Stages rows version ops writes) (index : Nat) :
    stage rows index version ops = (.ok writes, version + UInt64.ofNat ops.length) := by
  have hfst : (stage rows index version ops).1 = .ok writes := stage_fst_eq_ok_iff.2 h
  have hsnd := stage_snd rows index version ops
  rw [h.draws_eq] at hsnd
  exact Prod.ext hfst hsnd

theorem stages_cons_iff {op : BatchOp} :
    Stages rows version (op :: ops) writes ↔ ∃ existing later, rows op.row = .ok existing ∧
      op.rejection? existing = none ∧ Stages rows (version + 1) ops later ∧
        writes = (op.row, op.result existing (version + 1)) :: later := by
  constructor
  · intro h
    cases h with
    | cons hrow happlies hrest => exact ⟨_, _, hrow, happlies, hrest, rfl⟩
  · intro ⟨existing, later, hrow, happlies, hrest, hwrites⟩
    rw [hwrites]
    exact .cons hrow happlies hrest

/-- Only the rows of the batch's own operations are looked at. -/
theorem Stages.congr {rows' : String → Except StorageError (Option Row)}
    (h : Stages rows version ops writes) (hrows : ∀ op ∈ ops, rows' op.row = rows op.row) :
    Stages rows' version ops writes := by
  induction h with
  | nil version => exact .nil version
  | cons hrow happlies _ ih =>
    obtain ⟨hfirst, hothers⟩ := List.forall_mem_cons.1 hrows
    exact .cons (hfirst.trans hrow) happlies (ih hothers)

theorem Stages.map_fst (h : Stages rows version ops writes) :
    writes.map (·.1) = ops.map BatchOp.row := by
  induction h with
  | nil => rfl
  | cons _ _ _ ih => simp [ih]

/-- An accepted batch writes under valid keys, and under each of them once. -/
theorem Stages.valid_of_accept (h : Stages rows version ops writes) {limits : Limits}
    {table partition : String} (haccept : accept limits table partition ops = .ok ()) :
    (∀ w ∈ writes, ValidKey w.1) ∧ (writes.map (·.1)).Nodup := by
  obtain ⟨_, hkeys, hnodup, _⟩ := check_eq_ok_iff.1 (accept_eq_ok_iff.1 haccept).2
  rw [h.map_fst]
  refine ⟨fun w hw => ?_, hnodup⟩
  have hmem : w.1 ∈ ops.map BatchOp.row := h.map_fst ▸ List.mem_map_of_mem hw
  obtain ⟨op, hop, he⟩ := List.mem_map.1 hmem
  exact he ▸ hkeys op hop

/-- Every row that a batch writes bears a token that was stamped for it. -/
theorem Stages.stamped (h : Stages rows version ops writes) {row : String} {r : Row}
    (hlookup : writes.lookup row = some (some r)) : ∃ v, r.token = Token.ofVersion v := by
  induction h with
  | nil => cases hlookup
  | @cons version op ops writes existing _ _ _ ih =>
    rw [List.lookup_cons] at hlookup
    split at hlookup
    · obtain ⟨p, _, rfl⟩ := Option.map_eq_some_iff.1 (Option.some.inj hlookup)
      exact ⟨version + 1, rfl⟩
    · exact ih hlookup

/-- An operation of a staged batch applies to what stands at its row. -/
theorem Stages.applies (h : Stages rows version ops writes) {op : BatchOp} (hop : op ∈ ops) :
    ∃ existing, rows op.row = .ok existing ∧ op.rejection? existing = none := by
  induction h with
  | nil => cases hop
  | cons hrow happlies _ ih =>
    rcases List.mem_cons.1 hop with rfl | hop
    · exact ⟨_, hrow, happlies⟩
    · exact ih hop

/-- What is written for the operation at a position bears the version that belongs to the
position. -/
theorem Stages.getElem?_eq (h : Stages rows version ops writes) {k : Nat} {op : BatchOp}
    (hk : ops[k]? = some op) :
    ∃ existing, rows op.row = .ok existing ∧ op.rejection? existing = none ∧
      writes[k]? = some (op.row, op.result existing (version + UInt64.ofNat (k + 1))) := by
  induction h generalizing k with
  | nil => simp at hk
  | @cons version first ops writes existing hrow happlies _ ih =>
    cases k with
    | zero =>
      obtain rfl : first = op := by simpa using hk
      exact ⟨_, hrow, happlies, by simp⟩
    | succ k =>
      rw [List.getElem?_cons_succ] at hk
      obtain ⟨existing, hrow', happlies', hwrite⟩ := ih hk
      refine ⟨existing, hrow', happlies', ?_⟩
      rw [List.getElem?_cons_succ, hwrite, add_ofNat_succ version (k + 1)]

theorem lookup_of_mem {writes : Writes} (hnodup : (writes.map (·.1)).Nodup) {row : String}
    {written : Option Row} (hmem : (row, written) ∈ writes) :
    writes.lookup row = some written := by
  induction writes with
  | nil => cases hmem
  | cons w writes ih =>
    obtain ⟨hhead, htail⟩ := List.nodup_cons.1 hnodup
    rcases List.mem_cons.1 hmem with rfl | hmem
    · exact List.lookup_cons_self
    · have hne : row ≠ w.1 := by
        rintro rfl
        exact hhead (List.mem_map.2 ⟨_, hmem, rfl⟩)
      rw [List.lookup_cons, beq_false_of_ne hne]
      exact ih htail hmem

/--
Of a staged batch whose rows differ, the operation at a position applies, and what is written at
its row bears the version that belongs to the position.
-/
theorem Stages.lookup_eq (h : Stages rows version ops writes) (hnodup : (ops.map BatchOp.row).Nodup)
    {k : Nat} {op : BatchOp} (hk : ops[k]? = some op) :
    ∃ existing, rows op.row = .ok existing ∧ op.rejection? existing = none ∧
      writes.lookup op.row = some (op.result existing (version + UInt64.ofNat (k + 1))) := by
  obtain ⟨existing, hrow, happlies, hwrite⟩ := h.getElem?_eq hk
  rw [← h.map_fst] at hnodup
  exact ⟨existing, hrow, happlies, lookup_of_mem hnodup (List.mem_of_getElem? hwrite)⟩

theorem Stages.lookup_eq_none (h : Stages rows version ops writes) {row : String}
    (hrow : row ∉ ops.map BatchOp.row) : writes.lookup row = none := by
  rw [← h.map_fst] at hrow
  rw [List.lookup_eq_none_iff]
  intro w hw
  simpa using fun he : row = w.1 => hrow (he ▸ List.mem_map_of_mem hw)

end Stages

section Install

variable {κ υ : Type} [Ord κ] [Std.TransOrd κ]

/-- Carries out writes in a map of rows, each row in a stored form under a key of its own. -/
def install (key : String → κ) (form : Row → υ) (rows : SortedMap κ υ) (writes : Writes) :
    SortedMap κ υ :=
  writes.foldl (fun rows w =>
    match w.2 with
    | some r => rows.insert (key w.1) (form r)
    | none => rows.erase (key w.1)) rows

variable [Std.LawfulEqOrd κ] [DecidableEq κ] {key : String → κ} {form : Row → υ}

theorem get?_install_of_ne {k : κ} (rows : SortedMap κ υ) {writes : Writes}
    (h : ∀ w ∈ writes, k ≠ key w.1) : (install key form rows writes).get? k = rows.get? k := by
  induction writes generalizing rows with
  | nil => rfl
  | cons w writes ih =>
    obtain ⟨row, written⟩ := w
    have hne : k ≠ key row := h _ List.mem_cons_self
    have hrest := fun w hw => h w (List.mem_cons_of_mem _ hw)
    cases written with
    | some r =>
      refine (ih (rows.insert (key row) (form r)) hrest).trans ?_
      rw [SortedMap.get?_insert, if_neg hne]
    | none =>
      refine (ih (rows.erase (key row)) hrest).trans ?_
      rw [SortedMap.get?_erase, if_neg hne]

theorem get?_install (hkey : Function.Injective key) (rows : SortedMap κ υ) {writes : Writes}
    (hnodup : (writes.map (·.1)).Nodup) (row : String) :
    (install key form rows writes).get? (key row) =
      match writes.lookup row with
      | some written => written.map form
      | none => rows.get? (key row) := by
  induction writes generalizing rows with
  | nil => rfl
  | cons w writes ih =>
    obtain ⟨first, written⟩ := w
    obtain ⟨hhead, htail⟩ := List.nodup_cons.1 hnodup
    by_cases he : row = first
    · subst he
      have hne : ∀ w ∈ writes, key row ≠ key w.1 := fun w hw hk =>
        hhead (List.mem_map.2 ⟨w, hw, (hkey hk).symm⟩)
      rw [List.lookup_cons_self]
      cases written with
      | some r =>
        refine (get?_install_of_ne (rows.insert (key row) (form r)) hne).trans ?_
        exact SortedMap.get?_insert_self ..
      | none =>
        refine (get?_install_of_ne (rows.erase (key row)) hne).trans ?_
        rw [SortedMap.get?_erase, if_pos rfl]
        rfl
    · have hne : key row ≠ key first := fun hk => he (hkey hk)
      rw [List.lookup_cons, beq_false_of_ne he]
      cases written with
      | some r =>
        refine (ih (rows.insert (key first) (form r)) htail).trans ?_
        rw [SortedMap.get?_insert, if_neg hne]
      | none =>
        refine (ih (rows.erase (key first)) htail).trans ?_
        rw [SortedMap.get?_erase, if_neg hne]

/-- Carrying out a staged batch adds a row for each insert and takes one away for each delete. -/
theorem Stages.size_install {look : String → Except StorageError (Option Row)} {version : UInt64}
    {ops : List BatchOp} {writes : Writes} (h : Stages look version ops writes)
    (hkey : Function.Injective key) (hnodup : (ops.map BatchOp.row).Nodup) (rows : SortedMap κ υ)
    (hrows : ∀ op ∈ ops, ∀ existing, look op.row = .ok existing →
      (rows.get? (key op.row)).elim 0 (fun _ => 1) = existing.elim 0 fun _ => 1) :
    (install key form rows writes).size + ops.countP BatchOp.isDelete =
      rows.size + ops.countP BatchOp.isInsert := by
  induction h generalizing rows with
  | nil => rfl
  | @cons version op ops writes existing hrow happlies hrest ih =>
    obtain ⟨hhead, htail⟩ := List.nodup_cons.1 hnodup
    obtain ⟨hfirst, hothers⟩ := List.forall_mem_cons.1 hrows
    have hne : ∀ later ∈ ops, key later.row ≠ key op.row := by
      intro later hlater he
      exact hhead (hkey he ▸ List.mem_map_of_mem hlater)
    have hweight := hfirst existing hrow
    have hbalance := BatchOp.balance happlies (version + 1)
    rw [List.countP_cons, List.countP_cons]
    cases hresult : op.result existing (version + 1) with
    | some r =>
      have hsize := rows.size_insert (key op.row) (form r)
      have hrest := ih htail (rows.insert (key op.row) (form r)) fun later hlater existing hlook => by
        rw [SortedMap.get?_insert, if_neg (hne later hlater)]
        exact hothers later hlater existing hlook
      rw [hresult, Option.elim_some] at hbalance
      change (install key form (rows.insert (key op.row) (form r)) writes).size + _ = _
      omega
    | none =>
      have hsize := rows.size_erase (key op.row)
      have hrest := ih htail (rows.erase (key op.row)) fun later hlater existing hlook => by
        rw [SortedMap.get?_erase, if_neg (hne later hlater)]
        exact hothers later hlater existing hlook
      rw [hresult, Option.elim_none] at hbalance
      change (install key form (rows.erase (key op.row)) writes).size + _ = _
      omega

end Install

end Batch

end UnitOfWork
