import UnitOfWork.Proofs.Session.Pending

/-!
What enlisting an operation is answered, told by the store's check of the batch that it would make:
the limits are kept as operations come in, from sizes on record, and yet an operation is refused for
them exactly if the store would refuse the whole batch.
-/

namespace UnitOfWork

namespace Operation

/-- An update is folded into a pending one that shows the same token. -/
def Folds (pending op : Operation) : Prop :=
  pending.kind = .update ∧ op.kind = .update ∧ pending.token? = op.token?

theorem canMerge_eq_true_iff {pending op : Operation} (hkey : pending.key = op.key) :
    pending.canMerge op = true ↔ pending.Folds op := by
  unfold canMerge Folds kind token?
  cases pending.change <;> cases op.change <;> simp [hkey]

end Operation

namespace Accumulator

/-- The accumulators that calls lead to from a new one, whatever stores its commits go to. -/
inductive Reachable : Accumulator → Prop
  | create (partition : Partition) (limits : Limits) : Reachable (create partition limits)
  | register {a : Accumulator} (h : Reachable a) (op : Operation) : Reachable (a.register op).2
  | commit {σ : Type} [TableStore σ] {a : Accumulator} (h : Reachable a) (store : σ)
      (timeLeft : Option Duration) : Reachable (a.commit store timeLeft).2.1
  | abort {a : Accumulator} (h : Reachable a) : Reachable a.clear

theorem Reachable.sound {a : Accumulator} (h : a.Reachable) : a.Sound := by
  induction h with
  | create partition limits => exact sound_create partition limits
  | register _ op ih => exact sound_register ih op
  | commit _ store timeLeft ih => exact sound_commit ih store timeLeft
  | abort => exact sound_clear _

/-- The pending operations with one more: the update that is pending for its row takes it up where
it stands, and an operation on a new row comes last. -/
def opsWith (a : Accumulator) (op : Operation) : List Operation :=
  if ∃ pending ∈ a.ops, pending.row = op.row then
    a.ops.map fun pending => if pending.row = op.row then pending.mergedWith op else pending
  else a.ops ++ [op]

/-- What the store's check says of operations as one batch, under the accumulator's own limits. -/
def checkBatch (a : Accumulator) (ops : List Operation) : Except StorageError Unit :=
  Batch.check a.limits a.partition.key (ops.map Operation.toBatchOp)

/-- The operation is meant for the accumulator's partition and a valid row, where at most an update
is pending that it can be folded into. -/
structure Admissible (a : Accumulator) (op : Operation) : Prop where
  partition : op.key.partition = a.partition.key
  row : ValidKey op.row
  unopposed : ∀ pending ∈ a.ops, pending.row = op.row → pending.Folds op

/-- All that registering an operation can come to, and what is pending after it. -/
inductive Enlisted (a : Accumulator) (op : Operation) :
    Except SessionError Unit → Accumulator → Prop
  | mismatched (hpartition : op.key.partition ≠ a.partition.key) :
      Enlisted a op (.error (.partitionMismatch a.partition.text
        (a.partition.table ++ "/" ++ op.key.partition))) a
  | misnamed {fault : NamingFault} (hpartition : op.key.partition = a.partition.key)
      (hrow : ¬ ValidKey op.row) : Enlisted a op (.error (.invalidKey fault)) a
  | opposed {pending : Operation} (hpartition : op.key.partition = a.partition.key)
      (hrow : ValidKey op.row) (hpending : pending ∈ a.ops) (hsame : pending.row = op.row)
      (hfolds : ¬ pending.Folds op) :
      Enlisted a op (.error (.conflictingOperation op.row pending.kind op.kind)) a
  | exceeding {operations bytes : Nat} (hop : a.Admissible op)
      (hcheck : a.checkBatch (a.opsWith op) = .error (.batchTooLarge operations bytes)) :
      Enlisted a op (.error (.batchLimitExceeded operations bytes a.limits)) a
  | accepted {a' : Accumulator} (hop : a.Admissible op)
      (hcheck : a.checkBatch (a.opsWith op) = .ok ()) (hops : a'.ops = a.opsWith op) :
      Enlisted a op (.ok ()) a'

section Enlist

variable {a : Accumulator} {op pending : Operation}

theorem opsWith_of_new (hnew : ∀ pending ∈ a.ops, pending.row ≠ op.row) :
    a.opsWith op = a.ops ++ [op] := by
  have hnone : ¬ ∃ pending ∈ a.ops, pending.row = op.row := by simpa using hnew
  unfold opsWith
  rw [if_neg hnone]

namespace Sound

/-- No two pending operations are for one row. -/
theorem eq_of_row (h : a.Sound) {other : Operation} (hpending : pending ∈ a.ops)
    (hother : other ∈ a.ops) (hrow : pending.row = other.row) : pending = other :=
  List.inj_on_of_nodup_map h.nodup_rows hpending hother hrow

theorem opsWith_of_pending (h : a.Sound) {k : Nat} (hop : a.ops[k]? = some pending)
    (hrow : pending.row = op.row) : a.opsWith op = a.ops.set k (pending.mergedWith op) := by
  have hmem : pending ∈ a.ops := List.mem_of_getElem? hop
  have hexists : ∃ pending ∈ a.ops, pending.row = op.row := ⟨pending, hmem, hrow⟩
  have hlt : k < a.ops.length := (List.getElem?_eq_some_iff.1 hop).1
  unfold opsWith
  rw [if_pos hexists]
  apply List.ext_getElem?
  intro j
  rw [List.getElem?_map, List.getElem?_set]
  by_cases hj : k = j
  · rw [if_pos hj, ← hj, if_pos hlt, hop, Option.map_some, if_pos hrow]
  · rw [if_neg hj]
    cases hother : a.ops[j]? with
    | none => rfl
    | some other =>
      have hne : other.row ≠ op.row := by
        intro hsame
        have hk := (h.position op.row k).2 ⟨pending, hop, hrow⟩
        have hj' := (h.position op.row j).2 ⟨other, hother, hsame⟩
        have hposition : some k = some j := hk.symm.trans hj'
        exact hj (Option.some.inj hposition)
      rw [Option.map_some, if_neg hne]

/-- The rows of what would be pending are those that are, and a new one if there was none. -/
theorem rows_opsWith (h : a.Sound) :
    (a.opsWith op).map Operation.row =
      if op.row ∈ a.ops.map Operation.row then a.ops.map Operation.row
      else a.ops.map Operation.row ++ [op.row] := by
  by_cases hmem : op.row ∈ a.ops.map Operation.row
  · obtain ⟨pending, hpending, hrow⟩ := List.mem_map.1 hmem
    obtain ⟨k, hop⟩ := List.mem_iff_getElem?.1 hpending
    have hrows : (a.ops.map Operation.row)[k]? = some pending.row := by simp [hop]
    obtain ⟨hlt, hsame⟩ := List.getElem?_eq_some_iff.1 hrows
    rw [if_pos hmem, h.opsWith_of_pending hop hrow, List.map_set, pending.row_mergedWith,
      ← hsame]
    exact List.set_getElem_self hlt
  · have hnew : ∀ pending ∈ a.ops, pending.row ≠ op.row := by
      intro pending hpending hrow
      exact hmem (List.mem_map.2 ⟨pending, hpending, hrow⟩)
    rw [if_neg hmem, opsWith_of_new hnew, List.map_append, List.map_singleton]

theorem nodup_rows_opsWith (h : a.Sound) : ((a.opsWith op).map Operation.row).Nodup := by
  have hnodup : (a.ops.map Operation.row).Nodup := h.nodup_rows
  rw [h.rows_opsWith]
  by_cases hmem : op.row ∈ a.ops.map Operation.row
  · rw [if_pos hmem]
    exact hnodup
  · rw [if_neg hmem]
    exact List.Nodup.append hnodup (List.nodup_singleton _) (by simpa using hmem)

theorem valid_rows_opsWith (h : a.Sound) (hrow : ValidKey op.row) :
    ∀ row ∈ (a.opsWith op).map Operation.row, ValidKey row := by
  have hvalid : ∀ row ∈ a.ops.map Operation.row, ValidKey row := by
    intro row hmem
    obtain ⟨pending, hpending, rfl⟩ := List.mem_map.1 hmem
    exact (h.keys pending hpending).2
  rw [h.rows_opsWith]
  intro row hmem
  split at hmem
  · exact hvalid row hmem
  · rcases List.mem_append.1 hmem with hold | hlast
    · exact hvalid row hold
    · obtain rfl := List.mem_singleton.1 hlast
      exact hrow

/-- Of what would be pending for valid rows the store's check finds at most the limits exceeded. -/
theorem checkBatch_opsWith (h : a.Sound) (hrow : ValidKey op.row) :
    a.checkBatch (a.opsWith op) =
      if a.limits.admits (a.opsWith op).length ((a.opsWith op).map Operation.payloadSize).sum
      then .ok ()
      else .error (.batchTooLarge (a.opsWith op).length
        ((a.opsWith op).map Operation.payloadSize).sum) := by
  have hrows : ∀ batchOp ∈ (a.opsWith op).map Operation.toBatchOp, ValidKey batchOp.row := by
    intro batchOp hmem
    apply h.valid_rows_opsWith hrow
    rw [← Operation.map_row_toBatchOp]
    exact List.mem_map_of_mem hmem
  have hnodup : (((a.opsWith op).map Operation.toBatchOp).map BatchOp.row).Nodup := by
    rw [Operation.map_row_toBatchOp]
    exact h.nodup_rows_opsWith
  unfold checkBatch
  rw [Batch.check_of_valid a.partition.key_valid hrows hnodup, List.length_map,
    Operation.payloadSize_map_toBatchOp]

/-- The check as an operation comes in and the check of the batch that it makes are one. -/
theorem limits_agree (h : a.Sound) (hrow : ValidKey op.row) {operations bytes : Nat}
    (hlength : (a.opsWith op).length = operations)
    (hbytes : ((a.opsWith op).map Operation.payloadSize).sum = bytes) :
    (a.checkLimits operations bytes = .ok () ∧ a.checkBatch (a.opsWith op) = .ok ()) ∨
      (a.checkLimits operations bytes = .error (.batchLimitExceeded operations bytes a.limits) ∧
        a.checkBatch (a.opsWith op) = .error (.batchTooLarge operations bytes)) := by
  have hcheck := h.checkBatch_opsWith hrow
  rw [hlength, hbytes] at hcheck
  unfold checkLimits
  by_cases hlimits : a.limits.admits operations bytes = true
  · rw [if_pos hlimits] at hcheck ⊢
    exact .inl ⟨rfl, hcheck⟩
  · rw [if_neg hlimits] at hcheck ⊢
    exact .inr ⟨rfl, hcheck⟩

theorem enlisted_append (h : a.Sound) (hpartition : op.key.partition = a.partition.key)
    (hrow : ValidKey op.row) (hnew : a.pending? op.row = none) :
    Enlisted a op (a.append op).1 (a.append op).2 := by
  have hposition : a.positions.get? op.row = none := h.pending?_eq_none hnew
  have hrows : ∀ pending ∈ a.ops, pending.row ≠ op.row := by
    intro pending hpending hsame
    obtain ⟨k, hk⟩ := List.mem_iff_getElem?.1 hpending
    have hsome := (h.position op.row k).2 ⟨pending, hk, hsame⟩
    rw [hposition] at hsome
    cases hsome
  have hadmissible : a.Admissible op :=
    ⟨hpartition, hrow, fun pending hpending hsame => absurd hsame (hrows pending hpending)⟩
  have hops : a.opsWith op = a.ops ++ [op] := opsWith_of_new hrows
  have hlength : (a.opsWith op).length = a.ops.length + 1 := by simp [hops]
  have hbytes : ((a.opsWith op).map Operation.payloadSize).sum =
      a.payloadBytes + op.payloadSize := by
    simp [hops, h.bytes, h.sizes]
  unfold append
  dsimp only
  rcases h.limits_agree hrow hlength hbytes with ⟨hlimits, hcheck⟩ | ⟨hlimits, hcheck⟩
  · rw [hlimits]
    exact .accepted hadmissible hcheck hops.symm
  · rw [hlimits]
    exact .exceeding hadmissible hcheck

theorem enlisted_mergeInto (h : a.Sound) (hpartition : op.key.partition = a.partition.key)
    (hrow : ValidKey op.row) {k size : Nat}
    (hpending : a.pending? op.row = some (k, pending, size)) :
    Enlisted a op (a.mergeInto k pending size op).1 (a.mergeInto k pending size op).2 := by
  obtain ⟨-, hop, hsame, hsize⟩ := h.pending?_eq_some hpending
  have hmem : pending ∈ a.ops := List.mem_of_getElem? hop
  have hkey : pending.key = op.key := by
    have hbound : pending.key.partition = op.key.partition :=
      (h.keys pending hmem).1.trans hpartition.symm
    exact congrArg₂ EntityKey.mk hbound hsame
  unfold mergeInto
  by_cases hmerge : pending.canMerge op = true
  · have hfolds : pending.Folds op := (Operation.canMerge_eq_true_iff hkey).1 hmerge
    have hadmissible : a.Admissible op := by
      constructor
      case partition => exact hpartition
      case row => exact hrow
      case unopposed =>
        intro other hother hrow'
        rwa [h.eq_of_row hother hmem (hrow'.trans hsame.symm)]
    have hops : a.opsWith op = a.ops.set k (pending.mergedWith op) :=
      h.opsWith_of_pending hop hsame
    have hlength : (a.opsWith op).length = a.ops.length := by simp [hops]
    have hbytes : ((a.opsWith op).map Operation.payloadSize).sum =
        a.payloadBytes - size + (pending.mergedWith op).payloadSize := by
      rw [hops, List.map_set, ← h.sizes, hsize]
      exact (h.bytes_set hop _).symm
    rw [if_pos hmerge]
    dsimp only
    rcases h.limits_agree hrow hlength hbytes with ⟨hlimits, hcheck⟩ | ⟨hlimits, hcheck⟩
    · rw [hlimits]
      exact .accepted hadmissible hcheck hops.symm
    · rw [hlimits]
      exact .exceeding hadmissible hcheck
  · have hopposed : ¬ pending.Folds op := by
      intro hfolds
      exact hmerge ((Operation.canMerge_eq_true_iff hkey).2 hfolds)
    rw [if_neg hmerge]
    exact .opposed hpartition hrow hmem hsame hopposed

theorem enlisted (h : a.Sound) (op : Operation) :
    Enlisted a op (a.register op).1 (a.register op).2 := by
  unfold register
  by_cases hpartition : op.key.partition = a.partition.key
  · rw [if_neg (not_not_intro hpartition)]
    cases hkey : checkKey "row key" op.row with
    | error fault =>
      have hinvalid : ¬ ValidKey op.row := by
        intro hvalid
        rw [checkKey_eq_ok_iff.2 hvalid] at hkey
        cases hkey
      exact .misnamed hpartition hinvalid
    | ok answer =>
      have hvalid : ValidKey op.row := checkKey_eq_ok_iff.1 hkey
      dsimp only
      cases hpending : a.pending? op.row with
      | none => exact h.enlisted_append hpartition hvalid hpending
      | some found => exact h.enlisted_mergeInto hpartition hvalid hpending
  · rw [if_pos hpartition]
    exact .mismatched hpartition

end Sound

/-- The answer that an operation is given, in full. Only what is left to the limits is told by the
store's check of the batch that the operation would make, with the counts that it would report. -/
structure AgreesWithStore (a : Accumulator) (op : Operation) (answer : Except SessionError Unit)
    (a' : Accumulator) : Prop where
  mismatched : ∀ bound requested, answer = .error (.partitionMismatch bound requested) ↔
    op.key.partition ≠ a.partition.key ∧ bound = a.partition.text ∧
      requested = a.partition.table ++ "/" ++ op.key.partition
  misnamed : (∃ fault, answer = .error (.invalidKey fault)) ↔
    op.key.partition = a.partition.key ∧ ¬ ValidKey op.row
  opposed : ∀ row held attempted,
    answer = .error (.conflictingOperation row held attempted) ↔
      op.key.partition = a.partition.key ∧ ValidKey op.row ∧
        (∃ pending ∈ a.ops, pending.row = op.row ∧ ¬ pending.Folds op ∧ held = pending.kind) ∧
        row = op.row ∧ attempted = op.kind
  exceeding : ∀ operations bytes limits,
    answer = .error (.batchLimitExceeded operations bytes limits) ↔
      a.Admissible op ∧ limits = a.limits ∧
        a.checkBatch (a.opsWith op) = .error (.batchTooLarge operations bytes)
  accepted : answer = .ok () ↔ a.Admissible op ∧
    ∀ operations bytes, a.checkBatch (a.opsWith op) ≠ .error (.batchTooLarge operations bytes)
  pending : answer = .ok () → a'.ops = a.opsWith op ∧ a'.checkBatch a'.ops = .ok ()

theorem Admissible.not_opposed (hop : a.Admissible op) (held : OperationKind) :
    ¬ ∃ pending ∈ a.ops, pending.row = op.row ∧ ¬ pending.Folds op ∧ held = pending.kind := by
  rintro ⟨pending, hpending, hsame, hopposed, -⟩
  exact hopposed (hop.unopposed pending hpending hsame)

theorem Enlisted.agreesWithStore (h : a.Sound) {answer : Except SessionError Unit}
    {a' : Accumulator} (hlimits : a'.limits = a.limits) (hpartition : a'.partition = a.partition)
    (hanswer : Enlisted a op answer a') : AgreesWithStore a op answer a' := by
  cases hanswer with
  | mismatched hother =>
    have hadmissible : ¬ a.Admissible op := fun hop => hother hop.partition
    constructor
    case mismatched =>
      intro bound requested
      simp [hother, eq_comm]
    all_goals simp [hother, hadmissible]
  | misnamed hbound hrow =>
    have hadmissible : ¬ a.Admissible op := fun hop => hrow hop.row
    constructor
    all_goals simp [hbound, hrow, hadmissible]
  | @opposed pending hbound hrow hpending hsame hfolds =>
    have hadmissible : ¬ a.Admissible op := fun hop => hfolds (hop.unopposed pending hpending hsame)
    constructor
    case opposed =>
      intro row held attempted
      have hkind : (∃ other ∈ a.ops, other.row = op.row ∧ ¬ other.Folds op ∧ held = other.kind) ↔
          held = pending.kind := by
        constructor
        · rintro ⟨other, hother, hrow', -, rfl⟩
          rw [h.eq_of_row hother hpending (hrow'.trans hsame.symm)]
        · intro hheld
          exact ⟨pending, hpending, hsame, hfolds, hheld⟩
      rw [hkind]
      simp only [hbound, hrow, Except.error.injEq, SessionError.conflictingOperation.injEq,
        true_and]
      tauto
    all_goals simp [hbound, hrow, hadmissible]
  | exceeding hop hcheck =>
    constructor
    case opposed =>
      intro row held attempted
      simp [hop.not_opposed held]
    case exceeding =>
      intro operations' bytes' limits
      simp only [hop, hcheck, Except.error.injEq, SessionError.batchLimitExceeded.injEq,
        StorageError.batchTooLarge.injEq, true_and]
      tauto
    all_goals simp [hop, hop.partition, hop.row, hcheck]
  | accepted hop hcheck hops =>
    constructor
    case opposed =>
      intro row held attempted
      simp [hop.not_opposed held]
    case pending =>
      intro _
      refine ⟨hops, ?_⟩
      unfold checkBatch
      rw [hlimits, hpartition, hops]
      exact hcheck
    all_goals simp [hop, hop.partition, hop.row, hcheck]

/-- Enlisting and submitting apply the same rules: an operation is refused for the limits exactly
if the store would refuse the batch with it, and for the same counts, and what is enlisted makes a
batch that the store's check lets pass. -/
theorem register_agrees_with_store (a : Accumulator) (ha : a.Reachable) (op : Operation) :
    a.AgreesWithStore op (a.register op).1 (a.register op).2 := by
  have hsound : a.Sound := ha.sound
  have hanswer : Enlisted a op (a.register op).1 (a.register op).2 := hsound.enlisted op
  exact hanswer.agreesWithStore hsound (a.limits_register op) (a.partition_register op)

end Enlist

private def crateBay : Partition := ⟨"Crates", "bay", by decide, by decide⟩

private def crateUpdate (name : String) : Operation :=
  ⟨⟨"bay", "crate"⟩, .update (SortedMap.empty.insert name (.bool true)) ⟨⟨"held"⟩, by decide⟩⟩

/-- A bay with room for one update of its crate, which one is pending for. -/
private def fullBay : Accumulator :=
  ((create crateBay ⟨1, 20⟩).register (crateUpdate "tag")).2

/-- The update of the crate that is pending takes a second one up, for which there is no room. -/
theorem register_agrees_with_store_full :
    fullBay.Reachable ∧
      fullBay.AgreesWithStore (crateUpdate "sealed") (fullBay.register (crateUpdate "sealed")).1
        (fullBay.register (crateUpdate "sealed")).2 ∧
      (fullBay.register (crateUpdate "sealed")).1 = .error (.batchLimitExceeded 1 28 ⟨1, 20⟩) ∧
      fullBay.checkBatch (fullBay.opsWith (crateUpdate "sealed")) =
        .error (.batchTooLarge 1 28) := by
  have hreachable : fullBay.Reachable := .register (.create crateBay ⟨1, 20⟩) (crateUpdate "tag")
  have hagrees := register_agrees_with_store fullBay hreachable (crateUpdate "sealed")
  have hanswer : (fullBay.register (crateUpdate "sealed")).1 =
      .error (.batchLimitExceeded 1 28 ⟨1, 20⟩) := by
    decide +kernel
  exact ⟨hreachable, hagrees, hanswer, ((hagrees.exceeding 1 28 ⟨1, 20⟩).1 hanswer).2.2⟩

end Accumulator

end UnitOfWork
