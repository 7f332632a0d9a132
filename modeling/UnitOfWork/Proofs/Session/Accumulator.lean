import UnitOfWork.Session.Accumulator

/-! What registering and committing can come to. -/

namespace UnitOfWork.Accumulator

theorem checkLimits_eq_ok {a : Accumulator} {operations bytes : Nat} {answer : Unit}
    (h : a.checkLimits operations bytes = .ok answer) :
    a.limits.admits operations bytes = true := by
  unfold checkLimits at h
  split at h
  · assumption
  · cases h

/-- All that registering an operation can come to. -/
inductive Registered (a : Accumulator) (op : Operation) :
    Except SessionError Unit → Accumulator → Prop
  | refused (e : SessionError) : Registered a op (.error e) a
  | appended (hpartition : op.key.partition = a.partition.key) (hrow : ValidKey op.row)
      (hnew : a.pending? op.row = none)
      (hlimits : a.limits.admits (a.ops.length + 1) (a.payloadBytes + op.payloadSize) = true) :
      Registered a op (.ok ()) { a with
        ops := a.ops ++ [op]
        sizes := a.sizes ++ [op.payloadSize]
        positions := a.positions.insert op.row a.ops.length
        payloadBytes := a.payloadBytes + op.payloadSize }
  | merged {position size : Nat} {pending : Operation}
      (hpending : a.pending? op.row = some (position, pending, size))
      (hlimits : a.limits.admits a.ops.length
        (a.payloadBytes - size + (pending.mergedWith op).payloadSize) = true) :
      Registered a op (.ok ()) { a with
        ops := a.ops.set position (pending.mergedWith op)
        sizes := a.sizes.set position (pending.mergedWith op).payloadSize
        payloadBytes := a.payloadBytes - size + (pending.mergedWith op).payloadSize }

theorem registered (a : Accumulator) (op : Operation) :
    Registered a op (a.register op).1 (a.register op).2 := by
  unfold register
  by_cases hpartition : op.key.partition = a.partition.key
  · rw [if_neg (not_not_intro hpartition)]
    cases hrow : checkKey "row key" op.row with
    | error fault => exact .refused _
    | ok _ =>
      dsimp only
      cases hpending : a.pending? op.row with
      | none =>
        unfold append
        dsimp only
        split
        · exact .refused _
        · rename_i hlimits
          exact .appended hpartition (checkKey_eq_ok_iff.1 hrow) hpending
            (checkLimits_eq_ok hlimits)
      | some found =>
        obtain ⟨position, pending, size⟩ := found
        unfold mergeInto
        dsimp only
        split
        · split
          · exact .refused _
          · rename_i hlimits
            exact .merged hpending (checkLimits_eq_ok hlimits)
        · exact .refused _
  · rw [if_pos hpartition]
    exact .refused _

@[simp] theorem partition_register (a : Accumulator) (op : Operation) :
    (a.register op).2.partition = a.partition := by
  have hcases := a.registered op
  generalize (a.register op).1 = answer, (a.register op).2 = a' at hcases ⊢
  cases hcases <;> rfl

@[simp] theorem limits_register (a : Accumulator) (op : Operation) :
    (a.register op).2.limits = a.limits := by
  have hcases := a.registered op
  generalize (a.register op).1 = answer, (a.register op).2 = a' at hcases ⊢
  cases hcases <;> rfl

section Commit

variable {σ : Type} [TableStore σ]

/-- All that committing can come to. -/
inductive Committed (a : Accumulator) (store : σ) (timeLeft : Option Duration) :
    Except SessionError (List CommittedRow) × Accumulator × σ → Prop
  | idle (hempty : a.isEmpty = true) : Committed a store timeLeft (.ok [], a, store)
  | refused {e : StorageError} {store' : σ} (hpending : a.isEmpty = false)
      (hsubmit : TableStore.submit store a.partition.table a.partition.key
        (a.ops.map Operation.toBatchOp) timeLeft = (.error e, store')) :
      Committed a store timeLeft (.error (.ofStorage e), a, store')
  | miscounted {tokens : List (Option Token)} {store' : σ} (hpending : a.isEmpty = false)
      (hsubmit : TableStore.submit store a.partition.table a.partition.key
        (a.ops.map Operation.toBatchOp) timeLeft = (.ok tokens, store'))
      (hcount : tokens.length ≠ a.ops.length) :
      Committed a store timeLeft
        (.error (.internal (.tokenCount tokens.length a.ops.length)), a, store')
  | applied {tokens : List (Option Token)} {store' : σ} (hpending : a.isEmpty = false)
      (hsubmit : TableStore.submit store a.partition.table a.partition.key
        (a.ops.map Operation.toBatchOp) timeLeft = (.ok tokens, store'))
      (hcount : tokens.length = a.ops.length) :
      Committed a store timeLeft (.ok (committedRows a.ops tokens), a.clear, store')

variable (a : Accumulator) (store : σ) (timeLeft : Option Duration)

theorem committed : Committed a store timeLeft (a.commit store timeLeft) := by
  unfold commit
  by_cases hempty : a.isEmpty = true
  · rw [if_pos hempty]
    exact .idle hempty
  · have hpending : a.isEmpty = false := by simpa using hempty
    rw [if_neg hempty]
    dsimp only
    cases hsubmit : TableStore.submit store a.partition.table a.partition.key
        (a.ops.map Operation.toBatchOp) timeLeft with
    | mk answer store' =>
      cases answer with
      | error e => exact .refused hpending hsubmit
      | ok tokens =>
        dsimp only
        by_cases hcount : tokens.length = a.ops.length
        · rw [if_pos hcount]
          exact .applied hpending hsubmit hcount
        · rw [if_neg hcount]
          exact .miscounted hpending hsubmit hcount

@[simp] theorem partition_commit : (a.commit store timeLeft).2.1.partition = a.partition := by
  have hcases := a.committed store timeLeft
  generalize a.commit store timeLeft = committed at hcases ⊢
  cases hcases <;> rfl

@[simp] theorem limits_commit : (a.commit store timeLeft).2.1.limits = a.limits := by
  have hcases := a.committed store timeLeft
  generalize a.commit store timeLeft = committed at hcases ⊢
  cases hcases <;> rfl

/-- The store is asked once if anything is pending, and not at all otherwise. -/
theorem store_commit :
    (a.commit store timeLeft).2.2 =
      if a.isEmpty then store
      else (TableStore.submit store a.partition.table a.partition.key
        (a.ops.map Operation.toBatchOp) timeLeft).2 := by
  have hcases := a.committed store timeLeft
  generalize a.commit store timeLeft = committed at hcases ⊢
  cases hcases with
  | idle hempty => rw [if_pos hempty]
  | refused hpending hsubmit | miscounted hpending hsubmit | applied hpending hsubmit =>
    rw [hpending, hsubmit]
    rfl

end Commit

end UnitOfWork.Accumulator
