import UnitOfWork.Proofs.Session.Accumulator
import UnitOfWork.Session.Manager
import UnitOfWork.SortedMap.Lemmas

/-! What the operations on shared batches and on the registry do to the state that sessions share. -/

namespace UnitOfWork

@[simp] theorem SessionConfig.tellsDeadline_of_none {c : SessionConfig}
    (h : c.commitTimeout = none) (now : Instant) : c.tellsDeadline now = true := by
  rw [tellsDeadline, h, Option.all_none]

namespace SharedBatch

variable (b : SharedBatch)

@[simp] theorem completed_join : b.join.completed = b.completed := rfl

@[simp] theorem completed_leave : b.leave.completed = b.completed := rfl

@[simp] theorem completed_discard : b.discard.completed = true := by
  unfold discard
  by_cases h : b.completed = true
  · rw [if_pos h, h]
  · rw [if_neg h]

@[simp] theorem participants_discard : b.discard.participants = b.participants := by
  unfold discard
  split <;> rfl

@[simp] theorem partition_discard : b.discard.partition = b.partition := by
  unfold discard
  split <;> rfl

@[simp] theorem completed_register (op : Operation) :
    (b.register op).2.completed = b.completed := by
  unfold register
  cases b.lock <;> rfl

@[simp] theorem participants_register (op : Operation) :
    (b.register op).2.participants = b.participants := by
  unfold register
  cases b.lock <;> rfl

@[simp] theorem partition_register (op : Operation) :
    (b.register op).2.partition = b.partition := by
  unfold register lock
  split
  · rfl
  · rename_i pending h
    split at h
    · cases h
    · cases h
      exact b.pending.partition_register op

theorem discard_leave : b.leave.discard = b.discard.leave := by
  unfold discard
  rw [completed_leave]
  split <;> rfl

section Commit

variable {σ : Type} [TableStore σ] (store : σ) (timeLeft : Option Duration)

@[simp] theorem completed_commit : (b.commit store timeLeft).2.1.completed = b.completed := by
  unfold commit
  cases b.lock <;> rfl

@[simp] theorem participants_commit :
    (b.commit store timeLeft).2.1.participants = b.participants := by
  unfold commit
  cases b.lock <;> rfl

theorem commit_of_poisoned (h : b.poisoned = true) :
    b.commit store timeLeft = (.error (.internal .poisonedLock), b, store) := by
  rw [commit, lock, if_pos h]

theorem commit_of_lock (h : b.poisoned = false) :
    b.commit store timeLeft = ((b.pending.commit store timeLeft).1,
      { b with pending := (b.pending.commit store timeLeft).2.1 },
      (b.pending.commit store timeLeft).2.2) := by
  rw [commit, lock, h]
  rfl

@[simp] theorem partition_commit : (b.commit store timeLeft).2.1.partition = b.partition := by
  cases h : b.poisoned with
  | true => rw [b.commit_of_poisoned store timeLeft h]
  | false =>
    rw [b.commit_of_lock store timeLeft h]
    exact b.pending.partition_commit store timeLeft

/-- The store is left as it was or is asked to apply what is pending. -/
theorem store_commit :
    (b.commit store timeLeft).2.2 = store ∨
      (b.commit store timeLeft).2.2 = (TableStore.submit store b.partition.table b.partition.key
        (b.pending.ops.map Operation.toBatchOp) timeLeft).2 := by
  cases h : b.poisoned with
  | true =>
    rw [b.commit_of_poisoned store timeLeft h]
    exact .inl rfl
  | false =>
    rw [b.commit_of_lock store timeLeft h, b.pending.store_commit]
    split
    · exact .inl rfl
    · exact .inr rfl

end Commit

@[simp] theorem completed_abandon : b.abandon.2.completed = b.completed := by
  unfold abandon
  cases b.lock <;> rfl

@[simp] theorem participants_abandon : b.abandon.2.participants = b.participants := by
  unfold abandon
  cases b.lock <;> rfl

@[simp] theorem partition_abandon : b.abandon.2.partition = b.partition := by
  unfold abandon lock
  split
  · rfl
  · rename_i pending h
    split at h
    · cases h
    · cases h
      rfl

end SharedBatch

namespace Manager

variable {σ : Type} {m : Manager σ} {id : BatchId} {b : SharedBatch}

theorem batch?_setBatch (h : m.batch? id = some b) (b' : SharedBatch) (i : BatchId) :
    (m.setBatch id b').batch? i = if i = id then some b' else m.batch? i := by
  obtain ⟨hlt, _⟩ := List.getElem?_eq_some_iff.1 h
  rw [setBatch, batch?, List.getElem?_set]
  by_cases hi : i = id
  · rw [if_pos hi.symm, if_pos hlt, if_pos hi]
  · rw [if_neg (Ne.symm hi), if_neg hi]
    rfl

theorem modifyBatch_eq (h : m.batch? id = some b) (f : SharedBatch → SharedBatch) :
    m.modifyBatch id f = m.setBatch id (f b) := by
  let _ : Inhabited SharedBatch := ⟨b⟩
  have hget : m.batches[id]? = some b := h
  rw [modifyBatch, setBatch, List.modify_eq_set, hget]
  rfl

theorem setBatch_setBatch (m : Manager σ) (id : BatchId) (b b' : SharedBatch) :
    (m.setBatch id b).setBatch id b' = m.setBatch id b' := by
  rw [setBatch, setBatch, setBatch, List.set_set]

@[simp] theorem batch?_releaseBatch (m : Manager σ) (work : WorkId) (id i : BatchId) :
    (m.releaseBatch work id).batch? i = m.batch? i := by
  unfold releaseBatch
  split <;> rfl

theorem registry_releaseBatch (m : Manager σ) (work other : WorkId) (id : BatchId) :
    (m.releaseBatch work id).registry.get? other =
      if other = work ∧ m.registry.get? work = some id then none else m.registry.get? other := by
  unfold releaseBatch
  by_cases h : m.registry.get? work = some id
  · rw [if_pos h, release, SortedMap.get?_erase]
    by_cases hother : other = work
    · rw [if_pos hother, if_pos ⟨hother, h⟩]
    · rw [if_neg hother, if_neg fun hand => hother hand.1]
  · rw [if_neg h, if_neg fun hand => h hand.2]

@[simp] theorem length_setBatch (m : Manager σ) (id : BatchId) (b : SharedBatch) :
    (m.setBatch id b).batches.length = m.batches.length := List.length_set

@[simp] theorem length_modifyBatch (m : Manager σ) (id : BatchId)
    (f : SharedBatch → SharedBatch) :
    (m.modifyBatch id f).batches.length = m.batches.length := List.length_modify ..

@[simp] theorem batches_releaseBatch (m : Manager σ) (work : WorkId) (id : BatchId) :
    (m.releaseBatch work id).batches = m.batches := by
  unfold releaseBatch
  split <;> rfl

theorem lt_length_of_batch? (h : m.batch? id = some b) : id < m.batches.length :=
  (List.getElem?_eq_some_iff.1 h).1

/-- The state after a unit of work has ended: its batch is completed, left and off the registry. -/
def close (m : Manager σ) (work : WorkId) (id : BatchId) (b : SharedBatch) : Manager σ :=
  (m.setBatch id b.discard.leave).releaseBatch work id

theorem batch?_close {b₀ : SharedBatch} (h : m.batch? id = some b₀) (work : WorkId)
    (b : SharedBatch) (i : BatchId) :
    (m.close work id b).batch? i = if i = id then some b.discard.leave else m.batch? i := by
  rw [close, batch?_releaseBatch, batch?_setBatch h]

@[simp] theorem store_close (m : Manager σ) (work : WorkId) (id : BatchId) (b : SharedBatch) :
    (m.close work id b).store = m.store := by
  unfold close releaseBatch
  split <;> rfl

@[simp] theorem config_close (m : Manager σ) (work : WorkId) (id : BatchId) (b : SharedBatch) :
    (m.close work id b).config = m.config := by
  unfold close releaseBatch
  split <;> rfl

@[simp] theorem length_close (m : Manager σ) (work : WorkId) (id : BatchId) (b : SharedBatch) :
    (m.close work id b).batches.length = m.batches.length := by
  rw [close, batches_releaseBatch, length_setBatch]

theorem registry_close (m : Manager σ) (work other : WorkId) (id : BatchId) (b : SharedBatch) :
    (m.close work id b).registry.get? other =
      if other = work ∧ m.registry.get? work = some id then none
      else m.registry.get? other := registry_releaseBatch ..

/-- The state after a new batch has been registered. -/
def enter (m : Manager σ) (work : WorkId) (partition : Partition) : Manager σ :=
  { m with
    batches := m.batches ++ [SharedBatch.create partition m.limits]
    registry := m.registry.insert work m.batches.length }

theorem batch?_enter (m : Manager σ) (work : WorkId) (partition : Partition) (i : BatchId) :
    (m.enter work partition).batch? i =
      if i = m.batches.length then some (SharedBatch.create partition m.limits)
      else m.batch? i := by
  show (m.batches ++ [SharedBatch.create partition m.limits])[i]? = _
  by_cases hi : i = m.batches.length
  · rw [if_pos hi, hi, List.getElem?_concat_length]
  · rw [if_neg hi, batch?]
    by_cases hlt : i < m.batches.length
    · exact List.getElem?_append_left hlt
    · have hle := Nat.le_of_not_lt hlt
      have hlarge : m.batches.length + 1 ≤ i := Nat.lt_of_le_of_ne hle (Ne.symm hi)
      rw [List.getElem?_eq_none (by simpa using hlarge), List.getElem?_eq_none hle]

@[simp] theorem length_enter (m : Manager σ) (work : WorkId) (partition : Partition) :
    (m.enter work partition).batches.length = m.batches.length + 1 := List.length_append

theorem registry_enter (m : Manager σ) (work other : WorkId) (partition : Partition) :
    (m.enter work partition).registry.get? other =
      if other = work then some m.batches.length else m.registry.get? other :=
  SortedMap.get?_insert ..

/-- All that asking for the batch of a unit of work can come to. -/
inductive Acquired (m : Manager σ) (work : WorkId) (partition : Partition) :
    Except SessionError BatchId → Manager σ → Prop
  | found {id : BatchId} {b : SharedBatch} (h : m.registered? work = some (id, b))
      (hpartition : b.partition = partition) : Acquired m work partition (.ok id) m
  | mismatched {id : BatchId} {b : SharedBatch} (h : m.registered? work = some (id, b))
      (hpartition : b.partition ≠ partition) :
      Acquired m work partition (.error (.partitionMismatch b.partition.text partition.text)) m
  | entered (h : m.registered? work = none) :
      Acquired m work partition (.ok m.batches.length) (m.enter work partition)

theorem acquired (m : Manager σ) (work : WorkId) (partition : Partition) :
    Acquired m work partition (m.acquire work partition).1 (m.acquire work partition).2 := by
  unfold acquire
  cases h : m.registered? work with
  | none => exact .entered h
  | some found =>
    obtain ⟨id, b⟩ := found
    by_cases hpartition : b.partition = partition
    · simp only [if_pos hpartition]
      exact .found h hpartition
    · simp only [if_neg hpartition]
      exact .mismatched h hpartition

theorem eq_of_acquire_error {work : WorkId} {partition : Partition} {e : SessionError}
    {m' : Manager σ} (h : m.acquire work partition = (.error e, m')) : m' = m := by
  have hcases := m.acquired work partition
  rw [h] at hcases
  cases hcases
  rfl

theorem store_of_acquire {work : WorkId} {partition : Partition} {m' : Manager σ}
    {answer : Except SessionError BatchId} (h : m.acquire work partition = (answer, m')) :
    m'.store = m.store := by
  have hcases := m.acquired work partition
  rw [h] at hcases
  cases hcases <;> rfl

theorem config_of_acquire {work : WorkId} {partition : Partition} {m' : Manager σ}
    {answer : Except SessionError BatchId} (h : m.acquire work partition = (answer, m')) :
    m'.config = m.config := by
  have hcases := m.acquired work partition
  rw [h] at hcases
  cases hcases <;> rfl

theorem registry_of_acquire {work other : WorkId} {partition : Partition} {m' : Manager σ}
    {answer : Except SessionError BatchId} (h : m.acquire work partition = (answer, m'))
    (hother : other ≠ work) : m'.registry.get? other = m.registry.get? other := by
  have hcases := m.acquired work partition
  rw [h] at hcases
  cases hcases with
  | found => rfl
  | mismatched => rfl
  | entered => exact (m.registry_enter work other partition).trans (if_neg hother)

/-- A batch that has been completed. -/
def IsCompleted (m : Manager σ) (id : BatchId) : Prop :=
  ∃ b, m.batch? id = some b ∧ b.completed = true

namespace IsCompleted

variable {i : BatchId}

theorem setBatch (h : m.IsCompleted i) (hb : m.batch? id = some b) {b' : SharedBatch}
    (hkeeps : b.completed = true → b'.completed = true) : (m.setBatch id b').IsCompleted i := by
  obtain ⟨c, hc, hcompleted⟩ := h
  rw [IsCompleted, batch?_setBatch hb]
  by_cases hi : i = id
  · subst hi
    rw [hb, Option.some.injEq] at hc
    rw [if_pos rfl]
    exact ⟨b', rfl, hkeeps (hc ▸ hcompleted)⟩
  · rw [if_neg hi]
    exact ⟨c, hc, hcompleted⟩

theorem close (h : m.IsCompleted i) (hb : m.batch? id = some b) (work : WorkId)
    (b' : SharedBatch) : (m.close work id b').IsCompleted i := by
  have hset : (m.setBatch id b'.discard.leave).IsCompleted i := h.setBatch hb fun _ => by simp
  simpa only [IsCompleted, Manager.close, batch?_releaseBatch] using hset

theorem enter (h : m.IsCompleted i) (work : WorkId) (partition : Partition) :
    (m.enter work partition).IsCompleted i := by
  obtain ⟨c, hc, hcompleted⟩ := h
  have hlt : i < m.batches.length := (List.getElem?_eq_some_iff.1 hc).1
  refine ⟨c, ?_, hcompleted⟩
  rw [batch?_enter, if_neg (Nat.ne_of_lt hlt), hc]

theorem acquire (h : m.IsCompleted i) {work : WorkId} {partition : Partition}
    {answer : Except SessionError BatchId} {m' : Manager σ}
    (hacquire : m.acquire work partition = (answer, m')) : m'.IsCompleted i := by
  have hcases := m.acquired work partition
  rw [hacquire] at hcases
  cases hcases with
  | found => exact h
  | mismatched => exact h
  | entered => exact h.enter work partition

end IsCompleted

theorem isCompleted_close (hb : m.batch? id = some b) (work : WorkId) (b' : SharedBatch) :
    (m.close work id b').IsCompleted id := by
  rw [IsCompleted, batch?_close hb, if_pos rfl]
  exact ⟨_, rfl, by simp⟩

theorem registered?_eq_some_iff {work : WorkId} :
    m.registered? work = some (id, b) ↔
      m.registry.get? work = some id ∧ m.batch? id = some b := by
  simp only [registered?, Option.bind_eq_bind, Option.bind_eq_some_iff, Option.some.injEq,
    Prod.mk.injEq]
  constructor
  · rintro ⟨_, hwork, _, hbatch, rfl, rfl⟩
    exact ⟨hwork, hbatch⟩
  · rintro ⟨hwork, hbatch⟩
    exact ⟨id, hwork, b, hbatch, rfl, rfl⟩

/-- The batch that is asked for is there. -/
theorem batch?_of_acquire {work : WorkId} {partition : Partition} {m' : Manager σ}
    (h : m.acquire work partition = (.ok id, m')) : ∃ b, m'.batch? id = some b := by
  have hcases := m.acquired work partition
  rw [h] at hcases
  generalize hok : (Except.ok id : Except SessionError BatchId) = answer at hcases
  cases hcases with
  | found hregistered =>
    cases hok
    exact ⟨_, (registered?_eq_some_iff.1 hregistered).2⟩
  | mismatched => cases hok
  | entered =>
    cases hok
    exact ⟨_, (m.batch?_enter work partition _).trans (if_pos rfl)⟩

theorem acquire_of_unregistered {work : WorkId} (h : m.registry.get? work = none)
    (partition : Partition) :
    m.acquire work partition = (.ok m.batches.length, m.enter work partition) := by
  have hnone : m.registered? work = none := by
    rw [registered?, h]
    rfl
  rw [acquire, hnone]
  rfl

theorem acquire_of_registered {work : WorkId} (h : m.registry.get? work = some id)
    (hb : m.batch? id = some b) : m.acquire work b.partition = (.ok id, m) := by
  rw [acquire, registered?_eq_some_iff.2 ⟨h, hb⟩]
  exact if_pos rfl

/-- A unit of work that is registered elsewhere is not given this batch. -/
theorem ne_of_acquire {work : WorkId} {partition : Partition} {i : BatchId} {m' : Manager σ}
    (h : m.acquire work partition = (.ok i, m')) (hwork : m.registry.get? work ≠ some id)
    (hb : m.batch? id = some b) : i ≠ id := by
  have hcases := m.acquired work partition
  rw [h] at hcases
  generalize hok : (Except.ok i : Except SessionError BatchId) = answer at hcases
  cases hcases with
  | found hregistered =>
    cases hok
    exact fun he => hwork (he ▸ (registered?_eq_some_iff.1 hregistered).1)
  | mismatched => cases hok
  | entered =>
    cases hok
    exact Nat.ne_of_gt (lt_length_of_batch? hb)

theorem batch?_acquire {work : WorkId} {partition : Partition} {m' : Manager σ}
    {answer : Except SessionError BatchId} (h : m.acquire work partition = (answer, m'))
    (hb : m.batch? id = some b) : m'.batch? id = some b := by
  have hcases := m.acquired work partition
  rw [h] at hcases
  cases hcases with
  | found => exact hb
  | mismatched => exact hb
  | entered =>
    have hne : id ≠ m.batches.length := Nat.ne_of_lt (lt_length_of_batch? hb)
    exact (m.batch?_enter work partition id).trans ((if_neg hne).trans hb)

end Manager

end UnitOfWork
