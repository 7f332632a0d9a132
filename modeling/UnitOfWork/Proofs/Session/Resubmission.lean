import UnitOfWork.Proofs.Session.Enlistment
import UnitOfWork.Store.Memory
import UnitOfWork.Store.Relay

/-!
What is pending survives every error, of enlisting and of committing, whatever the store answers: a
commit that is tried again hands the store the same batch. A commit that succeeds leaves nothing.
-/

namespace UnitOfWork

/-- A batch as a store is handed it. -/
structure Submission where
  table : String
  partition : String
  ops : List BatchOp
deriving DecidableEq

/-- A store with all batches that it has been handed, the oldest first. -/
structure Recorder (σ : Type) where
  store : σ
  handed : List Submission := []

instance {σ : Type} [TableStore σ] : TableStore (Recorder σ) where
  limits r := TableStore.limits r.store
  read r := TableStore.read r.store
  query r := TableStore.query r.store
  submit r table partition ops timeLeft :=
    let (answer, store) := TableStore.submit r.store table partition ops timeLeft
    (answer, { store, handed := r.handed ++ [⟨table, partition, ops⟩] })
  tableExists r := TableStore.tableExists r.store
  ensureTable r table :=
    let (answer, store) := TableStore.ensureTable r.store table
    (answer, { r with store })

namespace Accumulator

variable {σ : Type} [TableStore σ] {a : Accumulator} {timeLeft : Option Duration}

/-- What is pending, as one batch. -/
def submission (a : Accumulator) : Submission :=
  ⟨a.partition.table, a.partition.key, a.ops.map Operation.toBatchOp⟩

theorem register_of_error {op : Operation} {e : SessionError} (h : (a.register op).1 = .error e) :
    (a.register op).2 = a := by
  have hcases := a.registered op
  generalize (a.register op).2 = a' at hcases ⊢
  rw [h] at hcases
  cases hcases with
  | refused => rfl

/-- Only a batch that the store has been handed can fail. -/
theorem commit_of_error {store : σ} {e : SessionError}
    (h : (a.commit store timeLeft).1 = .error e) :
    (a.commit store timeLeft).2.1 = a ∧ a.isEmpty = false := by
  have hcases := a.committed store timeLeft
  generalize a.commit store timeLeft = committed at h hcases ⊢
  cases hcases with
  | idle | applied => cases h
  | refused hpending | miscounted hpending => exact ⟨rfl, hpending⟩

theorem commit_of_isEmpty (h : a.isEmpty = true) (store : σ) (timeLeft : Option Duration) :
    a.commit store timeLeft = (.ok [], a, store) := by
  unfold commit
  rw [if_pos h]

theorem handed_commit (r : Recorder σ) (h : a.isEmpty = false) :
    (a.commit r timeLeft).2.2.handed = r.handed ++ [a.submission] := by
  rw [a.store_commit r timeLeft, h]
  rfl

/-- An accumulator in good order that has no operations has no other records either. -/
theorem Sound.eq_create (h : a.Sound) (hempty : a.isEmpty = true) :
    a = create a.partition a.limits := by
  have hops : a.ops = [] := List.isEmpty_iff.1 hempty
  have hsizes : a.sizes = [] := by rw [h.sizes, hops, List.map_nil]
  have hbytes : a.payloadBytes = 0 := by rw [h.bytes, hsizes, List.sum_nil]
  have hpositions : a.positions = ∅ := by
    apply SortedMap.ext_get?
    intro row
    rw [SortedMap.get?_empty, Option.eq_none_iff_forall_ne_some]
    intro i hi
    obtain ⟨op, hop, -⟩ := (h.position row i).1 hi
    rw [hops] at hop
    cases hop
  obtain ⟨partition, limits, ops, sizes, positions, payloadBytes⟩ := a
  dsimp only at hops hsizes hbytes hpositions ⊢
  rw [hops, hsizes, hbytes, hpositions]
  rfl

theorem Sound.commit_of_ok (h : a.Sound) {store : σ} {rows : List CommittedRow}
    (hok : (a.commit store timeLeft).1 = .ok rows) :
    (a.commit store timeLeft).2.1 = create a.partition a.limits := by
  have hcases := a.committed store timeLeft
  generalize a.commit store timeLeft = committed at hok hcases ⊢
  cases hcases with
  | idle hempty => exact h.eq_create hempty
  | refused | miscounted => cases hok
  | applied => rfl

/-- What errors and successes leave pending. -/
structure Retryable (a : Accumulator) : Prop where
  refused : ∀ op e, (a.register op).1 = .error e → (a.register op).2 = a
  failed : ∀ {σ : Type} [TableStore σ] (store : σ) timeLeft e,
    (a.commit store timeLeft).1 = .error e → (a.commit store timeLeft).2.1 = a
  /-- After a commit that failed the next one hands over the same batch. -/
  resubmitted : ∀ {σ : Type} [TableStore σ] (r later : Recorder σ) timeLeft timeLeft' e,
    (a.commit r timeLeft).1 = .error e →
      (a.commit r timeLeft).2.2.handed = r.handed ++ [a.submission] ∧
        ((a.commit r timeLeft).2.1.commit later timeLeft').2.2.handed =
          later.handed ++ [a.submission]
  succeeded : ∀ {σ : Type} [TableStore σ] (store : σ) timeLeft rows,
    (a.commit store timeLeft).1 = .ok rows →
      (a.commit store timeLeft).2.1 = create a.partition a.limits
  dropped : a.clear = create a.partition a.limits
  idle : a.isEmpty = true → ∀ {σ : Type} [TableStore σ] (store : σ) timeLeft,
    a.commit store timeLeft = (.ok [], a, store)

/--
A refused operation and a failed commit leave an accumulator as it was, whatever the store has done
and answered, and so the same batch is submitted if the commit is tried again. A commit that
succeeds leaves the accumulator as if it were new. If nothing is pending the store is not asked.
-/
theorem errors_keep_successes_clear (a : Accumulator) (ha : a.Reachable) : a.Retryable := by
  have hsound : a.Sound := ha.sound
  constructor
  case refused => exact fun op e herror => register_of_error herror
  case failed => exact fun store timeLeft e herror => (commit_of_error herror).1
  case resubmitted =>
    intro σ _ r later timeLeft timeLeft' e herror
    obtain ⟨hsame, hpending⟩ := commit_of_error herror
    rw [hsame]
    exact ⟨handed_commit r hpending, handed_commit later hpending⟩
  case succeeded => exact fun store timeLeft rows hok => hsound.commit_of_ok hok
  case dropped => rfl
  case idle =>
    intro hempty σ _ store timeLeft
    exact commit_of_isEmpty hempty store timeLeft

private def bay : Partition := ⟨"Bays", "west", by decide, by decide⟩

private def oneBarrel : Accumulator :=
  ((create bay {}).register (Operation.insert ⟨"west", "barrel"⟩ ∅)).2

/-- A store that answers its first batch with a token too many. -/
private def overcounting : Recorder (Relay MemoryStore) :=
  { store := { store := { config := {} }, faults := [.recount 1] } }

/-- The first commit fails for the count although the row is written, and the second one because the
row is there. Both hand over the same batch, and the barrel stays pending. -/
theorem errors_keep_successes_clear_miscounted :
    oneBarrel.Reachable ∧ oneBarrel.isEmpty = false ∧
      (oneBarrel.commit overcounting none).1 = .error (.internal (.tokenCount 2 1)) ∧
      (oneBarrel.commit overcounting none).2.1 = oneBarrel ∧
      ((oneBarrel.commit overcounting none).2.1.commit
        (oneBarrel.commit overcounting none).2.2 none).2.2.handed =
          [oneBarrel.submission, oneBarrel.submission] := by
  have hreachable : oneBarrel.Reachable := .register (.create bay {}) _
  have hretryable : oneBarrel.Retryable := errors_keep_successes_clear oneBarrel hreachable
  have herror : (oneBarrel.commit overcounting none).1 = .error (.internal (.tokenCount 2 1)) := by
    decide +kernel
  obtain ⟨hfirst, hsecond⟩ := hretryable.resubmitted overcounting
    (oneBarrel.commit overcounting none).2.2 none none _ herror
  refine ⟨hreachable, by decide +kernel, herror, hretryable.failed overcounting none _ herror, ?_⟩
  rw [hsecond, hfirst]
  rfl

end Accumulator

end UnitOfWork
