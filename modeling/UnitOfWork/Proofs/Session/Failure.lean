import UnitOfWork.Proofs.Session.Generations
import UnitOfWork.Proofs.Session.Verdict
import UnitOfWork.Proofs.Store.Settlement

/-!
A unit of work that fails to complete: whatever the reason, it is over for all its participants,
and the error tells the truth about the store.
-/

namespace UnitOfWork

namespace Accumulator

/-- Why a commit fails, and what it leaves of the store. -/
inductive Failed (a : Accumulator) (s : AnyStore) : SessionError → AnyStore → Prop
  | missing : Failed a s (.storage (.tableNotFound a.partition.table)) s
  | conflict {i : Nat} {op : Operation} {reason : Rejection} {s' : AnyStore}
      (hop : a.ops[i]? = some op) (hfails : op.FailsFor s a.partition.table reason)
      (hkeeps : s.Keeps s') : Failed a s (.optimisticConflict op.row i reason) s'
  | late (elapsed : Duration) (s' : AnyStore) : Failed a s (.commitTimeout elapsed) s'

variable {a : Accumulator} {s : AnyStore} {timeLeft : Option Duration} {e : SessionError}

/-- A rejected batch names one of the pending operations, whose row is not as it expects. -/
theorem Sound.failed_of_rejected (ha : a.Sound) (hs : s.Sound) {s' : AnyStore} {f : StorageError}
    (hfound : s.access a.partition.table = .ok ())
    (hstage : (Batch.stage (s.rowIn a.partition.table a.partition.key) 0 s.ledger.version
      (a.ops.map Operation.toBatchOp)).1 = .error f)
    (hkeeps : s.Keeps s') : a.Failed s (.ofStorage f) s' := by
  obtain ⟨before, batchOp, later, hops, _, hstop⟩ := Batch.stage_fst_eq_error_iff.1 hstage
  obtain ⟨reason, hreason, rfl⟩ := Option.map_eq_some_iff.1 hstop
  -- the batch has one operation for each pending one, so positions in both are the same
  obtain ⟨first, rest, hsplit, rfl, hrest⟩ := List.map_eq_append_iff.1 hops
  obtain ⟨op, last, rfl, rfl, rfl⟩ := List.map_eq_cons_iff.1 hrest
  have hop : a.ops[first.length]? = some op := by
    rw [hsplit, List.getElem?_append_right (Nat.le_refl _), Nat.sub_self]
    rfl
  have hkey := (ha.keys op (List.mem_of_getElem? hop)).1
  rw [op.row_toBatchOp, ← hkey] at hreason
  rw [List.length_map, Nat.zero_add, op.row_toBatchOp]
  exact .conflict hop (Operation.failsFor_of_rejection? hs hfound hreason) hkeeps

theorem failed_of_commit (ha : a.Sound) (hs : s.Sound)
    (hlimits : a.limits.Within (TableStore.limits s))
    (h : (a.commit s timeLeft).1 = .error e) : a.Failed s e (a.commit s timeLeft).2.2 := by
  have hstore := a.store_commit s timeLeft
  unfold commit at h
  split at h
  · cases h
  · rename_i hempty
    rw [if_neg hempty] at hstore
    rw [hstore]
    have hsettled := AnyStore.settled hs a.partition.table a.partition.key
      (a.ops.map Operation.toBatchOp) timeLeft
    have haccept := accept_of_sound ha hlimits
    dsimp only at h
    generalize TableStore.submit s a.partition.table a.partition.key
      (a.ops.map Operation.toBatchOp) timeLeft = submitted at h hsettled ⊢
    obtain ⟨answer, s'⟩ := submitted
    dsimp only at hsettled ⊢
    cases hsettled with
    | refused hrefused =>
      rw [haccept] at hrefused
      cases hrefused
    | missing _ hmissing =>
      obtain rfl := AnyStore.eq_of_access_error hmissing
      cases h
      exact .missing
    | rejected _ hfound hstage hkeeps =>
      cases h
      exact ha.failed_of_rejected hs hfound hstage hkeeps
    | late =>
      cases h
      exact .late _ _
    | @applied writes _ _ _ hstages =>
      have hlength : (Batch.tokens writes).length = a.ops.length := by
        have hwrites := congrArg List.length hstages.map_fst
        simpa [Batch.tokens] using hwrites
      simp only [if_pos hlength] at h
      cases h

namespace Failed

variable {s' : AnyStore}

/-- Unless it is not known what has happened, no row has changed. -/
theorem keeps (h : a.Failed s e s') (hcertain : e.isAmbiguous = false) : s.Keeps s' := by
  cases h with
  | missing => exact .refl s
  | conflict _ _ hkeeps => exact hkeeps
  | late => cases hcertain

/-- What is worth a retry is a row that was not as an operation expects it. -/
theorem exists_failsFor (h : a.Failed s e s') (hretry : e.isRetryable = true) :
    ∃ i op reason, e = .optimisticConflict op.row i reason ∧ a.ops[i]? = some op ∧
      op.FailsFor s a.partition.table reason := by
  cases h with
  | missing | late => cases hretry
  | conflict hop hfails => exact ⟨_, _, _, rfl, hop, hfails⟩

end Failed

end Accumulator

namespace SharedBatch

/-- A batch is not committed: its lock fails, or what is pending cannot be committed. -/
inductive Failed (b : SharedBatch) (s : AnyStore) (timeLeft : Option Duration) :
    SessionError → AnyStore → Prop
  | locked (h : b.poisoned = true) : Failed b s timeLeft (.internal .poisonedLock) s
  | committing {e : SessionError} {s' : AnyStore} (h : b.poisoned = false)
      (hcommit : (b.pending.commit s timeLeft).1 = .error e) (hfailed : b.pending.Failed s e s') :
      Failed b s timeLeft e s'

variable {b b' : SharedBatch} {s s' : AnyStore} {timeLeft : Option Duration} {e : SessionError}

theorem failed_of_commit (hb : b.Ready (TableStore.limits s)) (hs : s.Sound)
    (h : b.commit s timeLeft = (.error e, b', s')) : b.Failed s timeLeft e s' := by
  cases hlock : b.poisoned with
  | true =>
    rw [b.commit_of_poisoned s timeLeft hlock] at h
    cases h
    exact .locked hlock
  | false =>
    rw [b.commit_of_lock s timeLeft hlock, Prod.mk.injEq, Prod.mk.injEq] at h
    obtain ⟨hcommit, _, rfl⟩ := h
    exact .committing hlock hcommit (Accumulator.failed_of_commit hb.1 hs hb.2 hcommit)

namespace Failed

/-- The error comes from the lock or from the commit under it. -/
theorem lock_or_commit (h : b.Failed s timeLeft e s') :
    b.lock = .error e ∨
      ∃ pending, b.lock = .ok pending ∧ (pending.commit s timeLeft).1 = .error e := by
  cases h with
  | locked hlock => exact .inl (if_pos hlock)
  | committing hlock hcommit => exact .inr ⟨b.pending, by rw [lock, hlock]; rfl, hcommit⟩

theorem kinds (h : b.Failed s timeLeft e s') :
    e = .internal .poisonedLock ∨ e = .storage (.tableNotFound b.partition.table) ∨
      (∃ row i reason, e = .optimisticConflict row i reason) ∨
      ∃ elapsed, e = .commitTimeout elapsed := by
  cases h with
  | locked => exact .inl rfl
  | committing _ _ hfailed =>
    cases hfailed with
    | missing => exact .inr (.inl rfl)
    | conflict => exact .inr (.inr (.inl ⟨_, _, _, rfl⟩))
    | late => exact .inr (.inr (.inr ⟨_, rfl⟩))

theorem keeps (h : b.Failed s timeLeft e s') (hcertain : e.isAmbiguous = false) : s.Keeps s' := by
  cases h with
  | locked => exact .refl s
  | committing _ _ hfailed => exact hfailed.keeps hcertain

theorem exists_failsFor (h : b.Failed s timeLeft e s') (hretry : e.isRetryable = true) :
    ∃ i op reason, e = .optimisticConflict op.row i reason ∧ b.pending.ops[i]? = some op ∧
      op.FailsFor s b.partition.table reason := by
  cases h with
  | locked => cases hretry
  | committing _ _ hfailed => exact hfailed.exists_failsFor hretry

end Failed

/-- A batch in progress is empty once it is discarded, also after a commit. -/
theorem pending_discard_commit {σ : Type} [TableStore σ] (hb : b.completed = false) (store : σ)
    (timeLeft : Option Duration) :
    (b.commit store timeLeft).2.1.discard.pending =
      Accumulator.create b.partition b.pending.limits := by
  have hopen : ¬ (b.commit store timeLeft).2.1.completed = true := by simp [hb]
  have hlimits : (b.commit store timeLeft).2.1.pending.limits = b.pending.limits := by
    cases hlock : b.poisoned with
    | true => rw [b.commit_of_poisoned store timeLeft hlock]
    | false =>
      rw [b.commit_of_lock store timeLeft hlock]
      exact b.pending.limits_commit store timeLeft
  have hpartition := b.partition_commit store timeLeft
  rw [discard, if_neg hopen]
  show Accumulator.create (b.commit store timeLeft).2.1.partition _ = _
  rw [hpartition, hlimits]

end SharedBatch

namespace World

variable {w w' : World AnyStore} {name : String} {s : Session} {id : BatchId} {b : SharedBatch}

theorem Reached.tracked (h : w.Reached) : w.Tracked := by
  induction h with
  | fresh hstore config => exact .fresh _ config
  | @step w _ step _ ih => exact (w.outcome step).tracked ih
  | call _ c _ ih =>
    exact ⟨⟨ih.grounded.registered, ih.grounded.held⟩, ⟨ih.current.unique, ih.current.inUse⟩,
      ih.owned⟩

/-- The worlds that further steps lead to, while others call the store between them. -/
inductive Leads (w : World AnyStore) : World AnyStore → Prop
  | refl : Leads w w
  | step {v : World AnyStore} (h : Leads w v) (step : Step) : Leads w (v.step step).2
  | call {v : World AnyStore} (h : Leads w v) (c : StoreCall) : Leads w (v.onStore c)

theorem Leads.isCompleted (h : w.Leads w') (hid : w.manager.IsCompleted id) :
    w'.manager.IsCompleted id := by
  induction h with
  | refl => exact hid
  | @step v _ step ih => exact (v.outcome step).isCompleted ih
  | call _ c ih => exact ih

/-- The world with its store behind a relay that counts submissions from now on. -/
def counted (w : World AnyStore) : World (Relay AnyStore) where
  manager := { w.manager with store := { store := w.manager.store } }
  sessions := w.sessions

/-- No step of a session hands a completed batch to the store. -/
theorem notMem_handed_counted (hid : w.manager.IsCompleted id) (step : Step) :
    some id ∉ w.counted.handed [step] := by
  cases hdirect : step.isDirect with
  | false => exact notMem_handed hid (by simpa using hdirect)
  | true =>
    have hnone : w.counted.completing? step = none := by
      cases step with
      | register | commit | abandon => rfl
      | _ => cases hdirect
    rw [handed, handed, List.append_nil, hnone]
    intro hmem
    cases (List.mem_replicate.1 hmem).2

/-- A batch whose lock is poisoned is not handed to the store when a session completes it. -/
theorem handed_counted_of_poisoned (hs : w.session? name = some s)
    (hopen : s.ensureOpen w.manager = .ok (id, b)) (hpoisoned : b.poisoned = true)
    (now : Instant) : w.counted.handed [.complete name now] = [] := by
  have hs' : w.counted.session? name = some s := hs
  have hopen' : s.ensureOpen w.counted.manager = .ok (id, b) := hopen
  have hcommit := b.commit_of_poisoned w.counted.manager.store
    w.counted.manager.config.commitTimeout hpoisoned
  have hsame : (w.counted.step (.complete name now)).2.submissions = w.counted.submissions := by
    cases htold : w.counted.manager.config.tellsDeadline now with
    | false =>
      rw [step_complete_of_lost hs' hopen' htold]
      rfl
    | true =>
      rw [step_complete hs' hopen' hcommit htold]
      exact congrArg Relay.submissions (Manager.store_close ..)
  rw [handed, handed, List.append_nil, hsame, Nat.sub_self, List.replicate_zero]

/--
When an open session fails to complete a unit of work that is in progress, the session is aborted
and holds no batch, and the batch is completed, empty and off the registry. The error is the one of
the commit or of the lock, and there are four kinds of it. Unless it is ambiguous, every row is as
before the call; if the call is worth a retry, the error names an operation whose row is not as it
expects. A batch whose lock is poisoned is not submitted, now or by any later step of a session.
-/
theorem failed_complete_cleans_up (w : World AnyStore) (hw : w.Reached) (name : String)
    (s : Session) (id : BatchId) (b : SharedBatch) (hs : w.session? name = some s)
    (hstate : s.state = .open) (hbatch : s.batch = some id) (hb : w.manager.batch? id = some b)
    (hcompleted : b.completed = false) (now : Instant) (e : SessionError) (w' : World AnyStore)
    (h : w.step (.complete name now) = (.refused e, w')) :
    w'.session? name = some { s with state := .aborted, batch := none } ∧
      (∃ b', w'.manager.batch? id = some b' ∧ b'.completed = true ∧
        b'.pending = Accumulator.create b.partition b.pending.limits) ∧
      (∀ work, w'.manager.registry.get? work ≠ some id) ∧
      (b.lock = .error e ∨ ∃ pending, b.lock = .ok pending ∧
        (pending.commit w.manager.store w.manager.config.commitTimeout).1 = .error e) ∧
      (e = .internal .poisonedLock ∨ e = .storage (.tableNotFound b.partition.table) ∨
        (∃ row i reason, e = .optimisticConflict row i reason) ∨
        ∃ elapsed, e = .commitTimeout elapsed) ∧
      (e.isAmbiguous = false → w.manager.store.Keeps w'.manager.store) ∧
      (e.isRetryable = true → ∃ i op reason, e = .optimisticConflict op.row i reason ∧
        b.pending.ops[i]? = some op ∧
        op.FailsFor w.manager.store b.partition.table reason) ∧
      (b.poisoned = true → w.counted.handed [.complete name now] = [] ∧
        ∀ v, w'.Leads v → ∀ step, some id ∉ v.counted.handed [step]) := by
  have hprepared := hw.prepared
  have hopen := Session.ensureOpen_eq_ok_iff.2 ⟨hstate, hbatch, hb, hcompleted⟩
  have htracked := (w.outcome (.complete name now)).tracked hw.tracked
  have hempty := SharedBatch.pending_discard_commit hcompleted w.manager.store
    w.manager.config.commitTimeout
  generalize hcommit : b.commit w.manager.store w.manager.config.commitTimeout = committed
    at hempty
  obtain ⟨answer, b', store⟩ := committed
  have htold := tellsDeadline_of_ne_panicked hs hopen now (by simp [h])
  rw [step_complete hs hopen hcommit htold] at h htracked
  obtain ⟨hanswer, rfl⟩ := Prod.mk.inj h
  obtain rfl : answer = .error e := by
    cases answer with
    | ok rows => cases hanswer
    | error f => rw [Answer.refused.inj hanswer]
  have hfailed := SharedBatch.failed_of_commit (hprepared.ready hb) hprepared.sound hcommit
  have hb' : ({ w.manager with store } : Manager AnyStore).batch? id = some b := hb
  have hclosed := Manager.isCompleted_close hb' s.work b'
  have hstore : ({ w.manager with store }.close s.work id b').store = store := by simp
  refine ⟨session?_setSession_self .., ?_, fun work hwork => ?_, hfailed.lock_or_commit,
    hfailed.kinds, fun hcertain => ?_, hfailed.exists_failsFor, fun hpoisoned => ⟨?_, ?_⟩⟩
  · exact ⟨_, (Manager.batch?_close hb' s.work b' id).trans (if_pos rfl), by simp, hempty⟩
  · exact htracked.current.inUse hwork hclosed
  · show w.manager.store.Keeps ({ w.manager with store }.close s.work id b').store
    rw [hstore]
    exact hfailed.keeps hcertain
  · exact handed_counted_of_poisoned hs hopen hpoisoned now
  · exact fun v hv => notMem_handed_counted (hv.isCompleted hclosed)

private def ferries : Partition := ⟨"Ferries", "f", by decide, by decide⟩

private def ferryOf (row : String) : Operation := Operation.insert ⟨"f", row⟩ ∅

/-- Two sessions share a batch, and somebody fails while holding its lock. -/
private def lockLost : World AnyStore :=
  (fresh (.durable { config := {} }) {}).after
    [.createOpen "a" "w" ferries, .createOpen "b" "w" ferries, .enlist "a" (ferryOf "x"),
      .poison 0]

private def lostBatch : SharedBatch :=
  { ((SharedBatch.create ferries {}).join.join.register (ferryOf "x")).2 with poisoned := true }

theorem failed_complete_cleans_up_poisoned :
    lockLost.Reached ∧
      lockLost.session? "b" =
        some { work := "w", partition := ferries, state := .open, batch := some 0 } ∧
      lockLost.manager.batch? 0 = some lostBatch ∧ lostBatch.pending.ops = [ferryOf "x"] ∧
      (lockLost.step (.complete "b" .start)).1 = .refused (.internal .poisonedLock) ∧
      lockLost.manager.store.Keeps (lockLost.step (.complete "b" .start)).2.manager.store ∧
      (∀ work, (lockLost.step (.complete "b" .start)).2.manager.registry.get? work ≠ some 0) ∧
      lockLost.counted.handed [.complete "b" .start] = [] := by
  have hempty : AnyStore.IsEmpty (.durable { config := {} }) := rfl
  have hreached : lockLost.Reached :=
    ((((Reached.fresh (.empty hempty) {}).step (.createOpen "a" "w" ferries)
      (by decide +kernel)).step (.createOpen "b" "w" ferries) (by decide +kernel)).step
      (.enlist "a" (ferryOf "x")) (by decide +kernel)).step (.poison 0) (by decide +kernel)
  have hs : lockLost.session? "b" =
      some { work := "w", partition := ferries, state := .open, batch := some 0 } := by
    decide +kernel
  have hb : lockLost.manager.batch? 0 = some lostBatch := by decide +kernel
  have hanswer : (lockLost.step (.complete "b" .start)).1 = .refused (.internal .poisonedLock) := by
    decide +kernel
  have hfailed := failed_complete_cleans_up lockLost hreached "b" _ 0 lostBatch hs rfl rfl hb
    (by decide +kernel) .start _ _ (Prod.ext hanswer rfl)
  obtain ⟨_, _, hregistry, _, _, hkeeps, _, hpoisoned⟩ := hfailed
  exact ⟨hreached, hs, hb, by decide +kernel, hanswer, hkeeps rfl, hregistry, (hpoisoned rfl).1⟩

end World

end UnitOfWork
