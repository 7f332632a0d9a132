import UnitOfWork.Proofs.Session.Pending
import UnitOfWork.Proofs.Session.SingleSubmission
import UnitOfWork.Proofs.Store.Reachable

/-!
Units of work over a store that others use too: at every moment, whatever is pending makes a batch
that the store accepts.
-/

namespace UnitOfWork

namespace SharedBatch

/-- What is pending is in step and within some limits. -/
def Ready (b : SharedBatch) (limits : Limits) : Prop :=
  b.pending.Sound ∧ b.pending.limits.Within limits

/-- What is pending leaves rows that a store can keep. -/
def Fits (b : SharedBatch) (store : AnyStore) : Prop :=
  store.Fits b.partition.table b.partition.key (b.pending.ops.map Operation.toBatchOp)

instance (b : SharedBatch) (store : AnyStore) : Decidable (b.Fits store) :=
  inferInstanceAs (Decidable (store.Fits _ _ _))

variable {b : SharedBatch} {limits : Limits}

theorem ready_create (partition : Partition) {own : Limits} (h : own.Within limits) :
    (create partition own).Ready limits := ⟨Accumulator.sound_create partition own, h⟩

namespace Ready

theorem join (h : b.Ready limits) : b.join.Ready limits := h

theorem leave (h : b.Ready limits) : b.leave.Ready limits := h

theorem discard (h : b.Ready limits) : b.discard.Ready limits := by
  unfold SharedBatch.discard
  split
  · exact h
  · exact ⟨b.pending.sound_clear, h.2⟩

theorem register (h : b.Ready limits) (op : Operation) : (b.register op).2.Ready limits := by
  unfold SharedBatch.register lock
  cases b.poisoned with
  | true => exact h
  | false =>
    constructor
    · exact Accumulator.sound_register h.1 op
    · show (b.pending.register op).2.limits.Within limits
      rw [Accumulator.limits_register]
      exact h.2

theorem commit {σ : Type} [TableStore σ] (h : b.Ready limits) (store : σ)
    (timeLeft : Option Duration) : (b.commit store timeLeft).2.1.Ready limits := by
  cases hlock : b.poisoned with
  | true =>
    rw [b.commit_of_poisoned store timeLeft hlock]
    exact h
  | false =>
    rw [b.commit_of_lock store timeLeft hlock]
    constructor
    · exact Accumulator.sound_commit h.1 store timeLeft
    · show (b.pending.commit store timeLeft).2.1.limits.Within limits
      rw [Accumulator.limits_commit]
      exact h.2

theorem abandon (h : b.Ready limits) : b.abandon.2.Ready limits := by
  unfold SharedBatch.abandon lock
  cases b.poisoned with
  | true => exact h
  | false => exact ⟨b.pending.sound_clear, h.2⟩

end Ready

end SharedBatch

namespace Manager

/-- Every batch, present or new, is ready for the store, which is sound. -/
structure Prepared (m : Manager AnyStore) : Prop where
  sound : m.store.Sound
  limits : m.limits.Within (TableStore.limits m.store)
  batches : ∀ b ∈ m.batches, b.Ready (TableStore.limits m.store)

namespace Prepared

variable {m : Manager AnyStore} {id : BatchId} {b : SharedBatch}

theorem create {store : AnyStore} (h : store.Sound) (config : SessionConfig) :
    (create store config).Prepared := ⟨h, Limits.min_within _ _, nofun⟩

theorem ready (h : m.Prepared) (hb : m.batch? id = some b) :
    b.Ready (TableStore.limits m.store) := h.batches b (List.mem_of_getElem? hb)

theorem setBatch (h : m.Prepared) (id : BatchId) (hb : b.Ready (TableStore.limits m.store)) :
    (m.setBatch id b).Prepared where
  sound := h.sound
  limits := h.limits
  batches c hc := by
    rcases List.mem_or_eq_of_mem_set hc with hold | rfl
    · exact h.batches c hold
    · exact hb

theorem release (h : m.Prepared) (work : WorkId) : (m.release work).Prepared :=
  ⟨h.sound, h.limits, h.batches⟩

theorem close (h : m.Prepared) (work : WorkId) (id : BatchId)
    (hb : b.Ready (TableStore.limits m.store)) : (m.close work id b).Prepared := by
  have hset := h.setBatch id hb.discard.leave
  unfold Manager.close releaseBatch
  split
  · exact hset.release work
  · exact hset

/-- The store moves on, and demands of batches what it did before. -/
theorem setStore (h : m.Prepared) {store : AnyStore} (hsound : store.Sound)
    (hlimits : TableStore.limits store = TableStore.limits m.store) :
    { m with store }.Prepared where
  sound := hsound
  limits := hlimits ▸ h.limits
  batches := hlimits ▸ h.batches

theorem acquire (h : m.Prepared) {work : WorkId} {partition : Partition}
    {answer : Except SessionError BatchId} {m' : Manager AnyStore}
    (hacquire : m.acquire work partition = (answer, m')) : m'.Prepared := by
  have hcases := m.acquired work partition
  rw [hacquire] at hcases
  cases hcases with
  | found | mismatched => exact h
  | entered =>
    refine ⟨h.sound, h.limits, fun b hb => ?_⟩
    rcases List.mem_append.1 hb with hold | hnew
    · exact h.batches b hold
    · obtain rfl := List.mem_singleton.1 hnew
      exact SharedBatch.ready_create partition h.limits

theorem join (h : m.Prepared) {work : WorkId} {partition : Partition} {m' : Manager AnyStore}
    (hacquire : m.acquire work partition = (.ok id, m')) :
    (m'.modifyBatch id SharedBatch.join).Prepared := by
  obtain ⟨b, hb⟩ := batch?_of_acquire hacquire
  rw [modifyBatch_eq hb]
  have hm' := h.acquire hacquire
  exact hm'.setBatch id (hm'.ready hb).join

/-- A batch is committed, and the store is left as the commit leaves it. -/
theorem commit (h : m.Prepared) (hb : m.batch? id = some b) (hfits : b.Fits m.store)
    (timeLeft : Option Duration) :
    { m with store := (b.commit m.store timeLeft).2.2 }.Prepared ∧
      (b.commit m.store timeLeft).2.1.Ready
        (TableStore.limits (b.commit m.store timeLeft).2.2) := by
  have hstore := b.store_commit m.store timeLeft
  have hready := (h.ready hb).commit m.store timeLeft
  rcases hstore with hsame | hsubmit
  · rw [hsame]
    exact ⟨h, hready⟩
  · have hlimits := AnyStore.limits_submit m.store b.partition.table b.partition.key
      (b.pending.ops.map Operation.toBatchOp) timeLeft
    rw [hsubmit]
    refine ⟨h.setStore (AnyStore.sound_submit h.sound hfits timeLeft) hlimits, ?_⟩
    rw [hlimits]
    exact hready

end Prepared

end Manager

namespace World

variable {w w' : World AnyStore} {step : Step} {answer : Answer}

/-- The batch that a step would submit. -/
def submitting? (w : World AnyStore) : Step → Option SharedBatch
  | .complete name _ => (w.batchOf? name).bind w.manager.batch?
  | .commit id _ => w.manager.batch? id
  | _ => none

/-- What a step submits leaves rows that the store can keep. -/
def FitsStep (w : World AnyStore) (step : Step) : Prop :=
  ∀ b ∈ w.submitting? step, b.Fits w.manager.store

instance (w : World AnyStore) (step : Step) : Decidable (w.FitsStep step) :=
  inferInstanceAs (Decidable (∀ b ∈ w.submitting? step, _))

theorem submitting?_complete {name : String} {s : Session} {id : BatchId}
    (hs : w.session? name = some s) (hbatch : s.batch = some id) (now : Instant) :
    w.submitting? (.complete name now) = w.manager.batch? id := by
  rw [submitting?, batchOf?, hs, Option.bind_some, hbatch, Option.bind_some]

theorem Outcome.prepared (h : Outcome w step answer w') (hw : w.manager.Prepared)
    (hfits : w.FitsStep step) : w'.manager.Prepared := by
  cases h with
  | createdOpen _ hacquire | started _ _ hacquire => exact hw.join hacquire
  | acquired hacquire => exact hw.acquire hacquire
  | @enlisted _ op _ _ _ _ hopen =>
    have hb := (Session.ensureOpen_eq_ok_iff.1 hopen).2.2.1
    exact hw.setBatch _ ((hw.ready hb).register op)
  | @completed _ now s _ _ _ _ _ hs hopen hcommit =>
    obtain ⟨_, hbatch, hb, _⟩ := Session.ensureOpen_eq_ok_iff.1 hopen
    have hprepared := hw.commit hb (hfits _ ((submitting?_complete hs hbatch now).trans hb))
      w.manager.config.commitTimeout
    rw [hcommit] at hprepared
    exact hprepared.1.close s.work _ hprepared.2
  | @aborted _ s _ _ _ hopen =>
    have hb := (Session.ensureOpen_eq_ok_iff.1 hopen).2.2.1
    exact hw.close s.work _ (hw.ready hb)
  | @detached _ s _ _ _ _ _ hb =>
    dsimp only
    split
    · exact hw.setBatch _ (hw.ready hb).leave
    · exact hw.close s.work _ (hw.ready hb)
  | released work => exact hw.release work
  | registered op hb => exact hw.setBatch _ ((hw.ready hb).register op)
  | @committed _ _ _ timeLeft _ _ hb hcommit =>
    have hprepared := hw.commit hb (hfits _ hb) timeLeft
    rw [hcommit] at hprepared
    exact hprepared.1.setBatch _ hprepared.2
  | abandoned hb => exact hw.setBatch _ (hw.ready hb).abandon
  | poisoned hb =>
    have hready := hw.ready hb
    exact hw.setBatch _ hready
  | _ => exact hw

/-- The store after somebody has called it. -/
def onStore (w : World AnyStore) (c : StoreCall) : World AnyStore :=
  { w with manager := { w.manager with store := (c.run w.manager.store).2 } }

/-- The worlds that sessions over a store lead to, while others call the store between their
steps. -/
inductive Reached : World AnyStore → Prop
  | fresh {store : AnyStore} (h : store.Reachable) (config : SessionConfig) :
      Reached (fresh store config)
  | step {w : World AnyStore} (h : Reached w) (step : Step) (hfits : w.FitsStep step) :
      Reached (w.step step).2
  | call {w : World AnyStore} (h : Reached w) (c : StoreCall)
      (hfits : w.manager.store.FitsCall c) : Reached (w.onStore c)

theorem Reached.prepared (h : w.Reached) : w.manager.Prepared := by
  induction h with
  | fresh hstore config => exact .create hstore.sound config
  | @step w _ step hfits ih => exact (w.outcome step).prepared ih hfits
  | @call w _ c hfits ih =>
    exact ih.setStore (AnyStore.sound_run ih.sound hfits) (AnyStore.limits_run w.manager.store c)

end World

end UnitOfWork
