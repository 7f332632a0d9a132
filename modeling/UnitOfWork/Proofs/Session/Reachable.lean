import UnitOfWork.Proofs.Session.Outcome

/-! Worlds that can be reached: whatever a session or the registry refers to is there. -/

namespace UnitOfWork

/-- All batches that the registry names are there. -/
def Manager.Grounded {σ : Type} (m : Manager σ) : Prop :=
  ∀ work id, m.registry.get? work = some id → id < m.batches.length

namespace Manager.Grounded

variable {σ : Type} {m : Manager σ}

theorem of_registry_eq (h : m.Grounded) {m' : Manager σ} (hregistry : m'.registry = m.registry)
    (hlength : m.batches.length ≤ m'.batches.length) : m'.Grounded := by
  intro work id hid
  rw [hregistry] at hid
  exact Nat.lt_of_lt_of_le (h work id hid) hlength

theorem release (h : m.Grounded) (work : WorkId) : (m.release work).Grounded := by
  intro other i hi
  rw [Manager.release, SortedMap.get?_erase] at hi
  split at hi
  · cases hi
  · exact h other i hi

theorem close (h : m.Grounded) (work : WorkId) (id : BatchId) (b : SharedBatch) :
    (m.close work id b).Grounded := by
  intro other i hi
  rw [registry_close] at hi
  rw [length_close]
  split at hi
  · cases hi
  · exact h other i hi

theorem enter (h : m.Grounded) (work : WorkId) (partition : Partition) :
    (m.enter work partition).Grounded := by
  intro other i hi
  rw [registry_enter] at hi
  rw [length_enter]
  split at hi
  · cases hi
    exact Nat.lt_succ_self _
  · exact Nat.lt_succ_of_lt (h other i hi)

theorem acquire (h : m.Grounded) {work : WorkId} {partition : Partition}
    {answer : Except SessionError BatchId} {m' : Manager σ}
    (hacquire : m.acquire work partition = (answer, m')) :
    m'.Grounded ∧ m.batches.length ≤ m'.batches.length := by
  have hcases := m.acquired work partition
  rw [hacquire] at hcases
  cases hcases with
  | found => exact ⟨h, Nat.le_refl _⟩
  | mismatched => exact ⟨h, Nat.le_refl _⟩
  | entered => exact ⟨h.enter work partition, by simp⟩

end Manager.Grounded

namespace World

variable {σ : Type} {w w' : World σ} {step : Step} {answer : Answer}

/-- All batches that the registry or a session names are there. -/
structure Grounded (w : World σ) : Prop where
  registered : w.manager.Grounded
  held : ∀ {name s id}, w.session? name = some s → s.batch = some id →
    id < w.manager.batches.length

theorem Grounded.setSession (hw : w.Grounded) {m : Manager σ} (hm : m.Grounded)
    (hlength : w.manager.batches.length ≤ m.batches.length) (name : String) {s : Session}
    (hs : ∀ id, s.batch = some id → id < m.batches.length) :
    (w.setSession name s m).Grounded where
  registered := hm
  held {n s' id} hn hid := by
    rw [session?_setSession] at hn
    split at hn
    · cases hn
      exact hs id hid
    · exact Nat.lt_of_lt_of_le (hw.held hn hid) hlength

theorem Grounded.setManager (hw : w.Grounded) {m : Manager σ} (hm : m.Grounded)
    (hlength : w.manager.batches.length ≤ m.batches.length) : { w with manager := m }.Grounded where
  registered := hm
  held hn hid := Nat.lt_of_lt_of_le (hw.held hn hid) hlength

theorem Grounded.eraseSession (hw : w.Grounded) (name : String) :
    { w with sessions := w.sessions.erase name }.Grounded where
  registered := hw.registered
  held {n s id} hn hid := by
    rw [session?_erase] at hn
    split at hn
    · cases hn
    · exact hw.held hn hid

variable [TableStore σ]

theorem Outcome.grounded (h : Outcome w step answer w') (hw : w.Grounded) : w'.Grounded := by
  have hset : ∀ id b, (w.manager.setBatch id b).Grounded := fun id b =>
    hw.registered.of_registry_eq rfl (by simp)
  have hlength : ∀ id b, w.manager.batches.length ≤ (w.manager.setBatch id b).batches.length :=
    fun id b => by simp
  cases h with
  | misnamed | notCreated | notIdle | notStarted | notOpen | read | notAcquired => exact hw
  | created => exact hw.setSession hw.registered (Nat.le_refl _) _ nofun
  | @createdOpen _ _ _ _ m _ hacquire | @started _ _ _ m _ _ hacquire =>
    obtain ⟨hm, hgrows⟩ := hw.registered.acquire hacquire
    obtain ⟨b, hb⟩ := Manager.batch?_of_acquire hacquire
    have hjoined : ∀ id, (m.modifyBatch id SharedBatch.join).Grounded := fun id =>
      hm.of_registry_eq rfl (by simp)
    refine hw.setSession (hjoined _) (by simpa using hgrows) _ ?_
    rintro _ ⟨⟩
    simpa using Manager.lt_length_of_batch? hb
  | enlisted => exact hw.setManager (hset _ _) (hlength _ _)
  | @completed name now s id b b' answer store =>
    have hstore : ({ w.manager with store } : Manager σ).Grounded := hw.registered
    exact hw.setSession (hstore.close s.work id b') (by simp) _ nofun
  | panicked hs =>
    exact hw.setSession hw.registered (Nat.le_refl _) _ fun _ hbatch => hw.held hs hbatch
  | aborted => exact hw.setSession (hw.registered.close _ _ _) (by simp) _ nofun
  | dropped => exact hw.eraseSession _
  | @detached name s id b =>
    refine (hw.eraseSession name).setManager ?_ ?_
    · split
      · exact hset _ _
      · exact hw.registered.close _ _ _
    · split <;> simp
  | acquired hacquire =>
    obtain ⟨hm, hgrows⟩ := hw.registered.acquire hacquire
    exact hw.setManager hm hgrows
  | released work => exact hw.setManager (hw.registered.release work) (Nat.le_refl _)
  | registered => exact hw.setManager (hset _ _) (hlength _ _)
  | @committed id b b' _ _ store =>
    have hstore : ({ w.manager with store }.setBatch id b').Grounded :=
      hw.registered.of_registry_eq rfl (by simp)
    exact hw.setManager hstore (by simp)
  | abandoned | poisoned => exact hw.setManager (hset _ _) (hlength _ _)

/-- A world that some steps lead to. -/
def Reachable (w : World σ) : Prop := ∃ store config steps, w = (fresh store config).after steps

theorem Grounded.after (hw : w.Grounded) (steps : List Step) : (w.after steps).Grounded := by
  induction steps generalizing w with
  | nil => exact hw
  | cons step steps ih => exact ih ((w.outcome step).grounded hw)

theorem Reachable.grounded (h : w.Reachable) : w.Grounded := by
  obtain ⟨store, config, steps, rfl⟩ := h
  have hfresh : (fresh store config).Grounded := by
    constructor
    · intro work id hid
      cases hid
    · intro name s id hs
      cases hs
  exact hfresh.after steps

end World

end UnitOfWork
