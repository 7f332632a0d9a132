import UnitOfWork.Proofs.Session.Membership
import UnitOfWork.Proofs.Session.Reachable
import UnitOfWork.Proofs.Session.SingleSubmission

/-!
Generations of batches under one name of a unit of work. The registry may let go of a batch that is
still held, and refer to a newer one: sessions of the old batch never harm the new one, and the
registry never refers to a batch that has been completed.
-/

namespace UnitOfWork

section Refusals

variable {σ : Type} [TableStore σ]

/-- Only a session can be told that its unit of work has ended. -/
theorem Accumulator.register_ne_alreadyCompleted (a : Accumulator) (op : Operation) :
    (a.register op).1 ≠ .error .alreadyCompleted := by
  have hlimits : ∀ operations bytes, a.checkLimits operations bytes ≠ .error .alreadyCompleted := by
    intro operations bytes
    unfold checkLimits
    split <;> simp
  unfold register
  split
  · simp
  · split
    · simp
    · split
      · unfold mergeInto
        split
        · dsimp only
          split
          · rename_i e he
            exact fun h => hlimits _ _ (he.trans h)
          · simp
        · simp
      · unfold append
        dsimp only
        split
        · rename_i e he
          exact fun h => hlimits _ _ (he.trans h)
        · simp

theorem SharedBatch.register_ne_alreadyCompleted (b : SharedBatch) (op : Operation) :
    (b.register op).1 ≠ .error .alreadyCompleted := by
  unfold register lock
  cases b.poisoned with
  | true => simp
  | false => exact b.pending.register_ne_alreadyCompleted op

end Refusals

namespace Manager

variable {σ : Type} {m m' : Manager σ} {id : BatchId} {b : SharedBatch}

/-- The unit of work is registered with the batch that it is given. -/
theorem registry_of_acquire_self {work : WorkId} {partition : Partition}
    (h : m.acquire work partition = (.ok id, m')) : m'.registry.get? work = some id := by
  have hcases := m.acquired work partition
  rw [h] at hcases
  generalize hok : (Except.ok id : Except SessionError BatchId) = answer at hcases
  cases hcases with
  | found hregistered =>
    cases hok
    exact (registered?_eq_some_iff.1 hregistered).1
  | mismatched => cases hok
  | entered =>
    cases hok
    exact (m.registry_enter work work partition).trans (if_pos rfl)

/-- Every batch is registered under one name at most, and under none once it is completed. -/
structure Current (m : Manager σ) : Prop where
  unique : ∀ {work other id}, m.registry.get? work = some id → m.registry.get? other = some id →
    other = work
  inUse : ∀ {work id}, m.registry.get? work = some id → ¬ m.IsCompleted id

namespace Current

/-- Entries go and none comes, and what stays registered is not completed. -/
theorem retain (h : m.Current)
    (hregistry : ∀ {work i}, m'.registry.get? work = some i → m.registry.get? work = some i)
    (hinUse : ∀ {work i}, m'.registry.get? work = some i → m'.IsCompleted i → m.IsCompleted i) :
    m'.Current where
  unique hwork hother := h.unique (hregistry hwork) (hregistry hother)
  inUse hwork hcompleted := h.inUse (hregistry hwork) (hinUse hwork hcompleted)

theorem setBatch (h : m.Current) (hb : m.batch? id = some b) {b' : SharedBatch}
    (hkeeps : b'.completed = b.completed) : (m.setBatch id b').Current := by
  refine h.retain (fun hwork => hwork) fun {work i} _ ⟨c, hc, hcompleted⟩ => ?_
  rw [batch?_setBatch hb] at hc
  by_cases hi : i = id
  · rw [if_pos hi, Option.some.injEq] at hc
    exact ⟨b, hi ▸ hb, hkeeps ▸ hc ▸ hcompleted⟩
  · rw [if_neg hi] at hc
    exact ⟨c, hc, hcompleted⟩

theorem release (h : m.Current) (work : WorkId) : (m.release work).Current := by
  refine h.retain (fun {other i} hother => ?_) fun _ hcompleted => hcompleted
  rw [Manager.release, SortedMap.get?_erase] at hother
  split at hother
  · cases hother
  · exact hother

/-- A batch is closed for the only unit of work that can be registered with it. -/
theorem close (h : m.Current) (hb : m.batch? id = some b) {work : WorkId}
    (howned : ∀ {other}, m.registry.get? other = some id → other = work) (b' : SharedBatch) :
    (m.close work id b').Current := by
  have hkept : ∀ {other i}, (m.close work id b').registry.get? other = some i →
      m.registry.get? other = some i ∧ i ≠ id := by
    intro other i hother
    rw [registry_close] at hother
    split at hother
    · cases hother
    · rename_i hkept
      refine ⟨hother, fun hi => hkept ?_⟩
      have hname := howned (hi ▸ hother)
      exact ⟨hname, hname ▸ hi ▸ hother⟩
  refine h.retain (fun hother => (hkept hother).1) fun hother ⟨c, hc, hcompleted⟩ => ?_
  rw [batch?_close hb, if_neg (hkept hother).2] at hc
  exact ⟨c, hc, hcompleted⟩

/-- A new batch is in use, and no other name refers to it. -/
theorem acquire (h : m.Current) (hgrounded : m.Grounded) {work : WorkId} {partition : Partition}
    {answer : Except SessionError BatchId} (hacquire : m.acquire work partition = (answer, m')) :
    m'.Current := by
  have hcases := m.acquired work partition
  rw [hacquire] at hcases
  cases hcases with
  | found | mismatched => exact h
  | entered =>
    have hold : ∀ {other}, m.registry.get? other ≠ some m.batches.length := fun hother =>
      Nat.lt_irrefl _ (hgrounded _ _ hother)
    constructor
    · intro name other i hname hother
      show other = name
      have hname' := (m.registry_enter work name partition).symm.trans hname
      have hother' := (m.registry_enter work other partition).symm.trans hother
      split at hname' <;> split at hother'
      · rename_i hn ho
        rw [hn, ho]
      · obtain rfl := Option.some.inj hname'
        exact absurd hother' hold
      · obtain rfl := Option.some.inj hother'
        exact absurd hname' hold
      · exact h.unique hname' hother'
    · rintro name i hname ⟨c, hc, hcompleted⟩
      have hname' := (m.registry_enter work name partition).symm.trans hname
      have hc' := (m.batch?_enter work partition i).symm.trans hc
      split at hname'
      · obtain rfl := Option.some.inj hname'
        rw [if_pos rfl, Option.some.injEq] at hc'
        rw [← hc'] at hcompleted
        cases hcompleted
      · have hi : i ≠ m.batches.length := Nat.ne_of_lt (hgrounded _ _ hname')
        rw [if_neg hi] at hc'
        exact h.inUse hname' ⟨c, hc', hcompleted⟩

end Current

end Manager

namespace World

variable {σ : Type} {w w' : World σ} {step : Step} {answer : Answer} {name : String} {s : Session}
  {id : BatchId} {b : SharedBatch}

/-- The registry refers to batches in use, each under the unit of work of all who hold it. -/
structure Tracked (w : World σ) : Prop where
  grounded : w.Grounded
  current : w.manager.Current
  owned : ∀ {name s work id}, w.session? name = some s → s.batch = some id →
    w.manager.registry.get? work = some id → s.work = work

namespace Tracked

/-- No session joins a batch, and no batch comes to be registered. -/
theorem retain (hw : w.Tracked) (hgrounded : w'.Grounded) (hcurrent : w'.manager.Current)
    (hsessions : ∀ {n s}, w'.session? n = some s → s.batch ≠ none → w.session? n = some s)
    (hregistry : ∀ {work i}, w'.manager.registry.get? work = some i →
      w.manager.registry.get? work = some i) : w'.Tracked where
  grounded := hgrounded
  current := hcurrent
  owned {n s work i} hs hbatch hwork := by
    have hheld : s.batch ≠ none := by simp [hbatch]
    exact hw.owned (hsessions hs hheld) hbatch (hregistry hwork)

theorem owned_of_held (hw : w.Tracked) (hs : w.session? name = some s) (hbatch : s.batch = some id)
    {other : WorkId} (hother : w.manager.registry.get? other = some id) : other = s.work :=
  (hw.owned hs hbatch hother).symm

/-- A registered batch is there and in use. -/
theorem exists_batch? (hw : w.Tracked) {work : WorkId}
    (hwork : w.manager.registry.get? work = some id) :
    ∃ b, w.manager.batch? id = some b ∧ b.completed = false := by
  have hlt := hw.grounded.registered _ _ hwork
  have hb : w.manager.batch? id = some w.manager.batches[id] := List.getElem?_eq_getElem hlt
  exact ⟨_, hb, by simpa using fun hcompleted => hw.current.inUse hwork ⟨_, hb, hcompleted⟩⟩

theorem acquire (hw : w.Tracked) {work : WorkId} {partition : Partition}
    {answer : Except SessionError BatchId} {m : Manager σ}
    (hacquire : w.manager.acquire work partition = (answer, m)) (hgrounded : m.Grounded)
    (hgrows : w.manager.batches.length ≤ m.batches.length) : { w with manager := m }.Tracked where
  grounded := hw.grounded.setManager hgrounded hgrows
  current := hw.current.acquire hw.grounded.registered hacquire
  owned {n s other i} hs hbatch hother := by
    have hcases := w.manager.acquired work partition
    rw [hacquire] at hcases
    cases hcases with
    | found | mismatched => exact hw.owned hs hbatch hother
    | entered =>
      have hother' := (w.manager.registry_enter work other partition).symm.trans hother
      split at hother'
      · have hi := hw.grounded.held hs hbatch
        rw [← Option.some.inj hother'] at hi
        exact absurd hi (Nat.lt_irrefl _)
      · exact hw.owned hs hbatch hother'

/-- A session joins the batch that its unit of work is registered with. -/
theorem join {m : Manager σ} (hw : ({ w with manager := m } : World σ).Tracked)
    (hs : s.batch = some id) (hwork : m.registry.get? s.work = some id)
    (hgrounded : (w.setSession name s (m.modifyBatch id SharedBatch.join)).Grounded) :
    (w.setSession name s (m.modifyBatch id SharedBatch.join)).Tracked where
  grounded := hgrounded
  current := by
    have hlt := hw.grounded.registered _ _ hwork
    have hb : m.batch? id = some m.batches[id] := List.getElem?_eq_getElem hlt
    show (m.modifyBatch id SharedBatch.join).Current
    rw [Manager.modifyBatch_eq hb]
    exact hw.current.setBatch hb rfl
  owned {n s' other i} hs' hbatch hother := by
    rw [session?_setSession] at hs'
    split at hs'
    · obtain rfl := Option.some.inj hs'
      obtain rfl := Option.some.inj (hs.symm.trans hbatch)
      exact hw.current.unique hother hwork
    · exact hw.owned hs' hbatch hother

end Tracked

variable [TableStore σ]

theorem Outcome.tracked (h : w.Outcome step answer w') (hw : w.Tracked) : w'.Tracked := by
  have hgrounded := h.grounded hw.grounded
  have hset : ∀ {name s m n s'}, s.batch = none →
      (w.setSession name s m).session? n = some s' → s'.batch ≠ none → w.session? n = some s' := by
    intro name s m n s' hnone hs' hheld
    rw [session?_setSession] at hs'
    split at hs'
    · obtain rfl := Option.some.inj hs'
      exact absurd hnone hheld
    · exact hs'
  have herase : ∀ {name m n s'},
      ({ manager := m, sessions := w.sessions.erase name } : World σ).session? n = some s' →
        w.session? n = some s' := by
    intro name m n s' hs'
    rw [session?_erase] at hs'
    split at hs'
    · cases hs'
    · exact hs'
  have hclose : ∀ {work i c other j} {m : Manager σ},
      m.registry = w.manager.registry → (m.close work i c).registry.get? other = some j →
        w.manager.registry.get? other = some j := by
    intro work i c other j m hm hother
    rw [Manager.registry_close, hm] at hother
    split at hother
    · cases hother
    · exact hother
  cases h with
  | misnamed | notCreated | notIdle | notStarted | notOpen | read | notAcquired => exact hw
  | created => exact hw.retain hgrounded hw.current (hset rfl) fun hwork => hwork
  | createdOpen _ hacquire | started _ _ hacquire =>
    obtain ⟨hm, hgrows⟩ := hw.grounded.registered.acquire hacquire
    exact (hw.acquire hacquire hm hgrows).join rfl (Manager.registry_of_acquire_self hacquire)
      hgrounded
  | acquired hacquire =>
    obtain ⟨hm, hgrows⟩ := hw.grounded.registered.acquire hacquire
    exact hw.acquire hacquire hm hgrows
  | enlisted _ hopen =>
    have hb := (Session.ensureOpen_eq_ok_iff.1 hopen).2.2.1
    exact hw.retain hgrounded (hw.current.setBatch hb (by simp)) (fun hs _ => hs)
      fun hwork => hwork
  | @completed _ _ s id b b' _ store hs hopen =>
    obtain ⟨_, hbatch, hb, _⟩ := Session.ensureOpen_eq_ok_iff.1 hopen
    have hstored : ({ w.manager with store } : Manager σ).Current :=
      ⟨hw.current.unique, hw.current.inUse⟩
    have hb' : ({ w.manager with store } : Manager σ).batch? id = some b := hb
    have hcurrent := hstored.close hb' (hw.owned_of_held hs hbatch) b'
    exact hw.retain hgrounded hcurrent (hset rfl) (hclose rfl)
  | panicked hs =>
    refine ⟨hgrounded, hw.current, fun {n s' work i} hs' hbatch hwork => ?_⟩
    rw [session?_setSession] at hs'
    split at hs'
    · obtain rfl := Option.some.inj hs'
      have howned := hw.owned hs hbatch hwork
      exact howned
    · exact hw.owned hs' hbatch hwork
  | @aborted _ _ _ b hs hopen =>
    obtain ⟨_, hbatch, hb, _⟩ := Session.ensureOpen_eq_ok_iff.1 hopen
    have hcurrent := hw.current.close hb (hw.owned_of_held hs hbatch) b
    exact hw.retain hgrounded hcurrent (hset rfl) (hclose rfl)
  | dropped => exact hw.retain hgrounded hw.current (fun hs _ => herase hs) fun hwork => hwork
  | detached hs hstate hbatch hb =>
    refine hw.retain hgrounded ?_ (fun hs _ => herase hs) ?_
    · dsimp only
      split
      · exact hw.current.setBatch hb rfl
      · exact hw.current.close hb (hw.owned_of_held hs hbatch) _
    · dsimp only
      split
      · exact fun hwork => hwork
      · exact hclose rfl
  | released work =>
    refine hw.retain hgrounded (hw.current.release work) (fun hs _ => hs) fun {other i} hother => ?_
    rw [Manager.release, SortedMap.get?_erase] at hother
    split at hother
    · cases hother
    · exact hother
  | registered _ hb | abandoned hb | poisoned hb =>
    exact hw.retain hgrounded (hw.current.setBatch hb (by simp)) (fun hs _ => hs)
      fun hwork => hwork
  | @committed id b b' timeLeft _ store hb hcommit =>
    have hstored : ({ w.manager with store } : Manager σ).Current :=
      ⟨hw.current.unique, hw.current.inUse⟩
    have hb' : ({ w.manager with store } : Manager σ).batch? id = some b := hb
    have hkeeps := b.completed_commit w.manager.store timeLeft
    rw [hcommit] at hkeeps
    exact hw.retain hgrounded (hstored.setBatch hb' hkeeps) (fun hs _ => hs) fun hwork => hwork

theorem Tracked.fresh (store : σ) (config : SessionConfig) : (fresh store config).Tracked where
  grounded := ⟨nofun, fun hs => nomatch hs⟩
  current := ⟨nofun, fun hwork => nomatch hwork⟩
  owned hs := nomatch hs

theorem Tracked.after (hw : w.Tracked) (steps : List Step) : (w.after steps).Tracked := by
  induction steps generalizing w with
  | nil => exact hw
  | cons step steps ih => exact ih ((w.outcome step).tracked hw)

theorem Reachable.tracked (h : w.Reachable) : w.Tracked := by
  obtain ⟨store, config, steps, rfl⟩ := h
  exact (Tracked.fresh store config).after steps

theorem Reachable.holdersOpened (h : w.Reachable) : w.HoldersOpened := by
  obtain ⟨store, config, steps, rfl⟩ := h
  have hempty : (World.fresh store config).HoldersOpened := nofun
  exact holdersOpened_after hempty steps

/-- A step of a session that holds a batch concerns no other batch. -/
theorem untouched_of_held (hopened : w.HoldersOpened) (hs : w.session? name = some s)
    (hbatch : s.batch = some id) (hname : step.session? = some name) {i : BatchId} (hi : i ≠ id)
    (hb : w.manager.batch? i = some b) : w.Untouched i (w.step step).2 := by
  have hstate : s.state ≠ .idle := hopened name s hs (by simp [hbatch])
  have houtcome := w.outcome step
  have hheld : ∀ {n}, step.session? = some n →
      ¬ ∃ s', w.session? n = some s' ∧ s'.batch = some i := by
    rintro n hn ⟨s', hs', hbatch'⟩
    obtain rfl := Option.some.inj (hn.symm.trans hname)
    obtain rfl := Option.some.inj (hs.symm.trans hs')
    exact hi (Option.some.inj (hbatch'.symm.trans hbatch))
  cases step with
  | create => exact houtcome.untouched hb nofun
  | createOpen n work partition =>
    obtain rfl := Option.some.inj hname
    have hexists : w.session? n ≠ none := by simp [hs]
    generalize w.step (.createOpen n work partition) = stepped at houtcome
    obtain ⟨answer, w'⟩ := stepped
    cases houtcome with
    | misnamed => exact .refl i _
    | notCreated hnew | createdOpen hnew => exact absurd hnew hexists
    | notOpen _ _ hcall => simp [Step.isCallOf] at hcall
  | start n =>
    obtain rfl := Option.some.inj hname
    generalize w.step (.start n) = stepped at houtcome
    obtain ⟨answer, w'⟩ := stepped
    cases houtcome with
    | misnamed | notIdle | notStarted => exact .refl i _
    | started hs' hidle =>
      obtain rfl := Option.some.inj (hs.symm.trans hs')
      exact absurd hidle hstate
    | notOpen _ _ hcall => simp [Step.isCallOf] at hcall
  | read | enlist | complete | abort | drop => exact houtcome.untouched hb (hheld rfl)
  | _ => cases hname

/-- Steps that open a session. -/
def Opens (name : String) (step : Step) : Prop :=
  step = .start name ∨ ∃ work partition, step = .createOpen name work partition

/-- A session that has been opened is joined to a batch that is in use. -/
theorem Outcome.ensureOpen (h : w.Outcome step .done w') (hw : w.Tracked)
    (hopens : Opens name step) :
    ∃ s id b, w'.session? name = some s ∧ s.ensureOpen w'.manager = .ok (id, b) := by
  have hjoined : ∀ {work partition id m s}, w.manager.acquire work partition = (.ok id, m) →
      s.state = .open → s.batch = some id →
        ∃ s' i b, (w.setSession name s (m.modifyBatch id SharedBatch.join)).session? name =
          some s' ∧ s'.ensureOpen (m.modifyBatch id SharedBatch.join) = .ok (i, b) := by
    intro work partition id m s hacquire hstate hbatch
    obtain ⟨hm, hgrows⟩ := hw.grounded.registered.acquire hacquire
    obtain ⟨b, hb, hopen⟩ := (hw.acquire hacquire hm hgrows).exists_batch?
      (Manager.registry_of_acquire_self hacquire)
    have hb' : m.batch? id = some b := hb
    refine ⟨s, id, b.join, session?_setSession_self .., ?_⟩
    rw [Manager.modifyBatch_eq hb']
    exact Session.ensureOpen_eq_ok_iff.2
      ⟨hstate, hbatch, (Manager.batch?_setBatch hb' _ _).trans (if_pos rfl), hopen⟩
  rcases hopens with rfl | ⟨work, partition, rfl⟩
  · cases h with
    | started _ _ hacquire => exact hjoined hacquire rfl rfl
  · cases h with
    | createdOpen _ hacquire => exact hjoined hacquire rfl rfl

/--
However often the registry lets go of a unit of work that is still in progress, a session acts on
the batch it is joined to and on no other: the pending operations, the counts and the registration
of every other batch stay as they are. The registry refers to batches in use only, so whoever opens
a session can enlist at once.
-/
theorem stale_session_harmless {σ : Type} [TableStore σ] (w : World σ) (hw : w.Reachable) :
    (∀ name s id step, w.session? name = some s → s.batch = some id →
      step.session? = some name →
        (∀ i b, i ≠ id → w.manager.batch? i = some b →
          (w.step step).2.manager.batch? i = some b) ∧
        ∀ work i, i ≠ id → w.manager.registry.get? work = some i →
          (w.step step).2.manager.registry.get? work = some i) ∧
      (∀ work id, w.manager.registry.get? work = some id →
        ∃ b, w.manager.batch? id = some b ∧ b.completed = false) ∧
      ∀ name step w', Opens name step → w.step step = (.done, w') →
        ∃ s id b, w'.session? name = some s ∧ s.state = .open ∧ s.batch = some id ∧
          w'.manager.batch? id = some b ∧ b.completed = false ∧
          ∀ op, (w'.step (.enlist name op)).1 ≠ .refused .alreadyCompleted := by
  have htracked := hw.tracked
  refine ⟨fun name s id step hs hbatch hname => ⟨?_, ?_⟩, fun _ _ => htracked.exists_batch?, ?_⟩
  · intro i b hi hb
    exact (untouched_of_held hw.holdersOpened hs hbatch hname hi hb).manager.batch.trans hb
  · intro work i hi hwork
    obtain ⟨b, hb, _⟩ := htracked.exists_batch? hwork
    exact ((untouched_of_held hw.holdersOpened hs hbatch hname hi hb).manager.registered work).2 hwork
  · intro name step w' hopens hstep
    have houtcome := w.outcome step
    rw [hstep] at houtcome
    obtain ⟨s, id, b, hs, hopen⟩ := houtcome.ensureOpen htracked hopens
    obtain ⟨hstate, hbatch, hb, hcompleted⟩ := Session.ensureOpen_eq_ok_iff.1 hopen
    refine ⟨s, id, b, hs, hstate, hbatch, hb, hcompleted, fun op hanswer => ?_⟩
    rw [step_enlist hs hopen] at hanswer
    have hregister := b.register_ne_alreadyCompleted op
    cases hregistered : (b.register op).1 with
    | ok _ => simp [hregistered, Answer.ofUnit] at hanswer
    | error e =>
      rw [hregistered, Answer.ofUnit, Answer.refused.injEq] at hanswer
      exact hregister (hanswer ▸ hregistered)

private theorem validKey_berths : ValidKey "b" := by decide

private def berths : Partition := ⟨"Berths", "b", by decide, validKey_berths⟩

private def berthOf (row : String) : Operation := Operation.insert ⟨"b", row⟩ ∅

/-- The registry lets go of a batch with pending work, and a newer one takes its place. -/
private def reopened : World MemoryStore :=
  (fresh ({ config := {} } : MemoryStore) {}).after
    [.createOpen "old" "w" berths, .enlist "old" (berthOf "x"), .release "w",
      .createOpen "new" "w" berths, .enlist "new" (berthOf "y")]

private def newer : SharedBatch := ((SharedBatch.create berths {}).join.register (berthOf "y")).2

theorem stale_session_harmless_reopened :
    reopened.Reachable ∧
      reopened.session? "old" =
        some { work := "w", partition := berths, state := .open, batch := some 0 } ∧
      reopened.manager.batch? 1 = some newer ∧ newer.pending.ops = [berthOf "y"] ∧
      (reopened.step (.complete "old" .start)).1 = .rows [⟨"x", some (Token.ofVersion 1)⟩] ∧
      (reopened.step (.complete "old" .start)).2.manager.batch? 1 = some newer ∧
      (reopened.step (.complete "old" .start)).2.manager.registry.get? "w" = some 1 := by
  have hreachable : reopened.Reachable := ⟨_, _, _, rfl⟩
  have hs : reopened.session? "old" =
      some { work := "w", partition := berths, state := .open, batch := some 0 } := by
    decide +kernel
  have hb : reopened.manager.batch? 1 = some newer := by decide +kernel
  have hkept := (stale_session_harmless reopened hreachable).1 "old" _ 0 (.complete "old" .start)
    hs rfl rfl
  exact ⟨hreachable, hs, hb, by decide +kernel, by decide +kernel, hkept.1 1 _ (by decide) hb,
    hkept.2 "w" 1 (by decide) (by decide +kernel)⟩

end World

end UnitOfWork
