import UnitOfWork.Proofs.Session.Manager
import UnitOfWork.Session.World

/-! All that a step of a world can come to. -/

namespace UnitOfWork

/-- The calls to a session that need it to be open. -/
def Step.isCallOf (name : String) : Step → Bool
  | .read n _ | .enlist n _ | .complete n _ | .abort n => n = name
  | _ => false

/-- The clock can tell the deadline of the commit that a step asks for, if there is to be one. -/
def Step.tellsDeadline (config : SessionConfig) : Step → Bool
  | .complete _ now => config.tellsDeadline now
  | _ => true

/-- The session that a step creates or calls. -/
def Step.session? : Step → Option String
  | .create n _ _ | .createOpen n _ _ | .start n | .read n _ | .enlist n _ | .complete n _
  | .abort n | .drop n => some n
  | _ => none

namespace Session

variable {σ : Type} {s : Session} {m : Manager σ} {id : BatchId} {b : SharedBatch}

theorem ensureOpen_eq_ok_iff :
    s.ensureOpen m = .ok (id, b) ↔
      s.state = .open ∧ s.batch = some id ∧ m.batch? id = some b ∧ b.completed = false := by
  unfold ensureOpen
  split
  · rename_i hstate
    simp [hstate]
  · rename_i i hstate hbatch
    cases hfound : m.batch? i with
    | none =>
      refine ⟨nofun, fun ⟨_, hid, hb, _⟩ => ?_⟩
      rw [hbatch, Option.some.injEq] at hid
      rw [← hid, hfound] at hb
      cases hb
    | some found =>
      by_cases hcompleted : found.completed = true
      · simp only [if_pos hcompleted, hstate, hbatch]
        refine ⟨nofun, fun ⟨_, hid, hb, hopen⟩ => ?_⟩
        rw [← Option.some.inj hid, hfound, Option.some.injEq] at hb
        rw [hb, hopen] at hcompleted
        cases hcompleted
      · simp only [if_neg hcompleted, hstate, hbatch, Except.ok.injEq, Prod.mk.injEq,
          Option.some.injEq, true_and]
        constructor
        · rintro ⟨rfl, rfl⟩
          exact ⟨rfl, hfound, by simpa using hcompleted⟩
        · rintro ⟨rfl, hb, _⟩
          exact ⟨rfl, Option.some.inj (hfound.symm.trans hb)⟩
  · rename_i hidle hopen
    refine ⟨nofun, fun ⟨hstate, hid, _⟩ => ?_⟩
    exact absurd hid (hopen id hstate)

theorem eq_of_ensureOpen_error {e : SessionError} (h : s.ensureOpen m = .error e) :
    e = .notOpen ∨ e = .alreadyCompleted := by
  unfold ensureOpen at h
  split at h
  · cases h
    exact .inl rfl
  · split at h
    · split at h
      · cases h
        exact .inr rfl
      · cases h
    · cases h
      exact .inr rfl
  · cases h
    exact .inr rfl

theorem ensureOpen_of_idle (h : s.state = .idle) (m : Manager σ) :
    s.ensureOpen m = .error .notOpen := by
  unfold ensureOpen
  rw [h]

/-- A session that neither waits to be opened nor is open is told that it has ended. -/
theorem ensureOpen_of_past (hidle : s.state ≠ .idle) (hopen : s.state ≠ .open) (m : Manager σ) :
    s.ensureOpen m = .error .alreadyCompleted := by
  unfold ensureOpen
  split
  · exact absurd ‹_› hidle
  · exact absurd ‹_› hopen
  · rfl

theorem ensureOpen_of_isTerminal (h : s.state.isTerminal = true) (m : Manager σ) :
    s.ensureOpen m = .error .alreadyCompleted := by
  have hne : ∀ state : SessionState, state.isTerminal = false → s.state ≠ state := by
    intro state hstate heq
    rw [heq, hstate] at h
    cases h
  exact ensureOpen_of_past (hne .idle rfl) (hne .open rfl) m

/-- How a session ends that tried to complete its unit of work. -/
def endState {α : Type} : Except SessionError α → SessionState
  | .ok _ => .committed
  | .error _ => .aborted

theorem endState_ne_idle {α : Type} (answer : Except SessionError α) :
    endState answer ≠ .idle := by
  cases answer <;> simp [endState]

theorem endState_ne_open {α : Type} (answer : Except SessionError α) :
    endState answer ≠ .open := by
  cases answer <;> simp [endState]

theorem finish_setBatch (hbatch : s.batch = some id) (hb : m.batch? id = some b)
    (b' : SharedBatch) (state : SessionState) :
    s.finish (m.setBatch id b'.discard) state =
      ({ s with state, batch := none }, m.close s.work id b') := by
  have hset : (m.setBatch id b'.discard).batch? id = some b'.discard := by
    rw [Manager.batch?_setBatch hb, if_pos rfl]
  rw [finish, hbatch]
  dsimp only
  rw [Manager.modifyBatch_eq hset, Manager.setBatch_setBatch, Manager.close]

theorem abort_eq (h : s.ensureOpen m = .ok (id, b)) :
    s.abort m = (.ok (), { s with state := .aborted, batch := none }, m.close s.work id b) := by
  obtain ⟨_, hbatch, hb, _⟩ := ensureOpen_eq_ok_iff.1 h
  rw [abort, h]
  dsimp only
  rw [finish_setBatch hbatch hb]

theorem complete_of_error [TableStore σ] {e : SessionError} (h : s.ensureOpen m = .error e)
    (now : Instant) : s.complete m now = (some (.error e), s, m) := by
  rw [complete, h]

/-- The call panics: the session is left committing, and all that is shared as it was. -/
theorem complete_of_lost [TableStore σ] {now : Instant} (h : s.ensureOpen m = .ok (id, b))
    (hlost : m.config.tellsDeadline now = false) :
    s.complete m now = (none, { s with state := .committing }, m) := by
  rw [complete, h]
  dsimp only
  rw [if_neg (by simp [hlost])]

theorem complete_eq [TableStore σ] (h : s.ensureOpen m = .ok (id, b))
    {answer : Except SessionError (List CommittedRow)} {b' : SharedBatch} {store : σ}
    (hcommit : b.commit m.store m.config.commitTimeout = (answer, b', store)) {now : Instant}
    (htold : m.config.tellsDeadline now = true) :
    s.complete m now =
      (some answer, { s with state := endState answer, batch := none },
        { m with store }.close s.work id b') := by
  obtain ⟨_, hbatch, hb, _⟩ := ensureOpen_eq_ok_iff.1 h
  have hfinish := @finish_setBatch σ s { m with store } id b hbatch hb b'
  rw [complete, h]
  dsimp only
  rw [if_pos htold, conclude, hcommit]
  cases answer <;> simp only [hfinish, endState]

theorem drop_eq (hstate : s.state = .open) (hbatch : s.batch = some id)
    (hb : m.batch? id = some b) :
    s.drop m =
      if 0 < b.leave.participants then m.setBatch id b.leave else m.close s.work id b := by
  rw [drop, hstate, hbatch]
  dsimp only
  simp only [hb, Manager.close, SharedBatch.discard_leave]

/-- A session that is not joined to a batch goes away without a trace. -/
theorem drop_eq_self (h : ∀ id, s.state = .open → s.batch = some id → m.batch? id = none) :
    s.drop m = m := by
  unfold drop
  split
  · rename_i id hstate hbatch
    rw [h id hstate hbatch]
  · rfl

end Session

theorem Answer.ofUnit_ne_panicked (answer : Except SessionError Unit) :
    ofUnit answer ≠ .panicked := by
  cases answer <;> simp [ofUnit]

theorem Answer.ofRows_ne_panicked (answer : Except SessionError (List CommittedRow)) :
    ofRows answer ≠ .panicked := by
  cases answer <;> simp [ofRows]

namespace World

variable {σ : Type}

theorem session?_eq_none {w : World σ} {name : String} (h : ¬ w.sessions.contains name = true) :
    w.session? name = none := by
  rw [session?]
  simpa [SortedMap.contains] using h

theorem session?_ne_none {w : World σ} {name : String} (h : w.sessions.contains name = true) :
    w.session? name ≠ none := by
  rw [session?]
  simpa [SortedMap.contains, Option.isSome_iff_ne_none] using h

theorem session?_setSession (w : World σ) (name : String) (s : Session) (m : Manager σ)
    (n : String) :
    (w.setSession name s m).session? n = if n = name then some s else w.session? n :=
  SortedMap.get?_insert ..

@[simp] theorem session?_setSession_self (w : World σ) (name : String) (s : Session)
    (m : Manager σ) : (w.setSession name s m).session? name = some s :=
  SortedMap.get?_insert_self ..

theorem session?_erase (w : World σ) (m : Manager σ) (name n : String) :
    ({ manager := m, sessions := w.sessions.erase name } : World σ).session? n =
      if n = name then none else w.session? n :=
  SortedMap.get?_erase ..

@[simp] theorem session?_erase_self (w : World σ) (m : Manager σ) (name : String) :
    ({ manager := m, sessions := w.sessions.erase name } : World σ).session? name = none :=
  (w.session?_erase m name name).trans (if_pos rfl)

theorem setSession_setSession (w : World σ) (name : String) (s s' : Session) (m m' : Manager σ) :
    (w.setSession name s m).setSession name s' m' = w.setSession name s' m' := by
  simp only [setSession, SortedMap.insert_insert]

/-- Putting back a session as it was changes nothing. -/
theorem setSession_self {w : World σ} {name : String} {s : Session}
    (hs : w.session? name = some s) : w.setSession name s w.manager = w := by
  rw [setSession, SortedMap.insert_eq_self hs]

theorem setSession_manager {w : World σ} {name : String} {s : Session}
    (hs : w.session? name = some s) (m : Manager σ) :
    w.setSession name s m = { w with manager := m } := by
  rw [setSession, SortedMap.insert_eq_self hs]

variable [TableStore σ]

/-- The step creates a session that is there, or calls one or acts on a batch that is not. -/
def Misnames (w : World σ) : Step → Prop
  | .create name _ _ | .createOpen name _ _ => w.session? name ≠ none
  | .start name | .read name _ | .enlist name _ | .complete name _ | .abort name | .drop name =>
    w.session? name = none
  | .register id _ | .commit id _ | .abandon id | .poison id => w.manager.batch? id = none
  | .acquire _ _ | .release _ => False

/-- All that a step can come to. -/
inductive Outcome (w : World σ) : Step → Answer → World σ → Prop
  | misnamed {step : Step} (h : w.Misnames step) : Outcome w step .misnamed w
  | created {name : String} (work : WorkId) (partition : Partition)
      (hnew : w.session? name = none) :
      Outcome w (.create name work partition) .done
        (w.setSession name { work, partition } w.manager)
  | notCreated {name : String} {work : WorkId} {partition : Partition} {e : SessionError}
      (hnew : w.session? name = none)
      (hacquire : w.manager.acquire work partition = (.error e, w.manager)) :
      Outcome w (.createOpen name work partition) (.refused e) w
  | createdOpen {name : String} {work : WorkId} {partition : Partition} {id : BatchId}
      {m : Manager σ} (hnew : w.session? name = none)
      (hacquire : w.manager.acquire work partition = (.ok id, m)) :
      Outcome w (.createOpen name work partition) .done
        (w.setSession name { work, partition, state := .open, batch := some id }
          (m.modifyBatch id SharedBatch.join))
  | notIdle {name : String} {s : Session} (hs : w.session? name = some s)
      (hstate : s.state ≠ .idle) : Outcome w (.start name) (.refused .alreadyCompleted) w
  | notStarted {name : String} {s : Session} {e : SessionError} (hs : w.session? name = some s)
      (hstate : s.state = .idle)
      (hacquire : w.manager.acquire s.work s.partition = (.error e, w.manager)) :
      Outcome w (.start name) (.refused e) w
  | started {name : String} {s : Session} {id : BatchId} {m : Manager σ}
      (hs : w.session? name = some s) (hstate : s.state = .idle)
      (hacquire : w.manager.acquire s.work s.partition = (.ok id, m)) :
      Outcome w (.start name) .done
        (w.setSession name { s with state := .open, batch := some id }
          (m.modifyBatch id SharedBatch.join))
  | notOpen {name : String} {s : Session} {step : Step} {e : SessionError}
      (hs : w.session? name = some s) (hopen : s.ensureOpen w.manager = .error e)
      (hcall : step.isCallOf name = true) : Outcome w step (.refused e) w
  | read {name row : String} {s : Session} {id : BatchId} {b : SharedBatch}
      (hs : w.session? name = some s) (hopen : s.ensureOpen w.manager = .ok (id, b)) :
      Outcome w (.read name row)
        (match (TableStore.read w.manager.store s.partition.table s.partition.key row).mapError
            SessionError.ofStorage with
          | .ok found => .entity found
          | .error e => .refused e) w
  | enlisted {name : String} {op : Operation} {s : Session} {id : BatchId} {b : SharedBatch}
      (hs : w.session? name = some s) (hopen : s.ensureOpen w.manager = .ok (id, b)) :
      Outcome w (.enlist name op) (.ofUnit (b.register op).1)
        { w with manager := w.manager.setBatch id (b.register op).2 }
  | completed {name : String} {now : Instant} {s : Session} {id : BatchId} {b b' : SharedBatch}
      {answer : Except SessionError (List CommittedRow)} {store : σ}
      (hs : w.session? name = some s) (hopen : s.ensureOpen w.manager = .ok (id, b))
      (hcommit : b.commit w.manager.store w.manager.config.commitTimeout = (answer, b', store))
      (htold : w.manager.config.tellsDeadline now = true) :
      Outcome w (.complete name now) (.ofRows answer)
        (w.setSession name { s with state := Session.endState answer, batch := none }
          ({ w.manager with store }.close s.work id b'))
  | panicked {name : String} {now : Instant} {s : Session} {id : BatchId} {b : SharedBatch}
      (hs : w.session? name = some s) (hopen : s.ensureOpen w.manager = .ok (id, b))
      (hlost : w.manager.config.tellsDeadline now = false) :
      Outcome w (.complete name now) .panicked
        (w.setSession name { s with state := .committing } w.manager)
  | aborted {name : String} {s : Session} {id : BatchId} {b : SharedBatch}
      (hs : w.session? name = some s) (hopen : s.ensureOpen w.manager = .ok (id, b)) :
      Outcome w (.abort name) .done
        (w.setSession name { s with state := .aborted, batch := none }
          (w.manager.close s.work id b))
  | dropped {name : String} {s : Session} (hs : w.session? name = some s)
      (hdetached : ∀ id, s.state = .open → s.batch = some id → w.manager.batch? id = none) :
      Outcome w (.drop name) .done { w with sessions := w.sessions.erase name }
  | detached {name : String} {s : Session} {id : BatchId} {b : SharedBatch}
      (hs : w.session? name = some s) (hstate : s.state = .open) (hbatch : s.batch = some id)
      (hb : w.manager.batch? id = some b) :
      Outcome w (.drop name) .done
        { manager := if 0 < b.leave.participants then w.manager.setBatch id b.leave
            else w.manager.close s.work id b
          sessions := w.sessions.erase name }
  | notAcquired {work : WorkId} {partition : Partition} {e : SessionError}
      (hacquire : w.manager.acquire work partition = (.error e, w.manager)) :
      Outcome w (.acquire work partition) (.refused e) w
  | acquired {work : WorkId} {partition : Partition} {id : BatchId} {m : Manager σ}
      (hacquire : w.manager.acquire work partition = (.ok id, m)) :
      Outcome w (.acquire work partition) (.batch id) { w with manager := m }
  | released (work : WorkId) :
      Outcome w (.release work) .done { w with manager := w.manager.release work }
  | registered {id : BatchId} {b : SharedBatch} (op : Operation)
      (hb : w.manager.batch? id = some b) :
      Outcome w (.register id op) (.ofUnit (b.register op).1)
        { w with manager := w.manager.setBatch id (b.register op).2 }
  | committed {id : BatchId} {b b' : SharedBatch} {timeLeft : Option Duration}
      {answer : Except SessionError (List CommittedRow)} {store : σ}
      (hb : w.manager.batch? id = some b)
      (hcommit : b.commit w.manager.store timeLeft = (answer, b', store)) :
      Outcome w (.commit id timeLeft) (.ofRows answer)
        { w with manager := { w.manager with store }.setBatch id b' }
  | abandoned {id : BatchId} {b : SharedBatch} (hb : w.manager.batch? id = some b) :
      Outcome w (.abandon id) (.ofUnit b.abandon.1)
        { w with manager := w.manager.setBatch id b.abandon.2 }
  | poisoned {id : BatchId} {b : SharedBatch} (hb : w.manager.batch? id = some b) :
      Outcome w (.poison id) .done
        { w with manager := w.manager.setBatch id { b with poisoned := true } }

theorem outcome_call {w : World σ} {step : Step} {name : String}
    {f : Session → Manager σ → Answer × Session × Manager σ} (hstep : w.step step = w.call name f)
    (hnone : w.session? name = none → w.Misnames step)
    (h : ∀ s, w.session? name = some s → Outcome w step (f s w.manager).1
      (w.setSession name (f s w.manager).2.1 (f s w.manager).2.2)) :
    Outcome w step (w.step step).1 (w.step step).2 := by
  rw [hstep, call]
  cases hs : w.session? name with
  | none => exact .misnamed (hnone hs)
  | some s => exact h s hs

theorem outcome_onBatch {w : World σ} {step : Step} {id : BatchId}
    {f : SharedBatch → σ → Answer × SharedBatch × σ} (hstep : w.step step = w.onBatch id f)
    (hnone : w.manager.batch? id = none → w.Misnames step)
    (h : ∀ b, w.manager.batch? id = some b → Outcome w step (f b w.manager.store).1
      { w with
        manager := { w.manager with store := (f b w.manager.store).2.2 }.setBatch id
          (f b w.manager.store).2.1 }) :
    Outcome w step (w.step step).1 (w.step step).2 := by
  rw [hstep, onBatch]
  cases hb : w.manager.batch? id with
  | none => exact .misnamed (hnone hb)
  | some b => exact h b hb

theorem outcome (w : World σ) (step : Step) :
    Outcome w step (w.step step).1 (w.step step).2 := by
  cases step with
  | create name work partition =>
    rw [World.step, World.create]
    by_cases hexists : w.sessions.contains name = true
    · rw [if_pos hexists]
      exact .misnamed (session?_ne_none hexists)
    · rw [if_neg hexists]
      exact .created work partition (session?_eq_none hexists)
  | createOpen name work partition =>
    rw [World.step, World.createOpen]
    by_cases hexists : w.sessions.contains name = true
    · rw [if_pos hexists]
      exact .misnamed (session?_ne_none hexists)
    · have hnew := session?_eq_none hexists
      rw [if_neg hexists, Session.start, if_neg (by simp)]
      dsimp only
      cases hacquire : w.manager.acquire work partition with
      | mk answer m =>
        cases answer with
        | error e =>
          obtain rfl := Manager.eq_of_acquire_error hacquire
          exact .notCreated hnew hacquire
        | ok id => exact .createdOpen hnew hacquire
  | start name =>
    refine @outcome_call σ _ w _ name World.start rfl (fun h => h) fun s hs => ?_
    rw [World.start, Session.start]
    by_cases hstate : s.state = .idle
    · rw [if_neg (by simpa using hstate)]
      cases hacquire : w.manager.acquire s.work s.partition with
      | mk answer m =>
        cases answer with
        | error e =>
          obtain rfl := Manager.eq_of_acquire_error hacquire
          dsimp only
          rw [setSession_self hs]
          exact .notStarted hs hstate hacquire
        | ok id => exact .started hs hstate hacquire
    · rw [if_pos hstate]
      dsimp only
      rw [setSession_self hs]
      exact .notIdle hs hstate
  | read name row =>
    refine @outcome_call σ _ w _ name (World.read row) rfl (fun h => h) fun s hs => ?_
    rw [World.read, Session.read]
    cases hopen : s.ensureOpen w.manager with
    | error e =>
      dsimp only
      rw [setSession_self hs]
      exact .notOpen hs hopen (by simp [Step.isCallOf])
    | ok joined =>
      have hread := @Outcome.read σ _ w name row s joined.1 joined.2 hs hopen
      dsimp only
      cases hfound : (TableStore.read w.manager.store s.partition.table s.partition.key
          row).mapError SessionError.ofStorage with
      | error e =>
        rw [hfound] at hread
        dsimp only
        rwa [setSession_self hs]
      | ok found =>
        rw [hfound] at hread
        dsimp only
        rwa [setSession_self hs]
  | enlist name op =>
    refine @outcome_call σ _ w _ name (World.enlist op) rfl (fun h => h) fun s hs => ?_
    rw [World.enlist, Session.enlist]
    cases hopen : s.ensureOpen w.manager with
    | error e =>
      dsimp only
      rw [setSession_self hs]
      exact .notOpen hs hopen (by simp [Step.isCallOf])
    | ok joined =>
      dsimp only
      rw [setSession_manager hs]
      exact .enlisted hs hopen
  | complete name now =>
    refine @outcome_call σ _ w _ name (World.complete now) rfl (fun h => h) fun s hs => ?_
    rw [World.complete]
    cases hopen : s.ensureOpen w.manager with
    | error e =>
      rw [Session.complete_of_error hopen]
      dsimp only
      rw [setSession_self hs]
      exact .notOpen hs hopen (by simp [Step.isCallOf])
    | ok joined =>
      obtain ⟨id, b⟩ := joined
      cases htold : w.manager.config.tellsDeadline now with
      | false =>
        rw [Session.complete_of_lost hopen htold]
        exact .panicked hs hopen htold
      | true =>
        rw [Session.complete_eq hopen rfl htold]
        exact .completed hs hopen rfl htold
  | abort name =>
    refine @outcome_call σ _ w _ name World.abort rfl (fun h => h) fun s hs => ?_
    rw [World.abort]
    cases hopen : s.ensureOpen w.manager with
    | error e =>
      rw [Session.abort, hopen]
      dsimp only
      rw [setSession_self hs]
      exact .notOpen hs hopen (by simp [Step.isCallOf])
    | ok joined =>
      obtain ⟨id, b⟩ := joined
      rw [Session.abort_eq hopen]
      exact .aborted hs hopen
  | drop name =>
    rw [World.step, World.drop]
    cases hs : w.session? name with
    | none => exact .misnamed hs
    | some s =>
      dsimp only
      by_cases hjoined : ∃ id b, s.state = .open ∧ s.batch = some id ∧
          w.manager.batch? id = some b
      · obtain ⟨id, b, hstate, hbatch, hb⟩ := hjoined
        rw [Session.drop_eq hstate hbatch hb]
        exact .detached hs hstate hbatch hb
      · have hdetached : ∀ id, s.state = .open → s.batch = some id →
            w.manager.batch? id = none := by
          intro id hstate hbatch
          rw [Option.eq_none_iff_forall_ne_some]
          exact fun b hb => hjoined ⟨id, b, hstate, hbatch, hb⟩
        rw [Session.drop_eq_self hdetached]
        exact .dropped hs hdetached
  | acquire work partition =>
    rw [World.step, World.acquire]
    cases hacquire : w.manager.acquire work partition with
    | mk answer m =>
      cases answer with
      | error e =>
        obtain rfl := Manager.eq_of_acquire_error hacquire
        exact .notAcquired hacquire
      | ok id => exact .acquired hacquire
  | release work => exact .released work
  | register id op =>
    refine @outcome_onBatch σ _ w _ id (fun b store =>
      (.ofUnit (b.register op).1, (b.register op).2, store)) rfl (fun h => h) fun b hb => ?_
    exact .registered op hb
  | commit id timeLeft =>
    refine @outcome_onBatch σ _ w _ id (fun b store =>
      (.ofRows (b.commit store timeLeft).1, (b.commit store timeLeft).2)) rfl (fun h => h)
      fun b hb => ?_
    exact .committed hb rfl
  | abandon id =>
    refine @outcome_onBatch σ _ w _ id (fun b store =>
      (.ofUnit b.abandon.1, b.abandon.2, store)) rfl (fun h => h) fun b hb => ?_
    exact .abandoned hb
  | poison id =>
    refine @outcome_onBatch σ _ w _ id (fun b store =>
      (.done, { b with poisoned := true }, store)) rfl (fun h => h) fun b hb => ?_
    exact .poisoned hb

theorem step_of_misnames {w : World σ} {step : Step} (h : w.Misnames step) :
    w.step step = (.misnamed, w) := by
  have hcontains : ∀ {name}, w.session? name ≠ none → w.sessions.contains name = true :=
    fun {name} hname => by simpa [session?, SortedMap.contains, Option.isSome_iff_ne_none] using hname
  cases step with
  | create name | createOpen name => exact if_pos (hcontains h)
  | start name | read name | enlist name | complete name | abort name =>
    rw [World.step, call, show w.session? name = none from h]
  | drop name => rw [World.step, drop, show w.session? name = none from h]
  | acquire | release => exact h.elim
  | register id | commit id | abandon id | poison id =>
    rw [World.step, onBatch, show w.manager.batch? id = none from h]

theorem step_create {w : World σ} {name : String} (hnew : w.session? name = none) (work : WorkId)
    (partition : Partition) :
    w.step (.create name work partition) =
      (.done, w.setSession name { work, partition } w.manager) :=
  if_neg fun hexists => session?_ne_none hexists hnew

theorem step_createOpen_eq {w : World σ} {name : String} (hnew : w.session? name = none)
    (work : WorkId) (partition : Partition) :
    w.step (.createOpen name work partition) =
      match Session.start { work, partition } w.manager with
      | (.ok (), s, m) => (.done, w.setSession name s m)
      | (.error e, _, m) => (.refused e, { w with manager := m }) :=
  if_neg fun hexists => session?_ne_none hexists hnew

theorem step_start {w : World σ} {name : String} {s : Session} (hs : w.session? name = some s) :
    w.step (.start name) =
      (.ofUnit (s.start w.manager).1,
        w.setSession name (s.start w.manager).2.1 (s.start w.manager).2.2) := by
  rw [World.step, call, hs]
  rfl

/-- A read answers, and changes nothing. -/
theorem step_read {w : World σ} {name : String} {s : Session} (hs : w.session? name = some s)
    (row : String) :
    w.step (.read name row) =
      (match s.read w.manager row with
        | .ok found => .entity found
        | .error e => .refused e, w) := by
  rw [World.step, call, hs]
  dsimp only [World.read]
  cases s.read w.manager row <;> exact congrArg (Prod.mk _) (setSession_self hs)

/-- What a step does to the session of a name. -/
inductive SessionMove (name : String) :
    Step → Answer → Option Session → Option Session → Prop
  | stays (step : Step) (answer : Answer) (o : Option Session) :
      SessionMove name step answer o o
  | created (work : WorkId) (partition : Partition) :
      SessionMove name (.create name work partition) .done none (some { work, partition })
  | createdOpen (work : WorkId) (partition : Partition) (id : BatchId) :
      SessionMove name (.createOpen name work partition) .done none
        (some { work, partition, state := .open, batch := some id })
  | started {s : Session} (hstate : s.state = .idle) (id : BatchId) :
      SessionMove name (.start name) .done (some s)
        (some { s with state := .open, batch := some id })
  | completed {s : Session} (hstate : s.state = .open) (now : Instant)
      (answer : Except SessionError (List CommittedRow)) :
      SessionMove name (.complete name now) (.ofRows answer) (some s)
        (some { s with state := Session.endState answer, batch := none })
  | panicked {s : Session} (hstate : s.state = .open) (now : Instant) :
      SessionMove name (.complete name now) .panicked (some s)
        (some { s with state := .committing })
  | aborted {s : Session} (hstate : s.state = .open) :
      SessionMove name (.abort name) .done (some s)
        (some { s with state := .aborted, batch := none })
  | dropped (s : Session) : SessionMove name (.drop name) .done (some s) none

/-- A call that needs an open session changes nothing if the session is not open. -/
theorem step_eq_of_ensureOpen_error {w : World σ} {step : Step} {name : String} {s : Session}
    {e : SessionError} (hs : w.session? name = some s) (hopen : s.ensureOpen w.manager = .error e)
    (hcall : step.isCallOf name = true) : w.step step = (.refused e, w) := by
  cases step with
  | read n row =>
    obtain rfl : n = name := by simpa [Step.isCallOf] using hcall
    rw [World.step, call, hs]
    simp only [World.read, Session.read, hopen, setSession_self hs]
  | enlist n op =>
    obtain rfl : n = name := by simpa [Step.isCallOf] using hcall
    rw [World.step, call, hs]
    simp only [World.enlist, Session.enlist, hopen, setSession_self hs]
    rfl
  | complete n now =>
    obtain rfl : n = name := by simpa [Step.isCallOf] using hcall
    rw [World.step, call, hs]
    simp only [World.complete, Session.complete_of_error hopen, setSession_self hs]
    rfl
  | abort n =>
    obtain rfl : n = name := by simpa [Step.isCallOf] using hcall
    rw [World.step, call, hs]
    simp only [World.abort, Session.abort, hopen, setSession_self hs]
    rfl
  | _ => cases hcall

theorem step_createOpen {w : World σ} {name : String} {work : WorkId} {partition : Partition}
    {id : BatchId} {m : Manager σ} (hnew : w.session? name = none)
    (hacquire : w.manager.acquire work partition = (.ok id, m)) :
    w.step (.createOpen name work partition) =
      (.done, w.setSession name { work, partition, state := .open, batch := some id }
        (m.modifyBatch id SharedBatch.join)) := by
  have hfree : ¬ w.sessions.contains name = true := by
    rw [SortedMap.contains]
    simpa [session?] using hnew
  rw [World.step, createOpen, if_neg hfree, Session.start, if_neg (by simp)]
  dsimp only
  rw [hacquire]

theorem step_enlist {w : World σ} {name : String} {s : Session} {id : BatchId} {b : SharedBatch}
    (hs : w.session? name = some s) (hopen : s.ensureOpen w.manager = .ok (id, b))
    (op : Operation) :
    w.step (.enlist name op) =
      (.ofUnit (b.register op).1, { w with manager := w.manager.setBatch id (b.register op).2 }) := by
  rw [World.step, call, hs]
  simp only [World.enlist, Session.enlist, hopen]
  rw [setSession_manager hs]

theorem step_complete {w : World σ} {name : String} {s : Session} {id : BatchId}
    {b b' : SharedBatch} {answer : Except SessionError (List CommittedRow)} {store : σ}
    (hs : w.session? name = some s) (hopen : s.ensureOpen w.manager = .ok (id, b))
    (hcommit : b.commit w.manager.store w.manager.config.commitTimeout = (answer, b', store))
    {now : Instant} (htold : w.manager.config.tellsDeadline now = true) :
    w.step (.complete name now) =
      (.ofRows answer, w.setSession name
        { s with
          state := Session.endState answer
          batch := none } ({ w.manager with store }.close s.work id b')) := by
  rw [World.step, call, hs]
  simp only [World.complete, Session.complete_eq hopen hcommit htold]
  rfl

theorem step_complete_of_lost {w : World σ} {name : String} {s : Session} {id : BatchId}
    {b : SharedBatch} (hs : w.session? name = some s)
    (hopen : s.ensureOpen w.manager = .ok (id, b)) {now : Instant}
    (hlost : w.manager.config.tellsDeadline now = false) :
    w.step (.complete name now) =
      (.panicked, w.setSession name { s with state := .committing } w.manager) := by
  rw [World.step, call, hs]
  simp only [World.complete, Session.complete_of_lost hopen hlost]
  rfl

/-- A call of an open session that does not panic can tell its deadline. -/
theorem tellsDeadline_of_ne_panicked {w : World σ} {name : String} {s : Session} {id : BatchId}
    {b : SharedBatch} (hs : w.session? name = some s)
    (hopen : s.ensureOpen w.manager = .ok (id, b)) (now : Instant)
    (h : (w.step (.complete name now)).1 ≠ .panicked) :
    w.manager.config.tellsDeadline now = true := by
  cases htold : w.manager.config.tellsDeadline now with
  | true => rfl
  | false =>
    rw [step_complete_of_lost hs hopen htold] at h
    exact absurd rfl h

theorem step_abort {w : World σ} {name : String} {s : Session} {id : BatchId} {b : SharedBatch}
    (hs : w.session? name = some s) (hopen : s.ensureOpen w.manager = .ok (id, b)) :
    w.step (.abort name) =
      (.done, w.setSession name { s with state := .aborted, batch := none }
        (w.manager.close s.work id b)) := by
  rw [World.step, call, hs]
  simp only [World.abort, Session.abort_eq hopen]
  rfl

theorem step_drop {w : World σ} {name : String} {s : Session} (hs : w.session? name = some s) :
    w.step (.drop name) =
      (.done, { manager := s.drop w.manager, sessions := w.sessions.erase name }) := by
  rw [World.step, drop, hs]

section Sessions

variable {w w' : World σ} {step : Step} {answer : Answer}

/-- A step changes the entry of one session at most. -/
theorem Outcome.sessions (h : Outcome w step answer w') :
    w'.sessions = w.sessions ∨ ∃ name, step.session? = some name ∧
      (w'.sessions = w.sessions.erase name ∨ ∃ s, w'.sessions = w.sessions.insert name s) := by
  cases h with
  | created | createdOpen | started | completed | panicked | aborted =>
    exact .inr ⟨_, rfl, .inr ⟨_, rfl⟩⟩
  | dropped | detached => exact .inr ⟨_, rfl, .inl rfl⟩
  | _ => exact .inl rfl

theorem Outcome.session?_of_ne (h : Outcome w step answer w') {n : String}
    (hn : step.session? ≠ some n) : w'.session? n = w.session? n := by
  have hget : ∀ {m : SortedMap String Session}, w'.sessions = m → w'.session? n = m.get? n :=
    fun hm => congrArg (SortedMap.get? · n) hm
  rcases h.sessions with hsame | ⟨name, hname, herase | ⟨s, hinsert⟩⟩
  · exact hget hsame
  · have hne : n ≠ name := fun he => hn (he ▸ hname)
    rw [hget herase, SortedMap.get?_erase, if_neg hne]
    rfl
  · have hne : n ≠ name := fun he => hn (he ▸ hname)
    rw [hget hinsert, SortedMap.get?_insert, if_neg hne]
    rfl

/-- A step moves the session that it names, and no other. -/
theorem Outcome.sessionMove (h : Outcome w step answer w') (n : String) :
    SessionMove n step answer (w.session? n) (w'.session? n) := by
  have hset : ∀ {name : String} {s : Session} {m : Manager σ} {o : Option Session},
      w.session? name = o → SessionMove name step answer o (some s) →
        SessionMove n step answer (w.session? n) ((w.setSession name s m).session? n) := by
    intro name s m o ho hmove
    rw [session?_setSession]
    by_cases hn : n = name
    · rw [if_pos hn, hn, ho]
      exact hmove
    · rw [if_neg hn]
      exact .stays step answer _
  cases h with
  | created work partition hnew => exact hset hnew (.created work partition)
  | createdOpen hnew => exact hset hnew (.createdOpen _ _ _)
  | started hs hstate => exact hset hs (.started hstate _)
  | completed hs hopen =>
    exact hset hs (.completed (Session.ensureOpen_eq_ok_iff.1 hopen).1 _ _)
  | panicked hs hopen =>
    exact hset hs (.panicked (Session.ensureOpen_eq_ok_iff.1 hopen).1 _)
  | aborted hs hopen => exact hset hs (.aborted (Session.ensureOpen_eq_ok_iff.1 hopen).1)
  | @dropped name s hs | @detached name s _ _ hs =>
    show SessionMove n _ _ _ (SortedMap.get? _ n)
    rw [SortedMap.get?_erase]
    by_cases hn : n = name
    · rw [if_pos hn, hn, hs]
      exact .dropped s
    · rw [if_neg hn]
      exact .stays ..
  | _ => exact .stays ..

/-- No step changes the configuration. -/
theorem Outcome.config (h : Outcome w step answer w') :
    w'.manager.config = w.manager.config := by
  cases h with
  | createdOpen _ hacquire | started _ _ hacquire | acquired hacquire =>
    have hconfig := Manager.config_of_acquire hacquire
    exact hconfig
  | completed | aborted => exact Manager.config_close ..
  | detached =>
    dsimp only
    split
    · rfl
    · exact Manager.config_close ..
  | _ => rfl

end Sessions

/-- The world after some steps. -/
def after (w : World σ) (steps : List Step) : World σ := (w.run steps).2

theorem after_cons (w : World σ) (step : Step) (steps : List Step) :
    w.after (step :: steps) = (w.step step).2.after steps := rfl

theorem after_append (w : World σ) (steps later : List Step) :
    w.after (steps ++ later) = (w.after steps).after later := by
  induction steps generalizing w with
  | nil => rfl
  | cons step steps ih => exact ih (w.step step).2

theorem config_after (w : World σ) (steps : List Step) :
    (w.after steps).manager.config = w.manager.config := by
  induction steps generalizing w with
  | nil => rfl
  | cons step steps ih => exact (ih (w.step step).2).trans (w.outcome step).config

theorem run_append (w : World σ) (steps later : List Step) :
    (w.run (steps ++ later)).1 = (w.run steps).1 ++ ((w.after steps).run later).1 := by
  induction steps generalizing w with
  | nil => rfl
  | cons step steps ih => exact congrArg ((w.step step).1 :: ·) (ih (w.step step).2)

end World

end UnitOfWork
