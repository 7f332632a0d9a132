import Mathlib.Data.List.Nodup
import UnitOfWork.Proofs.Session.Accumulator
import UnitOfWork.Proofs.Session.Outcome
import UnitOfWork.Store.Memory
import UnitOfWork.Store.Relay

/-!
A unit of work is submitted at most once, and once a participant has ended it, it is closed for
everybody who ever joined it.
-/

namespace UnitOfWork

/-- Steps that act on a shared batch without a session. -/
def Step.isDirect : Step → Bool
  | .register .. | .commit .. | .abandon .. => true
  | _ => false

section Submissions

variable {σ : Type} [TableStore σ]

theorem Relay.submissions_submit (s : Relay σ) (table partition : String) (ops : List BatchOp)
    (timeLeft : Option Duration) :
    (TableStore.submit s table partition ops timeLeft).2.submissions = s.submissions + 1 := by
  show (s.submit table partition ops timeLeft).2.submissions = _
  unfold Relay.submit
  split <;> rfl

theorem SharedBatch.submissions_commit (b : SharedBatch) (store : Relay σ)
    (timeLeft : Option Duration) :
    (b.commit store timeLeft).2.2.submissions = store.submissions ∨
      (b.commit store timeLeft).2.2.submissions = store.submissions + 1 := by
  unfold commit
  cases b.lock with
  | error e => exact .inl rfl
  | ok pending =>
    have hstore := pending.store_commit store timeLeft
    dsimp only
    rw [hstore]
    by_cases hempty : pending.isEmpty = true
    · rw [if_pos hempty]
      exact .inl rfl
    · rw [if_neg hempty]
      exact .inr (Relay.submissions_submit ..)

end Submissions

namespace World

section Completed

variable {σ : Type} [TableStore σ] {w w' : World σ} {step : Step} {answer : Answer}
  {id : BatchId}

/-- The batch of a session. -/
def batchOf? (w : World σ) (name : String) : Option BatchId := (w.session? name).bind Session.batch

/-- A completed batch stays completed, whatever is done. -/
theorem Outcome.isCompleted (h : Outcome w step answer w') (hid : w.manager.IsCompleted id) :
    w'.manager.IsCompleted id := by
  cases h with
  | misnamed | created | notCreated | notIdle | notStarted | notOpen | read | panicked | dropped
  | notAcquired => exact hid
  | createdOpen _ hacquire | started _ _ hacquire =>
    obtain ⟨b, hb⟩ := Manager.batch?_of_acquire hacquire
    show (Manager.modifyBatch _ _ _).IsCompleted id
    rw [Manager.modifyBatch_eq hb]
    exact (hid.acquire hacquire).setBatch hb (by simp)
  | enlisted _ hopen =>
    have hb := (Session.ensureOpen_eq_ok_iff.1 hopen).2.2.1
    exact hid.setBatch hb (by simp)
  | @completed _ _ _ _ _ b' _ store _ hopen =>
    have hb := (Session.ensureOpen_eq_ok_iff.1 hopen).2.2.1
    have hstore : ({ w.manager with store } : Manager σ).IsCompleted id := hid
    exact hstore.close hb _ b'
  | aborted _ hopen =>
    have hb := (Session.ensureOpen_eq_ok_iff.1 hopen).2.2.1
    exact hid.close hb _ _
  | detached _ _ _ hb =>
    dsimp only
    split
    · exact hid.setBatch hb (by simp)
    · exact hid.close hb _ _
  | acquired hacquire => exact hid.acquire hacquire
  | released => exact hid
  | registered _ hb => exact hid.setBatch hb (by simp)
  | @committed _ b b' timeLeft _ store hb hcommit =>
    have hstore : ({ w.manager with store } : Manager σ).IsCompleted id := hid
    have hkeeps := b.completed_commit w.manager.store timeLeft
    rw [hcommit] at hkeeps
    exact hstore.setBatch hb fun hcompleted => hkeeps.trans hcompleted
  | abandoned hb => exact hid.setBatch hb (by simp)
  | poisoned hb => exact hid.setBatch hb (by simp)

end Completed

section Submitted

variable {σ : Type} [TableStore σ] {w w' : World (Relay σ)} {step : Step} {answer : Answer}

/-- The count of submissions so far. -/
def submissions (w : World (Relay σ)) : Nat := w.manager.store.submissions

/-- The batch of the session that a step completes. -/
def completing? (w : World (Relay σ)) : Step → Option BatchId
  | .complete name _ => w.batchOf? name
  | _ => none

/-- The batch of each submission in a run; none stands for one that completes no session. -/
def handed (w : World (Relay σ)) : List Step → List (Option BatchId)
  | [] => []
  | step :: steps =>
    List.replicate ((w.step step).2.submissions - w.submissions) (w.completing? step) ++
      handed (w.step step).2 steps

/-- Only a session that completes an open batch submits anything, and does so once. -/
theorem Outcome.submissions (h : Outcome w step answer w') (hdirect : step.isDirect = false) :
    w'.submissions = w.submissions ∨
      w'.submissions = w.submissions + 1 ∧ ∃ id, w.completing? step = some id ∧
        ¬ w.manager.IsCompleted id ∧ w'.manager.IsCompleted id := by
  cases h with
  | createdOpen _ hacquire | started _ _ hacquire | acquired hacquire =>
    have hstore := Manager.store_of_acquire hacquire
    exact .inl (congrArg Relay.submissions hstore)
  | @completed name now s id b b' answer store hs hopen hcommit =>
    obtain ⟨_, hbatch, hb, hcompleted⟩ := Session.ensureOpen_eq_ok_iff.1 hopen
    have hsubmissions := b.submissions_commit w.manager.store w.manager.config.commitTimeout
    rw [hcommit] at hsubmissions
    have hstore : ∀ work, (({ w.manager with store } : Manager (Relay σ)).close work id
        b').store.submissions = store.submissions := by simp
    rcases hsubmissions with hsame | hmore
    · exact .inl ((hstore s.work).trans hsame)
    · refine .inr ⟨(hstore s.work).trans hmore, id, ?_, ?_, ?_⟩
      · show (w.session? name).bind Session.batch = some id
        rw [hs]
        exact hbatch
      · rintro ⟨c, hc, htrue⟩
        rw [hb, Option.some.injEq] at hc
        rw [← hc, hcompleted] at htrue
        cases htrue
      · have hb' : ({ w.manager with store } : Manager (Relay σ)).batch? id = some b := hb
        exact Manager.isCompleted_close hb' s.work b'
  | aborted => exact .inl (by simp [World.submissions, setSession])
  | @detached name s id b =>
    refine .inl ?_
    show Relay.submissions (Manager.store (ite _ _ _)) = _
    split
    · rfl
    · simp [World.submissions]
  | registered | committed | abandoned => cases hdirect
  | _ => exact .inl rfl

variable {steps : List Step} {id : BatchId}

/-- A completed batch is not handed to the store any more. -/
theorem notMem_handed (hid : w.manager.IsCompleted id)
    (hsteps : ∀ s ∈ steps, s.isDirect = false) : some id ∉ w.handed steps := by
  induction steps generalizing w with
  | nil => exact List.not_mem_nil
  | cons step steps ih =>
    obtain ⟨hdirect, hrest⟩ := List.forall_mem_cons.1 hsteps
    have houtcome := w.outcome step
    rw [handed, List.mem_append]
    rintro (hnow | hlater)
    · obtain ⟨hcount, hid'⟩ := List.mem_replicate.1 hnow
      rcases houtcome.submissions hdirect with hsame | ⟨_, i, hi, hopen, _⟩
      · exact hcount (by omega)
      · rw [hi, Option.some.injEq] at hid'
        exact hopen (hid' ▸ hid)
    · exact ih (houtcome.isCompleted hid) hrest hlater

theorem none_notMem_handed (hsteps : ∀ s ∈ steps, s.isDirect = false) :
    none ∉ w.handed steps := by
  induction steps generalizing w with
  | nil => exact List.not_mem_nil
  | cons step steps ih =>
    obtain ⟨hdirect, hrest⟩ := List.forall_mem_cons.1 hsteps
    rw [handed, List.mem_append]
    rintro (hnow | hlater)
    · obtain ⟨hcount, hnone⟩ := List.mem_replicate.1 hnow
      rcases (w.outcome step).submissions hdirect with hsame | ⟨_, i, hi, _⟩
      · exact hcount (by omega)
      · rw [hi] at hnone
        cases hnone
    · exact ih hrest hlater

theorem nodup_handed (hsteps : ∀ s ∈ steps, s.isDirect = false) : (w.handed steps).Nodup := by
  induction steps generalizing w with
  | nil => exact List.nodup_nil
  | cons step steps ih =>
    obtain ⟨hdirect, hrest⟩ := List.forall_mem_cons.1 hsteps
    rw [handed]
    rcases (w.outcome step).submissions hdirect with hsame | ⟨hmore, i, hi, _, hcompleted⟩
    · rw [hsame, Nat.sub_self]
      exact ih hrest
    · rw [hmore, Nat.add_sub_cancel_left, hi]
      exact List.nodup_cons.2 ⟨notMem_handed hcompleted hrest, ih hrest⟩

end Submitted

section Closed

variable {σ : Type} [TableStore σ] {w w' : World σ} {step : Step} {answer : Answer}
  {name : String} {id : BatchId}

/-- The step ends a unit of work: a participant of its batch completes it, with success or not, or
aborts it. -/
def Closes (w : World σ) (step : Step) (id : BatchId) : Prop :=
  ∃ name, w.batchOf? name = some id ∧
    (((∃ now, step = .complete name now) ∧ ((∃ rows, (w.step step).1 = .rows rows) ∨
        ∃ e, (w.step step).1 = .refused e ∧ e ≠ .notOpen ∧ e ≠ .alreadyCompleted)) ∨
      (step = .abort name ∧ (w.step step).1 = .done))

/-- A session was joined to a batch at some time in a run, and was not dropped after it. -/
def HasJoined (w : World σ) (steps : List Step) (name : String) (id : BatchId) : Prop :=
  ∃ before later, steps = before ++ later ∧ (w.after before).batchOf? name = some id ∧
    .drop name ∉ later

/-- A session is open and joined to a batch, or its time to be open is over. -/
def IsBound (w : World σ) (name : String) (id : BatchId) : Prop :=
  ∃ s, w.session? name = some s ∧
    (s.state = .open ∧ s.batch = some id ∨ s.state ≠ .idle ∧ s.state ≠ .open)

theorem Outcome.isBound (h : Outcome w step answer w') (hbound : w.IsBound name id)
    (hdrop : step ≠ .drop name) : w'.IsBound name id := by
  obtain ⟨s, hs, hstate⟩ := hbound
  have hmove := h.sessionMove name
  rw [hs] at hmove
  rw [IsBound]
  generalize w'.session? name = o at hmove
  generalize hsome : some s = before at hmove
  cases hmove with
  | stays => exact ⟨s, hsome.symm, hstate⟩
  | created | createdOpen => cases hsome
  | started hidle =>
    obtain rfl := Option.some.inj hsome
    rcases hstate with ⟨hopen, _⟩ | ⟨hnotIdle, _⟩
    · simp [hopen] at hidle
    · exact absurd hidle hnotIdle
  | completed _ _ answer =>
    exact ⟨_, rfl, .inr ⟨Session.endState_ne_idle answer, Session.endState_ne_open answer⟩⟩
  | panicked | aborted => exact ⟨_, rfl, .inr ⟨by simp, by simp⟩⟩
  | dropped => exact absurd rfl hdrop

theorem Closes.isCompleted (h : w.Closes step id) : (w.step step).2.manager.IsCompleted id := by
  obtain ⟨name, hbatch, hends⟩ := h
  have houtcome := w.outcome step
  generalize w.step step = stepped at hends houtcome
  obtain ⟨answer, w'⟩ := stepped
  dsimp only at hends houtcome ⊢
  have hsame : ∀ {s i}, w.session? name = some s → s.batch = some i → i = id := by
    intro s i hs hi
    rw [batchOf?, hs] at hbatch
    exact Option.some.inj (hi.symm.trans hbatch)
  rcases hends with ⟨⟨now, rfl⟩, hanswer⟩ | ⟨rfl, hanswer⟩
  · cases houtcome with
    | misnamed => simp at hanswer
    | panicked => simp at hanswer
    | notOpen _ hopen =>
      rcases hanswer with ⟨rows, hrows⟩ | ⟨e, he, hnotOpen, hnotCompleted⟩
      · cases hrows
      · cases he
        exact absurd (Session.eq_of_ensureOpen_error hopen) (by simp [hnotOpen, hnotCompleted])
    | @completed _ _ s i b b' answer store hs hopen =>
      obtain ⟨_, hi, hb, _⟩ := Session.ensureOpen_eq_ok_iff.1 hopen
      obtain rfl := hsame hs hi
      have hb' : ({ w.manager with store } : Manager σ).batch? i = some b := hb
      exact Manager.isCompleted_close hb' s.work b'
  · cases houtcome with
    | misnamed => cases hanswer
    | notOpen => cases hanswer
    | @aborted _ s i b hs hopen =>
      obtain ⟨_, hi, hb, _⟩ := Session.ensureOpen_eq_ok_iff.1 hopen
      obtain rfl := hsame hs hi
      exact Manager.isCompleted_close hb s.work b

theorem isCompleted_after (hid : w.manager.IsCompleted id) (steps : List Step) :
    (w.after steps).manager.IsCompleted id := by
  induction steps generalizing w with
  | nil => exact hid
  | cons step steps ih => exact ih ((w.outcome step).isCompleted hid)

theorem isBound_after (hbound : w.IsBound name id) {steps : List Step}
    (hdrop : .drop name ∉ steps) : (w.after steps).IsBound name id := by
  induction steps generalizing w with
  | nil => exact hbound
  | cons step steps ih =>
    obtain ⟨hstep, hrest⟩ := List.ne_and_not_mem_of_not_mem_cons hdrop
    exact ih ((w.outcome step).isBound hbound (Ne.symm hstep)) hrest

/-- Sessions that hold a batch have been opened. -/
def HoldersOpened (w : World σ) : Prop :=
  ∀ name s, w.session? name = some s → s.batch.isSome = true → s.state ≠ .idle

theorem Outcome.holdersOpened (h : Outcome w step answer w') (hw : w.HoldersOpened) :
    w'.HoldersOpened := by
  intro name s hs hholds
  have hmove := h.sessionMove name
  rw [hs] at hmove
  generalize hbefore : w.session? name = before at hmove
  generalize hsome : some s = o at hmove
  cases hmove with
  | stays =>
    subst hsome
    exact hw name s hbefore hholds
  | created | completed | aborted =>
    cases hsome
    cases hholds
  | createdOpen | started | panicked =>
    cases hsome
    simp
  | dropped => cases hsome

theorem holdersOpened_after (hw : w.HoldersOpened) (steps : List Step) :
    (w.after steps).HoldersOpened := by
  induction steps generalizing w with
  | nil => exact hw
  | cons step steps ih => exact ih ((w.outcome step).holdersOpened hw)

theorem HasJoined.isBound {steps : List Step} (h : w.HasJoined steps name id)
    (hw : w.HoldersOpened) : (w.after steps).IsBound name id := by
  obtain ⟨before, later, rfl, hbatch, hdrop⟩ := h
  obtain ⟨s, hs, hid⟩ := Option.bind_eq_some_iff.1 hbatch
  have hidle := holdersOpened_after hw before name s hs (by rw [hid]; rfl)
  have hbound : (w.after before).IsBound name id := by
    by_cases hopen : s.state = .open
    · exact ⟨s, hs, .inl ⟨hopen, hid⟩⟩
    · exact ⟨s, hs, .inr ⟨hidle, hopen⟩⟩
  rw [after_append]
  exact isBound_after hbound hdrop

/-- A session whose batch is completed gets nothing done. -/
theorem step_eq_of_isBound (hbound : w.IsBound name id) (hid : w.manager.IsCompleted id)
    (hcall : step.isCallOf name = true) :
    w.step step = (.refused .alreadyCompleted, w) := by
  obtain ⟨s, hs, hstate⟩ := hbound
  obtain ⟨b, hb, hcompleted⟩ := hid
  have hopen : s.ensureOpen w.manager = .error .alreadyCompleted := by
    rcases hstate with ⟨hopen, hbatch⟩ | ⟨hidle, hopen⟩
    · simp [Session.ensureOpen, hopen, hbatch, hb, hcompleted]
    · exact Session.ensureOpen_of_past hidle hopen w.manager
  exact step_eq_of_ensureOpen_error hs hopen hcall

end Closed

/--
Whatever is done through sessions, each batch is handed to the store at most once, and only by a
call of complete. After a participant has completed the batch, with success or not, or has aborted
it, every session that had joined it is refused and nothing changes.
-/
theorem submitted_once_then_closed {σ : Type} [TableStore σ] (store : Relay σ)
    (config : SessionConfig) (steps : List Step) (hsteps : ∀ s ∈ steps, s.isDirect = false) :
    none ∉ (fresh store config).handed steps ∧ ((fresh store config).handed steps).Nodup ∧
      ∀ (before later : List Step) (closing call : Step) (name : String) (id : BatchId),
        steps = before ++ closing :: later →
        ((fresh store config).after before).Closes closing id →
        (fresh store config).HasJoined steps name id →
        call.isCallOf name = true →
        ((fresh store config).after steps).step call =
          (.refused .alreadyCompleted, (fresh store config).after steps) := by
  refine ⟨none_notMem_handed hsteps, nodup_handed hsteps, ?_⟩
  rintro before later closing call name id rfl hcloses hjoined hcall
  have hempty : (fresh store config).HoldersOpened := nofun
  have hbound := hjoined.isBound hempty
  have hcompleted := isCompleted_after hcloses.isCompleted later
  rw [after_append, after_cons] at hbound ⊢
  exact step_eq_of_isBound hbound hcompleted hcall

private theorem validKey_orders : ValidKey "p" := by decide

private def orders : Partition := ⟨"Orders", "p", by decide, validKey_orders⟩

private def freshRelay : World (Relay MemoryStore) := fresh { store := { config := {} } } {}

/-- Two sessions join, the first enlists, and the second completes. -/
private def sharedRun : List Step :=
  [.createOpen "a" "w" orders, .createOpen "b" "w" orders,
    .enlist "a" (Operation.insert ⟨"p", "r"⟩ ∅)]

theorem submitted_once_then_closed_collaborators :
    (∀ s ∈ sharedRun ++ [.complete "b" .start], s.isDirect = false) ∧
      (freshRelay.after sharedRun).Closes (.complete "b" .start) 0 ∧
      freshRelay.HasJoined (sharedRun ++ [.complete "b" .start]) "a" 0 ∧
      (freshRelay.after (sharedRun ++ [.complete "b" .start])).step (.complete "a" .start) =
        (.refused .alreadyCompleted, freshRelay.after (sharedRun ++ [.complete "b" .start])) := by
  have hsteps : ∀ s ∈ sharedRun ++ [.complete "b" .start], s.isDirect = false := by
    simp [sharedRun, Step.isDirect]
  have hcloses : (freshRelay.after sharedRun).Closes (.complete "b" .start) 0 :=
    ⟨"b", by decide +kernel, .inl ⟨⟨.start, rfl⟩, .inl ⟨[⟨"r", some (Token.ofVersion 1)⟩],
      by decide +kernel⟩⟩⟩
  have hjoined : freshRelay.HasJoined (sharedRun ++ [.complete "b" .start]) "a" 0 :=
    ⟨sharedRun, [.complete "b" .start], rfl, by decide +kernel, by simp⟩
  exact ⟨hsteps, hcloses, hjoined,
    (submitted_once_then_closed _ {} _ hsteps).2.2 sharedRun [] _ _ "a" 0 rfl hcloses hjoined rfl⟩

end World

end UnitOfWork
