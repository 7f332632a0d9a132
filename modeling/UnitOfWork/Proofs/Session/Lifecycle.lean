import Mathlib.Data.List.Destutter
import UnitOfWork.Proofs.Session.Generations

/-!
The life of a session. It is made idle, it is opened, and it ends as committed or as aborted; which
of the two is told by the answers to its own calls alone, whatever other sessions, the registry and
the store do in between.
-/

namespace UnitOfWork

namespace SessionState

/-- What can become of a state between two calls. -/
inductive Follows : SessionState → SessionState → Prop
  | stays (a : SessionState) : Follows a a
  | opens : Follows .idle .open
  | ends {last : SessionState} (hlast : last.isTerminal = true) : Follows .open last

/-- A session has been left in this state by its last call. -/
def IsSettled (a : SessionState) : Prop := a ≠ .committing ∧ a ≠ .aborting

theorem Follows.isSettled {a b : SessionState} (h : Follows a b) (ha : a.IsSettled) :
    b.IsSettled := by
  cases h with
  | stays => exact ha
  | opens => simp [IsSettled]
  | ends hlast =>
    constructor
    all_goals
      intro hb
      rw [hb] at hlast
      cases hlast

theorem Follows.eq_of_isTerminal {a b : SessionState} (h : Follows a b)
    (ha : a.isTerminal = true) : b = a := by
  cases h with
  | stays => rfl
  | opens | ends => cases ha

section Course

variable {states : List SessionState} {a last : SessionState}

theorem isSettled_of_isChain (h : (a :: states).IsChain Follows) (ha : a.IsSettled) :
    ∀ b ∈ a :: states, b.IsSettled :=
  h.induction IsSettled _ (fun _ _ hstep hx => hstep.isSettled hx) (fun _ => ha)

/-- An ended session stays as it is. -/
theorem destutter'_of_isTerminal (h : (last :: states).IsChain Follows)
    (hlast : last.isTerminal = true) : states.destutter' (· ≠ ·) last = [last] := by
  induction states with
  | nil => rfl
  | cons a states ih =>
    obtain ⟨hstep, hrest⟩ := List.isChain_cons_cons.1 h
    obtain rfl : a = last := hstep.eq_of_isTerminal hlast
    rw [List.destutter'_cons, if_neg (not_not_intro rfl)]
    exact ih hrest

theorem destutter'_open (h : (SessionState.open :: states).IsChain Follows) :
    ∃ last, last.isTerminal = true ∧
      states.destutter' (· ≠ ·) SessionState.open <+: [.open, last] := by
  induction states with
  | nil => exact ⟨.committed, rfl, by simp⟩
  | cons a states ih =>
    obtain ⟨hstep, hrest⟩ := List.isChain_cons_cons.1 h
    cases hstep with
    | stays =>
      rw [List.destutter'_cons, if_neg (not_not_intro rfl)]
      exact ih hrest
    | ends hlast =>
      have hne : SessionState.open ≠ a := by
        intro he
        rw [← he] at hlast
        cases hlast
      have hstates : (a :: states).destutter' (· ≠ ·) SessionState.open = [.open, a] := by
        rw [List.destutter'_cons, if_pos hne, destutter'_of_isTerminal hrest hlast]
      exact ⟨a, hlast, hstates ▸ List.prefix_rfl⟩

/-- Repetitions left out, the states from idle on are the first few of idle, open and an end. -/
theorem destutter_idle (h : (SessionState.idle :: states).IsChain Follows) :
    ∃ last, last.isTerminal = true ∧
      (SessionState.idle :: states).destutter (· ≠ ·) <+: [.idle, .open, last] := by
  rw [List.destutter_cons']
  induction states with
  | nil => exact ⟨.committed, rfl, by simp⟩
  | cons a states ih =>
    obtain ⟨hstep, hrest⟩ := List.isChain_cons_cons.1 h
    cases hstep with
    | stays =>
      rw [List.destutter'_cons, if_neg (not_not_intro rfl)]
      exact ih hrest
    | opens =>
      obtain ⟨last, hlast, hopen⟩ := destutter'_open hrest
      refine ⟨last, hlast, ?_⟩
      rw [List.destutter'_cons, if_pos (by simp)]
      exact (List.prefix_cons_inj _).2 hopen

end Course

end SessionState

section Errors

variable {σ : Type} [TableStore σ]

theorem SessionError.ofStorage_ne (f : StorageError) :
    ofStorage f ≠ .notOpen ∧ ofStorage f ≠ .alreadyCompleted := by
  cases f <;> simp [ofStorage]

theorem Accumulator.error_of_commit {a : Accumulator} {store : σ} {timeLeft : Option Duration}
    {e : SessionError} (h : (a.commit store timeLeft).1 = .error e) :
    e ≠ .notOpen ∧ e ≠ .alreadyCompleted := by
  have hcases := a.committed store timeLeft
  generalize a.commit store timeLeft = committed at h hcases
  cases hcases with
  | idle | applied => cases h
  | refused =>
    cases h
    exact SessionError.ofStorage_ne _
  | miscounted =>
    cases h
    simp

/-- A commit under the lock never fails for the state of the session. -/
theorem SharedBatch.error_of_commit {b : SharedBatch} {store : σ} {timeLeft : Option Duration}
    {e : SessionError} (h : (b.commit store timeLeft).1 = .error e) :
    e ≠ .notOpen ∧ e ≠ .alreadyCompleted := by
  cases hlock : b.poisoned with
  | true =>
    rw [b.commit_of_poisoned store timeLeft hlock, Except.error.injEq] at h
    simp [← h]
  | false =>
    rw [b.commit_of_lock store timeLeft hlock] at h
    exact Accumulator.error_of_commit h

end Errors

namespace World

variable {σ : Type}

/-- The call with this answer commits the session of a name. -/
def Commits (name : String) (reply : Step × Answer) : Prop :=
  ∃ now rows, reply = (.complete name now, .rows rows)

/-- The call with this answer aborts the session of a name: it asks for that, or it fails to
complete for another reason than the state of the session. -/
def Aborts (name : String) (reply : Step × Answer) : Prop :=
  reply = (.abort name, .done) ∨
    ∃ now e, reply = (.complete name now, .refused e) ∧ e ≠ .notOpen ∧ e ≠ .alreadyCompleted

/-- The call with this answer leaves the session of a name on the way to its end. -/
def Panics (name : String) (reply : Step × Answer) : Prop :=
  ∃ now, reply = (.complete name now, .panicked)

section Replies

variable {name : String} {reply : Step × Answer}

theorem Commits.not_aborts (h : Commits name reply) : ¬ Aborts name reply := by
  obtain ⟨now, rows, rfl⟩ := h
  simp [Aborts]

theorem Commits.not_panics (h : Commits name reply) : ¬ Panics name reply := by
  obtain ⟨now, rows, rfl⟩ := h
  simp [Panics]

theorem Aborts.not_commits (h : Aborts name reply) : ¬ Commits name reply := fun hcommits =>
  hcommits.not_aborts h

theorem Panics.not_commits (h : Panics name reply) : ¬ Commits name reply := fun hcommits =>
  hcommits.not_panics h

theorem Panics.not_aborts (h : Panics name reply) : ¬ Aborts name reply := by
  obtain ⟨now, rfl⟩ := h
  simp [Aborts]

theorem Aborts.not_panics (h : Aborts name reply) : ¬ Panics name reply := fun hpanics =>
  hpanics.not_aborts h

end Replies

/-- What a step that does not drop a session does to it. -/
inductive Advance (name : String) : Step × Answer → Session → Session → Prop
  | stays {reply : Step × Answer} (s : Session) (hcommits : ¬ Commits name reply)
      (haborts : ¬ Aborts name reply) (hpanics : ¬ Panics name reply) : Advance name reply s s
  | opens {s : Session} (hstate : s.state = .idle) (id : BatchId) :
      Advance name (.start name, .done) s { s with state := .open, batch := some id }
  | commits {s : Session} {reply : Step × Answer} (hstate : s.state = .open)
      (hcommits : Commits name reply) :
      Advance name reply s { s with state := .committed, batch := none }
  | aborts {s : Session} {reply : Step × Answer} (hstate : s.state = .open)
      (haborts : Aborts name reply) :
      Advance name reply s { s with state := .aborted, batch := none }
  | panics {s : Session} {reply : Step × Answer} (hstate : s.state = .open)
      (hpanics : Panics name reply) : Advance name reply s { s with state := .committing }

namespace Advance

variable {name : String} {reply : Step × Answer} {s s' : Session}

theorem follows (h : Advance name reply s s') (hreturns : ¬ Panics name reply) :
    s.state.Follows s'.state := by
  cases h with
  | stays => exact .stays _
  | opens hstate =>
    rw [hstate]
    exact .opens
  | commits hstate | aborts hstate =>
    rw [hstate]
    exact .ends rfl
  | panics _ hpanics => exact absurd hpanics hreturns

theorem holds_iff (h : Advance name reply s s') (hreturns : ¬ Panics name reply)
    (hs : s.batch.isSome = true ↔ s.state = .open) :
    s'.batch.isSome = true ↔ s'.state = .open := by
  cases h with
  | stays => exact hs
  | opens | commits | aborts => simp
  | panics _ hpanics => exact absurd hpanics hreturns

theorem committed_iff (h : Advance name reply s s') :
    s'.state = .committed ↔ s.state = .committed ∨ Commits name reply := by
  cases h with
  | stays _ hcommits => simp [hcommits]
  | opens hstate => simp [hstate, Commits]
  | commits _ hcommits => simp [hcommits]
  | aborts hstate haborts => simp [hstate, haborts.not_commits]
  | panics hstate hpanics => simp [hstate, hpanics.not_commits]

theorem aborted_iff (h : Advance name reply s s') :
    s'.state = .aborted ↔ s.state = .aborted ∨ Aborts name reply := by
  cases h with
  | stays _ _ haborts => simp [haborts]
  | opens hstate => simp [hstate, Aborts]
  | commits hstate hcommits => simp [hstate, hcommits.not_aborts]
  | aborts _ haborts => simp [haborts]
  | panics hstate hpanics => simp [hstate, hpanics.not_aborts]

theorem committing_iff (h : Advance name reply s s') :
    s'.state = .committing ↔ s.state = .committing ∨ Panics name reply := by
  cases h with
  | stays _ _ _ hpanics => simp [hpanics]
  | opens hstate => simp [hstate, Panics]
  | commits hstate hcommits => simp [hstate, hcommits.not_panics]
  | aborts hstate haborts => simp [hstate, haborts.not_panics]
  | panics _ hpanics => simp [hpanics]

end Advance

variable [TableStore σ] {w w' : World σ} {name : String} {step : Step} {answer : Answer}

theorem not_commits_of_ne (hstep : step.session? ≠ some name) : ¬ Commits name (step, answer) := by
  rintro ⟨now, rows, hreply⟩
  rw [(Prod.mk.inj hreply).1] at hstep
  exact hstep rfl

theorem not_aborts_of_ne (hstep : step.session? ≠ some name) : ¬ Aborts name (step, answer) := by
  rintro (hreply | ⟨now, e, hreply, _⟩)
  all_goals
    rw [(Prod.mk.inj hreply).1] at hstep
    exact hstep rfl

theorem not_panics_of_ne (hstep : step.session? ≠ some name) : ¬ Panics name (step, answer) := by
  rintro ⟨now, hreply⟩
  rw [(Prod.mk.inj hreply).1] at hstep
  exact hstep rfl

/-- A step advances every session that it does not drop. -/
theorem Outcome.advance (h : Outcome w step answer w') {s : Session}
    (hs : w.session? name = some s) (hdrop : step ≠ .drop name) :
    ∃ s', w'.session? name = some s' ∧ Advance name (step, answer) s s' := by
  by_cases hname : step.session? = some name
  case neg =>
    have hsame : w'.session? name = some s := (h.session?_of_ne hname).trans hs
    exact ⟨s, hsame, .stays s (not_commits_of_ne hname) (not_aborts_of_ne hname)
      (not_panics_of_ne hname)⟩
  have hmine : ∀ {s₁ : Session}, w.session? name = some s₁ → s₁ = s := fun hs₁ =>
    Option.some.inj (hs₁.symm.trans hs)
  cases h with
  | misnamed => exact ⟨s, hs, .stays s (by simp [Commits]) (by simp [Aborts]) (by simp [Panics])⟩
  | created _ _ hnew | notCreated hnew | createdOpen hnew =>
    obtain rfl := Option.some.inj hname
    rw [hs] at hnew
    cases hnew
  | notIdle | notStarted | read | enlisted =>
    exact ⟨s, hs, .stays s (by simp [Commits]) (by simp [Aborts]) (by simp [Panics])⟩
  | started hs₁ hstate =>
    obtain rfl := Option.some.inj hname
    obtain rfl := hmine hs₁
    exact ⟨_, session?_setSession_self .., .opens hstate _⟩
  | @notOpen _ _ _ e _ hopen =>
    refine ⟨s, hs, .stays s (by simp [Commits]) ?_ (by simp [Panics])⟩
    have hrefusal : e = .notOpen ∨ e = .alreadyCompleted := Session.eq_of_ensureOpen_error hopen
    rintro (hreply | ⟨now, f, hreply, hne, hne'⟩)
    · simp at hreply
    · obtain ⟨-, hanswer⟩ := Prod.mk.inj hreply
      obtain rfl := Answer.refused.inj hanswer
      rcases hrefusal with he | he
      · exact hne he
      · exact hne' he
  | @completed _ now _ _ b _ result _ hs₁ hopen hcommit =>
    obtain rfl := Option.some.inj hname
    obtain rfl := hmine hs₁
    have hstate := (Session.ensureOpen_eq_ok_iff.1 hopen).1
    refine ⟨_, session?_setSession_self .., ?_⟩
    cases result with
    | ok rows => exact .commits hstate ⟨now, rows, rfl⟩
    | error e =>
      have herror : e ≠ .notOpen ∧ e ≠ .alreadyCompleted :=
        SharedBatch.error_of_commit (congrArg Prod.fst hcommit)
      exact .aborts hstate (.inr ⟨now, e, rfl, herror⟩)
  | panicked hs₁ hopen =>
    obtain rfl := Option.some.inj hname
    obtain rfl := hmine hs₁
    have hstate := (Session.ensureOpen_eq_ok_iff.1 hopen).1
    exact ⟨_, session?_setSession_self .., .panics hstate ⟨_, rfl⟩⟩
  | aborted hs₁ hopen =>
    obtain rfl := Option.some.inj hname
    obtain rfl := hmine hs₁
    have hstate := (Session.ensureOpen_eq_ok_iff.1 hopen).1
    exact ⟨_, session?_setSession_self .., .aborts hstate (.inl rfl)⟩
  | dropped | detached =>
    obtain rfl := Option.some.inj hname
    exact absurd rfl hdrop
  | _ => cases hname

/-- Each step of a run with its answer. -/
def transcript (w : World σ) (steps : List Step) : List (Step × Answer) :=
  steps.zip (w.run steps).1

theorem transcript_cons (w : World σ) (step : Step) (steps : List Step) :
    w.transcript (step :: steps) = (step, (w.step step).1) :: (w.step step).2.transcript steps :=
  rfl

/-- No call panics for whose deadline the clock is long enough. -/
theorem Outcome.not_panics (h : Outcome w step answer w')
    (htold : ∀ now, step = .complete name now → w.manager.config.tellsDeadline now = true) :
    ¬ Panics name (step, answer) := by
  rintro ⟨now, hreply⟩
  obtain ⟨rfl, hanswer⟩ := Prod.mk.inj hreply
  cases h with
  | misnamed | notOpen => cases hanswer
  | completed => exact Answer.ofRows_ne_panicked _ hanswer
  | panicked _ _ hlost =>
    rw [htold now rfl] at hlost
    cases hlost

theorem not_panics_of_tellsDeadline {steps : List Step}
    (htold : ∀ now, .complete name now ∈ steps → w.manager.config.tellsDeadline now = true) :
    ∀ reply ∈ w.transcript steps, ¬ Panics name reply := by
  induction steps generalizing w with
  | nil => exact fun _ hmem => absurd hmem List.not_mem_nil
  | cons step steps ih =>
    have houtcome := w.outcome step
    rw [transcript_cons, List.forall_mem_cons]
    constructor
    · exact houtcome.not_panics fun now hstep => htold now (by simp [hstep])
    · refine ih fun now hlater => ?_
      rw [houtcome.config]
      exact htold now (List.mem_cons_of_mem step hlater)

/-- The states that a session is seen in: at first, and after each of some steps. -/
def seen (w : World σ) (name : String) : List Step → List SessionState
  | [] => (w.session? name).toList.map Session.state
  | step :: steps =>
    (w.session? name).toList.map Session.state ++ (w.step step).2.seen name steps

theorem exists_seen_eq_cons {s : Session} (hs : w.session? name = some s) (steps : List Step) :
    ∃ states, w.seen name steps = s.state :: states := by
  cases steps with
  | nil => exact ⟨[], by simp [seen, hs]⟩
  | cons step steps => exact ⟨(w.step step).2.seen name steps, by simp [seen, hs]⟩

/-- What a session has come to, by the answers to its calls. -/
structure Told (name : String) (replies : List (Step × Answer)) (s s' : Session) : Prop where
  holds : (∀ reply ∈ replies, ¬ Panics name reply) →
    (s.batch.isSome = true ↔ s.state = .open) → (s'.batch.isSome = true ↔ s'.state = .open)
  committed : s'.state = .committed ↔
    s.state = .committed ∨ ∃ reply ∈ replies, Commits name reply
  aborted : s'.state = .aborted ↔ s.state = .aborted ∨ ∃ reply ∈ replies, Aborts name reply
  committing : s'.state = .committing ↔
    s.state = .committing ∨ ∃ reply ∈ replies, Panics name reply

/-- As long as it is not dropped, a session is there and its state follows from its answers. -/
theorem told_after {s : Session} (hs : w.session? name = some s) {steps : List Step}
    (hdrop : .drop name ∉ steps) :
    ∃ s', (w.after steps).session? name = some s' ∧ Told name (w.transcript steps) s s' := by
  induction steps generalizing w s with
  | nil =>
    exact ⟨s, hs, fun _ => id, by simp [transcript], by simp [transcript], by simp [transcript]⟩
  | cons step steps ih =>
    obtain ⟨hstep, hrest⟩ := List.ne_and_not_mem_of_not_mem_cons hdrop
    obtain ⟨s₁, hs₁, hadvance⟩ := (w.outcome step).advance hs (Ne.symm hstep)
    obtain ⟨s', hs', htold⟩ := ih hs₁ hrest
    refine ⟨s', hs', ?_⟩
    rw [transcript_cons]
    constructor
    case holds =>
      intro hreturns hholds
      obtain ⟨hnow, hlater⟩ := List.forall_mem_cons.1 hreturns
      exact htold.holds hlater (hadvance.holds_iff hnow hholds)
    case committed => simp [htold.committed, hadvance.committed_iff, or_assoc]
    case aborted => simp [htold.aborted, hadvance.aborted_iff, or_assoc]
    case committing => simp [htold.committing, hadvance.committing_iff, or_assoc]

theorem isChain_seen {s : Session} (hs : w.session? name = some s) {steps : List Step}
    (hdrop : .drop name ∉ steps) (hreturns : ∀ reply ∈ w.transcript steps, ¬ Panics name reply) :
    (w.seen name steps).IsChain SessionState.Follows := by
  induction steps generalizing w s with
  | nil => simp [seen, hs]
  | cons step steps ih =>
    obtain ⟨hstep, hrest⟩ := List.ne_and_not_mem_of_not_mem_cons hdrop
    obtain ⟨s₁, hs₁, hadvance⟩ := (w.outcome step).advance hs (Ne.symm hstep)
    obtain ⟨states, hseen⟩ := exists_seen_eq_cons hs₁ steps
    rw [transcript_cons, List.forall_mem_cons] at hreturns
    have hchain := ih hs₁ hrest hreturns.2
    have hcons : w.seen name (step :: steps) = s.state :: s₁.state :: states := by
      simp [seen, hs, hseen]
    rw [hseen] at hchain
    rw [hcons]
    exact List.isChain_cons_cons.2 ⟨hadvance.follows hreturns.1, hchain⟩

theorem getLast?_seen {s : Session} {steps : List Step}
    (hs : (w.after steps).session? name = some s) : (w.seen name steps).getLast? = some s.state := by
  induction steps generalizing w with
  | nil =>
    have hs' : w.session? name = some s := hs
    simp [seen, hs']
  | cons step steps ih =>
    have hlast : ((w.step step).2.seen name steps).getLast? = some s.state := ih hs
    rw [seen, List.getLast?_append, hlast]
    rfl

section Refusals

variable {s : Session}

theorem step_start_of_isTerminal (hs : w.session? name = some s) (h : s.state.isTerminal = true) :
    w.step (.start name) = (.refused .alreadyCompleted, w) := by
  have hstate : s.state ≠ .idle := by
    intro hidle
    rw [hidle] at h
    cases h
  rw [step_start hs, Session.start, if_pos hstate, setSession_self hs]
  rfl

/-- An open that is refused leaves everything as it was. -/
theorem Opens.eq_of_refused {e : SessionError} (hopens : Opens name step)
    (h : w.step step = (.refused e, w')) : w' = w := by
  have houtcome := w.outcome step
  rw [h] at houtcome
  rcases hopens with rfl | ⟨work, partition, rfl⟩
  · cases houtcome with
    | notIdle | notStarted | notOpen => rfl
  · cases houtcome with
    | notCreated | notOpen => rfl

end Refusals

/-- A step makes a session of a name: idle, or open at once. -/
def Makes (w : World σ) (name : String) (birth : Step) : Prop :=
  (w.step birth).1 = .done ∧ ∃ work partition,
    birth = .create name work partition ∨ birth = .createOpen name work partition

/-- A session that is made open is made idle first, and opened then. -/
theorem step_start_of_createOpen {work : WorkId} {partition : Partition}
    (h : (w.step (.createOpen name work partition)).1 = .done) :
    (w.step (.create name work partition)).2.step (.start name) =
      w.step (.createOpen name work partition) := by
  have houtcome := w.outcome (.createOpen name work partition)
  rw [h] at houtcome
  generalize (w.step (.createOpen name work partition)).2 = w' at houtcome
  cases houtcome with
  | @createdOpen _ _ _ id m hnew hacquire =>
    have hmanager : (w.setSession name { work, partition } w.manager).manager = w.manager := rfl
    have hstart : ({ work, partition } : Session).start w.manager =
        (.ok (), { work, partition, state := .open, batch := some id },
          m.modifyBatch id SharedBatch.join) := by
      rw [Session.start, if_neg (by simp), hacquire]
    rw [step_create hnew, step_start (session?_setSession_self ..), setSession_setSession,
      step_createOpen hnew hacquire, hmanager, hstart]
    rfl

/-- A session that has just been made is idle or open, and holds a batch if it is open. -/
theorem Makes.exists_session {birth : Step} (h : w.Makes name birth) :
    ∃ s, (w.step birth).2.session? name = some s ∧
      (s.state = .idle ∨ s.state = .open) ∧ (s.batch.isSome = true ↔ s.state = .open) := by
  obtain ⟨hdone, work, partition, hbirth⟩ := h
  have houtcome := w.outcome birth
  rw [hdone] at houtcome
  generalize (w.step birth).2 = w' at houtcome ⊢
  rcases hbirth with rfl | rfl
  · cases houtcome with
    | created => exact ⟨_, session?_setSession_self .., .inl rfl, by simp⟩
  · cases houtcome with
    | createdOpen => exact ⟨_, session?_setSession_self .., .inr rfl, by simp⟩

/-- How a session stands between two calls, after it has been seen in some states and its calls
have been answered. -/
structure Lives (w : World σ) (name : String) (s : Session) (states : List SessionState)
    (replies : List (Step × Answer)) : Prop where
  current : states.getLast? = some s.state
  /-- Repetitions left out, it has been idle, then open, then at its end, or has got part of the
  way. -/
  course : ∃ last, last.isTerminal = true ∧
    states.destutter (· ≠ ·) <+: [.idle, .open, last]
  settled : ∀ a ∈ states, a ≠ .committing ∧ a ≠ .aborting
  holds : s.batch.isSome = true ↔ s.state = .open
  committed : s.state = .committed ↔ ∃ reply ∈ replies, Commits name reply
  aborted : s.state = .aborted ↔ ∃ reply ∈ replies, Aborts name reply
  /-- An open that is refused leaves the session and all else as they were. -/
  notOpened : ∀ step, Opens name step → ∀ e w', w.step step = (.refused e, w') → w' = w
  idle : s.state = .idle →
    ∀ step, step.isCallOf name = true → w.step step = (.refused .notOpen, w)
  ended : s.state.isTerminal = true →
    ∀ step, step = .start name ∨ step.isCallOf name = true →
      w.step step = (.refused .alreadyCompleted, w)

/--
From when it is made until it is dropped, a session goes from idle over open to committed or
aborted, and is never seen on the way to its end. It holds a batch exactly while it is open. It is
committed if a call of its own to complete has succeeded, aborted if its own abort has or its own
complete has failed, and for no other reason. Before and after it is open its calls are refused, and
then nothing changes. All this holds as long as the clock can tell the deadlines of its own calls.
-/
theorem session_lifecycle {σ : Type} [TableStore σ] (w : World σ) (name : String) (birth : Step)
    (hbirth : w.Makes name birth) (later : List Step) (hlater : .drop name ∉ later)
    (htold : ∀ now, .complete name now ∈ later → w.manager.config.tellsDeadline now = true) :
    (∀ work partition, birth = .createOpen name work partition →
      (w.step (.create name work partition)).2.step (.start name) = w.step birth) ∧
    ∃ s, (w.after (birth :: later)).session? name = some s ∧
      (w.after (birth :: later)).Lives name s (.idle :: (w.step birth).2.seen name later)
        ((w.step birth).2.transcript later) := by
  obtain ⟨s₀, hs₀, hstate₀, hholds₀⟩ := hbirth.exists_session
  have hreturns : ∀ reply ∈ (w.step birth).2.transcript later, ¬ Panics name reply :=
    not_panics_of_tellsDeadline fun now hnow => by
      rw [(w.outcome birth).config]
      exact htold now hnow
  obtain ⟨s, hs, hanswered⟩ := told_after hs₀ hlater
  obtain ⟨states, hseen⟩ := exists_seen_eq_cons hs₀ later
  have hlast : ((w.step birth).2.seen name later).getLast? = some s.state := getLast?_seen hs
  have hchain : (SessionState.idle :: (w.step birth).2.seen name later).IsChain
      SessionState.Follows := by
    have hrest := isChain_seen hs₀ hlater hreturns
    rw [hseen] at hrest ⊢
    refine List.isChain_cons_cons.2 ⟨?_, hrest⟩
    rcases hstate₀ with hidle | hopen
    · rw [hidle]
      exact .stays _
    · rw [hopen]
      exact .opens
  refine ⟨?_, s, hs, ?_⟩
  · rintro work partition rfl
    exact step_start_of_createOpen hbirth.1
  constructor
  case current =>
    rw [List.getLast?_cons, hlast]
    rfl
  case course => exact SessionState.destutter_idle hchain
  case settled => exact SessionState.isSettled_of_isChain hchain (by simp [SessionState.IsSettled])
  case holds => exact hanswered.holds hreturns hholds₀
  case committed =>
    have hstart : s₀.state ≠ .committed := by rcases hstate₀ with h | h <;> simp [h]
    simp [hanswered.committed, hstart]
  case aborted =>
    have hstart : s₀.state ≠ .aborted := by rcases hstate₀ with h | h <;> simp [h]
    simp [hanswered.aborted, hstart]
  case notOpened => exact fun step hopens e w' hstep => hopens.eq_of_refused hstep
  case idle =>
    intro hidle step hcall
    exact step_eq_of_ensureOpen_error hs (Session.ensureOpen_of_idle hidle _) hcall
  case ended =>
    intro hended step hcall
    rcases hcall with rfl | hcall
    · exact step_start_of_isTerminal hs hended
    · exact step_eq_of_ensureOpen_error hs (Session.ensureOpen_of_isTerminal hended _) hcall

private def pier : Partition := ⟨"Piers", "east", by decide, by decide⟩

/-- A session waits at the pier for another one, and no commit is to take more than five seconds. -/
private def moored : World MemoryStore :=
  (fresh ({ config := {} } : MemoryStore) { commitTimeout := some (.ofMillis 5000) }).after
    [.createOpen "a" "w" pier]

/-- Somebody fails while holding the lock, and the registry lets go of the unit of work. -/
private def stormySteps : List Step :=
  [.enlist "a" (Operation.insert ⟨"east", "boat"⟩ ∅), .poison 0, .release "w", .complete "b" .start,
    .complete "a" .start]

theorem session_lifecycle_poisoned :
    moored.Makes "b" (.createOpen "b" "w" pier) ∧ .drop "b" ∉ stormySteps ∧
      (moored.step (.createOpen "b" "w" pier)).2.seen "b" stormySteps =
        [.open, .open, .open, .open, .aborted, .aborted] ∧
      ∃ s, (moored.after (.createOpen "b" "w" pier :: stormySteps)).session? "b" = some s ∧
        s.state = .aborted ∧ s.batch.isSome = false := by
  have hmade : moored.Makes "b" (.createOpen "b" "w" pier) :=
    ⟨by decide +kernel, "w", pier, .inr rfl⟩
  have hkept : .drop "b" ∉ stormySteps := by simp [stormySteps]
  have htold : ∀ now, .complete "b" now ∈ stormySteps →
      moored.manager.config.tellsDeadline now = true := by
    intro now hnow
    obtain rfl : now = .start := by simpa [stormySteps] using hnow
    decide +kernel
  obtain ⟨-, s, hs, hlives⟩ :=
    session_lifecycle moored "b" (.createOpen "b" "w" pier) hmade stormySteps hkept htold
  have hanswers : ((moored.step (.createOpen "b" "w" pier)).2.run stormySteps).1 =
      [.done, .done, .done, .refused (.internal .poisonedLock), .refused .alreadyCompleted] := by
    decide +kernel
  have hreply : (.complete "b" .start, .refused (.internal .poisonedLock)) ∈
      (moored.step (.createOpen "b" "w" pier)).2.transcript stormySteps := by
    rw [transcript, hanswers]
    simp [stormySteps]
  have haborted : s.state = .aborted :=
    hlives.aborted.2 ⟨_, hreply, .inr ⟨_, _, rfl, by decide, by decide⟩⟩
  have hbatch : s.batch.isSome = false := by
    rw [← Bool.not_eq_true, hlives.holds, haborted]
    decide
  exact ⟨hmade, hkept, by decide +kernel, s, hs, haborted, hbatch⟩

/-- Commits may take longer here than any clock can tell. -/
private def adrift : World MemoryStore :=
  fresh ({ config := {} } : MemoryStore) { commitTimeout := some .longest }

private def driftingSteps : List Step := [.complete "a" .start]

/-- A session whose call panicked is seen on the way to its end, and holds its batch there. -/
theorem session_lifecycle_broken_by_panic :
    adrift.Makes "a" (.createOpen "a" "w" pier) ∧ .drop "a" ∉ driftingSteps ∧
      (adrift.step (.createOpen "a" "w" pier)).2.seen "a" driftingSteps = [.open, .committing] ∧
      (adrift.after (.createOpen "a" "w" pier :: driftingSteps)).session? "a" =
        some { work := "w", partition := pier, state := .committing, batch := some 0 } ∧
      ¬ ∃ s, (adrift.after (.createOpen "a" "w" pier :: driftingSteps)).session? "a" = some s ∧
        (adrift.after (.createOpen "a" "w" pier :: driftingSteps)).Lives "a" s
          (.idle :: (adrift.step (.createOpen "a" "w" pier)).2.seen "a" driftingSteps)
          ((adrift.step (.createOpen "a" "w" pier)).2.transcript driftingSteps) := by
  have hmade : adrift.Makes "a" (.createOpen "a" "w" pier) :=
    ⟨by decide +kernel, "w", pier, .inr rfl⟩
  have hseen : (adrift.step (.createOpen "a" "w" pier)).2.seen "a" driftingSteps =
      [.open, .committing] := by decide +kernel
  refine ⟨hmade, by simp [driftingSteps], hseen, by decide +kernel, fun ⟨s, _, hlives⟩ => ?_⟩
  have hsettled := hlives.settled
  rw [hseen] at hsettled
  exact (hsettled .committing (by simp)).1 rfl

end World

end UnitOfWork
