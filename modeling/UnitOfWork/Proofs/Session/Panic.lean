import UnitOfWork.Proofs.Session.Lifecycle
import UnitOfWork.Proofs.Session.Membership

/-!
When a call to complete panics, and what it leaves behind: its session stays on the way to its end,
and when the session goes away its batch stays as if it were still there.
-/

namespace UnitOfWork

namespace Instant

theorem after?_eq_none_iff {now : Instant} {d : Duration} :
    now.after? d = none ↔ limit ≤ now.nanos + d.toNanos := by
  simp [after?]

/-- The clock never tells the end of the longest span. -/
theorem after?_longest (now : Instant) : now.after? .longest = none := by
  rw [after?_eq_none_iff]
  dsimp only [limit, Duration.toNanos, Duration.longest, Duration.nanosPerSecond]
  omega

end Instant

theorem SessionConfig.tellsDeadline_eq_false_iff {c : SessionConfig} {now : Instant} :
    c.tellsDeadline now = false ↔
      ∃ timeout, c.commitTimeout = some timeout ∧ now.after? timeout = none := by
  cases h : c.commitTimeout with
  | none => simp [tellsDeadline, h]
  | some timeout =>
    rw [tellsDeadline, h, Option.all_some, Option.isSome_eq_false_iff, Option.isNone_iff_eq_none]
    constructor
    · exact fun hnone => ⟨timeout, rfl, hnone⟩
    · rintro ⟨_, ⟨⟩, hnone⟩
      exact hnone

namespace World

variable {σ : Type} [TableStore σ] {w w' : World σ} {step : Step} {name : String} {now : Instant}
  {id : BatchId} {b : SharedBatch}

/-- What panics is a call of an open session, of a unit of work in progress, to complete it. -/
theorem Outcome.exists_of_panicked {answer : Answer} (h : Outcome w step answer w')
    (hanswer : answer = .panicked) :
    ∃ name now s id b, step = .complete name now ∧ w.session? name = some s ∧
      s.ensureOpen w.manager = .ok (id, b) ∧ w.manager.config.tellsDeadline now = false := by
  cases h with
  | panicked hs hopen hlost => exact ⟨_, _, _, _, _, rfl, hs, hopen, hlost⟩
  | completed | committed => exact absurd hanswer (Answer.ofRows_ne_panicked _)
  | enlisted | registered | abandoned => exact absurd hanswer (Answer.ofUnit_ne_panicked _)
  | read => split at hanswer <;> cases hanswer
  | _ => cases hanswer

/-- A step panics exactly if an open session completes a unit of work in progress and there is to be
a deadline, but the clock cannot tell it. -/
theorem panicked_iff :
    (w.step step).1 = .panicked ↔
      ∃ name now s id b timeout, step = .complete name now ∧ w.session? name = some s ∧
        s.ensureOpen w.manager = .ok (id, b) ∧
        w.manager.config.commitTimeout = some timeout ∧ now.after? timeout = none := by
  constructor
  · intro hanswer
    obtain ⟨name, now, s, id, b, hstep, hs, hopen, hlost⟩ :=
      (w.outcome step).exists_of_panicked hanswer
    obtain ⟨timeout, htimeout, hnone⟩ := SessionConfig.tellsDeadline_eq_false_iff.1 hlost
    exact ⟨name, now, s, id, b, timeout, hstep, hs, hopen, htimeout, hnone⟩
  · rintro ⟨name, now, s, id, b, timeout, rfl, hs, hopen, htimeout, hnone⟩
    have hlost := SessionConfig.tellsDeadline_eq_false_iff.2 ⟨timeout, htimeout, hnone⟩
    rw [step_complete_of_lost hs hopen hlost]

/-- With the longest timeout every such call panics, whenever it is made. -/
theorem panicked_of_longest (htimeout : w.manager.config.commitTimeout = some .longest)
    {s : Session} (hs : w.session? name = some s) (hopen : s.ensureOpen w.manager = .ok (id, b))
    (now : Instant) : (w.step (.complete name now)).1 = .panicked :=
  panicked_iff.2 ⟨name, now, s, id, b, _, rfl, hs, hopen, htimeout, now.after?_longest⟩

/-- Once its call has panicked, a session goes away alone: its batch stays in use and counts it, and
its unit of work stays registered. -/
theorem step_drop_of_panicked (h : (w.step (.complete name now)).1 = .panicked) :
    (w.step (.complete name now)).2.step (.drop name) =
      (.done, { w with sessions := w.sessions.erase name }) := by
  obtain ⟨_, _, s, id, b, hstep, hs, hopen, hlost⟩ :=
    (w.outcome (.complete name now)).exists_of_panicked h
  obtain ⟨rfl, rfl⟩ := Step.complete.inj hstep
  have hdrop : ({ s with state := .committing } : Session).drop w.manager = w.manager :=
    Session.drop_eq_self nofun
  have herase : (w.sessions.insert name { s with state := .committing }).erase name =
      w.sessions.erase name := by
    apply SortedMap.ext_get?
    intro n
    rw [SortedMap.get?_erase, SortedMap.get?_erase, SortedMap.get?_insert]
    split <;> rfl
  rw [step_complete_of_lost hs hopen hlost, step_drop (session?_setSession_self ..)]
  show (Answer.done, World.mk _ _) = _
  rw [setSession, hdrop, herase]

/-- A session is on the way to its end when some call of its own has panicked, and only then. -/
theorem committing_iff_panicked {birth : Step} (hbirth : w.Makes name birth) {later : List Step}
    (hlater : .drop name ∉ later) :
    ∃ s, (w.after (birth :: later)).session? name = some s ∧
      (s.state = .committing ↔
        ∃ reply ∈ (w.step birth).2.transcript later, Panics name reply) := by
  obtain ⟨s₀, hs₀, hstate₀, _⟩ := hbirth.exists_session
  obtain ⟨s, hs, hanswered⟩ := told_after hs₀ hlater
  have hstart : s₀.state ≠ .committing := by rcases hstate₀ with h | h <;> simp [h]
  exact ⟨s, hs, by simp [hanswered.committing, hstart]⟩

/-- No step of a run concerns a batch where it is taken. -/
def Avoids (w : World σ) (id : BatchId) : List Step → Prop
  | [] => True
  | step :: steps => ¬ w.Concerns id step ∧ (w.step step).2.Avoids id steps

theorem Avoids.untouched {steps : List Step} (h : w.Avoids id steps)
    (hb : w.manager.batch? id = some b) : w.Untouched id (w.after steps) := by
  induction steps generalizing w with
  | nil => exact .refl id w
  | cons step steps ih =>
    have hfirst := (w.outcome step).untouched hb h.1
    exact hfirst.trans (ih h.2 (hfirst.manager.batch.trans hb))

/-- A session goes away after its call has panicked. As long as nobody else comes near its batch,
the unit of work stays registered, its operations stay pending and the session stays counted. -/
theorem leaks_of_panicked (h : (w.step (.complete name now)).1 = .panicked) :
    ∃ s id b, w.session? name = some s ∧ s.batch = some id ∧ w.manager.batch? id = some b ∧
      b.completed = false ∧
      ∀ later, ({ w with sessions := w.sessions.erase name } : World σ).Avoids id later →
        (w.after (.complete name now :: .drop name :: later)).manager.batch? id = some b ∧
        ∀ work, (w.after (.complete name now :: .drop name :: later)).manager.registry.get? work =
          some id ↔ w.manager.registry.get? work = some id := by
  obtain ⟨_, _, s, id, b, hstep, hs, hopen, _⟩ :=
    (w.outcome (.complete name now)).exists_of_panicked h
  obtain ⟨rfl, rfl⟩ := Step.complete.inj hstep
  obtain ⟨_, hbatch, hb, hcompleted⟩ := Session.ensureOpen_eq_ok_iff.1 hopen
  refine ⟨s, id, b, hs, hbatch, hb, hcompleted, fun later havoids => ?_⟩
  have hsame := havoids.untouched (b := b) hb
  rw [after_cons, after_cons, step_drop_of_panicked h]
  exact ⟨hsame.manager.batch.trans hb, hsame.manager.registered⟩

end World

end UnitOfWork
