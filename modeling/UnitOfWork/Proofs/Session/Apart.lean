import UnitOfWork.Proofs.Session.Reachable
import UnitOfWork.Proofs.Session.Twin

/-!
The run of a single session beside the run of those that share a unit of work: what keeping up
means, and that it is easy until a first session opens.
-/

namespace UnitOfWork.SharedUnit

variable {σ : Type} {u : SharedUnit} {w w' v : World σ} {step : Step} {answer : Answer}

section Steps

theorem isOwn_of_isOwnStep {name : String} (hown : u.isOwnStep step = true)
    (hname : step.session? = some name) : u.isOwn name = true := by
  simpa [isOwnStep, hname] using hown

theorem ne_of_isOwn {name other : String} (hname : u.isOwn name = true)
    (hother : u.isOwn other = false) : other ≠ name := by
  intro he
  rw [he, hname] at hother
  cases hother

theorem session?_ne_of_isOwn {name : String} (hown : u.isOwnStep step = false)
    (hname : u.isOwn name = true) : step.session? ≠ some name := by
  intro h
  simp [isOwnStep, h, hname] at hown

/-- Nobody else has the name of the single session. -/
theorem session?_ne_solo (hallows : u.AllowsOther w step) : step.session? ≠ some u.solo := by
  intro h
  cases step with
  | create | createOpen | start | read | enlist | complete | abort | drop =>
    exact hallows.1 (Option.some.inj h)
  | _ => cases h

variable [TableStore σ]

/-- Nobody else touches the sessions of the unit. -/
theorem session?_of_not_isOwnStep (h : w.Outcome step answer w') (hown : u.isOwnStep step = false)
    {name : String} (hname : u.isOwn name = true) : w'.session? name = w.session? name :=
  h.session?_of_ne (session?_ne_of_isOwn hown hname)

theorem registry_of_allowsOther (h : w.Outcome step answer w') (hallows : u.AllowsOther w step) :
    w'.manager.registry.get? u.work = w.manager.registry.get? u.work := by
  cases h with
  | createdOpen _ hacquire =>
    obtain ⟨_, hwork⟩ := hallows
    have hkept := Manager.registry_of_acquire hacquire (Ne.symm hwork)
    exact hkept
  | @started name s _ _ hs _ hacquire =>
    obtain ⟨_, hforeign⟩ := hallows
    have hkept := Manager.registry_of_acquire hacquire (Ne.symm (hforeign s hs))
    exact hkept
  | @completed name now s id b b' _ store hs =>
    obtain ⟨_, hforeign⟩ := hallows
    show (Manager.close _ _ _ _).registry.get? _ = _
    rw [Manager.registry_close, if_neg fun hand => hforeign s hs hand.1.symm]
  | @aborted name s id b hs =>
    obtain ⟨_, hforeign⟩ := hallows
    show (Manager.close _ _ _ _).registry.get? _ = _
    rw [Manager.registry_close, if_neg fun hand => hforeign s hs hand.1.symm]
  | @detached name s id b hs =>
    obtain ⟨_, hforeign⟩ := hallows
    dsimp only
    split
    · rfl
    · rw [Manager.registry_close, if_neg fun hand => hforeign s hs hand.1.symm]
  | acquired hacquire => exact Manager.registry_of_acquire hacquire (Ne.symm hallows)
  | released work =>
    show (w.manager.registry.erase work).get? u.work = _
    rw [SortedMap.get?_erase, if_neg (Ne.symm hallows)]
  | poisoned => exact hallows.elim
  | _ => rfl

/-- The sessions of the unit are bound to its partition. -/
def OwnBound (u : SharedUnit) (w : World σ) : Prop :=
  ∀ name s, u.isOwn name = true → w.session? name = some s →
    s.work = u.work ∧ s.partition = u.partition

theorem ownBound_step (hbound : u.OwnBound w) (h : w.Outcome step answer w')
    (hallows : u.Allows w step) : u.OwnBound w' := by
  intro name s hname hs
  have hmove := h.sessionMove name
  rw [hs] at hmove
  generalize hbefore : w.session? name = before at hmove
  generalize hsome : some s = o at hmove
  have hownStep : ∀ {step}, step.session? = some name → u.Allows w step → u.AllowsOwn w step :=
    fun hstep hallows => hallows.own (by simp [isOwnStep, hstep, hname])
  cases hmove with
  | stays =>
    subst hsome
    exact hbound name s hname hbefore
  | created | createdOpen =>
    cases hsome
    exact hownStep rfl hallows
  | started | completed | panicked | aborted =>
    cases hsome
    have hkept := hbound name _ hname hbefore
    exact hkept
  | dropped => cases hsome

end Steps

section Apart

variable [TableStore σ]

/-- Before the first session of the unit is open, both runs see the same. -/
structure Apart (u : SharedUnit) (w v : World σ) : Prop where
  twin : u.Twin (fun m => m) w v
  free : v.session? u.solo = none
  ownBound : u.OwnBound w
  unregistered : w.manager.registry.get? u.work = none
  grounded : w.Grounded

/-- As long as no session of the unit is open, its sessions leave the shared state alone. -/
theorem manager_of_closed (h : w.Outcome step answer w') (hown : u.isOwnStep step = true)
    (hallows : u.AllowsOwn w step) (hbefore : ¬ u.SomeOpen w) (hafter : ¬ u.SomeOpen w') :
    w'.manager = w.manager := by
  have hopened : ∀ {name s m}, u.isOwn name = true → s.state = .open →
      u.SomeOpen (w.setSession name s m) := fun {name s m} hname hstate =>
    ⟨name, s, hname, w.session?_setSession_self name s m, hstate⟩
  cases h with
  | createdOpen | started =>
    exact absurd (hopened (isOwn_of_isOwnStep hown rfl) rfl) hafter
  | enlisted =>
    obtain ⟨s, hs, hstate⟩ := hallows
    exact absurd ⟨_, s, isOwn_of_isOwnStep hown rfl, hs, hstate⟩ hbefore
  | completed | panicked | aborted => exact hallows.elim
  | detached hs hstate =>
    exact absurd ⟨_, _, isOwn_of_isOwnStep hown rfl, hs, hstate⟩ hbefore
  | acquired | released | registered | committed | abandoned | poisoned => cases hown
  | _ => rfl

theorem soloStep?_of_not_isOwnStep (hown : u.isOwnStep step = false) :
    u.soloStep? step = some step := if_neg (by simp [hown])

theorem soloStep?_eq_none (hown : u.isOwnStep step = true)
    (henlist : ∀ name op, step ≠ .enlist name op) : u.soloStep? step = none := by
  unfold soloStep?
  rw [if_pos hown]
  split
  · exact absurd rfl (henlist _ _)
  · rfl

/-- A single session's run keeps up with a step of the shared run: it gives the same answer if it
has the step too, and is again related to the shared run. -/
def KeepsUp (u : SharedUnit) (R : World σ → World σ → Prop) (w v : World σ) (step : Step) : Prop :=
  (v.run (u.soloStep? step).toList).1 = u.answers w [step] ∧
    R (w.step step).2 (v.after (u.soloStep? step).toList)

theorem keepsUp_of_some {R : World σ → World σ → Prop} {w v : World σ} {step solo : Step}
    (hsolo : u.soloStep? step = some solo) (hanswer : (v.step solo).1 = (w.step step).1)
    (hrelated : R (w.step step).2 (v.step solo).2) : u.KeepsUp R w v step := by
  rw [KeepsUp, hsolo, answers, hsolo]
  exact ⟨congrArg ([·]) hanswer, hrelated⟩

theorem keepsUp_of_none {R : World σ → World σ → Prop} {w v : World σ} {step : Step}
    (hsolo : u.soloStep? step = none) (hrelated : R (w.step step).2 v) :
    u.KeepsUp R w v step := by
  rw [KeepsUp, hsolo, answers, hsolo]
  exact ⟨rfl, hrelated⟩

/-- If a relation and a condition make the single session's run keep up with every step, it keeps
up with every run in which the condition holds all the time. -/
theorem keepsUp_run {R : World σ → World σ → Prop} {Holds : World σ → Prop}
    (hkeeps : ∀ {w v step}, R w v → u.Allows w step → Holds w → Holds (w.step step).2 →
      u.KeepsUp R w v step)
    {w v : World σ} (hrelated : R w v) {steps : List Step} (hallows : u.AllowsRun w steps)
    (hholds : ∀ done, done <+: steps → Holds (w.after done)) :
    (v.run (steps.filterMap u.soloStep?)).1 = u.answers w steps ∧
      R (w.after steps) (v.after (steps.filterMap u.soloStep?)) := by
  induction steps generalizing w v with
  | nil => exact ⟨rfl, hrelated⟩
  | cons step steps ih =>
    obtain ⟨hstep, hrest⟩ := hallows
    obtain ⟨hanswer, hnext⟩ := hkeeps hrelated hstep (hholds [] (List.nil_prefix))
      (hholds [step] (List.prefix_append [step] steps))
    have hlater : ∀ done, done <+: steps → Holds ((w.step step).2.after done) := fun done hdone =>
      hholds (step :: done) (List.cons_prefix_cons.2 ⟨rfl, hdone⟩)
    obtain ⟨hanswers, hlast⟩ := ih hnext hrest hlater
    have hfilter : (step :: steps).filterMap u.soloStep? =
        (u.soloStep? step).toList ++ steps.filterMap u.soloStep? := by
      rw [List.filterMap_cons]
      cases u.soloStep? step <;> rfl
    rw [hfilter, World.run_append, World.after_append, World.after_cons]
    refine ⟨?_, hlast⟩
    rw [hanswer, hanswers, answers, answers, answers, List.append_nil]

theorem apart_step (h : u.Apart w v) (hallows : u.Allows w step) (hbefore : ¬ u.SomeOpen w)
    (hafter : ¬ u.SomeOpen (w.step step).2) : u.KeepsUp u.Apart w v step := by
  have houtcome := w.outcome step
  cases hown : u.isOwnStep step with
  | false =>
    have hother := hallows.other hown
    obtain ⟨hanswer, htwin⟩ := h.twin.stepOther hown hother (unnoticed_self u w)
    refine keepsUp_of_some (soloStep?_of_not_isOwnStep hown) hanswer ⟨htwin, ?_,
      ownBound_step h.ownBound houtcome hallows, ?_, houtcome.grounded h.grounded⟩
    · rw [(v.outcome step).session?_of_ne (session?_ne_solo hother), h.free]
    · rw [registry_of_allowsOther houtcome hother, h.unregistered]
  | true =>
    have hown' := hallows.own hown
    have hmanager := manager_of_closed houtcome hown hown' hbefore hafter
    refine keepsUp_of_none (soloStep?_eq_none hown ?_) ⟨⟨?_, ?_⟩, h.free,
      ownBound_step h.ownBound houtcome hallows, ?_, houtcome.grounded h.grounded⟩
    · rintro name op rfl
      obtain ⟨s, hs, hstate⟩ := hown'
      exact hbefore ⟨name, s, isOwn_of_isOwnStep hown rfl, hs, hstate⟩
    · exact h.twin.manager.trans hmanager.symm
    · intro name hname hsolo
      have hne : step.session? ≠ some name := fun hstep => by
        simp [isOwn_of_isOwnStep hown hstep] at hname
      rw [houtcome.session?_of_ne hne, h.twin.sessions name hname hsolo]
    · rw [hmanager, h.unregistered]

end Apart

end UnitOfWork.SharedUnit
