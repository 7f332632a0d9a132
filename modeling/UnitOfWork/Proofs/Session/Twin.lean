import UnitOfWork.Proofs.Session.Recount

/-!
A unit of work that several sessions share, beside a world in which a single session does alone
what they do together.
-/

namespace UnitOfWork

/-- A unit of work, the names of the sessions that share it, and one more name for a session that
does alone what they do together. -/
structure SharedUnit where
  work : WorkId
  partition : Partition
  isOwn : String → Bool
  solo : String
  solo_not_own : isOwn solo = false

namespace SharedUnit

variable (u : SharedUnit)

/-- Whether a step creates or calls one of the sessions that share the unit. -/
def isOwnStep (step : Step) : Bool := step.session?.any u.isOwn

/-- What the single session does for an own step; steps of others are taken as they are. -/
def soloStep? (step : Step) : Option Step :=
  if u.isOwnStep step then
    match step with
    | .enlist _ op => some (.enlist u.solo op)
    | _ => none
  else some step

variable {σ : Type}

def SomeOpen (w : World σ) : Prop :=
  ∃ name s, u.isOwn name = true ∧ w.session? name = some s ∧ s.state = .open

theorem someOpen_iff {w : World σ} :
    u.SomeOpen w ↔ ∃ e ∈ w.sessions.entries, u.isOwn e.1 = true ∧ e.2.state = .open := by
  constructor
  · rintro ⟨name, s, hname, hs, hstate⟩
    exact ⟨(name, s), SortedMap.get?_eq_some_iff.1 hs, hname, hstate⟩
  · rintro ⟨⟨name, s⟩, hs, hname, hstate⟩
    exact ⟨name, s, hname, SortedMap.get?_eq_some_iff.2 hs, hstate⟩

instance (w : World σ) : Decidable (u.SomeOpen w) := decidable_of_iff _ (u.someOpen_iff).symm

/-- Own sessions are created for the unit, are opened, read, enlist while they are open, and are
dropped. -/
def AllowsOwn (w : World σ) : Step → Prop
  | .create _ work partition | .createOpen _ work partition =>
    work = u.work ∧ partition = u.partition
  | .enlist name _ => ∃ s ∈ w.session? name, s.state = .open
  | .start _ | .read _ _ | .drop _ => True
  | _ => False

/-- All others keep to other units of work. -/
def AllowsOther (w : World σ) : Step → Prop
  | .create name work _ | .createOpen name work _ => name ≠ u.solo ∧ work ≠ u.work
  | .start name | .read name _ | .enlist name _ | .complete name _ | .abort name | .drop name =>
    name ≠ u.solo ∧ ∀ s ∈ w.session? name, s.work ≠ u.work
  | .acquire work _ | .release work => work ≠ u.work
  | .register id _ | .commit id _ | .abandon id => w.manager.registry.get? u.work ≠ some id
  | .poison _ => False

def Allows (w : World σ) (step : Step) : Prop :=
  if u.isOwnStep step then u.AllowsOwn w step else u.AllowsOther w step

instance (w : World σ) : (step : Step) → Decidable (u.AllowsOwn w step)
  | .create _ work partition | .createOpen _ work partition =>
    inferInstanceAs (Decidable (work = u.work ∧ partition = u.partition))
  | .enlist name _ => inferInstanceAs (Decidable (∃ s ∈ w.session? name, s.state = .open))
  | .start _ | .read _ _ | .drop _ => isTrue trivial
  | .complete _ _ | .abort _ | .acquire _ _ | .release _ | .register _ _ | .commit _ _
  | .abandon _ | .poison _ => isFalse id

instance (w : World σ) : (step : Step) → Decidable (u.AllowsOther w step)
  | .create name work _ | .createOpen name work _ =>
    inferInstanceAs (Decidable (name ≠ u.solo ∧ work ≠ u.work))
  | .start name | .read name _ | .enlist name _ | .complete name _ | .abort name | .drop name =>
    inferInstanceAs (Decidable (name ≠ u.solo ∧ ∀ s ∈ w.session? name, s.work ≠ u.work))
  | .acquire work _ | .release work => inferInstanceAs (Decidable (work ≠ u.work))
  | .register id _ | .commit id _ | .abandon id =>
    inferInstanceAs (Decidable (w.manager.registry.get? u.work ≠ some id))
  | .poison _ => isFalse id

instance (w : World σ) (step : Step) : Decidable (u.Allows w step) :=
  inferInstanceAs (Decidable (if u.isOwnStep step then u.AllowsOwn w step else u.AllowsOther w step))

variable {u} in
theorem Allows.own {w : World σ} {step : Step} (h : u.Allows w step)
    (hown : u.isOwnStep step = true) : u.AllowsOwn w step := by
  rwa [Allows, if_pos hown] at h

variable {u} in
theorem Allows.other {w : World σ} {step : Step} (h : u.Allows w step)
    (hown : u.isOwnStep step = false) : u.AllowsOther w step := by
  rwa [Allows, if_neg (by simp [hown])] at h

/-- A change of the shared state that no other unit of work notices or disturbs. -/
structure Unnoticed [TableStore σ] (change : Manager σ → Manager σ) (w : World σ) : Prop where
  store : (change w.manager).store = w.manager.store
  session : ∀ s : Session, s.work ≠ u.work →
    (s.batch = none ∨ ∃ name, u.isOwn name = false ∧ w.session? name = some s) →
      s.Unaware change w.manager
  acquire : ∀ work partition, work ≠ u.work → (change w.manager).acquire work partition =
    ((w.manager.acquire work partition).1, change (w.manager.acquire work partition).2)
  release : ∀ work, (change w.manager).release work = change (w.manager.release work)
  batch : ∀ id, w.manager.registry.get? u.work ≠ some id →
    (change w.manager).batch? id = w.manager.batch? id ∧
      ∀ store b, { change w.manager with store }.setBatch id b =
        change ({ w.manager with store }.setBatch id b)

/-- Two worlds with the same sessions but for those of the unit, and with the same shared state but
for a given change. -/
structure Twin (change : Manager σ → Manager σ) (w v : World σ) : Prop where
  manager : v.manager = change w.manager
  sessions : ∀ name, u.isOwn name = false → name ≠ u.solo → v.session? name = w.session? name

namespace Twin

variable {u} {change : Manager σ → Manager σ} {w v : World σ}

theorem setSession (h : u.Twin change w v) (name : String) (s : Session) (m : Manager σ) :
    u.Twin change (w.setSession name s m) (v.setSession name s (change m)) where
  manager := rfl
  sessions n hown hsolo := by
    rw [World.session?_setSession, World.session?_setSession, h.sessions n hown hsolo]

/-- A call that does not notice the change goes the same way in both worlds. -/
theorem call (h : u.Twin change w v) {name : String} (hown : u.isOwn name = false)
    (hsolo : name ≠ u.solo) {f : Session → Manager σ → Answer × Session × Manager σ}
    (hf : ∀ s, w.session? name = some s → f s (change w.manager) =
      ((f s w.manager).1, (f s w.manager).2.1, change (f s w.manager).2.2)) :
    (v.call name f).1 = (w.call name f).1 ∧
      u.Twin change (w.call name f).2 (v.call name f).2 := by
  unfold World.call
  rw [h.sessions name hown hsolo]
  cases hs : w.session? name with
  | none => exact ⟨rfl, h⟩
  | some s =>
    dsimp only
    rw [h.manager, hf s hs]
    exact ⟨rfl, h.setSession name _ _⟩

/-- Another session can be dropped in both worlds alike. -/
theorem drop (h : u.Twin change w v) {name : String} (hown : u.isOwn name = false)
    (hsolo : name ≠ u.solo)
    (hdrop : ∀ s, w.session? name = some s → s.drop (change w.manager) = change (s.drop w.manager)) :
    (v.drop name).1 = (w.drop name).1 ∧ u.Twin change (w.drop name).2 (v.drop name).2 := by
  unfold World.drop
  rw [h.sessions name hown hsolo]
  cases hs : w.session? name with
  | none => exact ⟨rfl, h⟩
  | some s =>
    refine ⟨rfl, ?_, fun n hn hne => ?_⟩
    · dsimp only
      rw [h.manager, hdrop s hs]
    · rw [World.session?_erase, World.session?_erase]
      split
      · rfl
      · exact h.sessions n hn hne

/-- Another batch is acted on in both worlds alike. -/
theorem onBatch (h : u.Twin change w v) {id : BatchId}
    (hb : (change w.manager).batch? id = w.manager.batch? id)
    (hstore : (change w.manager).store = w.manager.store)
    (hset : ∀ store b, { change w.manager with store }.setBatch id b =
      change ({ w.manager with store }.setBatch id b))
    (f : SharedBatch → σ → Answer × SharedBatch × σ) :
    (v.onBatch id f).1 = (w.onBatch id f).1 ∧
      u.Twin change (w.onBatch id f).2 (v.onBatch id f).2 := by
  unfold World.onBatch
  rw [h.manager, hb, hstore]
  cases w.manager.batch? id with
  | none => exact ⟨rfl, h⟩
  | some b => exact ⟨rfl, hset _ _, h.sessions⟩

end Twin

variable [TableStore σ]

/-- All steps of a run are allowed where they are taken. -/
def AllowsRun (w : World σ) : List Step → Prop
  | [] => True
  | step :: steps => u.Allows w step ∧ AllowsRun (w.step step).2 steps

instance decidableAllowsRun (w : World σ) : (steps : List Step) → Decidable (u.AllowsRun w steps)
  | [] => isTrue trivial
  | step :: steps =>
    have := decidableAllowsRun (w.step step).2 steps
    inferInstanceAs (Decidable (_ ∧ _))

/-- The answers in a run to the steps that the single session's run has too. -/
def answers (w : World σ) : List Step → List Answer
  | [] => []
  | step :: steps =>
    (if (u.soloStep? step).isSome then [(w.step step).1] else []) ++
      answers (w.step step).2 steps

/-- What the others do goes the same way in both worlds if none of them notices the change. -/
theorem Twin.stepOther {u : SharedUnit} {change : Manager σ → Manager σ} {w v : World σ}
    (h : u.Twin change w v) {step : Step} (hown : u.isOwnStep step = false)
    (hallows : u.AllowsOther w step) (hchange : u.Unnoticed change w) :
    (v.step step).1 = (w.step step).1 ∧ u.Twin change (w.step step).2 (v.step step).2 := by
  have hcontains : ∀ name, u.isOwn name = false → name ≠ u.solo →
      v.sessions.contains name = w.sessions.contains name := fun name hname hsolo =>
    congrArg Option.isSome (h.sessions name hname hsolo)
  cases step with
  | create name work partition =>
    obtain ⟨hsolo, _⟩ := hallows
    rw [World.step, World.step, World.create, World.create, hcontains name hown hsolo]
    split
    · exact ⟨rfl, h⟩
    · rw [h.manager]
      exact ⟨rfl, h.setSession name _ _⟩
  | createOpen name work partition =>
    obtain ⟨hsolo, hwork⟩ := hallows
    have hstart := (hchange.session { work, partition } hwork (.inl rfl)).start
    rw [World.step, World.step, World.createOpen, World.createOpen, hcontains name hown hsolo]
    split
    · exact ⟨rfl, h⟩
    · rw [h.manager, hstart]
      cases hstarted : Session.start { work, partition } w.manager with
      | mk answer left =>
        cases answer with
        | error e => exact ⟨rfl, rfl, h.sessions⟩
        | ok _ => exact ⟨rfl, h.setSession name _ _⟩
  | start name =>
    obtain ⟨hsolo, hforeign⟩ := hallows
    refine h.call hown hsolo fun s hs => ?_
    rw [World.start, (hchange.session s (hforeign s hs) (.inr ⟨name, hown, hs⟩)).start]
    rfl
  | read name row =>
    obtain ⟨hsolo, hforeign⟩ := hallows
    refine h.call hown hsolo fun s hs => ?_
    rw [World.read, (hchange.session s (hforeign s hs) (.inr ⟨name, hown, hs⟩)).read, World.read]
    cases s.read w.manager row <;> rfl
  | enlist name op =>
    obtain ⟨hsolo, hforeign⟩ := hallows
    refine h.call hown hsolo fun s hs => ?_
    rw [World.enlist, (hchange.session s (hforeign s hs) (.inr ⟨name, hown, hs⟩)).enlist]
    rfl
  | complete name now =>
    obtain ⟨hsolo, hforeign⟩ := hallows
    refine h.call hown hsolo fun s hs => ?_
    rw [World.complete, (hchange.session s (hforeign s hs) (.inr ⟨name, hown, hs⟩)).complete]
    rfl
  | abort name =>
    obtain ⟨hsolo, hforeign⟩ := hallows
    refine h.call hown hsolo fun s hs => ?_
    rw [World.abort, (hchange.session s (hforeign s hs) (.inr ⟨name, hown, hs⟩)).abort]
    rfl
  | drop name =>
    obtain ⟨hsolo, hforeign⟩ := hallows
    exact h.drop hown hsolo fun s hs =>
      (hchange.session s (hforeign s hs) (.inr ⟨name, hown, hs⟩)).drop
  | acquire work partition =>
    rw [World.step, World.step, World.acquire, World.acquire, h.manager, hchange.acquire work
      partition hallows]
    cases w.manager.acquire work partition with
    | mk answer m => cases answer <;> exact ⟨rfl, rfl, h.sessions⟩
  | release work =>
    refine ⟨rfl, ?_, h.sessions⟩
    show v.manager.release work = _
    rw [h.manager, hchange.release]
    rfl
  | register id _ | commit id _ | abandon id =>
    obtain ⟨hb, hset⟩ := hchange.batch id hallows
    exact h.onBatch hb hchange.store hset _
  | poison => exact hallows.elim

theorem unnoticed_self (w : World σ) : u.Unnoticed (fun m => m) w where
  store := rfl
  session _ _ _ := Session.unaware_self
  acquire _ _ _ := rfl
  release _ := rfl
  batch _ _ := ⟨rfl, fun _ _ => rfl⟩

end SharedUnit

end UnitOfWork
