import UnitOfWork.Proofs.Session.Outcome
import UnitOfWork.Proofs.SortedMap.Count

/-! Who holds a batch, and what steps leave a batch and all who hold it alone. -/

namespace UnitOfWork

/-- Whether a session is open and joined to a batch. -/
def Session.isMember (id : BatchId) (s : Session) : Bool :=
  s.state = .open && s.batch = some id

namespace Session

variable {s : Session} {id : BatchId}

theorem isMember_iff : s.isMember id = true ↔ s.state = .open ∧ s.batch = some id := by
  simp [isMember]

theorem isMember_eq_false_of_state (h : s.state ≠ .open) : s.isMember id = false := by
  simp [isMember, h]

theorem isMember_eq_false_of_batch (h : s.batch ≠ some id) : s.isMember id = false := by
  simp [isMember, h]

end Session

/-- A batch and its registration are as they were before. -/
structure Manager.Untouched {σ : Type} (id : BatchId) (m m' : Manager σ) : Prop where
  batch : m'.batch? id = m.batch? id
  registered : ∀ work, m'.registry.get? work = some id ↔ m.registry.get? work = some id

namespace Manager.Untouched

variable {σ : Type} {m m' : Manager σ} {id i : BatchId} {b b' : SharedBatch}

theorem refl (id : BatchId) (m : Manager σ) : m.Untouched id m := ⟨rfl, fun _ => Iff.rfl⟩

theorem setBatch (hb : m.batch? i = some b) (hi : i ≠ id) (b' : SharedBatch) :
    m.Untouched id (m.setBatch i b') where
  batch := by rw [batch?_setBatch hb, if_neg (Ne.symm hi)]
  registered _ := Iff.rfl

theorem release {work : WorkId} (hwork : m.registry.get? work ≠ some id) :
    m.Untouched id (m.release work) where
  batch := rfl
  registered other := by
    rw [Manager.release, SortedMap.get?_erase]
    by_cases hother : other = work
    · rw [if_pos hother, hother]
      exact iff_of_false (by simp) hwork
    · rw [if_neg hother]

theorem close (hb : m.batch? i = some b) (hi : i ≠ id) (work : WorkId) (b' : SharedBatch) :
    m.Untouched id (m.close work i b') where
  batch := by rw [batch?_close hb, if_neg (Ne.symm hi)]
  registered other := by
    rw [registry_close]
    by_cases hother : other = work ∧ m.registry.get? work = some i
    · obtain ⟨rfl, hwork⟩ := hother
      rw [if_pos ⟨rfl, hwork⟩, hwork]
      exact ⟨nofun, fun h => absurd (Option.some.inj h) hi⟩
    · rw [if_neg hother]

theorem acquire {work : WorkId} {partition : Partition} {answer : Except SessionError BatchId}
    (hacquire : m.acquire work partition = (answer, m')) (hb : m.batch? id = some b)
    (hwork : m.registry.get? work ≠ some id) : m.Untouched id m' := by
  refine ⟨(batch?_acquire hacquire hb).trans hb.symm, fun other => ?_⟩
  have hcases := m.acquired work partition
  rw [hacquire] at hcases
  cases hcases with
  | found | mismatched => exact Iff.rfl
  | entered =>
    show (m.enter work partition).registry.get? other = some id ↔ _
    rw [registry_enter]
    by_cases hother : other = work
    · rw [if_pos hother, hother]
      have hne : m.batches.length ≠ id := Nat.ne_of_gt (lt_length_of_batch? hb)
      exact ⟨fun h => absurd (Option.some.inj h) hne, fun h => absurd h hwork⟩
    · rw [if_neg hother]

/-- A session of another unit of work opens on another batch. -/
theorem join {work : WorkId} {partition : Partition}
    (hacquire : m.acquire work partition = (.ok i, m')) (hb : m.batch? id = some b)
    (hwork : m.registry.get? work ≠ some id) :
    m.Untouched id (m'.modifyBatch i SharedBatch.join) where
  batch := by
    have hi := ne_of_acquire hacquire hwork hb
    exact (List.getElem?_modify_ne _ m'.batches hi).trans (acquire hacquire hb hwork).batch
  registered := (acquire hacquire hb hwork).registered

end Manager.Untouched

namespace World

variable {σ : Type}

/-- The count of the open sessions that are joined to a batch. -/
def members (w : World σ) (id : BatchId) : Nat := w.sessions.count (Session.isMember id)

theorem members_pos {w : World σ} {name : String} {s : Session} {id : BatchId}
    (hs : w.session? name = some s) (hmember : s.isMember id = true) : 0 < w.members id :=
  SortedMap.count_pos_of_get? _ hs hmember

theorem members_eq_zero {w : World σ} {id : BatchId}
    (h : ∀ name s, w.session? name = some s → s.isMember id = false) : w.members id = 0 :=
  SortedMap.count_eq_zero _ h

variable [TableStore σ] {w w' : World σ} {step : Step} {answer : Answer} {id : BatchId}
  {b : SharedBatch}

section Members

variable {name : String} (h : w.Outcome step answer w') (hname : step.session? = some name)

include h hname

/-- Only the session that a step names can join or leave. -/
theorem Outcome.members (id : BatchId) :
    w'.members id + SortedMap.weight (Session.isMember id) (w.session? name) =
      w.members id + SortedMap.weight (Session.isMember id) (w'.session? name) := by
  unfold World.members World.session?
  rcases h.sessions with hsame | ⟨n, hn, herase | ⟨s, hinsert⟩⟩
  · rw [hsame]
  · obtain rfl : n = name := Option.some.inj (hn.symm.trans hname)
    rw [herase, SortedMap.count_erase, SortedMap.get?_erase, if_pos rfl]
    rfl
  · obtain rfl : n = name := Option.some.inj (hn.symm.trans hname)
    rw [hinsert, SortedMap.count_insert, SortedMap.get?_insert_self]

theorem Outcome.members_join (hbefore : ∀ s, w.session? name = some s → s.isMember id = false)
    {s : Session} (hs : w'.session? name = some s) (hmember : s.isMember id = true) :
    w'.members id = w.members id + 1 := by
  have hcount := h.members hname id
  have hweight := SortedMap.weight_eq_zero _ hbefore
  rw [hweight, hs, SortedMap.weight_some, if_pos hmember] at hcount
  exact hcount

theorem Outcome.members_leave {s : Session} (hs : w.session? name = some s)
    (hmember : s.isMember id = true)
    (hafter : ∀ s, w'.session? name = some s → s.isMember id = false) :
    w'.members id + 1 = w.members id := by
  have hcount := h.members hname id
  have hweight := SortedMap.weight_eq_zero _ hafter
  rw [hweight, hs, SortedMap.weight_some, if_pos hmember] at hcount
  exact hcount

theorem Outcome.members_keep (hbefore : ∀ s, w.session? name = some s → s.isMember id = false)
    (hafter : ∀ s, w'.session? name = some s → s.isMember id = false) :
    w'.members id = w.members id := by
  have hcount := h.members hname id
  have hweight := SortedMap.weight_eq_zero _ hbefore
  have hweight' := SortedMap.weight_eq_zero _ hafter
  rw [hweight, hweight'] at hcount
  exact hcount

end Members

/-- Who holds a batch before and after is a member of it before and after. -/
theorem Outcome.members_eq (h : w.Outcome step answer w')
    (hsame : ∀ name s, s.batch = some id →
      (w'.session? name = some s ↔ w.session? name = some s)) :
    w'.members id = w.members id := by
  cases hname : step.session? with
  | none =>
    have hnone : w'.sessions = w.sessions := by
      rcases h.sessions with hsame | ⟨n, hn, _⟩
      · exact hsame
      · rw [hname] at hn
        cases hn
    exact congrArg (SortedMap.count _) hnone
  | some name =>
    by_cases hholds : ∃ s, w.session? name = some s ∧ s.batch = some id
    · obtain ⟨s, hs, hbatch⟩ := hholds
      have hcount := h.members hname id
      rw [hs, (hsame name s hbatch).2 hs] at hcount
      exact Nat.add_right_cancel hcount
    · apply h.members_keep hname
      · intro s hs
        exact Session.isMember_eq_false_of_batch fun hbatch => hholds ⟨s, hs, hbatch⟩
      · intro s hs
        exact Session.isMember_eq_false_of_batch fun hbatch =>
          hholds ⟨s, (hsame name s hbatch).1 hs, hbatch⟩

/-- Whether a step may reach a batch: through a session that holds it, through a unit of work that
is registered with it, or by its number. -/
def Concerns (w : World σ) (id : BatchId) : Step → Prop
  | .create .. => False
  | .createOpen _ work _ | .acquire work _ | .release work => w.manager.registry.get? work = some id
  | .start name => ∃ s, w.session? name = some s ∧
      (w.manager.registry.get? s.work = some id ∨ s.batch = some id)
  | .read name _ | .enlist name _ | .complete name _ | .abort name | .drop name =>
    ∃ s, w.session? name = some s ∧ s.batch = some id
  | .register i _ | .commit i _ | .abandon i | .poison i => i = id

/-- A batch, its registration and the sessions that hold it are as they were before. -/
structure Untouched (id : BatchId) (w w' : World σ) : Prop where
  manager : w.manager.Untouched id w'.manager
  sessions : ∀ name s, s.batch = some id →
    (w'.session? name = some s ↔ w.session? name = some s)

namespace Untouched

omit [TableStore σ]

theorem refl (id : BatchId) (w : World σ) : w.Untouched id w :=
  ⟨.refl id w.manager, fun _ _ _ => Iff.rfl⟩

theorem trans {w'' : World σ} (h : w.Untouched id w') (h' : w'.Untouched id w'') :
    w.Untouched id w'' where
  manager :=
    ⟨h'.manager.batch.trans h.manager.batch, fun work =>
      (h'.manager.registered work).trans (h.manager.registered work)⟩
  sessions name s hs := (h'.sessions name s hs).trans (h.sessions name s hs)

/-- The session of a name is exchanged for one that does not hold the batch either. -/
theorem setSession {m : Manager σ} (hm : w.manager.Untouched id m) {name : String} {s : Session}
    (hold : ∀ s, w.session? name = some s → s.batch ≠ some id) (hnew : s.batch ≠ some id) :
    w.Untouched id (w.setSession name s m) where
  manager := hm
  sessions n s' hbatch := by
    rw [session?_setSession]
    by_cases hn : n = name
    · rw [if_pos hn, hn]
      constructor
      · rintro ⟨⟩
        exact absurd hbatch hnew
      · intro hs
        exact absurd hbatch (hold s' hs)
    · rw [if_neg hn]

theorem eraseSession {m : Manager σ} (hm : w.manager.Untouched id m) {name : String}
    (hold : ∀ s, w.session? name = some s → s.batch ≠ some id) :
    w.Untouched id { manager := m, sessions := w.sessions.erase name } where
  manager := hm
  sessions n s hbatch := by
    rw [session?_erase]
    by_cases hn : n = name
    · rw [if_pos hn, hn]
      exact ⟨nofun, fun hs => absurd hbatch (hold s hs)⟩
    · rw [if_neg hn]

end Untouched

/-- A step that does not concern a batch leaves it alone. -/
theorem Outcome.untouched (h : w.Outcome step answer w') (hb : w.manager.batch? id = some b)
    (hstep : ¬ w.Concerns id step) : w.Untouched id w' := by
  have hfree : ∀ {name}, w.session? name = none →
      ∀ s, w.session? name = some s → s.batch ≠ some id := by
    intro name hnone s hs
    rw [hnone] at hs
    cases hs
  have hother : ∀ {name s i}, ¬ (∃ s, w.session? name = some s ∧ s.batch = some id) →
      w.session? name = some s → s.batch = some i → i ≠ id := by
    rintro name s i hnone hs hi rfl
    exact hnone ⟨s, hs, hi⟩
  have hold : ∀ {name}, ¬ (∃ s, w.session? name = some s ∧ s.batch = some id) →
      ∀ s, w.session? name = some s → s.batch ≠ some id := fun hnone s hs hbatch =>
    hnone ⟨s, hs, hbatch⟩
  have hsame : ∀ {m}, w.manager.Untouched id m → w.Untouched id { w with manager := m } :=
    fun hm => ⟨hm, fun _ _ _ => Iff.rfl⟩
  cases h with
  | misnamed | notCreated | notIdle | notStarted | notOpen | read | notAcquired => exact .refl id w
  | created work partition hnew => exact .setSession (.refl id _) (hfree hnew) nofun
  | createdOpen hnew hacquire =>
    refine .setSession (.join hacquire hb hstep) (hfree hnew) fun he => ?_
    exact Manager.ne_of_acquire hacquire hstep hb (Option.some.inj he)
  | @started name s i m hs hstate hacquire =>
    have hwork : w.manager.registry.get? s.work ≠ some id := fun hwork =>
      hstep ⟨s, hs, .inl hwork⟩
    refine .setSession (.join hacquire hb hwork) (fun s' hs' hbatch => ?_) fun he => ?_
    · exact hstep ⟨s', hs', .inr hbatch⟩
    · exact Manager.ne_of_acquire hacquire hwork hb (Option.some.inj he)
  | enlisted hs hopen =>
    obtain ⟨_, hi, hbatch, _⟩ := Session.ensureOpen_eq_ok_iff.1 hopen
    exact hsame (.setBatch hbatch (hother hstep hs hi) _)
  | @completed name now s i b₀ b' answer store hs hopen =>
    obtain ⟨_, hi, hbatch, _⟩ := Session.ensureOpen_eq_ok_iff.1 hopen
    have hstored : ({ w.manager with store } : Manager σ).batch? i = some b₀ := hbatch
    have hclose := Manager.Untouched.close hstored (hother hstep hs hi) s.work b'
    exact .setSession ⟨hclose.batch, hclose.registered⟩ (hold hstep) nofun
  | panicked hs =>
    exact .setSession (.refl id _) (hold hstep) fun hbatch => hold hstep _ hs hbatch
  | aborted hs hopen =>
    obtain ⟨_, hi, hbatch, _⟩ := Session.ensureOpen_eq_ok_iff.1 hopen
    exact .setSession (.close hbatch (hother hstep hs hi) _ _) (hold hstep) nofun
  | dropped => exact .eraseSession (.refl id _) (hold hstep)
  | detached hs hstate hi hbatch =>
    refine .eraseSession ?_ (hold hstep)
    have hne := hother hstep hs hi
    split
    · exact .setBatch hbatch hne _
    · exact .close hbatch hne _ _
  | acquired hacquire => exact hsame (.acquire hacquire hb hstep)
  | released work => exact hsame (.release hstep)
  | registered op hbatch | abandoned hbatch | poisoned hbatch =>
    exact hsame (.setBatch hbatch hstep _)
  | @committed i b₀ b' timeLeft answer store hbatch hcommit =>
    have hstored : ({ w.manager with store } : Manager σ).batch? i = some b₀ := hbatch
    have hset := Manager.Untouched.setBatch hstored hstep b'
    exact hsame ⟨hset.batch, hset.registered⟩

end World

end UnitOfWork
