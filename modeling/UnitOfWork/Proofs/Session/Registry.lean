import Mathlib.Tactic.ByContra
import UnitOfWork.Proofs.Session.Membership
import UnitOfWork.Store.Memory

/-! The registry and the counts of participants always match the sessions that are open. -/

namespace UnitOfWork

/-- Steps that use the registry without a session. -/
def Step.isRegistryCall : Step → Bool
  | .acquire .. | .release .. => true
  | _ => false

namespace World

variable {σ : Type}

/-- The counts, the registry and the sessions agree. -/
structure Balanced (w : World σ) : Prop where
  /-- A batch counts the open sessions that are joined to it. -/
  participants : ∀ {id b}, w.manager.batch? id = some b → b.participants = w.members id
  /-- A registered batch is in use, and only by sessions of its unit of work and partition. -/
  registered : ∀ {work id}, w.manager.registry.get? work = some id →
    ∃ b, w.manager.batch? id = some b ∧ b.completed = false ∧ 0 < b.participants ∧
      ∀ name s, w.session? name = some s → s.isMember id = true →
        s.work = work ∧ s.partition = b.partition
  /-- An open session is joined to a batch, the registered one unless it is completed. -/
  joined : ∀ {name s}, w.session? name = some s → s.state = .open →
    ∃ id b, s.batch = some id ∧ w.manager.batch? id = some b ∧
      (b.completed = false → w.manager.registry.get? s.work = some id)

theorem exists_isMember {w : World σ} {id : BatchId} (h : 0 < w.members id) :
    ∃ name s, w.session? name = some s ∧ s.isMember id = true := by
  by_contra hnone
  have hzero : w.members id = 0 := by
    apply members_eq_zero
    intro name s hs
    rw [← Bool.not_eq_true]
    exact fun hmember => hnone ⟨name, s, hs, hmember⟩
  omega

/-- One batch is replaced by another of its binding, and no session opens. -/
structure Replaces (w w' : World σ) (id : BatchId) (b b' : SharedBatch) : Prop where
  before : w.manager.batch? id = some b
  after : ∀ i, w'.manager.batch? i = if i = id then some b' else w.manager.batch? i
  partition : b'.partition = b.partition
  inUse : b'.completed = false → b.completed = false ∧ (0 < b.participants → 0 < b'.participants)
  registry : ∀ work i, w'.manager.registry.get? work = some i ↔
    w.manager.registry.get? work = some i ∧ (i = id → b'.completed = false)
  sessions : ∀ {name s}, s.state = .open → w'.session? name = some s → w.session? name = some s
  counted : b.participants = w.members id → b'.participants = w'.members id
  others : ∀ i, i ≠ id → w'.members i = w.members i

/-- The batch of a unit of work has been found, or a new one has been registered. -/
structure Enters (w : World σ) (work : WorkId) (partition : Partition) (id : BatchId)
    (b : SharedBatch) (m : Manager σ) : Prop where
  batch : m.batch? id = some b
  bound : b.partition = partition
  inUse : b.completed = false
  counted : b.participants = w.members id
  members : ∀ {name s}, w.session? name = some s → s.isMember id = true →
    s.work = work ∧ s.partition = partition
  others : ∀ i, i ≠ id → m.batch? i = w.manager.batch? i
  registry : ∀ other, m.registry.get? other =
    if other = work then some id else w.manager.registry.get? other
  unique : ∀ {other i}, w.manager.registry.get? other = some i → (i = id ↔ other = work)

/-- One session opens and joins the batch of its unit of work. -/
structure Joins (w w' : World σ) (s : Session) (id : BatchId) (b : SharedBatch) : Prop where
  isMember : s.isMember id = true
  sessions : ∀ {n s'}, w'.session? n = some s' → s' = s ∨ w.session? n = some s'
  batches : ∀ i, w'.manager.batch? i = if i = id then some b.join else w.manager.batch? i
  registry : ∀ work, w'.manager.registry.get? work =
    if work = s.work then some id else w.manager.registry.get? work
  counted : w'.members id = w.members id + 1
  others : ∀ i, i ≠ id → w'.members i = w.members i

namespace Balanced

variable {w w' : World σ} {id : BatchId} {b b' : SharedBatch}

theorem fresh [TableStore σ] (store : σ) (config : SessionConfig) :
    (fresh store config).Balanced := ⟨nofun, nofun, nofun⟩

theorem batch?_of_isMember (hw : w.Balanced) {name : String} {s : Session}
    (hs : w.session? name = some s) (hmember : s.isMember id = true) :
    ∃ b, w.manager.batch? id = some b ∧
      (b.completed = false → w.manager.registry.get? s.work = some id) := by
  obtain ⟨hstate, hbatch⟩ := Session.isMember_iff.1 hmember
  obtain ⟨i, b, hi, hb, hregistered⟩ := hw.joined hs hstate
  obtain rfl : i = id := Option.some.inj (hi.symm.trans hbatch)
  exact ⟨b, hb, hregistered⟩

/-- A batch is registered for one unit of work at most. -/
theorem work_unique (hw : w.Balanced) {work other : WorkId}
    (hwork : w.manager.registry.get? work = some id)
    (hother : w.manager.registry.get? other = some id) : other = work := by
  obtain ⟨b, hb, _, hpos, hmembers⟩ := hw.registered hwork
  obtain ⟨_, _, _, _, hmembers'⟩ := hw.registered hother
  rw [hw.participants hb] at hpos
  obtain ⟨name, s, hs, hmember⟩ := exists_isMember hpos
  have hs₁ := (hmembers name s hs hmember).1
  have hs₂ := (hmembers' name s hs hmember).1
  exact hs₂.symm.trans hs₁

/-- Any two open sessions of one unit of work share the batch that is in use. -/
theorem shared (hw : w.Balanced) {n n' : String} {s s' : Session} {id' : BatchId}
    (hs : w.session? n = some s) (hs' : w.session? n' = some s')
    (hmember : s.isMember id = true) (hmember' : s'.isMember id' = true)
    (hwork : s'.work = s.work) (hb : w.manager.batch? id = some b)
    (hb' : w.manager.batch? id' = some b') (hopen : b.completed = false)
    (hopen' : b'.completed = false) : id' = id := by
  obtain ⟨c, hc, hregistered⟩ := hw.batch?_of_isMember hs hmember
  obtain ⟨c', hc', hregistered'⟩ := hw.batch?_of_isMember hs' hmember'
  rw [hb, Option.some.injEq] at hc
  rw [hb', Option.some.injEq] at hc'
  have hi := hregistered (hc ▸ hopen)
  have hi' := hregistered' (hc' ▸ hopen')
  rw [hwork, hi, Option.some.injEq] at hi'
  exact hi'.symm

/-- While no session is open, no unit of work is registered. -/
theorem registry_eq_empty (hw : w.Balanced)
    (hclosed : ∀ name s, w.session? name = some s → s.state ≠ .open) :
    w.manager.registry = ∅ := by
  apply SortedMap.ext_get?
  intro work
  rw [SortedMap.get?_empty, Option.eq_none_iff_forall_ne_some]
  intro id hid
  obtain ⟨b, hb, _, hpos, _⟩ := hw.registered hid
  rw [hw.participants hb] at hpos
  obtain ⟨name, s, hs, hmember⟩ := exists_isMember hpos
  exact hclosed name s hs (Session.isMember_iff.1 hmember).1

theorem replace (hw : w.Balanced) (h : w.Replaces w' id b b') : w'.Balanced where
  participants {i c} hc := by
    rw [h.after] at hc
    by_cases hi : i = id
    · rw [if_pos hi, Option.some.injEq] at hc
      rw [← hc, hi]
      exact h.counted (hw.participants h.before)
    · rw [if_neg hi] at hc
      rw [h.others i hi]
      exact hw.participants hc
  registered {work i} hi := by
    obtain ⟨hold, hopen⟩ := (h.registry work i).1 hi
    obtain ⟨c, hc, hinUse, hpos, hmembers⟩ := hw.registered hold
    rw [h.after]
    have hmembers' : ∀ name s, w'.session? name = some s → s.isMember i = true →
        s.work = work ∧ s.partition = c.partition := fun name s hs hmember =>
      hmembers name s (h.sessions (Session.isMember_iff.1 hmember).1 hs) hmember
    by_cases hid : i = id
    · rw [hid, h.before, Option.some.injEq] at hc
      subst hc
      rw [if_pos hid]
      refine ⟨b', rfl, hopen hid, (h.inUse (hopen hid)).2 hpos, ?_⟩
      rw [h.partition]
      exact hmembers'
    · rw [if_neg hid]
      exact ⟨c, hc, hinUse, hpos, hmembers'⟩
  joined {name s} hs hstate := by
    obtain ⟨i, c, hi, hc, hregistered⟩ := hw.joined (h.sessions hstate hs) hstate
    by_cases hid : i = id
    · rw [hid, h.before, Option.some.injEq] at hc
      subst hc
      refine ⟨i, b', hi, (h.after i).trans (if_pos hid), fun hopen => ?_⟩
      exact (h.registry _ _).2 ⟨hregistered (h.inUse hopen).1, fun _ => hopen⟩
    · refine ⟨i, c, hi, (h.after i).trans ((if_neg hid).trans hc), fun hopen => ?_⟩
      exact (h.registry _ _).2 ⟨hregistered hopen, fun he => absurd he hid⟩

/-- Whoever is joined to a registered batch belongs to its unit of work. -/
theorem enters_of_found (hw : w.Balanced) {work : WorkId} {m : Manager σ}
    (hwork : w.manager.registry.get? work = some id) (hb : w.manager.batch? id = some b)
    (hm : m = w.manager) : w.Enters work b.partition id b m := by
  subst hm
  obtain ⟨c, hc, hinUse, _, hmembers⟩ := hw.registered hwork
  obtain rfl : b = c := Option.some.inj (hb.symm.trans hc)
  refine ⟨hb, rfl, hinUse, hw.participants hb, hmembers _ _, fun _ _ => rfl, ?_, ?_⟩
  · intro other
    by_cases hother : other = work
    · rw [if_pos hother, hother]
      exact hwork
    · rw [if_neg hother]
  · intro other i hi
    constructor
    · rintro rfl
      exact hw.work_unique hwork hi
    · rintro rfl
      exact Option.some.inj (hi.symm.trans hwork)

/-- Nobody is joined to a batch before it is there. -/
theorem enters_of_entered (hw : w.Balanced) {work : WorkId}
    (hnone : w.manager.registered? work = none) (partition : Partition) :
    w.Enters work partition w.manager.batches.length
      (SharedBatch.create partition w.manager.limits) (w.manager.enter work partition) := by
  have hfree : ∀ i, w.manager.registry.get? work ≠ some i := by
    intro i hi
    obtain ⟨c, hc, _⟩ := hw.registered hi
    have hsome := Manager.registered?_eq_some_iff.2 ⟨hi, hc⟩
    rw [hnone] at hsome
    cases hsome
  have hnobody : ∀ name s, w.session? name = some s →
      s.isMember w.manager.batches.length = false := by
    intro name s hs
    rw [← Bool.not_eq_true]
    intro hmember
    obtain ⟨c, hc, _⟩ := hw.batch?_of_isMember hs hmember
    exact Nat.lt_irrefl _ (Manager.lt_length_of_batch? hc)
  constructor
  case batch => exact (w.manager.batch?_enter work partition _).trans (if_pos rfl)
  case bound => rfl
  case inUse => rfl
  case counted => exact (members_eq_zero hnobody).symm
  case members =>
    intro name s hs hmember
    rw [hnobody name s hs] at hmember
    cases hmember
  case others => exact fun i hi => (w.manager.batch?_enter work partition i).trans (if_neg hi)
  case registry => exact fun other => w.manager.registry_enter work other partition
  case unique =>
    intro other i hi
    obtain ⟨c, hc, _⟩ := hw.registered hi
    have hlt := Manager.lt_length_of_batch? hc
    exact ⟨fun he => absurd he (Nat.ne_of_lt hlt), fun he => absurd (he ▸ hi) (hfree i)⟩

theorem enters (hw : w.Balanced) {work : WorkId} {partition : Partition} {m : Manager σ}
    (hacquire : w.manager.acquire work partition = (.ok id, m)) :
    ∃ b, w.Enters work partition id b m := by
  have hcases := w.manager.acquired work partition
  rw [hacquire] at hcases
  generalize hok : (Except.ok id : Except SessionError BatchId) = answer at hcases
  cases hcases with
  | found hregistered hpartition =>
    cases hok
    obtain ⟨hwork, hb⟩ := Manager.registered?_eq_some_iff.1 hregistered
    exact ⟨_, hpartition ▸ hw.enters_of_found hwork hb rfl⟩
  | mismatched => cases hok
  | entered hnone =>
    cases hok
    exact ⟨_, hw.enters_of_entered hnone partition⟩

theorem join (hw : w.Balanced) {s : Session} {m : Manager σ}
    (henters : w.Enters s.work s.partition id b m) (h : w.Joins w' s id b) : w'.Balanced where
  participants {i c} hc := by
    rw [h.batches] at hc
    by_cases hi : i = id
    · rw [if_pos hi, Option.some.injEq] at hc
      rw [← hc, hi, h.counted, ← henters.counted]
      rfl
    · rw [if_neg hi] at hc
      rw [h.others i hi]
      exact hw.participants hc
  registered {work i} hi := by
    rw [h.registry] at hi
    rw [h.batches]
    by_cases hwork : work = s.work
    · rw [if_pos hwork, Option.some.injEq] at hi
      subst hi hwork
      rw [if_pos rfl]
      refine ⟨b.join, rfl, henters.inUse, Nat.succ_pos _, fun n s' hs' hmember => ?_⟩
      rcases h.sessions hs' with rfl | hold
      · exact ⟨rfl, henters.bound.symm⟩
      · obtain ⟨hwork, hpartition⟩ := henters.members hold hmember
        exact ⟨hwork, hpartition.trans henters.bound.symm⟩
    · rw [if_neg hwork] at hi
      have hid : i ≠ id := fun he => hwork ((henters.unique hi).1 he)
      obtain ⟨c, hc, hinUse, hpos, hmembers⟩ := hw.registered hi
      rw [if_neg hid]
      refine ⟨c, hc, hinUse, hpos, fun n s' hs' hmember => ?_⟩
      rcases h.sessions hs' with rfl | hold
      · have hbatch := (Session.isMember_iff.1 h.isMember).2
        have hbatch' := (Session.isMember_iff.1 hmember).2
        exact absurd (Option.some.inj (hbatch'.symm.trans hbatch)) hid
      · exact hmembers n s' hold hmember
  joined {n s'} hs' hopen := by
    rcases h.sessions hs' with rfl | hold
    · have hbatch := (Session.isMember_iff.1 h.isMember).2
      refine ⟨id, b.join, hbatch, (h.batches id).trans (if_pos rfl), fun _ => ?_⟩
      exact (h.registry _).trans (if_pos rfl)
    · obtain ⟨i, c, hi, hc, hregistered⟩ := hw.joined hold hopen
      by_cases hid : i = id
      · have hmember := Session.isMember_iff.2 ⟨hopen, hid ▸ hi⟩
        have hwork := (henters.members hold hmember).1
        refine ⟨i, b.join, hi, (h.batches i).trans (if_pos hid), fun _ => ?_⟩
        rw [h.registry, if_pos hwork, hid]
      · refine ⟨i, c, hi, (h.batches i).trans ((if_neg hid).trans hc), fun hinUse => ?_⟩
        have hi' := hregistered hinUse
        have hwork : s'.work ≠ s.work := fun he => hid ((henters.unique hi').2 he)
        rw [h.registry, if_neg hwork]
        exact hi'

/-- A batch is used, which leaves its binding, its count and its completion as they were. -/
theorem setBatch (hw : w.Balanced) (hb : w.manager.batch? id = some b) (b' : SharedBatch)
    (hpartition : b'.partition = b.partition) (hparticipants : b'.participants = b.participants)
    (hcompleted : b'.completed = b.completed) (store : σ) :
    { w with manager := { w.manager with store }.setBatch id b' }.Balanced := by
  have hstored : ({ w.manager with store } : Manager σ).batch? id = some b := hb
  refine @replace σ w _ id b b' hw ?_
  constructor
  case before => exact hb
  case after => exact Manager.batch?_setBatch hstored b'
  case partition => exact hpartition
  case inUse =>
    rw [hcompleted, hparticipants]
    exact fun hinUse => ⟨hinUse, fun hpos => hpos⟩
  case registry =>
    intro work i
    refine ⟨fun hi => ⟨hi, fun hid => ?_⟩, fun hi => hi.1⟩
    obtain ⟨c, hc, hinUse, _⟩ := hw.registered hi
    obtain rfl : b = c := Option.some.inj (hb.symm.trans (hid ▸ hc))
    exact hcompleted.trans hinUse
  case sessions => exact fun _ hs => hs
  case counted => exact fun hcount => hparticipants.trans hcount
  case others => exact fun _ _ => rfl

section Step

variable [TableStore σ] {step : Step} {answer : Answer} {name : String}

/-- The session of a name is not open, neither before nor after. -/
theorem closed (hw : w.Balanced) (h : w.Outcome step answer w') (hname : step.session? = some name)
    (hmanager : w'.manager = w.manager) (hbefore : ∀ s, w.session? name = some s → s.state ≠ .open)
    (hafter : ∀ s, w'.session? name = some s → s.state ≠ .open) : w'.Balanced := by
  have hmembers : ∀ i, w'.members i = w.members i := fun i =>
    h.members_keep hname (fun s hs => Session.isMember_eq_false_of_state (hbefore s hs))
      (fun s hs => Session.isMember_eq_false_of_state (hafter s hs))
  have hold : ∀ {n s}, s.state = .open → w'.session? n = some s → w.session? n = some s := by
    intro n s hopen hs
    have hn : step.session? ≠ some n := by
      intro hn
      obtain rfl := Option.some.inj (hname.symm.trans hn)
      exact hafter s hs hopen
    exact (h.session?_of_ne hn).symm.trans hs
  constructor
  case participants =>
    intro i c hc
    rw [hmembers]
    rw [hmanager] at hc
    exact hw.participants hc
  case registered =>
    rw [hmanager]
    intro work i hi
    obtain ⟨c, hc, hinUse, hpos, hmembers⟩ := hw.registered hi
    refine ⟨c, hc, hinUse, hpos, fun n s hs hmember => ?_⟩
    exact hmembers n s (hold (Session.isMember_iff.1 hmember).1 hs) hmember
  case joined =>
    rw [hmanager]
    exact fun hs hopen => hw.joined (hold hopen hs) hopen

/-- A session that was not open joins the batch that it has been given. -/
theorem opened (hw : w.Balanced) (h : w.Outcome step answer w') (hname : step.session? = some name)
    (hclosed : ∀ s, w.session? name = some s → s.state ≠ .open) {s : Session} {m : Manager σ}
    (hacquire : w.manager.acquire s.work s.partition = (.ok id, m)) (hstate : s.state = .open)
    (hbatch : s.batch = some id) (hs : w'.session? name = some s)
    (hmanager : w'.manager = m.modifyBatch id SharedBatch.join) : w'.Balanced := by
  obtain ⟨b, henters⟩ := hw.enters hacquire
  have hmember : s.isMember id = true := Session.isMember_iff.2 ⟨hstate, hbatch⟩
  have hbefore : ∀ i s, w.session? name = some s → s.isMember i = false := fun i s hs =>
    Session.isMember_eq_false_of_state (hclosed s hs)
  refine hw.join henters ⟨hmember, fun {n s'} hs' => ?_, fun i => ?_, fun work => ?_, ?_,
    fun i hi => ?_⟩
  · by_cases hn : n = name
    · exact .inl (Option.some.inj (hs'.symm.trans (hn ▸ hs)))
    · have hother : step.session? ≠ some n := fun he =>
        hn (Option.some.inj (he.symm.trans hname))
      exact .inr ((h.session?_of_ne hother).symm.trans hs')
  · rw [hmanager, Manager.modifyBatch_eq henters.batch, Manager.batch?_setBatch henters.batch]
    by_cases hi : i = id
    · rw [if_pos hi, if_pos hi]
    · rw [if_neg hi, if_neg hi, henters.others i hi]
  · rw [hmanager]
    exact henters.registry work
  · exact h.members_join hname (hbefore id) hs hmember
  · apply h.members_keep hname (hbefore i)
    intro s' hs'
    obtain rfl : s = s' := Option.some.inj (hs.symm.trans hs')
    exact Session.isMember_eq_false_of_batch fun he =>
      hi (Option.some.inj (he.symm.trans hbatch))

/-- A session leaves its batch. -/
theorem left (hw : w.Balanced) (h : w.Outcome step answer w') (hname : step.session? = some name)
    {s : Session} (hs : w.session? name = some s) (hmember : s.isMember id = true)
    (hclosed : ∀ s, w'.session? name = some s → s.state ≠ .open)
    (hb : w.manager.batch? id = some b)
    (hbatches : ∀ i, w'.manager.batch? i = if i = id then some b' else w.manager.batch? i)
    (hpartition : b'.partition = b.partition) (hcount : b'.participants = b.participants - 1)
    (hinUse : b'.completed = false → b.completed = false ∧ 0 < b'.participants)
    (hregistry : ∀ work i, w'.manager.registry.get? work = some i ↔
      w.manager.registry.get? work = some i ∧ (i = id → b'.completed = false)) :
    w'.Balanced := by
  have hafter : ∀ i s, w'.session? name = some s → s.isMember i = false := fun i s hs =>
    Session.isMember_eq_false_of_state (hclosed s hs)
  have hbatch := (Session.isMember_iff.1 hmember).2
  refine hw.replace ⟨hb, hbatches, hpartition, fun hopen => ?_, hregistry, ?_, fun hcounted => ?_,
    fun i hi => ?_⟩
  · exact ⟨(hinUse hopen).1, fun _ => (hinUse hopen).2⟩
  · intro n s' hopen hs'
    have hn : step.session? ≠ some n := by
      intro hn
      obtain rfl := Option.some.inj (hname.symm.trans hn)
      exact hclosed s' hs' hopen
    exact (h.session?_of_ne hn).symm.trans hs'
  · have hleave := h.members_leave hname hs hmember (hafter id)
    omega
  · apply h.members_keep hname _ (hafter i)
    intro s' hs'
    obtain rfl : s = s' := Option.some.inj (hs.symm.trans hs')
    exact Session.isMember_eq_false_of_batch fun he =>
      hi (Option.some.inj (he.symm.trans hbatch))

/-- A session leaves its batch and ends the unit of work. -/
theorem ended (hw : w.Balanced) (h : w.Outcome step answer w') (hname : step.session? = some name)
    {s : Session} (hs : w.session? name = some s) (hmember : s.isMember id = true)
    (hclosed : ∀ s, w'.session? name = some s → s.state ≠ .open)
    (hb : w.manager.batch? id = some b) (hpartition : b'.partition = b.partition)
    (hcount : b'.participants = b.participants) (store : σ)
    (hmanager : w'.manager = { w.manager with store }.close s.work id b') : w'.Balanced := by
  have hstored : ({ w.manager with store } : Manager σ).batch? id = some b := hb
  apply hw.left h hname hs hmember hclosed hb
  · rw [hmanager]
    exact Manager.batch?_close hstored s.work b'
  · exact (SharedBatch.partition_discard b').trans hpartition
  · show b'.discard.participants - 1 = _
    rw [SharedBatch.participants_discard, hcount]
  · simp
  · intro work i
    rw [hmanager, Manager.registry_close, SharedBatch.completed_leave,
      SharedBatch.completed_discard]
    constructor
    · intro hi
      split at hi
      · cases hi
      · rename_i hkept
        refine ⟨hi, fun hid => absurd ⟨?_, ?_⟩ hkept⟩
        · obtain ⟨c, _, _, _, hmembers⟩ := hw.registered hi
          exact (hmembers name s hs (hid ▸ hmember)).1.symm
        · obtain ⟨c, hc, hinUse, _, hmembers⟩ := hw.registered hi
          rw [(hmembers name s hs (hid ▸ hmember)).1]
          exact hid ▸ hi
    · rintro ⟨hi, hid⟩
      rw [if_neg]
      · exact hi
      · rintro ⟨rfl, hreleased⟩
        cases hid (Option.some.inj (hi.symm.trans hreleased))

end Step

end Balanced

section Run

variable [TableStore σ] {w w' : World σ} {step : Step} {answer : Answer}

theorem Outcome.balanced (h : w.Outcome step answer w') (hw : w.Balanced)
    (hstep : step.isRegistryCall = false)
    (htold : step.tellsDeadline w.manager.config = true) : w'.Balanced := by
  have hnew : ∀ {name}, w.session? name = none →
      ∀ s, w.session? name = some s → s.state ≠ .open := by
    intro name hnone s hs
    rw [hnone] at hs
    cases hs
  have hold : ∀ {name s s'}, w.session? name = some s → s.state ≠ .open →
      w.session? name = some s' → s'.state ≠ .open := by
    intro name s s' hs hstate hs'
    obtain rfl : s = s' := Option.some.inj (hs.symm.trans hs')
    exact hstate
  have hself : ∀ {name s s' m}, s.state ≠ .open →
      (w.setSession name s m).session? name = some s' → s'.state ≠ .open := by
    intro name s s' m hstate hs'
    rw [session?_setSession_self, Option.some.injEq] at hs'
    exact hs' ▸ hstate
  have hgone : ∀ {name s m}, ({ manager := m, sessions := w.sessions.erase name } :
      World σ).session? name = some s → s.state ≠ .open := by
    intro name s m hs
    rw [session?_erase_self] at hs
    cases hs
  cases h with
  | misnamed | notCreated | notIdle | notStarted | notOpen | read => exact hw
  | created work partition hnone =>
    exact hw.closed (.created work partition hnone) rfl rfl (hnew hnone)
      fun _ => hself (by simp)
  | createdOpen hnone hacquire =>
    exact hw.opened (.createdOpen hnone hacquire) rfl (hnew hnone)
      (s := ⟨_, _, .open, some _⟩) hacquire rfl rfl (session?_setSession_self ..) rfl
  | started hs hstate hacquire =>
    have hidle := fun s => @hold _ _ s hs (by simp [hstate])
    exact hw.opened (.started hs hstate hacquire) rfl hidle
      (s := ⟨_, _, .open, some _⟩) hacquire rfl rfl (session?_setSession_self ..) rfl
  | @enlisted _ op _ _ b _ hopen =>
    obtain ⟨_, _, hb, _⟩ := Session.ensureOpen_eq_ok_iff.1 hopen
    exact hw.setBatch hb _ (b.partition_register op) (b.participants_register op)
      (b.completed_register op) w.manager.store
  | @completed _ _ _ _ b b' answer store hs hopen hcommit htold =>
    obtain ⟨hstate, hbatch, hb, _⟩ := Session.ensureOpen_eq_ok_iff.1 hopen
    have hpartition := b.partition_commit w.manager.store w.manager.config.commitTimeout
    have hcount := b.participants_commit w.manager.store w.manager.config.commitTimeout
    rw [hcommit] at hpartition hcount
    exact hw.ended (.completed hs hopen hcommit htold) rfl hs
      (Session.isMember_iff.2 ⟨hstate, hbatch⟩) (fun _ => hself (Session.endState_ne_open answer))
      hb hpartition hcount store rfl
  | panicked _ _ hlost =>
    rw [Step.tellsDeadline, hlost] at htold
    cases htold
  | aborted hs hopen =>
    obtain ⟨hstate, hbatch, hb, _⟩ := Session.ensureOpen_eq_ok_iff.1 hopen
    exact hw.ended (.aborted hs hopen) rfl hs (Session.isMember_iff.2 ⟨hstate, hbatch⟩)
      (fun _ => hself (by simp)) hb rfl rfl w.manager.store rfl
  | dropped hs hdetached =>
    refine hw.closed (.dropped hs hdetached) rfl rfl (fun s hs' hstate => ?_) fun _ => hgone
    obtain rfl := Option.some.inj (hs.symm.trans hs')
    obtain ⟨id, b, hbatch, hb, _⟩ := hw.joined hs hstate
    rw [hdetached id hstate hbatch] at hb
    cases hb
  | @detached name s id b hs hstate hbatch hb =>
    have hmember := Session.isMember_iff.2 ⟨hstate, hbatch⟩
    have houtcome := Outcome.detached hs hstate hbatch hb
    by_cases hremain : 0 < b.leave.participants
    · rw [if_pos hremain] at houtcome ⊢
      refine hw.left houtcome rfl hs hmember (fun _ => hgone) hb
        (Manager.batch?_setBatch hb b.leave) rfl rfl (fun hinUse => ⟨hinUse, hremain⟩)
        fun work i => ⟨fun hi => ⟨hi, fun hid => ?_⟩, fun hi => hi.1⟩
      obtain ⟨c, hc, hinUse, _⟩ := hw.registered hi
      obtain rfl : b = c := Option.some.inj (hb.symm.trans (hid ▸ hc))
      exact hinUse
    · rw [if_neg hremain] at houtcome ⊢
      exact hw.ended houtcome rfl hs hmember (fun _ => hgone) hb rfl rfl
        w.manager.store rfl
  | notAcquired | acquired | released => cases hstep
  | registered op hb =>
    exact hw.setBatch hb _ (SharedBatch.partition_register _ op)
      (SharedBatch.participants_register _ op) (SharedBatch.completed_register _ op)
      w.manager.store
  | @committed _ b _ timeLeft _ store hb hcommit =>
    have hpartition := b.partition_commit w.manager.store timeLeft
    have hcount := b.participants_commit w.manager.store timeLeft
    have hcompleted := b.completed_commit w.manager.store timeLeft
    rw [hcommit] at hpartition hcount hcompleted
    exact hw.setBatch hb _ hpartition hcount hcompleted store
  | @abandoned _ b hb =>
    exact hw.setBatch hb _ b.partition_abandon b.participants_abandon b.completed_abandon
      w.manager.store
  | @poisoned _ b hb =>
    exact hw.setBatch hb { b with poisoned := true } rfl rfl rfl w.manager.store

theorem Balanced.after (hw : w.Balanced) {steps : List Step}
    (hsteps : ∀ s ∈ steps, s.isRegistryCall = false)
    (htold : ∀ s ∈ steps, s.tellsDeadline w.manager.config = true) : (w.after steps).Balanced := by
  induction steps generalizing w with
  | nil => exact hw
  | cons step steps ih =>
    obtain ⟨hstep, hrest⟩ := List.forall_mem_cons.1 hsteps
    obtain ⟨hnow, hlater⟩ := List.forall_mem_cons.1 htold
    have houtcome := w.outcome step
    rw [← houtcome.config] at hlater
    exact ih (houtcome.balanced hw hstep hnow) hrest hlater

end Run

section Leaving

variable {w : World σ} {step : Step} {id : BatchId}

/-- A step makes an open session leave its batch: the session is dropped, or it completes or aborts
a unit of work that is still in progress. -/
def Leaves (w : World σ) (step : Step) (id : BatchId) : Prop :=
  ∃ name s, w.session? name = some s ∧ s.isMember id = true ∧
    (step = .drop name ∨ ((∃ now, step = .complete name now) ∨ step = .abort name) ∧
      ∃ b, s.ensureOpen w.manager = .ok (id, b))

variable [TableStore σ] {w' : World σ} {answer : Answer}

theorem members_of_leaves (h : w.Leaves step id) :
    (w.step step).2.members id + 1 = w.members id := by
  obtain ⟨name, s, hs, hmember, hstep⟩ := h
  have hname : step.session? = some name := by
    rcases hstep with rfl | ⟨⟨_, rfl⟩ | rfl, _⟩ <;> rfl
  refine (w.outcome step).members_leave hname hs hmember fun s' hs' => ?_
  apply Session.isMember_eq_false_of_state
  rcases hstep with rfl | ⟨⟨now, rfl⟩ | rfl, b, hopen⟩
  · rw [step_drop hs, session?_erase_self] at hs'
    cases hs'
  · cases htold : w.manager.config.tellsDeadline now with
    | false =>
      rw [step_complete_of_lost hs hopen htold, session?_setSession_self, Option.some.injEq] at hs'
      rw [← hs']
      simp
    | true =>
      rw [step_complete hs hopen rfl htold, session?_setSession_self, Option.some.injEq] at hs'
      rw [← hs']
      exact Session.endState_ne_open _
  · rw [step_abort hs hopen, session?_setSession_self, Option.some.injEq] at hs'
    rw [← hs']
    simp

theorem Outcome.members_of_not_leaves (h : w.Outcome step answer w')
    (hstays : ¬ w.Leaves step id) : w.members id ≤ w'.members id := by
  have hnotMember : ∀ {name}, step.session? = some name →
      (∀ s, w.session? name = some s → s.isMember id = false) → w.members id ≤ w'.members id := by
    intro name hname hs
    have hcount := h.members hname id
    have hweight := SortedMap.weight_eq_zero _ hs
    omega
  cases h with
  | created _ _ hnone | createdOpen hnone =>
    apply hnotMember rfl
    intro s hs
    rw [hnone] at hs
    cases hs
  | started hs hstate =>
    apply hnotMember rfl
    intro s' hs'
    obtain rfl := Option.some.inj (hs.symm.trans hs')
    exact Session.isMember_eq_false_of_state (by simp [hstate])
  | @completed name _ s i b _ _ _ hs hopen | @panicked name _ s i b hs hopen
  | @aborted name s i b hs hopen =>
    apply hnotMember rfl
    intro s' hs'
    obtain rfl := Option.some.inj (hs.symm.trans hs')
    obtain ⟨hstate, hbatch, _, _⟩ := Session.ensureOpen_eq_ok_iff.1 hopen
    apply Session.isMember_eq_false_of_batch
    rw [hbatch, ne_eq, Option.some.injEq]
    rintro rfl
    exact hstays ⟨name, s, hs, Session.isMember_iff.2 ⟨hstate, hbatch⟩, .inr ⟨by simp, b, hopen⟩⟩
  | @dropped name _ hs | @detached name _ _ _ hs =>
    apply hnotMember rfl
    intro s' hs'
    rw [← Bool.not_eq_true]
    exact fun hmember => hstays ⟨name, s', hs', hmember, .inl rfl⟩
  | _ => exact Nat.le_refl _

theorem Outcome.length_batches (h : w.Outcome step answer w') :
    w.manager.batches.length ≤ w'.manager.batches.length := by
  have hacquired : ∀ {work partition answer m}, w.manager.acquire work partition = (answer, m) →
      w.manager.batches.length ≤ m.batches.length := by
    intro work partition answer m hacquire
    have hcases := w.manager.acquired work partition
    rw [hacquire] at hcases
    cases hcases with
    | found | mismatched => exact Nat.le_refl _
    | entered => simp
  cases h with
  | createdOpen _ hacquire | started _ _ hacquire =>
    simpa [setSession] using hacquired hacquire
  | acquired hacquire => exact hacquired hacquire
  | enlisted | registered | committed | abandoned | poisoned => simp
  | completed | panicked | aborted => simp [setSession]
  | detached =>
    dsimp only
    split <;> simp
  | _ => exact Nat.le_refl _

theorem Outcome.exists_batch? (h : w.Outcome step answer w') {b : SharedBatch}
    (hb : w.manager.batch? id = some b) : ∃ b', w'.manager.batch? id = some b' := by
  have hlt := Manager.lt_length_of_batch? hb
  exact ⟨_, List.getElem?_eq_getElem (Nat.lt_of_lt_of_le hlt h.length_batches)⟩

end Leaving

/--
Whatever is done through sessions, the registry, the counts of participants and the open sessions
agree, as long as the clock can tell all deadlines. So the open sessions of a unit of work share one
batch, nothing stays registered when no session is open, and a batch is only ever left while it has
participants.
-/
theorem registry_matches_sessions {σ : Type} [TableStore σ] (store : σ) (config : SessionConfig)
    (steps : List Step) (hsteps : ∀ s ∈ steps, s.isRegistryCall = false)
    (htold : ∀ s ∈ steps, s.tellsDeadline config = true) (w : World σ)
    (hw : w = (fresh store config).after steps) :
    w.Balanced ∧
      (∀ n n' s s' id id' b b', w.session? n = some s → w.session? n' = some s' →
        s.isMember id = true → s'.isMember id' = true → s'.work = s.work →
        w.manager.batch? id = some b → w.manager.batch? id' = some b' →
        b.completed = false → b'.completed = false → id' = id) ∧
      ((∀ name s, w.session? name = some s → s.state ≠ .open) → w.manager.registry = ∅) ∧
      ∀ step, step.isRegistryCall = false → step.tellsDeadline config = true →
        (∀ id, w.Leaves step id → ∃ b b', w.manager.batch? id = some b ∧
          (w.step step).2.manager.batch? id = some b' ∧ b'.participants + 1 = b.participants) ∧
        ∀ id b, ¬ w.Leaves step id → w.manager.batch? id = some b →
          ∃ b', (w.step step).2.manager.batch? id = some b' ∧
            b.participants ≤ b'.participants := by
  have hbalanced : w.Balanced := hw ▸ (Balanced.fresh store config).after hsteps htold
  have hconfig : w.manager.config = config := hw ▸ config_after (fresh store config) steps
  refine ⟨hbalanced, ?_, hbalanced.registry_eq_empty, fun step hstep hnow => ?_⟩
  · intro n n' s s' id id' b b' hs hs' hmember hmember' hwork hb hb' hopen hopen'
    exact hbalanced.shared hs hs' hmember hmember' hwork hb hb' hopen hopen'
  have houtcome := w.outcome step
  have hafter := houtcome.balanced hbalanced hstep (hconfig ▸ hnow)
  constructor
  · intro id hleaves
    have hcount := members_of_leaves hleaves
    obtain ⟨name, s, hs, hmember, _⟩ := hleaves
    obtain ⟨b, hb, _⟩ := hbalanced.batch?_of_isMember hs hmember
    obtain ⟨b', hb'⟩ := houtcome.exists_batch? hb
    refine ⟨b, b', hb, hb', ?_⟩
    rw [hbalanced.participants hb, hafter.participants hb']
    exact hcount
  · intro id b hstays hb
    obtain ⟨b', hb'⟩ := houtcome.exists_batch? hb
    refine ⟨b', hb', ?_⟩
    rw [hbalanced.participants hb, hafter.participants hb']
    exact houtcome.members_of_not_leaves hstays

private def bookings : Partition := ⟨"Bookings", "b", by decide, by decide⟩

/-- Two sessions join, the lock fails before the second completes, and both go away. -/
private def failedRun : List Step :=
  [.createOpen "a" "w" bookings, .create "b" "w" bookings, .start "b",
    .enlist "a" (Operation.insert ⟨"b", "r"⟩ ∅), .poison 0, .complete "b" .start, .drop "a",
    .drop "b"]

private def hourly : SessionConfig := { commitTimeout := some (.ofMillis 3600000) }

private def afterFailedRun : World MemoryStore :=
  (fresh ({ config := {} } : MemoryStore) hourly).after failedRun

theorem registry_matches_sessions_failed_commit :
    (∀ s ∈ failedRun, s.isRegistryCall = false) ∧
      (∀ s ∈ failedRun, s.tellsDeadline hourly = true) ∧
      (∀ name s, afterFailedRun.session? name = some s → s.state ≠ .open) ∧
      afterFailedRun.Balanced ∧ afterFailedRun.manager.registry = ∅ := by
  have hsteps : ∀ s ∈ failedRun, s.isRegistryCall = false := by
    simp [failedRun, Step.isRegistryCall]
  have htold : ∀ s ∈ failedRun, s.tellsDeadline hourly = true := by decide +kernel
  have hgone : afterFailedRun.sessions = ∅ := by decide +kernel
  have hclosed : ∀ name s, afterFailedRun.session? name = some s → s.state ≠ .open := by
    intro name s hs
    rw [session?, hgone] at hs
    cases hs
  have hall := registry_matches_sessions _ hourly failedRun hsteps htold afterFailedRun rfl
  exact ⟨hsteps, htold, hclosed, hall.1, hall.2.2.1 hclosed⟩

/-- The only session enlists, its call to complete panics, and it goes away. -/
private def panickedRun : List Step :=
  [.createOpen "a" "w" bookings, .enlist "a" (Operation.insert ⟨"b", "r"⟩ ∅),
    .complete "a" .start, .drop "a"]

private def afterPanickedRun : World MemoryStore :=
  (fresh ({ config := {} } : MemoryStore) { commitTimeout := some .longest }).after panickedRun

/-- No session is left, and still the unit of work is registered with a batch that counts one. -/
theorem registry_leaks_after_panic :
    (∀ s ∈ panickedRun, s.isRegistryCall = false) ∧ afterPanickedRun.sessions = ∅ ∧
      afterPanickedRun.manager.registry.get? "w" = some 0 ∧
      (afterPanickedRun.manager.batch? 0).map (·.participants) = some 1 ∧
      ¬ afterPanickedRun.Balanced ∧
      ¬ ((∀ name s, afterPanickedRun.session? name = some s → s.state ≠ .open) →
        afterPanickedRun.manager.registry = ∅) := by
  have hgone : afterPanickedRun.sessions = ∅ := by decide +kernel
  have hclosed : ∀ name s, afterPanickedRun.session? name = some s → s.state ≠ .open := by
    intro name s hs
    rw [session?, hgone] at hs
    cases hs
  have hleft : afterPanickedRun.manager.registry.get? "w" = some 0 := by decide +kernel
  have hfull : afterPanickedRun.manager.registry ≠ ∅ := by
    intro hempty
    rw [hempty] at hleft
    cases hleft
  refine ⟨by simp [panickedRun, Step.isRegistryCall], hgone, hleft, by decide +kernel, ?_, ?_⟩
  · exact fun hbalanced => hfull (hbalanced.registry_eq_empty hclosed)
  · exact fun hempty => hfull (hempty hclosed)

end World

end UnitOfWork
