import UnitOfWork.Proofs.Session.Apart
import UnitOfWork.Proofs.Session.Membership

/-!
While sessions of a unit of work are open, they are together in one batch, and it is as the batch of
the single session is.
-/

namespace UnitOfWork.SharedUnit

variable {σ : Type} {u : SharedUnit} {w w' v : World σ} {step : Step} {answer : Answer}

section Shares

variable {id : BatchId}

/-- While sessions of the unit are open they are the participants of one batch. The single session
is alone in it. -/
structure Shares (u : SharedUnit) (id : BatchId) (w v : World σ) : Prop where
  twin : u.Twin (Manager.recount · id 1) w v
  solo : v.session? u.solo =
    some { work := u.work, partition := u.partition, state := .open, batch := some id }
  batch : ∃ b, w.manager.batch? id = some b ∧ b.completed = false ∧ b.partition = u.partition ∧
    b.participants = w.members id
  registered : ∀ work, w.manager.registry.get? work = some id ↔ work = u.work
  ownBound : u.OwnBound w
  joined : ∀ name s, u.isOwn name = true → w.session? name = some s → s.state = .open →
    s.batch = some id
  others : ∀ name s, u.isOwn name = false → w.session? name = some s → s.batch ≠ some id

namespace Shares

theorem not_registered (h : u.Shares id w v) {work : WorkId} (hwork : work ≠ u.work) :
    w.manager.registry.get? work ≠ some id := fun he => hwork ((h.registered work).1 he)

/-- The others do not come near the batch of the unit. -/
theorem not_concerns (h : u.Shares id w v) (hown : u.isOwnStep step = false)
    (hallows : u.AllowsOther w step) : ¬ w.Concerns id step := by
  cases step with
  | create => exact fun hconcerns => hconcerns
  | createOpen => exact h.not_registered hallows.2
  | acquire | release => exact h.not_registered hallows
  | start name =>
    rintro ⟨s, hs, hwork | hbatch⟩
    · exact h.not_registered (hallows.2 s hs) hwork
    · exact h.others name s hown hs hbatch
  | read name | enlist name | complete name | abort name | drop name =>
    rintro ⟨s, hs, hbatch⟩
    exact h.others name s hown hs hbatch
  | register i | commit i | abandon i =>
    rintro rfl
    exact hallows ((h.registered u.work).2 rfl)
  | poison => exact hallows.elim

/-- What an open session of the unit finds, and what the single session finds. -/
theorem ensureOpen (h : u.Shares id w v) {name : String} {s : Session}
    (hown : u.isOwn name = true) (hs : w.session? name = some s) (hstate : s.state = .open) :
    ∃ b, w.manager.batch? id = some b ∧ s.ensureOpen w.manager = .ok (id, b) ∧
      ({ work := u.work, partition := u.partition, state := .open, batch := some id } :
        Session).ensureOpen v.manager = .ok (id, b.recount 1) := by
  obtain ⟨b, hb, hopen, _⟩ := h.batch
  refine ⟨b, hb, Session.ensureOpen_eq_ok_iff.2 ⟨hstate, h.joined name s hown hs hstate, hb, hopen⟩,
    Session.ensureOpen_eq_ok_iff.2 ⟨rfl, rfl, ?_, hopen⟩⟩
  rw [h.twin.manager]
  exact Manager.batch?_recount_self hb 1

variable [TableStore σ]

theorem unnoticed (h : u.Shares id w v) : u.Unnoticed (Manager.recount · id 1) w := by
  obtain ⟨b, hb, _⟩ := h.batch
  refine ⟨rfl, fun s hwork hheld => ?_, fun work partition hwork => ?_, fun _ => rfl,
    fun i hi => ?_⟩
  · have hbatch : s.batch ≠ some id := by
      rcases hheld with hnone | ⟨name, hname, hs⟩
      · rw [hnone]
        exact nofun
      · exact h.others name s hname hs
    exact Session.unaware_recount hb (h.not_registered hwork) hbatch 1
  · exact Manager.acquire_recount hb 1 (h.not_registered hwork) partition
  · have hne : i ≠ id := by
      rintro rfl
      exact hi ((h.registered u.work).2 rfl)
    exact ⟨w.manager.batch?_recount_of_ne 1 hne, fun store b' =>
      Manager.setBatch_recount { w.manager with store } 1 hne b'⟩

theorem stepOther (h : u.Shares id w v) (hown : u.isOwnStep step = false)
    (hallows : u.Allows w step) :
    (v.step step).1 = (w.step step).1 ∧ u.Shares id (w.step step).2 (v.step step).2 := by
  have houtcome := w.outcome step
  have hother := hallows.other hown
  obtain ⟨hanswer, htwin⟩ := h.twin.stepOther hown hother h.unnoticed
  obtain ⟨b, hb, hopen, hpartition, hcount⟩ := h.batch
  have hsame := houtcome.untouched hb (h.not_concerns hown hother)
  refine ⟨hanswer, htwin, ?_, ⟨b, ?_, hopen, hpartition, ?_⟩, fun work => ?_,
    ownBound_step h.ownBound houtcome hallows, fun name s hname hs => ?_,
    fun name s hname hs hbatch => ?_⟩
  · rw [(v.outcome step).session?_of_ne (session?_ne_solo hother), h.solo]
  · rw [hsame.manager.batch, hb]
  · rw [houtcome.members_eq hsame.sessions, hcount]
  · rw [hsame.manager.registered, h.registered]
  · rw [session?_of_not_isOwnStep houtcome hown hname] at hs
    exact h.joined name s hname hs
  · exact h.others name s hname ((hsame.sessions name s hbatch).1 hs) hbatch

/-- A step of an own session that only changes who participates. -/
theorem stepOwn (h : u.Shares id w v) (houtcome : w.Outcome step answer w')
    (hallows : u.Allows w step) {name : String} (hname : step.session? = some name)
    (hown : u.isOwn name = true)
    (hmanager : w'.manager.recount id 1 = w.manager.recount id 1)
    (hjoined : ∀ s, w'.session? name = some s → s.state = .open → s.batch = some id)
    (hcount : ∀ b, w'.manager.batch? id = some b → b.participants = w'.members id) :
    u.Shares id w' v := by
  obtain ⟨b, hb, hopen, hpartition, _⟩ := h.batch
  have hne : ∀ {n}, n ≠ name → w'.session? n = w.session? n := fun hn =>
    houtcome.session?_of_ne fun he => hn (Option.some.inj (he.symm.trans hname))
  have hforeign : ∀ {n}, u.isOwn n = false → n ≠ name := ne_of_isOwn hown
  have hbatch : ∃ b', w'.manager.batch? id = some b' ∧ b'.recount 1 = b.recount 1 := by
    have hrecounted := Manager.batch?_recount_self hb 1
    rw [← hmanager] at hrecounted
    obtain ⟨b', hb', hsame⟩ := Option.map_eq_some_iff.1
      ((List.getElem?_modify_eq (SharedBatch.recount · 1) id w'.manager.batches).symm.trans
        hrecounted)
    exact ⟨b', hb', hsame⟩
  obtain ⟨b', hb', hsame⟩ := hbatch
  have hregistry : w'.manager.registry = w.manager.registry := by
    show (w'.manager.recount id 1).registry = (w.manager.recount id 1).registry
    rw [hmanager]
  refine ⟨⟨h.twin.manager.trans hmanager.symm, fun n hn hsolo => ?_⟩, h.solo,
    ⟨b', hb', ?_, ?_, hcount b' hb'⟩, fun work => ?_, ownBound_step h.ownBound houtcome hallows,
    fun n s hn hs hstate => ?_, fun n s hn hs => ?_⟩
  · rw [hne (hforeign hn), h.twin.sessions n hn hsolo]
  · exact (congrArg SharedBatch.completed hsame).trans hopen
  · exact (congrArg SharedBatch.partition hsame).trans hpartition
  · rw [hregistry, h.registered]
  · by_cases he : n = name
    · subst he
      exact hjoined s hs hstate
    · rw [hne he] at hs
      exact h.joined n s hn hs hstate
  · rw [hne (hforeign hn)] at hs
    exact h.others n s hn hs

/-- A session of the unit that opens joins the batch that is there. -/
theorem stepJoin (h : u.Shares id w v) {name : String} {s : Session} {i : BatchId}
    {m : Manager σ} (hacquire : w.manager.acquire u.work u.partition = (.ok i, m))
    (hs : s.state = .open ∧ s.batch = some i)
    (houtcome : w.Outcome step answer (w.setSession name s (m.modifyBatch i SharedBatch.join)))
    (hallows : u.Allows w step) (hname : step.session? = some name) (hown : u.isOwn name = true)
    (hold : ∀ s, w.session? name = some s → s.state ≠ .open) :
    u.Shares id (w.setSession name s (m.modifyBatch i SharedBatch.join)) v := by
  obtain ⟨b, hb, _, hpartition, hcount⟩ := h.batch
  rw [← hpartition, Manager.acquire_of_registered ((h.registered _).2 rfl) hb] at hacquire
  cases hacquire
  obtain ⟨hstate, hbatch⟩ := hs
  refine h.stepOwn houtcome hallows hname hown (Manager.recount_modifyBatch _ _ fun _ => rfl)
    (fun s' hs' _ => ?_) fun b' hb' => ?_
  · rw [World.session?_setSession_self] at hs'
    cases hs'
    exact hbatch
  · have hjoined : b.join = b' := by
      have hget : (w.manager.modifyBatch id SharedBatch.join).batch? id = some b' := hb'
      rw [Manager.modifyBatch_eq hb, Manager.batch?_setBatch hb, if_pos rfl] at hget
      exact Option.some.inj hget
    have hmembers := houtcome.members_join hname
      (fun s₀ hs₀ => Session.isMember_eq_false_of_state (hold s₀ hs₀))
      (w.session?_setSession_self name s _) (Session.isMember_iff.2 ⟨hstate, hbatch⟩)
    have hparticipants : b.join.participants = b.participants + 1 := rfl
    rw [← hjoined, hparticipants, hcount, hmembers]

/-- The last session of the unit does not go, so the batch stays. -/
theorem stepLeave (h : u.Shares id w v) {name : String} {s : Session} {i : BatchId}
    {b : SharedBatch} (hs : w.session? name = some s) (hstate : s.state = .open)
    (hbatch : s.batch = some i) (hb : w.manager.batch? i = some b) (hown : u.isOwn name = true)
    (hafter : u.SomeOpen { w with sessions := w.sessions.erase name }) {m : Manager σ}
    (hm : m = if 0 < b.leave.participants then w.manager.setBatch i b.leave
      else w.manager.close s.work i b)
    (houtcome : w.Outcome (.drop name) .done { manager := m, sessions := w.sessions.erase name })
    (hallows : u.Allows w (.drop name)) :
    u.Shares id { manager := m, sessions := w.sessions.erase name } v := by
  have hjoined := h.joined name s hown hs hstate
  obtain rfl : i = id := Option.some.inj (hbatch.symm.trans hjoined)
  obtain ⟨b', hb', _, _, hcount⟩ := h.batch
  obtain rfl : b = b' := Option.some.inj (hb.symm.trans hb')
  have hmembers := houtcome.members_leave rfl hs (Session.isMember_iff.2 ⟨hstate, hbatch⟩)
    (by simp)
  have hstays : 0 < ({ manager := m, sessions := w.sessions.erase name } : World σ).members i := by
    obtain ⟨n, s', hn, hs', hstate'⟩ := hafter
    have hstayed : w.session? n = some s' := by
      rw [World.session?_erase] at hs'
      split at hs'
      · cases hs'
      · exact hs'
    exact World.members_pos hs' (Session.isMember_iff.2 ⟨hstate', h.joined n s' hn hstayed hstate'⟩)
  have hleave : b.leave.participants = b.participants - 1 := rfl
  have hset : m = w.manager.setBatch i b.leave := by
    rw [hm, if_pos]
    rw [hleave]
    omega
  refine h.stepOwn houtcome hallows rfl hown ?_ (fun s' hs' _ => ?_) fun b' hb' => ?_
  · show m.recount i 1 = _
    rw [hset, ← Manager.modifyBatch_eq hb]
    exact Manager.recount_modifyBatch _ _ fun _ => rfl
  · rw [World.session?_erase_self] at hs'
    cases hs'
  · change m.batch? i = some b' at hb'
    rw [hset, Manager.batch?_setBatch hb, if_pos rfl] at hb'
    rw [← Option.some.inj hb', hleave]
    omega

/-- Own sessions that open, are refused, read or are dropped while others stay open. -/
theorem stepQuiet (h : u.Shares id w v) (houtcome : w.Outcome step answer w')
    (hown : u.isOwnStep step = true) (hallows : u.Allows w step)
    (hquiet : ∀ name op, step ≠ .enlist name op) (hafter : u.SomeOpen w') : u.Shares id w' v := by
  have hallowsOwn := hallows.own hown
  have hname : ∀ {name}, step.session? = some name → u.isOwn name = true :=
    isOwn_of_isOwnStep hown
  obtain ⟨b, hb, _, _, hcount⟩ := h.batch
  have hstep := houtcome
  cases houtcome with
  | misnamed | notCreated | notIdle | notStarted | notOpen | read => exact h
  | @created name work partition hnew =>
    have hmembers : World.members _ id = _ := hstep.members_keep rfl (by simp [hnew])
      (by simp [Session.isMember])
    refine h.stepOwn hstep hallows rfl (hname rfl) rfl (fun s hs hstate => ?_) fun b' hb' => ?_
    · rw [World.session?_setSession_self] at hs
      cases hs
      cases hstate
    · rw [Option.some.inj (hb'.symm.trans hb), hcount, hmembers]
  | createdOpen hnew hacquire =>
    obtain ⟨rfl, rfl⟩ := hallowsOwn
    exact h.stepJoin hacquire ⟨rfl, rfl⟩ hstep hallows rfl (hname rfl) (by simp [hnew])
  | @started name s i m hs hstate hacquire =>
    obtain ⟨hwork, hpartition⟩ := h.ownBound name s (hname rfl) hs
    rw [hwork, hpartition] at hacquire
    exact h.stepJoin hacquire ⟨rfl, rfl⟩ hstep hallows rfl (hname rfl) (by simp [hs, hstate])
  | enlisted => exact absurd rfl (hquiet _ _)
  | completed | panicked | aborted => exact hallowsOwn.elim
  | @dropped name s hs hdetached =>
    have hclosed : s.state ≠ .open := fun hstate => by
      have hnone := hdetached id hstate (h.joined name s (hname rfl) hs hstate)
      rw [hb] at hnone
      cases hnone
    have hmembers : World.members _ id = _ := hstep.members_keep rfl
      (by simp [hs, Session.isMember_eq_false_of_state hclosed]) (by simp)
    refine h.stepOwn hstep hallows rfl (hname rfl) rfl (fun s' hs' _ => ?_) fun b' hb' => ?_
    · rw [World.session?_erase_self] at hs'
      cases hs'
    · rw [Option.some.inj (hb'.symm.trans hb), hcount, hmembers]
  | detached hs hstate hbatch hb' =>
    exact h.stepLeave hs hstate hbatch hb' (hname rfl) hafter rfl hstep hallows
  | _ => cases hown

/-- Whoever enlists an operation, it lands in the batch in the same way. -/
theorem stepEnlist (h : u.Shares id w v) {name : String} {op : Operation}
    (hown : u.isOwn name = true) (hallows : u.Allows w (.enlist name op)) :
    (v.step (.enlist u.solo op)).1 = (w.step (.enlist name op)).1 ∧
      u.Shares id (w.step (.enlist name op)).2 (v.step (.enlist u.solo op)).2 := by
  obtain ⟨s, hs, hstate⟩ := hallows.own hown
  obtain ⟨b, hb, hfound, hfoundSolo⟩ := h.ensureOpen hown hs hstate
  obtain ⟨b', hb', hopen, hpartition, hcount⟩ := h.batch
  obtain rfl : b = b' := Option.some.inj (hb.symm.trans hb')
  rw [World.step_enlist hs hfound, World.step_enlist h.solo hfoundSolo, SharedBatch.register_recount]
  refine ⟨rfl, ⟨?_, h.twin.sessions⟩, h.solo, ⟨(b.register op).2, ?_, ?_, ?_, ?_⟩, h.registered,
    h.ownBound, h.joined, h.others⟩
  · show v.manager.setBatch id _ = _
    rw [h.twin.manager]
    exact w.manager.setBatch_recount_self 1 _
  · exact (Manager.batch?_setBatch hb _ id).trans (if_pos rfl)
  · rw [SharedBatch.completed_register, hopen]
  · rw [SharedBatch.partition_register, hpartition]
  · rw [SharedBatch.participants_register, hcount]
    rfl

theorem keepsUp (h : u.Shares id w v) (hallows : u.Allows w step)
    (hafter : u.SomeOpen (w.step step).2) : u.KeepsUp (u.Shares id) w v step := by
  cases hown : u.isOwnStep step with
  | false =>
    obtain ⟨hanswer, hshares⟩ := h.stepOther hown hallows
    exact keepsUp_of_some (soloStep?_of_not_isOwnStep hown) hanswer hshares
  | true =>
    by_cases henlist : ∃ name op, step = .enlist name op
    · obtain ⟨name, op, rfl⟩ := henlist
      obtain ⟨hanswer, hshares⟩ := h.stepEnlist (isOwn_of_isOwnStep hown rfl) hallows
      exact keepsUp_of_some (if_pos hown) hanswer hshares
    · have hquiet : ∀ name op, step ≠ .enlist name op := fun name op he => henlist ⟨name, op, he⟩
      exact keepsUp_of_none (soloStep?_eq_none hown hquiet)
        (h.stepQuiet (w.outcome step) hown hallows hquiet hafter)

/-- Whoever completes the unit, the same is submitted. -/
theorem complete (h : u.Shares id w v) {name : String} {s : Session}
    (hown : u.isOwn name = true) (hs : w.session? name = some s) (hstate : s.state = .open)
    (now : Instant) :
    (v.step (.complete u.solo now)).1 = (w.step (.complete name now)).1 ∧
      (v.step (.complete u.solo now)).2.manager.store =
        (w.step (.complete name now)).2.manager.store := by
  obtain ⟨b, _, hfound, hfoundSolo⟩ := h.ensureOpen hown hs hstate
  have hstore : v.manager.store = w.manager.store := by
    rw [h.twin.manager]
    rfl
  have hconfig : v.manager.config = w.manager.config := by
    rw [h.twin.manager]
    rfl
  have hdeadline : v.manager.config.tellsDeadline now = w.manager.config.tellsDeadline now := by
    rw [hconfig]
  cases htold : w.manager.config.tellsDeadline now with
  | false =>
    rw [World.step_complete_of_lost hs hfound htold,
      World.step_complete_of_lost h.solo hfoundSolo (hdeadline.trans htold)]
    exact ⟨rfl, hstore⟩
  | true =>
    cases hcommit : b.commit w.manager.store w.manager.config.commitTimeout with
    | mk answer left =>
      obtain ⟨b', store⟩ := left
      have hcommitSolo : (b.recount 1).commit v.manager.store v.manager.config.commitTimeout =
          (answer, b'.recount 1, store) := by
        rw [hstore, hconfig, SharedBatch.commit_recount, hcommit]
      rw [World.step_complete hs hfound hcommit htold,
        World.step_complete h.solo hfoundSolo hcommitSolo (hdeadline.trans htold)]
      refine ⟨rfl, ?_⟩
      show (Manager.close _ _ _ _).store = (Manager.close _ _ _ _).store
      rw [Manager.store_close, Manager.store_close]

end Shares

end Shares

section Opening

/-- The shared state after a first session has opened. -/
theorem recount_opened (m : Manager σ) (work : WorkId) (partition : Partition) :
    ((m.enter work partition).modifyBatch m.batches.length SharedBatch.join).recount
        m.batches.length 1 =
      (m.enter work partition).modifyBatch m.batches.length SharedBatch.join := by
  have hb := (m.batch?_enter work partition m.batches.length).trans (if_pos rfl)
  have hset := (Manager.batch?_setBatch hb (SharedBatch.create partition m.limits).join
    m.batches.length).trans (if_pos rfl)
  rw [Manager.modifyBatch_eq hb, Manager.recount, Manager.modifyBatch_eq hset,
    Manager.setBatch_setBatch]
  rfl

variable [TableStore σ]

theorem Apart.opened (h : u.Apart w v) (hclosed : ¬ u.SomeOpen w) {name : String}
    (hown : u.isOwn name = true) (hname : step.session? = some name) {s : Session}
    (hs : s.state = .open ∧ s.batch = some w.manager.batches.length)
    (houtcome : w.Outcome step answer (w.setSession name s
      ((w.manager.enter u.work u.partition).modifyBatch w.manager.batches.length
        SharedBatch.join)))
    (hallows : u.Allows w step) :
    u.Shares w.manager.batches.length
      (w.setSession name s ((w.manager.enter u.work u.partition).modifyBatch
        w.manager.batches.length SharedBatch.join))
      (v.setSession u.solo
        { work := u.work, partition := u.partition, state := .open,
          batch := some w.manager.batches.length }
        ((w.manager.enter u.work u.partition).modifyBatch w.manager.batches.length
          SharedBatch.join)) := by
  obtain ⟨hstate, hbatch⟩ := hs
  have hheld : ∀ n s, w.session? n = some s → s.batch ≠ some w.manager.batches.length :=
    fun n s hn hid => Nat.lt_irrefl _ (h.grounded.held hn hid)
  have hforeign : ∀ {n}, u.isOwn n = false → n ≠ name := ne_of_isOwn hown
  have hb := (w.manager.batch?_enter u.work u.partition w.manager.batches.length).trans (if_pos rfl)
  refine ⟨⟨(recount_opened _ _ _).symm, fun n hn hsolo => ?_⟩, ?_,
    ⟨(SharedBatch.create u.partition w.manager.limits).join, ?_, rfl, rfl, ?_⟩, fun work => ?_,
    ownBound_step h.ownBound houtcome hallows, fun n s' hn hs' hopen => ?_, fun n s' hn hs' => ?_⟩
  · rw [World.session?_setSession, World.session?_setSession, if_neg hsolo, if_neg (hforeign hn),
      h.twin.sessions n hn hsolo]
  · exact World.session?_setSession_self ..
  · show Manager.batch? (Manager.modifyBatch _ _ _) _ = _
    rw [Manager.modifyBatch_eq hb, Manager.batch?_setBatch hb, if_pos rfl]
  · have hnone : ∀ n s, w.session? n = some s → s.isMember w.manager.batches.length = false :=
      fun n s hs => Session.isMember_eq_false_of_batch (hheld n s hs)
    have hmembers := houtcome.members_join hname (hnone name)
      (w.session?_setSession_self name s _) (Session.isMember_iff.2 ⟨hstate, hbatch⟩)
    rw [World.members_eq_zero hnone] at hmembers
    exact hmembers.symm
  · show (w.manager.enter u.work u.partition).registry.get? work = _ ↔ _
    rw [Manager.registry_enter]
    by_cases hwork : work = u.work
    · rw [if_pos hwork]
      exact iff_of_true rfl hwork
    · rw [if_neg hwork]
      exact iff_of_false (fun he => Nat.lt_irrefl _ (h.grounded.registered work _ he)) hwork
  · rw [World.session?_setSession] at hs'
    split at hs'
    · cases hs'
      exact hbatch
    · exact absurd ⟨n, s', hn, hs', hopen⟩ hclosed
  · rw [World.session?_setSession, if_neg (hforeign hn)] at hs'
    exact hheld n s' hs'

/-- When a first session of the unit has opened, the single session opens instead. -/
theorem Apart.open (h : u.Apart w v) (hallows : u.Allows w step) (hbefore : ¬ u.SomeOpen w)
    (hafter : u.SomeOpen (w.step step).2) :
    (v.step (.createOpen u.solo u.work u.partition)).1 = .done ∧
      u.Shares w.manager.batches.length (w.step step).2
        (v.step (.createOpen u.solo u.work u.partition)).2 := by
  have hown : u.isOwnStep step = true := by
    by_contra hother
    obtain ⟨name, s, hname, hs, hstate⟩ := hafter
    rw [session?_of_not_isOwnStep (w.outcome step) (by simpa using hother) hname] at hs
    exact hbefore ⟨name, s, hname, hs, hstate⟩
  have hacquireSolo : v.manager.acquire u.work u.partition =
      (.ok w.manager.batches.length, w.manager.enter u.work u.partition) := by
    rw [h.twin.manager]
    exact Manager.acquire_of_unregistered h.unregistered u.partition
  rw [World.step_createOpen h.free hacquireSolo]
  refine ⟨rfl, ?_⟩
  have houtcome := w.outcome step
  generalize w.step step = stepped at *
  obtain ⟨answer, w'⟩ := stepped
  dsimp only at *
  have hstep := houtcome
  have hname : ∀ {name}, step.session? = some name → u.isOwn name = true := isOwn_of_isOwnStep hown
  have hallowsOwn := hallows.own hown
  have hlater : ∀ {w' : World σ}, (∀ n s, u.isOwn n = true → w'.session? n = some s → s.state = .open →
      w.session? n = some s) → ¬ u.SomeOpen w' := by
    rintro w' hkept ⟨n, s, hn, hs, hstate⟩
    exact hbefore ⟨n, s, hn, hkept n s hn hs hstate, hstate⟩
  cases houtcome with
  | misnamed | notCreated | notIdle | notStarted | notOpen | read => exact absurd hafter hbefore
  | created =>
    refine absurd hafter (hlater fun n s hn hs hstate => ?_)
    rw [World.session?_setSession] at hs
    split at hs
    · cases hs
      cases hstate
    · exact hs
  | createdOpen hnew hacquire =>
    obtain ⟨rfl, rfl⟩ := hallowsOwn
    rw [Manager.acquire_of_unregistered h.unregistered] at hacquire
    cases hacquire
    exact h.opened hbefore (hname rfl) rfl ⟨rfl, rfl⟩ hstep hallows
  | @started name s i m hs hstate hacquire =>
    obtain ⟨hwork, hpartition⟩ := h.ownBound name s (hname rfl) hs
    rw [hwork, hpartition, Manager.acquire_of_unregistered h.unregistered] at hacquire
    cases hacquire
    exact h.opened hbefore (hname rfl) rfl ⟨rfl, rfl⟩ hstep hallows
  | enlisted =>
    obtain ⟨s, hs, hstate⟩ := hallowsOwn
    exact absurd ⟨_, s, hname rfl, hs, hstate⟩ hbefore
  | completed | panicked | aborted => exact hallowsOwn.elim
  | @dropped name | @detached name =>
    refine absurd hafter (hlater fun n s hn hs _ => ?_)
    rw [World.session?_erase] at hs
    split at hs
    · cases hs
    · exact hs
  | _ => cases hown

end Opening

end UnitOfWork.SharedUnit
