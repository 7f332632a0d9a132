import UnitOfWork.Proofs.Session.Beside

/-!
A world with others, and the same world without them: a step of the party's own sessions comes to
the same in both, and a step of the others changes nothing that the party can see.
-/

namespace UnitOfWork

/-- The same answer but for the names of tokens. -/
inductive Answer.Alike (P : Pairing UInt64) : Answer → Answer → Prop
  | done : Alike P .done .done
  | refused (e : SessionError) : Alike P (.refused e) (.refused e)
  | entity {found found' : Option Entity} (h : Option.Rel (Entity.Alike P) found found') :
      Alike P (.entity found) (.entity found')
  | rows {rows rows' : List CommittedRow} (h : List.Forall₂ (CommittedRow.Alike P) rows rows') :
      Alike P (.rows rows) (.rows rows')
  | misnamed : Alike P .misnamed .misnamed

theorem Answer.Alike.ofUnit {P : Pairing UInt64} (answer : Except SessionError Unit) :
    Alike P (.ofUnit answer) (.ofUnit answer) := by
  cases answer with
  | error e => exact .refused e
  | ok _ => exact .done

namespace Step

/-- The same call of a session but for the token that an enlisted operation shows. -/
inductive Alike (P : Pairing UInt64) : Step → Step → Prop
  | create (name : String) (work : WorkId) (partition : Partition) :
      Alike P (.create name work partition) (.create name work partition)
  | createOpen (name : String) (work : WorkId) (partition : Partition) :
      Alike P (.createOpen name work partition) (.createOpen name work partition)
  | start (name : String) : Alike P (.start name) (.start name)
  | read (name row : String) : Alike P (.read name row) (.read name row)
  | enlist (name : String) {op op' : Operation} (h : op.Alike P op') :
      Alike P (.enlist name op) (.enlist name op')
  | complete (name : String) (now : Instant) : Alike P (.complete name now) (.complete name now)
  | abort (name : String) : Alike P (.abort name) (.abort name)
  | drop (name : String) : Alike P (.drop name) (.drop name)

/-- A call of a session of the party, for units of work and partitions of the party. -/
def Within (c : Party) : Step → Prop
  | .create name work partition | .createOpen name work partition =>
    c.session name ∧ c.work work ∧ c.Owns partition
  | .start name | .read name _ | .enlist name _ | .complete name _ | .abort name | .drop name =>
    c.session name
  | _ => False

/-- A call of a session of others, for units of work and partitions of others. -/
def Outside (c : Party) : Step → Prop
  | .create name work partition | .createOpen name work partition =>
    ¬ c.session name ∧ ¬ c.work work ∧ ¬ c.Owns partition
  | .start name | .read name _ | .enlist name _ | .complete name _ | .abort name | .drop name =>
    ¬ c.session name
  | _ => False

end Step

/-- Committing draws no more versions than are counted for it. -/
theorem SharedBatch.version_commit {b : SharedBatch} {store : AnyStore}
    (h : store.ledger.version.toNat + b.draws store < 2 ^ 64) (timeLeft : Option Duration) :
    (b.commit store timeLeft).2.2.ledger.version.toNat ≤
      store.ledger.version.toNat + b.draws store := by
  rcases b.store_commit store timeLeft with hsame | hsubmit
  · rw [hsame]
    exact Nat.le_add_right ..
  · rw [hsubmit]
    exact (store.step_run (.submit _ _ _ timeLeft) h).2

namespace World

variable {P Q : Pairing UInt64} {I J : Pairing BatchId} {c : Party} {w w' : World AnyStore}
  {step step' : Step} {name : String} {s s' : Session}

theorem misnames_of_isCallOf (hs : w.session? name = none) (hcall : step.isCallOf name = true) :
    w.Misnames step := by
  cases step with
  | read n row | enlist n op | complete n | abort n =>
    obtain rfl : n = name := of_decide_eq_true hcall
    exact hs
  | _ => cases hcall

/-- The count of versions that a step draws if it submits what is pending. -/
def draws (w : World AnyStore) (step : Step) : Nat :=
  (w.submitting? step).elim 0 (·.draws w.manager.store)

theorem version_step (step : Step)
    (h : w.manager.store.ledger.version.toNat + w.draws step < 2 ^ 64) :
    (w.step step).2.manager.store.ledger.version.toNat ≤
      w.manager.store.ledger.version.toNat + w.draws step := by
  have hcases := w.outcome step
  generalize (w.step step).1 = answer, (w.step step).2 = w' at hcases ⊢
  cases hcases with
  | createdOpen _ hacquire | started _ _ hacquire =>
    show (AnyStore.ledger (Manager.modifyBatch _ _ _).store).version.toNat ≤ _
    rw [Manager.modifyBatch, Manager.store_of_acquire hacquire]
    exact Nat.le_add_right ..
  | acquired hacquire =>
    rw [Manager.store_of_acquire hacquire]
    exact Nat.le_add_right ..
  | @completed name now s id b b' answer store hs hopen hcommit =>
    obtain ⟨_, hbatch, hb, _⟩ := Session.ensureOpen_eq_ok_iff.1 hopen
    rw [draws, (submitting?_complete hs hbatch now).trans hb] at h ⊢
    have hversion := SharedBatch.version_commit h w.manager.config.commitTimeout
    rw [hcommit] at hversion
    show (AnyStore.ledger (Manager.close _ _ _ _).store).version.toNat ≤ _
    rw [Manager.store_close]
    exact hversion
  | aborted =>
    show (AnyStore.ledger (Manager.close _ _ _ _).store).version.toNat ≤ _
    rw [Manager.store_close]
    exact Nat.le_add_right ..
  | detached =>
    dsimp only
    split
    · exact Nat.le_add_right ..
    · rw [Manager.store_close]
      exact Nat.le_add_right ..
  | @committed id b b' timeLeft answer store hb hcommit =>
    rw [draws, show w.submitting? (.commit id timeLeft) = some b from hb] at h ⊢
    have hversion := SharedBatch.version_commit h timeLeft
    rw [hcommit] at hversion
    exact hversion
  | _ => exact Nat.le_add_right ..

/-- The party's sessions are the same in both worlds, and joined to the same batches; the sessions
of others are for other units of work in other partitions. -/
structure Beside (P : Pairing UInt64) (I : Pairing BatchId) (c : Party)
    (w w' : World AnyStore) : Prop where
  manager : w.manager.Beside P I c w'.manager
  grounded : w.Grounded
  own : ∀ {name}, c.session name →
    Option.Rel (Session.Alike I) (w.session? name) (w'.session? name)
  bound : ∀ {name s}, c.session name → w.session? name = some s →
    c.work s.work ∧ c.Owns s.partition
  others : ∀ {name s}, ¬ c.session name → w.session? name = some s →
    ¬ c.work s.work ∧ ¬ c.Owns s.partition ∧ ∀ i, s.batch = some i → ¬ I.Covers i

/-- A step of one world and a step of the other are answered alike, and afterwards the worlds are
beside each other again. -/
def InStep (P : Pairing UInt64) (c : Party) (w w' : World AnyStore) (step step' : Step) : Prop :=
  ∃ Q J, P.Within Q ∧ (w.step step).1.Alike Q (w'.step step').1 ∧
    Beside Q J c (w.step step).2 (w'.step step').2

namespace Beside

/-- At the beginning nobody has done anything. -/
theorem fresh (c : Party) {store : AnyStore} (hs : store.Sound) (hl : store.ledger.Sound)
    {config : SessionConfig} (hconfig : config.commitTimeout = none) :
    Beside (.diagonal fun v => store.ledger.Issued (Token.ofVersion v)) (.diagonal fun _ => False) c
      (fresh store config) (World.fresh store config) where
  manager :=
    { store := .refl hs hl c.place
      config := rfl
      noDeadline := hconfig
      limits := rfl
      batches := fun h => h.2.elim
      registry := fun _ => .none
      registered := nofun
      foreign := nofun }
  grounded := ⟨nofun, nofun⟩
  own _ := .none
  bound := nofun
  others := nofun

section Own

/-- Either both worlds lack a session of the party, or both have one. -/
theorem session (h : Beside P I c w w') (hname : c.session name) :
    w.session? name = none ∧ w'.session? name = none ∨ ∃ s s', w.session? name = some s ∧
      w'.session? name = some s' ∧ s.Alike I s' ∧ c.work s.work ∧ c.Owns s.partition := by
  have hown := h.own hname
  cases hs : w.session? name with
  | none =>
    cases hs' : w'.session? name with
    | none => exact .inl ⟨rfl, rfl⟩
    | some s' =>
      rw [hs, hs'] at hown
      cases hown
  | some s =>
    cases hs' : w'.session? name with
    | none =>
      rw [hs, hs'] at hown
      cases hown
    | some s' =>
      rw [hs, hs'] at hown
      cases hown with
      | some halike => exact .inr ⟨s, s', rfl, rfl, halike, h.bound hname hs⟩

/-- New numbers went to no session of others. -/
theorem others_after (h : Beside P I c w w')
    (hold : ∀ k < w.manager.batches.length, J.Covers k → I.Covers k) (hname : ¬ c.session name)
    (hs : w.session? name = some s) :
    ¬ c.work s.work ∧ ¬ c.Owns s.partition ∧ ∀ i, s.batch = some i → ¬ J.Covers i := by
  obtain ⟨hwork, hown, hfree⟩ := h.others hname hs
  exact ⟨hwork, hown, fun i hi hcovers => hfree i hi (hold i (h.grounded.held hs hi) hcovers)⟩

theorem setManager (h : Beside P I c w w') {m m' : Manager AnyStore} (hm : m.Beside Q J c m')
    (hIJ : I.Within J) (hold : ∀ k < w.manager.batches.length, J.Covers k → I.Covers k)
    (hgrounded : { w with manager := m }.Grounded) :
    Beside Q J c { w with manager := m } { w' with manager := m' } where
  manager := hm
  grounded := hgrounded
  own hn := optionRel_mono (h.own hn) fun _ _ h => h.mono hIJ
  bound := h.bound
  others := h.others_after hold

theorem setSession (h : Beside P I c w w') {m m' : Manager AnyStore} (hm : m.Beside Q J c m')
    (hIJ : I.Within J) (hold : ∀ k < w.manager.batches.length, J.Covers k → I.Covers k)
    (hname : c.session name) (hs : s.Alike J s') (hwork : c.work s.work)
    (hown : c.Owns s.partition) (hgrounded : (w.setSession name s m).Grounded) :
    Beside Q J c (w.setSession name s m) (w'.setSession name s' m') := by
  refine ⟨hm, hgrounded, fun {n} hn => ?_, fun {n s₁} hn hs₁ => ?_, fun {n s₁} hn hs₁ => ?_⟩
  · rw [session?_setSession, session?_setSession]
    split
    · exact .some hs
    · exact optionRel_mono (h.own hn) fun _ _ h => h.mono hIJ
  · rw [session?_setSession] at hs₁
    split at hs₁
    · cases hs₁
      exact ⟨hwork, hown⟩
    · exact h.bound hn hs₁
  · have hne : n ≠ name := fun he => hn (he ▸ hname)
    rw [session?_setSession, if_neg hne] at hs₁
    exact h.others_after hold hn hs₁

theorem eraseSession (h : Beside P I c w w') {m m' : Manager AnyStore} (hm : m.Beside P I c m')
    (hname : c.session name)
    (hgrounded : ({ manager := m, sessions := w.sessions.erase name } : World AnyStore).Grounded) :
    Beside P I c { manager := m, sessions := w.sessions.erase name }
      { manager := m', sessions := w'.sessions.erase name } := by
  refine ⟨hm, hgrounded, fun {n} hn => ?_, fun {n s₁} hn hs₁ => ?_, fun {n s₁} hn hs₁ => ?_⟩
  · rw [session?_erase, session?_erase]
    split
    · exact .none
    · exact h.own hn
  · rw [session?_erase] at hs₁
    split at hs₁
    · cases hs₁
    · exact h.bound hn hs₁
  · have hne : n ≠ name := fun he => hn (he ▸ hname)
    rw [session?_erase, if_neg hne] at hs₁
    exact h.others hn hs₁

theorem draws_eq (h : Beside P I c w w') (hstep : step.Alike P step') (hin : step.Within c) :
    w.draws step = w'.draws step' := by
  cases hstep with
  | complete name now =>
    show (((w.session? name).bind Session.batch).bind w.manager.batch?).elim 0 _ =
      (((w'.session? name).bind Session.batch).bind w'.manager.batch?).elim 0 _
    rcases h.session hin with ⟨hs, hs'⟩ | ⟨s, s', hs, hs', halike, _⟩
    · rw [hs, hs']
      rfl
    · rw [hs, hs', Option.bind_some, Option.bind_some]
      have hbatch := halike.batch
      generalize s.batch = o, s'.batch = o' at hbatch
      cases hbatch with
      | none => rfl
      | some hij =>
        obtain ⟨b, b', hb, hb', hsame, hown⟩ := h.manager.batches hij
        rw [Option.bind_some, Option.bind_some, hb, hb']
        exact hsame.draws_eq h.manager.store hown
  | _ => rfl

/-- Both worlds stay as they are and answer the same. -/
theorem inStep_of_eq (h : Beside P I c w w') {answer : Answer} (hanswer : answer.Alike P answer)
    (hstep : w.step step = (answer, w)) (hstep' : w'.step step' = (answer, w')) :
    InStep P c w w' step step' := by
  refine ⟨P, I, Pairing.Within.refl P, ?_⟩
  rw [hstep, hstep']
  exact ⟨hanswer, h⟩

theorem inStep_of_misnames (h : Beside P I c w w') (hstep : w.Misnames step)
    (hstep' : w'.Misnames step') : InStep P c w w' step step' :=
  h.inStep_of_eq .misnamed (step_of_misnames hstep) (step_of_misnames hstep')

/-- A session of the party is open in both worlds, and joined to a batch that is the same. -/
structure Joined (P : Pairing UInt64) (I : Pairing BatchId) (c : Party) (w w' : World AnyStore)
    (name : String) (s s' : Session) (i j : BatchId) (b b' : SharedBatch) : Prop where
  found : w.session? name = some s
  found' : w'.session? name = some s'
  session : s.Alike I s'
  work : c.work s.work
  place : c.Owns s.partition
  opened : s.ensureOpen w.manager = .ok (i, b)
  opened' : s'.ensureOpen w'.manager = .ok (j, b')
  pair : I.pairs i j
  batch : b.Alike P b'
  batch_place : c.Owns b.partition

/-- If a session of the party has to be open for a step, the step is refused alike, or the session
is joined to its batch in both worlds. -/
theorem inStep_or_joined (h : Beside P I c w w') (hname : c.session name) (step step' : Step)
    (hcall : step.isCallOf name = true) (hcall' : step'.isCallOf name = true) :
    InStep P c w w' step step' ∨ ∃ s s' i j b b', Joined P I c w w' name s s' i j b b' := by
  rcases h.session hname with ⟨hs, hs'⟩ | ⟨s, s', hs, hs', halike, hwork, hown⟩
  · exact .inl (h.inStep_of_misnames (misnames_of_isCallOf hs hcall)
      (misnames_of_isCallOf hs' hcall'))
  · have hopen := halike.ensureOpen h.manager
    generalize hfound : s.ensureOpen w.manager = found,
      hfound' : s'.ensureOpen w'.manager = found' at hopen
    cases hopen with
    | error e =>
      exact .inl (h.inStep_of_eq (.refused e) (step_eq_of_ensureOpen_error hs hfound hcall)
        (step_eq_of_ensureOpen_error hs' hfound' hcall'))
    | @ok x x' hjoined =>
      obtain ⟨hpair, hbatch, hplace⟩ := hjoined
      exact .inr ⟨s, s', x.1, x'.1, x.2, x'.2, hs, hs', halike, hwork, hown, hfound, hfound',
        hpair, hbatch, hplace⟩

theorem create (h : Beside P I c w w') (hname : c.session name) {work : WorkId}
    {partition : Partition} (hwork : c.work work) (hown : c.Owns partition) :
    InStep P c w w' (.create name work partition) (.create name work partition) := by
  rcases h.session hname with ⟨hs, hs'⟩ | ⟨s, s', hs, hs', _⟩
  · have hgrounded := (w.outcome (.create name work partition)).grounded h.grounded
    refine ⟨P, I, Pairing.Within.refl P, ?_⟩
    rw [step_create hs] at hgrounded ⊢
    rw [step_create hs']
    exact ⟨.done, h.setSession h.manager (Pairing.Within.refl I) (fun _ _ hk => hk) hname
      ⟨rfl, rfl, rfl, .none⟩ hwork hown hgrounded⟩
  · exact h.inStep_of_misnames (by simp [Misnames, hs]) (by simp [Misnames, hs'])

theorem createOpen (h : Beside P I c w w') (hname : c.session name) {work : WorkId}
    {partition : Partition} (hwork : c.work work) (hown : c.Owns partition) :
    InStep P c w w' (.createOpen name work partition) (.createOpen name work partition) := by
  rcases h.session hname with ⟨hs, hs'⟩ | ⟨s, s', hs, hs', _⟩
  · have hgrounded := (w.outcome (.createOpen name work partition)).grounded h.grounded
    have halike : Session.Alike I { work, partition } { work, partition } :=
      ⟨rfl, rfl, rfl, .none⟩
    obtain ⟨J, hIJ, hold, hanswer, hjoined, hafter⟩ :=
      halike.start h.manager h.grounded.registered hwork hown
    have hbound := Session.start_bound { work, partition } w.manager
    refine ⟨P, J, Pairing.Within.refl P, ?_⟩
    rw [step_createOpen_eq hs] at hgrounded ⊢
    rw [step_createOpen_eq hs']
    generalize Session.start { work, partition } w.manager = started at *
    generalize Session.start { work, partition } w'.manager = started' at hanswer hjoined hafter ⊢
    obtain ⟨answer, s, m⟩ := started
    obtain ⟨answer', s', m'⟩ := started'
    obtain rfl : answer = answer' := hanswer
    cases answer with
    | error e => exact ⟨.refused e, h.setManager hafter hIJ hold hgrounded⟩
    | ok _ =>
      exact ⟨.done, h.setSession hafter hIJ hold hname hjoined (hbound.1 ▸ hwork)
        (hbound.2 ▸ hown) hgrounded⟩
  · exact h.inStep_of_misnames (by simp [Misnames, hs]) (by simp [Misnames, hs'])

theorem start (h : Beside P I c w w') (hname : c.session name) :
    InStep P c w w' (.start name) (.start name) := by
  rcases h.session hname with ⟨hs, hs'⟩ | ⟨s, s', hs, hs', halike, hwork, hown⟩
  · exact h.inStep_of_misnames hs hs'
  · have hgrounded := (w.outcome (.start name)).grounded h.grounded
    obtain ⟨J, hIJ, hold, hanswer, hjoined, hafter⟩ :=
      halike.start h.manager h.grounded.registered hwork hown
    refine ⟨P, J, Pairing.Within.refl P, ?_⟩
    rw [step_start hs] at hgrounded ⊢
    rw [step_start hs', ← hanswer]
    obtain ⟨hsame, hsame'⟩ := s.start_bound w.manager
    exact ⟨.ofUnit _, h.setSession hafter hIJ hold hname hjoined (hsame ▸ hwork) (hsame' ▸ hown)
      hgrounded⟩

theorem read (h : Beside P I c w w') (hname : c.session name) (row : String) :
    InStep P c w w' (.read name row) (.read name row) := by
  rcases h.inStep_or_joined hname (.read name row) (.read name row) (decide_eq_true rfl)
    (decide_eq_true rfl) with
    hstep | ⟨s, s', i, j, b, b', hjoined⟩
  · exact hstep
  · refine ⟨P, I, Pairing.Within.refl P, ?_⟩
    rw [step_read hjoined.found, step_read hjoined.found', Session.read, Session.read,
      hjoined.opened, hjoined.opened', ← hjoined.session.partition]
    have hread := h.manager.store.read hjoined.place row
    dsimp only
    generalize TableStore.read w.manager.store s.partition.table s.partition.key row = found
      at hread
    generalize TableStore.read w'.manager.store s.partition.table s.partition.key row = found'
      at hread
    cases hread with
    | error e => exact ⟨.refused _, h⟩
    | ok hfound => exact ⟨.entity hfound, h⟩

theorem enlist (h : Beside P I c w w') (hname : c.session name) {op op' : Operation}
    (hop : op.Alike P op') : InStep P c w w' (.enlist name op) (.enlist name op') := by
  rcases h.inStep_or_joined hname (.enlist name op) (.enlist name op')
    (decide_eq_true rfl) (decide_eq_true rfl) with
    hstep | ⟨s, s', i, j, b, b', hjoined⟩
  · exact hstep
  · have hgrounded := (w.outcome (.enlist name op)).grounded h.grounded
    have hplace : c.Owns (b.register op).2.partition := by
      rw [b.partition_register]
      exact hjoined.batch_place
    obtain ⟨hanswer, hafter⟩ := hjoined.batch.register hop
    refine ⟨P, I, Pairing.Within.refl P, ?_⟩
    rw [step_enlist hjoined.found hjoined.opened op] at hgrounded ⊢
    rw [step_enlist hjoined.found' hjoined.opened' op', hanswer]
    exact ⟨.ofUnit _, h.setManager (h.manager.setBatch hjoined.pair hafter hplace)
      (Pairing.Within.refl I) (fun _ _ hk => hk) hgrounded⟩

/-- Committing a batch of the party comes to the same in both worlds. -/
theorem commit (h : Beside P I c w w') {i j : BatchId} {b b' : SharedBatch}
    (hjoined : Joined P I c w w' name s s' i j b b') (hfits : b.Fits w.manager.store)
    (hdrawn : w.manager.store.ledger.version.toNat + b.draws w.manager.store < 2 ^ 64)
    (hdrawn' : w'.manager.store.ledger.version.toNat + b'.draws w'.manager.store < 2 ^ 64) :
    ∃ Q : Pairing UInt64, P.Within Q ∧
      SameVerdict (List.Forall₂ (CommittedRow.Alike Q)) (b.commit w.manager.store none).1
        (b'.commit w'.manager.store none).1 ∧
      ({ w.manager with store := (b.commit w.manager.store none).2.2 }.close s.work i
        (b.commit w.manager.store none).2.1).Beside Q I c
        ({ w'.manager with store := (b'.commit w'.manager.store none).2.2 }.close s'.work j
          (b'.commit w'.manager.store none).2.1) := by
  obtain ⟨Q, hPQ, hanswer, hafter, hstore⟩ :=
    hjoined.batch.commit h.manager.store hjoined.batch_place hfits hdrawn hdrawn'
  have hplace : c.Owns (b.commit w.manager.store none).2.1.partition := by
    rw [b.partition_commit]
    exact hjoined.batch_place
  have hclosed := (h.manager.setStore hPQ hstore).close hjoined.pair hafter hplace hjoined.work
  rw [hjoined.session.work] at hclosed ⊢
  exact ⟨Q, hPQ, hanswer, hclosed⟩

theorem complete (h : Beside P I c w w') (hname : c.session name) {now : Instant}
    (hfits : w.FitsStep (.complete name now))
    (hdrawn : w.manager.store.ledger.version.toNat + w.draws (.complete name now) < 2 ^ 64)
    (hdrawn' : w'.manager.store.ledger.version.toNat + w'.draws (.complete name now) < 2 ^ 64) :
    InStep P c w w' (.complete name now) (.complete name now) := by
  rcases h.inStep_or_joined hname (.complete name now) (.complete name now) (decide_eq_true rfl)
    (decide_eq_true rfl) with hstep | ⟨s, s', i, j, b, b', hjoined⟩
  · exact hstep
  have hgrounded := (w.outcome (.complete name now)).grounded h.grounded
  have hsubmit : w.submitting? (.complete name now) = some b := by
    obtain ⟨_, hbatch, hb, _⟩ := Session.ensureOpen_eq_ok_iff.1 hjoined.opened
    exact (submitting?_complete hjoined.found hbatch now).trans hb
  have hsubmit' : w'.submitting? (.complete name now) = some b' := by
    obtain ⟨_, hbatch, hb, _⟩ := Session.ensureOpen_eq_ok_iff.1 hjoined.opened'
    exact (submitting?_complete hjoined.found' hbatch now).trans hb
  have htold := SessionConfig.tellsDeadline_of_none h.manager.noDeadline now
  rw [draws, hsubmit] at hdrawn
  rw [draws, hsubmit'] at hdrawn'
  obtain ⟨Q, hPQ, hanswer, hclosed⟩ := h.commit hjoined (hfits b hsubmit) hdrawn hdrawn'
  generalize hcommit : b.commit w.manager.store none = committed at hanswer hclosed
  generalize hcommit' : b'.commit w'.manager.store none = committed' at hanswer hclosed
  rw [← h.manager.noDeadline] at hcommit
  rw [← h.manager.noDeadline, h.manager.config] at hcommit'
  rw [step_complete hjoined.found hjoined.opened hcommit htold] at hgrounded
  have hend : Session.endState committed.1 = Session.endState committed'.1 := by
    generalize committed.1 = answer, committed'.1 = answer' at hanswer
    cases hanswer <;> rfl
  refine ⟨Q, I, hPQ, ?_⟩
  rw [step_complete hjoined.found hjoined.opened hcommit htold,
    step_complete hjoined.found' hjoined.opened' hcommit' (h.manager.config ▸ htold)]
  refine ⟨?_, h.setSession hclosed (Pairing.Within.refl I) (fun _ _ hk => hk) hname
    ⟨hjoined.session.work, hjoined.session.partition, hend, .none⟩ hjoined.work hjoined.place
    hgrounded⟩
  generalize committed.1 = answer, committed'.1 = answer' at hanswer
  cases hanswer with
  | error e => exact .refused e
  | ok hrows => exact .rows hrows

theorem abort (h : Beside P I c w w') (hname : c.session name) :
    InStep P c w w' (.abort name) (.abort name) := by
  rcases h.inStep_or_joined hname (.abort name) (.abort name) (decide_eq_true rfl)
    (decide_eq_true rfl) with hstep | ⟨s, s', i, j, b, b', hjoined⟩
  · exact hstep
  · have hgrounded := (w.outcome (.abort name)).grounded h.grounded
    have hclosed := h.manager.close hjoined.pair hjoined.batch hjoined.batch_place hjoined.work
    refine ⟨P, I, Pairing.Within.refl P, ?_⟩
    rw [step_abort hjoined.found hjoined.opened] at hgrounded ⊢
    rw [step_abort hjoined.found' hjoined.opened', ← hjoined.session.work]
    exact ⟨.done, h.setSession hclosed (Pairing.Within.refl I) (fun _ _ hk => hk) hname
      ⟨rfl, hjoined.session.partition, rfl, .none⟩ hjoined.work hjoined.place hgrounded⟩

theorem drop (h : Beside P I c w w') (hname : c.session name) :
    InStep P c w w' (.drop name) (.drop name) := by
  rcases h.session hname with ⟨hs, hs'⟩ | ⟨s, s', hs, hs', halike, hwork, _⟩
  · exact h.inStep_of_misnames hs hs'
  · have hgrounded := (w.outcome (.drop name)).grounded h.grounded
    refine ⟨P, I, Pairing.Within.refl P, ?_⟩
    rw [step_drop hs] at hgrounded ⊢
    rw [step_drop hs']
    exact ⟨.done, h.eraseSession (halike.drop h.manager hwork) hname hgrounded⟩

/-- A step of the party comes to the same in both worlds. -/
theorem step_own (h : Beside P I c w w') (hstep : step.Alike P step') (hin : step.Within c)
    (hfits : w.FitsStep step)
    (hdrawn : w.manager.store.ledger.version.toNat + w.draws step < 2 ^ 64)
    (hdrawn' : w'.manager.store.ledger.version.toNat + w'.draws step' < 2 ^ 64) :
    InStep P c w w' step step' := by
  cases hstep with
  | create => exact h.create hin.1 hin.2.1 hin.2.2
  | createOpen => exact h.createOpen hin.1 hin.2.1 hin.2.2
  | start => exact h.start hin
  | read _ row => exact h.read hin row
  | enlist _ hop => exact h.enlist hin hop
  | complete => exact h.complete hin hfits hdrawn hdrawn'
  | abort => exact h.abort hin
  | drop => exact h.drop hin

end Own

section Other

theorem setSession_other (h : Beside P I c w w') {m : Manager AnyStore}
    (hm : m.Beside P I c w'.manager) (hname : ¬ c.session name) (hwork : ¬ c.work s.work)
    (hown : ¬ c.Owns s.partition) (hfree : ∀ i, s.batch = some i → ¬ I.Covers i)
    (hgrounded : (w.setSession name s m).Grounded) :
    Beside P I c (w.setSession name s m) w' := by
  refine ⟨hm, hgrounded, fun {n} hn => ?_, fun {n s₁} hn hs₁ => ?_, fun {n s₁} hn hs₁ => ?_⟩
  · have hne : n ≠ name := fun he => hname (he ▸ hn)
    rw [session?_setSession, if_neg hne]
    exact h.own hn
  · have hne : n ≠ name := fun he => hname (he ▸ hn)
    rw [session?_setSession, if_neg hne] at hs₁
    exact h.bound hn hs₁
  · rw [session?_setSession] at hs₁
    split at hs₁
    · cases hs₁
      exact ⟨hwork, hown, hfree⟩
    · exact h.others hn hs₁

theorem eraseSession_other (h : Beside P I c w w') {m : Manager AnyStore}
    (hm : m.Beside P I c w'.manager) (hname : ¬ c.session name)
    (hgrounded : ({ manager := m, sessions := w.sessions.erase name } : World AnyStore).Grounded) :
    Beside P I c { manager := m, sessions := w.sessions.erase name } w' := by
  refine ⟨hm, hgrounded, fun {n} hn => ?_, fun {n s₁} hn hs₁ => ?_, fun {n s₁} hn hs₁ => ?_⟩
  · have hne : n ≠ name := fun he => hname (he ▸ hn)
    rw [session?_erase, if_neg hne]
    exact h.own hn
  · have hne : n ≠ name := fun he => hname (he ▸ hn)
    rw [session?_erase, if_neg hne] at hs₁
    exact h.bound hn hs₁
  · rw [session?_erase] at hs₁
    split at hs₁
    · cases hs₁
    · exact h.others hn hs₁

theorem join_other (h : Beside P I c w w') {work : WorkId} {partition : Partition} {id : BatchId}
    {m : Manager AnyStore} (hwork : ¬ c.work work) (hown : ¬ c.Owns partition)
    (hacquire : w.manager.acquire work partition = (.ok id, m)) :
    (m.modifyBatch id SharedBatch.join).Beside P I c w'.manager ∧ ¬ I.Covers id := by
  obtain ⟨hafter, hfree⟩ := h.manager.acquire_other hwork hown hacquire
  obtain ⟨b, hb⟩ := Manager.batch?_of_acquire hacquire
  rw [Manager.modifyBatch_eq hb]
  exact ⟨hafter.setBatch_other hb (hfree id rfl) rfl, hfree id rfl⟩

/-- Committing a batch of others changes nothing that the party can see. -/
theorem commit_other (h : Beside P I c w w') {b : SharedBatch} {i : BatchId}
    (hb : w.manager.batch? i = some b) (hfree : ¬ I.Covers i) (hfits : b.Fits w.manager.store)
    (hdrawn : w.manager.store.ledger.version.toNat + b.draws w.manager.store < 2 ^ 64) :
    ({ w.manager with store := (b.commit w.manager.store none).2.2 } : Manager AnyStore).Beside
      P I c w'.manager := by
  apply h.manager.setStore_other
  rcases b.store_commit w.manager.store none with hsame | hsubmit
  · rw [hsame]
    exact h.manager.store
  · rw [hsubmit]
    exact h.manager.store.other (h.manager.foreign hb hfree) hfits hdrawn

/-- A step of the others changes nothing that the party can see. -/
theorem step_other (h : Beside P I c w w') (hout : step.Outside c) (hfits : w.FitsStep step)
    (hdrawn : w.manager.store.ledger.version.toNat + w.draws step < 2 ^ 64) :
    Beside P I c (w.step step).2 w' := by
  have hgrounded := (w.outcome step).grounded h.grounded
  have hcases := w.outcome step
  generalize (w.step step).1 = answer, (w.step step).2 = w₁ at hgrounded hcases ⊢
  cases hcases with
  | misnamed | notCreated | notIdle | notStarted | notOpen | read => exact h
  | created => exact h.setSession_other h.manager hout.1 hout.2.1 hout.2.2 nofun hgrounded
  | createdOpen hnew hacquire =>
    obtain ⟨hafter, hfree⟩ := h.join_other hout.2.1 hout.2.2 hacquire
    exact h.setSession_other hafter hout.1 hout.2.1 hout.2.2 (by rintro _ ⟨⟩; exact hfree) hgrounded
  | started hs hstate hacquire =>
    obtain ⟨hwork, hown, _⟩ := h.others hout hs
    obtain ⟨hafter, hfree⟩ := h.join_other hwork hown hacquire
    exact h.setSession_other hafter hout hwork hown (by rintro _ ⟨⟩; exact hfree) hgrounded
  | @enlisted _ op _ _ b hs hopen =>
    obtain ⟨_, hbatch, hb, _⟩ := Session.ensureOpen_eq_ok_iff.1 hopen
    have hfree := (h.others hout hs).2.2 _ hbatch
    have hafter := h.manager.setBatch_other hb hfree (b.partition_register op)
    exact { h with manager := hafter, grounded := hgrounded }
  | @completed _ now s _ b b' answer store hs hopen hcommit =>
    obtain ⟨_, hbatch, hb, _⟩ := Session.ensureOpen_eq_ok_iff.1 hopen
    obtain ⟨hwork, hown, hfree⟩ := h.others hout hs
    have hsubmit := (submitting?_complete hs hbatch now).trans hb
    rw [draws, hsubmit] at hdrawn
    have hafter := h.commit_other hb (hfree _ hbatch) (hfits b hsubmit) hdrawn
    have hpartition := b.partition_commit w.manager.store none
    rw [h.manager.noDeadline] at hcommit
    rw [hcommit] at hafter hpartition
    exact h.setSession_other (hafter.close_other hb (hfree _ hbatch) hpartition hwork) hout hwork
      hown nofun hgrounded
  | panicked _ _ hlost =>
    rw [SessionConfig.tellsDeadline_of_none h.manager.noDeadline] at hlost
    cases hlost
  | aborted hs hopen =>
    obtain ⟨_, hbatch, hb, _⟩ := Session.ensureOpen_eq_ok_iff.1 hopen
    obtain ⟨hwork, hown, hfree⟩ := h.others hout hs
    exact h.setSession_other (h.manager.close_other hb (hfree _ hbatch) rfl hwork) hout hwork hown
      nofun hgrounded
  | dropped hs => exact h.eraseSession_other h.manager hout hgrounded
  | detached hs hstate hbatch hb =>
    obtain ⟨hwork, _, hfree⟩ := h.others hout hs
    refine h.eraseSession_other ?_ hout hgrounded
    split
    · exact h.manager.setBatch_other hb (hfree _ hbatch) rfl
    · exact h.manager.close_other hb (hfree _ hbatch) rfl hwork
  | notAcquired | acquired | released | registered | committed | abandoned | poisoned =>
    exact hout.elim

end Other

end Beside

end World

end UnitOfWork
