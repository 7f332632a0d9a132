import UnitOfWork.Proofs.Session.Alike
import UnitOfWork.Proofs.Session.Reachable

/-!
What sessions share while others share it too, and what they share alone. The batches of one's own
units of work are in both, under other numbers; everything else in the shared state belongs to the
others.
-/

namespace UnitOfWork

/-- Those whose run is watched: their sessions, units of work and partitions. -/
structure Party where
  session : String → Prop
  work : WorkId → Prop
  place : (table partition : String) → Prop

def Party.Owns (c : Party) (p : Partition) : Prop := c.place p.table p.key

/-- The same session, but for the number of its batch. -/
structure Session.Alike (I : Pairing BatchId) (s s' : Session) : Prop where
  work : s.work = s'.work
  partition : s.partition = s'.partition
  state : s.state = s'.state
  batch : Option.Rel I.pairs s.batch s'.batch

theorem Session.Alike.mono {I J : Pairing BatchId} {s s' : Session} (h : s.Alike I s')
    (hIJ : I.Within J) : s.Alike J s' := { h with batch := optionRel_mono h.batch hIJ }

namespace Manager

/--
A shared state with others, and the same without them. Each batch of the party is in both, and all
other batches are in partitions of others and registered for others.
-/
structure Beside (P : Pairing UInt64) (I : Pairing BatchId) (c : Party)
    (m m' : Manager AnyStore) : Prop where
  store : m.store.Beside P c.place m'.store
  config : m.config = m'.config
  noDeadline : m.config.commitTimeout = none
  limits : m.limits = m'.limits
  batches : ∀ {i j}, I.pairs i j → ∃ b b', m.batch? i = some b ∧ m'.batch? j = some b' ∧
    b.Alike P b' ∧ c.Owns b.partition
  registry : ∀ {work}, c.work work →
    Option.Rel I.pairs (m.registry.get? work) (m'.registry.get? work)
  registered : ∀ {work i}, ¬ c.work work → m.registry.get? work = some i → ¬ I.Covers i
  foreign : ∀ {i b}, m.batch? i = some b → ¬ I.Covers i → ¬ c.Owns b.partition

namespace Beside

variable {P Q : Pairing UInt64} {I : Pairing BatchId} {c : Party} {m m' : Manager AnyStore}
  {i j : BatchId} {b b₀ b' : SharedBatch} {work : WorkId} {partition : Partition}

theorem lt_length (h : Beside P I c m m') (hij : I.pairs i j) :
    i < m.batches.length ∧ j < m'.batches.length := by
  obtain ⟨_, _, hb, hb', _⟩ := h.batches hij
  exact ⟨lt_length_of_batch? hb, lt_length_of_batch? hb'⟩

section Own

theorem setBatch (h : Beside P I c m m') (hij : I.pairs i j) (hb : b.Alike P b')
    (hown : c.Owns b.partition) : Beside P I c (m.setBatch i b) (m'.setBatch j b') := by
  obtain ⟨_, _, hi, hj, _⟩ := h.batches hij
  refine { h with batches := fun {k l} hkl => ?_, foreign := fun {k b₀} hk hfree => ?_ }
  · rw [batch?_setBatch hi, batch?_setBatch hj]
    by_cases hk : k = i
    · rw [if_pos hk, if_pos ((I.one_to_one hkl hij).1 hk)]
      exact ⟨b, b', rfl, rfl, hb, hown⟩
    · rw [if_neg hk, if_neg fun hl => hk ((I.one_to_one hkl hij).2 hl)]
      exact h.batches hkl
  · rw [batch?_setBatch hi, if_neg] at hk
    · exact h.foreign hk hfree
    · rintro rfl
      exact hfree ⟨j, hij⟩

theorem releaseBatch (h : Beside P I c m m') (hij : I.pairs i j) (hwork : c.work work) :
    Beside P I c (m.releaseBatch work i) (m'.releaseBatch work j) := by
  have hsame : m.registry.get? work = some i ↔ m'.registry.get? work = some j := by
    have hregistry := h.registry hwork
    generalize m.registry.get? work = o, m'.registry.get? work = o' at hregistry
    cases hregistry with
    | none => exact iff_of_false nofun nofun
    | some hkl => rw [Option.some.injEq, Option.some.injEq, I.one_to_one hkl hij]
  have hstore : ∀ (m : Manager AnyStore) i, (m.releaseBatch work i).store = m.store ∧
      (m.releaseBatch work i).config = m.config ∧
        (m.releaseBatch work i).limits = m.limits := by
    intro m i
    unfold Manager.releaseBatch
    split <;> exact ⟨rfl, rfl, rfl⟩
  obtain ⟨hs, hc, hl⟩ := hstore m i
  obtain ⟨hs', hc', hl'⟩ := hstore m' j
  constructor
  case store =>
    rw [hs, hs']
    exact h.store
  case config => rw [hc, hc', h.config]
  case noDeadline => rw [hc, h.noDeadline]
  case limits => rw [hl, hl', h.limits]
  case batches =>
    intro k l hkl
    rw [batch?_releaseBatch, batch?_releaseBatch]
    exact h.batches hkl
  case registry =>
    intro other hother
    rw [registry_releaseBatch, registry_releaseBatch]
    by_cases hgone : other = work ∧ m.registry.get? work = some i
    · rw [if_pos hgone, if_pos (hgone.imp_right hsame.1)]
      exact .none
    · rw [if_neg hgone, if_neg fun hgone' => hgone (hgone'.imp_right hsame.2)]
      exact h.registry hother
  case registered =>
    intro other k hother hk
    have hne : other ≠ work := fun he => hother (he ▸ hwork)
    rw [registry_releaseBatch, if_neg fun hgone => hne hgone.1] at hk
    exact h.registered hother hk
  case foreign =>
    intro k b₀ hk hfree
    rw [batch?_releaseBatch] at hk
    exact h.foreign hk hfree

theorem close (h : Beside P I c m m') (hij : I.pairs i j) (hb : b.Alike P b')
    (hown : c.Owns b.partition) (hwork : c.work work) :
    Beside P I c (m.close work i b) (m'.close work j b') :=
  (h.setBatch hij hb.discard.leave (by rwa [← b.partition_discard] at hown)).releaseBatch hij hwork

/-- The stores go on, and tokens that are new stand for each other. -/
theorem setStore (h : Beside P I c m m') (hPQ : P.Within Q) {s s' : AnyStore}
    (hs : s.Beside Q c.place s') :
    Beside Q I c { m with store := s } { m' with store := s' } :=
  { h with
    store := hs
    batches := fun hij => by
      obtain ⟨b, b', hb, hb', halike, hown⟩ := h.batches hij
      exact ⟨b, b', hb, hb', halike.mono hPQ, hown⟩ }

theorem enter (h : Beside P I c m m') (hgrounded : m.Grounded) (hwork : c.work work)
    (hown : c.Owns partition) :
    ∃ J : Pairing BatchId, I.Within J ∧ J.pairs m.batches.length m'.batches.length ∧
      (∀ k < m.batches.length, J.Covers k → I.Covers k) ∧
      Beside P J c (m.enter work partition) (m'.enter work partition) := by
  have hfresh : ∀ {k l}, I.pairs k l → k ≠ m.batches.length ∧ l ≠ m'.batches.length :=
    fun hkl => ⟨Nat.ne_of_lt (h.lt_length hkl).1, Nat.ne_of_lt (h.lt_length hkl).2⟩
  have hold : ∀ k < m.batches.length,
      (I.insert m.batches.length m'.batches.length hfresh).Covers k → I.Covers k := by
    rintro k hk ⟨l, hkl | ⟨rfl, rfl⟩⟩
    · exact ⟨l, hkl⟩
    · exact absurd hk (Nat.lt_irrefl _)
  refine ⟨I.insert _ _ hfresh, fun _ _ => .inl, .inr ⟨rfl, rfl⟩, hold, ?_⟩
  constructor
  case store => exact h.store
  case config => exact h.config
  case noDeadline => exact h.noDeadline
  case limits => exact h.limits
  case batches =>
    rintro k l (hkl | ⟨rfl, rfl⟩)
    · rw [batch?_enter, batch?_enter, if_neg (hfresh hkl).1, if_neg (hfresh hkl).2]
      exact h.batches hkl
    · rw [batch?_enter, batch?_enter, if_pos rfl, if_pos rfl, h.limits]
      exact ⟨_, _, rfl, rfl, .create partition m'.limits, hown⟩
  case registry =>
    intro other hother
    rw [registry_enter, registry_enter]
    split
    · exact .some (.inr ⟨rfl, rfl⟩)
    · exact optionRel_mono (h.registry hother) fun _ _ => .inl
  case registered =>
    intro other k hother hk hcovers
    -- a batch that others have registered is an earlier one, so the new number is not its own
    have hne : other ≠ work := fun he => hother (he ▸ hwork)
    rw [registry_enter, if_neg hne] at hk
    exact h.registered hother hk (hold k (hgrounded other k hk) hcovers)
  case foreign =>
    intro k b₀ hk hfree
    have hne : k ≠ m.batches.length := fun he => hfree ⟨_, .inr ⟨he, rfl⟩⟩
    rw [batch?_enter, if_neg hne] at hk
    exact h.foreign hk fun ⟨l, hkl⟩ => hfree ⟨l, .inl hkl⟩

/-- Both find the party's batch, or refuse alike, or register a new one. -/
theorem acquire (h : Beside P I c m m') (hgrounded : m.Grounded) (hwork : c.work work)
    (hown : c.Owns partition) :
    ∃ J : Pairing BatchId, I.Within J ∧ (∀ k < m.batches.length, J.Covers k → I.Covers k) ∧
      SameVerdict J.pairs (m.acquire work partition).1 (m'.acquire work partition).1 ∧
      Beside P J c (m.acquire work partition).2 (m'.acquire work partition).2 := by
  have hregistry := h.registry hwork
  generalize hi : m.registry.get? work = o, hj : m'.registry.get? work = o' at hregistry
  cases hregistry with
  | none =>
    obtain ⟨J, hIJ, hnew, hold, hafter⟩ := h.enter hgrounded hwork hown
    rw [acquire_of_unregistered hi, acquire_of_unregistered hj]
    exact ⟨J, hIJ, hold, .ok hnew, hafter⟩
  | some hij =>
    obtain ⟨b, b', hb, hb', halike, _⟩ := h.batches hij
    refine ⟨I, Pairing.Within.refl I, fun _ _ hk => hk, ?_⟩
    unfold Manager.acquire
    rw [registered?_eq_some_iff.2 ⟨hi, hb⟩, registered?_eq_some_iff.2 ⟨hj, hb'⟩]
    dsimp only
    rw [halike.partition_eq]
    split
    · exact ⟨.ok hij, h⟩
    · exact ⟨.error _, h⟩

end Own

section Other

theorem setBatch_other (h : Beside P I c m m') (hb : m.batch? i = some b₀) (hfree : ¬ I.Covers i)
    (hpartition : b.partition = b₀.partition) : Beside P I c (m.setBatch i b) m' := by
  refine { h with batches := fun {k l} hkl => ?_, foreign := fun {k b₁} hk hk' => ?_ }
  · rw [batch?_setBatch hb, if_neg]
    · exact h.batches hkl
    · rintro rfl
      exact hfree ⟨l, hkl⟩
  · rw [batch?_setBatch hb] at hk
    split at hk
    · cases hk
      rw [hpartition]
      exact h.foreign hb hfree
    · exact h.foreign hk hk'

theorem release_other (h : Beside P I c m m') (hwork : ¬ c.work work) :
    Beside P I c (m.release work) m' := by
  refine { h with
    registry := fun {other} hother => ?_
    registered := fun {other k} hother hk => ?_ }
  · have hne : other ≠ work := fun he => hwork (he ▸ hother)
    rw [Manager.release, SortedMap.get?_erase, if_neg hne]
    exact h.registry hother
  · rw [Manager.release, SortedMap.get?_erase] at hk
    split at hk
    · cases hk
    · exact h.registered hother hk

theorem close_other (h : Beside P I c m m') (hb : m.batch? i = some b₀) (hfree : ¬ I.Covers i)
    (hpartition : b.partition = b₀.partition) (hwork : ¬ c.work work) :
    Beside P I c (m.close work i b) m' := by
  have hset : Beside P I c (m.setBatch i b.discard.leave) m' :=
    h.setBatch_other hb hfree (b.partition_discard.trans hpartition)
  unfold Manager.close Manager.releaseBatch
  split
  · exact hset.release_other hwork
  · exact hset

theorem setStore_other (h : Beside P I c m m') {s : AnyStore} (hs : s.Beside P c.place m'.store) :
    Beside P I c { m with store := s } m' := { h with store := hs }

theorem enter_other (h : Beside P I c m m') (hwork : ¬ c.work work) (hother : ¬ c.Owns partition) :
    ¬ I.Covers m.batches.length ∧ Beside P I c (m.enter work partition) m' := by
  have hfree : ¬ I.Covers m.batches.length := fun ⟨_, hkl⟩ =>
    Nat.lt_irrefl _ (h.lt_length hkl).1
  refine ⟨hfree, h.store, h.config, h.noDeadline, h.limits, fun {k l} hkl => ?_,
    fun {other} hown => ?_, fun {other k} hnot hk => ?_, fun {k b} hk hk' => ?_⟩
  · rw [batch?_enter, if_neg (Nat.ne_of_lt (h.lt_length hkl).1)]
    exact h.batches hkl
  · have hne : other ≠ work := fun he => hwork (he ▸ hown)
    rw [registry_enter, if_neg hne]
    exact h.registry hown
  · rw [registry_enter] at hk
    split at hk
    · cases hk
      exact hfree
    · exact h.registered hnot hk
  · rw [batch?_enter] at hk
    split at hk
    · cases hk
      exact hother
    · exact h.foreign hk hk'

theorem acquire_other (h : Beside P I c m m') (hwork : ¬ c.work work) (hother : ¬ c.Owns partition)
    {answer : Except SessionError BatchId} {m₁ : Manager AnyStore}
    (hacquire : m.acquire work partition = (answer, m₁)) :
    Beside P I c m₁ m' ∧ ∀ i, answer = .ok i → ¬ I.Covers i := by
  have hcases := m.acquired work partition
  rw [hacquire] at hcases
  cases hcases with
  | found hregistered =>
    refine ⟨h, fun i hi => ?_⟩
    cases hi
    exact h.registered hwork (registered?_eq_some_iff.1 hregistered).1
  | mismatched => exact ⟨h, nofun⟩
  | entered =>
    obtain ⟨hfree, hafter⟩ := h.enter_other hwork hother
    refine ⟨hafter, fun i hi => ?_⟩
    cases hi
    exact hfree

end Other

end Beside

end Manager

namespace Session

variable {P : Pairing UInt64} {I : Pairing BatchId} {c : Party} {m m' : Manager AnyStore}
  {s s' : Session}

/-- What a session of the party finds when it looks for its batch. -/
theorem Alike.ensureOpen (hs : s.Alike I s') (h : m.Beside P I c m') :
    SameVerdict (fun x x' : BatchId × SharedBatch => I.pairs x.1 x'.1 ∧ x.2.Alike P x'.2 ∧
      c.Owns x.2.partition) (s.ensureOpen m) (s'.ensureOpen m') := by
  have hbatch := hs.batch
  unfold Session.ensureOpen
  rw [hs.state]
  generalize s.batch = o, s'.batch = o' at hbatch
  cases s'.state with
  | idle => exact .error _
  | committing | committed | aborting | aborted => exact .error _
  | «open» =>
    cases hbatch with
    | none => exact .error _
    | some hij =>
      obtain ⟨b, b', hb, hb', halike, hown⟩ := h.batches hij
      dsimp only
      rw [hb, hb']
      dsimp only
      rw [halike.completed]
      split
      · exact .error _
      · exact .ok ⟨hij, halike, hown⟩

theorem Alike.pendingOperations_eq (hs : s.Alike I s') (h : m.Beside P I c m') :
    s.pendingOperations m = s'.pendingOperations m' := by
  have hbatch := hs.batch
  unfold Session.pendingOperations
  generalize s.batch = o, s'.batch = o' at hbatch
  cases hbatch with
  | none => rfl
  | some hij =>
    obtain ⟨b, b', hb, hb', halike, _⟩ := h.batches hij
    rw [Option.bind_some, Option.bind_some, hb, hb']
    exact halike.pending.ops.length_eq

theorem start_bound (s : Session) (m : Manager AnyStore) :
    (s.start m).2.1.work = s.work ∧ (s.start m).2.1.partition = s.partition := by
  unfold start
  split
  · exact ⟨rfl, rfl⟩
  · generalize m.acquire s.work s.partition = acquired
    obtain ⟨answer, m₁⟩ := acquired
    cases answer <;> exact ⟨rfl, rfl⟩

/-- A session of the party joins its batch in both, or is refused alike. -/
theorem Alike.start (hs : s.Alike I s') (h : m.Beside P I c m') (hgrounded : m.Grounded)
    (hwork : c.work s.work) (hown : c.Owns s.partition) :
    ∃ J : Pairing BatchId, I.Within J ∧ (∀ k < m.batches.length, J.Covers k → I.Covers k) ∧
      (s.start m).1 = (s'.start m').1 ∧ (s.start m).2.1.Alike J (s'.start m').2.1 ∧
      (s.start m).2.2.Beside P J c (s'.start m').2.2 := by
  unfold Session.start
  rw [hs.state]
  split
  · exact ⟨I, Pairing.Within.refl I, fun _ _ hk => hk, rfl, hs, h⟩
  · obtain ⟨J, hIJ, hold, hanswer, hafter⟩ := h.acquire hgrounded hwork hown
    refine ⟨J, hIJ, hold, ?_⟩
    rw [← hs.work, ← hs.partition]
    generalize m.acquire s.work s.partition = acquired at hanswer hafter
    generalize m'.acquire s.work s.partition = acquired' at hanswer hafter
    obtain ⟨answer, m₁⟩ := acquired
    obtain ⟨answer', m₁'⟩ := acquired'
    dsimp only at hanswer hafter
    cases hanswer with
    | error e => exact ⟨rfl, hs.mono hIJ, hafter⟩
    | ok hij =>
      obtain ⟨b, b', hb, hb', halike, hb₀⟩ := hafter.batches hij
      dsimp only
      rw [Manager.modifyBatch_eq hb, Manager.modifyBatch_eq hb']
      exact ⟨rfl, ⟨rfl, rfl, rfl, .some hij⟩, hafter.setBatch hij halike.join hb₀⟩

theorem Alike.drop (hs : s.Alike I s') (h : m.Beside P I c m') (hwork : c.work s.work) :
    (s.drop m).Beside P I c (s'.drop m') := by
  have hbatch := hs.batch
  unfold Session.drop
  rw [hs.state, ← hs.work]
  generalize s.batch = o, s'.batch = o' at hbatch
  cases s'.state with
  | idle | committing | committed | aborting | aborted => exact h
  | «open» =>
    cases hbatch with
    | none => exact h
    | some hij =>
      obtain ⟨b, b', hb, hb', halike, hown⟩ := h.batches hij
      dsimp only
      rw [hb, hb']
      dsimp only
      rw [halike.leave.participants]
      split
      · exact h.setBatch hij halike.leave hown
      · exact (h.setBatch hij halike.leave.discard
          (by rwa [SharedBatch.partition_discard])).releaseBatch hij hwork

end Session

end UnitOfWork
