import UnitOfWork.Proofs.Session.Play
import UnitOfWork.Proofs.Store.TokenFreshness

/-!
Units of work on different partitions do not interfere: however two sets of session steps are
interleaved, each answer that a set gets is the one that it gets alone, but for the tokens.
-/

namespace UnitOfWork

/-- Those who make some moves. -/
def Party.of (moves : List Move) : Party where
  session name := ∃ m ∈ moves, m.session = name
  work work := ∃ m ∈ moves, ∃ u ∈ m.unit?, u.1 = work
  place table key := ∃ m ∈ moves, ∃ u ∈ m.unit?, u.2.table = table ∧ u.2.key = key

namespace Move

variable {moves : List Move} {m : Move} {answers : List Answer} {step : Step}

theorem eq_enlist_of_step? {name : String} {kind : OperationKind} {key : EntityKey}
    {properties : Properties} {token : TokenName}
    (h : (enlist name kind key properties token).step? answers = .ok step) :
    ∃ op, step = .enlist name op := by
  rw [step?] at h
  cases hbuilt : Script.Draft.build ⟨kind, key, properties, .current⟩ (token.resolve answers) with
  | error e =>
    rw [hbuilt] at h
    cases h
  | ok op =>
    rw [hbuilt] at h
    cases h
    exact ⟨op, rfl⟩

theorem within_of_step? (hm : m ∈ moves) (h : m.step? answers = .ok step) :
    step.Within (.of moves) := by
  cases m with
  | create | createOpen =>
    cases h
    exact ⟨⟨_, hm, rfl⟩, ⟨_, hm, _, rfl, rfl⟩, _, hm, _, rfl, rfl, rfl⟩
  | enlist =>
    obtain ⟨op, rfl⟩ := eq_enlist_of_step? h
    exact ⟨_, hm, rfl⟩
  | start | read | complete | abort | drop =>
    cases h
    exact ⟨_, hm, rfl⟩

theorem outside_of_step? (hm : ∀ a ∈ moves, a.Apart m) (h : m.step? answers = .ok step) :
    step.Outside (.of moves) := by
  have hsession : ¬ (Party.of moves).session m.session := by
    rintro ⟨a, ha, hname⟩
    exact (hm a ha).1 hname
  have hunit : ∀ u ∈ m.unit?, ¬ (Party.of moves).work u.1 ∧ ¬ (Party.of moves).Owns u.2 := by
    intro u hu
    constructor
    · rintro ⟨a, ha, v, hv, hwork⟩
      exact ((hm a ha).2 v hv u hu).1 hwork
    · rintro ⟨a, ha, v, hv, hplace⟩
      exact ((hm a ha).2 v hv u hu).2 hplace
  cases m with
  | create | createOpen =>
    cases h
    exact ⟨hsession, hunit _ rfl⟩
  | enlist =>
    obtain ⟨op, rfl⟩ := eq_enlist_of_step? h
    exact hsession
  | start | read | complete | abort | drop =>
    cases h
    exact hsession

end Move

namespace Play

variable {P Q : Pairing UInt64} {I J : Pairing BatchId} {c : Party} {p p' : Play}
  {m : Move} {moves : List Move} {schedule : List (Move ⊕ Move)}

def version (p : Play) : Nat := p.store.ledger.version.toNat

theorem version_next (m : Move ⊕ Move) (h : p.version + p.draws m < 2 ^ 64) :
    (p.next m).version ≤ p.version + p.draws m := by
  have hnote : ∀ (p : Play) answer, (p.note answer m).version = p.version := by
    intro p answer
    cases m <;> rfl
  unfold next
  unfold draws at h ⊢
  cases hstep : p.step? m with
  | error e => exact Nat.le_of_eq (hnote p _)
  | ok step =>
    rw [hstep] at h
    exact (hnote _ _).trans_le (World.version_step step h)

/-- A set of moves beside others, and the same set alone. -/
structure Beside (P : Pairing UInt64) (I : Pairing BatchId) (c : Party) (p p' : Play) : Prop where
  world : p.world.Beside P I c p'.world
  own : List.Forall₂ (Answer.Alike P) p.own p'.own

namespace Beside

/-- A move of the set means the same in both runs. -/
theorem step?_own (h : Beside P I (.of moves) p p') (m : Move) (hforeign : m.Foreign) :
    SameVerdict (Step.Alike P) (p.step? (.inl m)) (p'.step? (.inl m)) :=
  Move.step?_alike h.own hforeign

/-- A move of the set draws as many versions in both runs. -/
theorem draws_eq (h : Beside P I (.of moves) p p') (hm : m ∈ moves) (hforeign : m.Foreign) :
    p.draws (.inl m) = p'.draws (.inl m) := by
  have hmeant := h.step?_own m hforeign
  unfold draws
  generalize hfound : p.step? (.inl m) = found, p'.step? (.inl m) = found' at hmeant
  cases hmeant with
  | error e => rfl
  | ok hstep => exact h.world.draws_eq hstep (Move.within_of_step? hm hfound)

/-- A move of the set comes to the same in both runs. -/
theorem next_own (h : Beside P I (.of moves) p p') (hm : m ∈ moves) (hforeign : m.Foreign)
    (hfits : p.FitsMove (.inl m)) (hdrawn : p.version + p.draws (.inl m) < 2 ^ 64)
    (hdrawn' : p'.version + p'.draws (.inl m) < 2 ^ 64) :
    ∃ Q J, Beside Q J (.of moves) (p.next (.inl m)) (p'.next (.inl m)) := by
  have hmeant := h.step?_own m hforeign
  unfold FitsMove at hfits
  unfold draws at hdrawn hdrawn'
  unfold next
  generalize hfound : p.step? (.inl m) = found, p'.step? (.inl m) = found' at *
  cases hmeant with
  | error e => exact ⟨P, I, h.world, List.rel_append h.own (.cons (.refused e) .nil)⟩
  | ok hstep =>
    obtain ⟨Q, J, hPQ, hanswer, hafter⟩ := h.world.step_own hstep (Move.within_of_step? hm hfound)
      (hfits _ rfl) hdrawn hdrawn'
    exact ⟨Q, J, hafter, List.rel_append (h.own.imp fun _ _ ha => ha.mono hPQ)
      (.cons hanswer .nil)⟩

/-- A move of others is not noticed. -/
theorem next_other (h : Beside P I (.of moves) p p') (hm : ∀ a ∈ moves, a.Apart m)
    (hfits : p.FitsMove (.inr m)) (hdrawn : p.version + p.draws (.inr m) < 2 ^ 64) :
    Beside P I (.of moves) (p.next (.inr m)) p' := by
  unfold FitsMove at hfits
  unfold draws at hdrawn
  unfold next
  generalize hfound : p.step? (.inr m) = found at *
  cases found with
  | error e => exact ⟨h.world, h.own⟩
  | ok step =>
    exact ⟨h.world.step_other (Move.outside_of_step? hm hfound) (hfits step rfl) hdrawn, h.own⟩

theorem after (h : Beside P I (.of moves) p p')
    (hown : ∀ m, .inl m ∈ schedule → m ∈ moves ∧ m.Foreign)
    (hothers : ∀ m, .inr m ∈ schedule → ∀ a ∈ moves, a.Apart m) (hfits : p.Fits schedule)
    (hdrawn : p.version + p.allDraws schedule < 2 ^ 64)
    (hdrawn' : p'.version + p.allDraws schedule < 2 ^ 64) :
    ∃ Q J, Beside Q J (.of moves) (p.after schedule)
      (p'.after ((schedule.filterMap Sum.getLeft?).map .inl)) := by
  -- the pairings grow with each move of the set, and stay as they are when others move
  induction schedule generalizing P I p p' with
  | nil => exact ⟨P, I, h⟩
  | cons m schedule ih =>
    obtain ⟨hfirst, hrest⟩ := hfits
    rw [allDraws] at hdrawn hdrawn'
    have hversion := p.version_next m (by omega)
    have hown' := fun a ha => hown a (List.mem_cons_of_mem _ ha)
    have hothers' := fun a ha => hothers a (List.mem_cons_of_mem _ ha)
    cases m with
    | inl m =>
      obtain ⟨hm, hforeign⟩ := hown m List.mem_cons_self
      have hsame := h.draws_eq hm hforeign
      have hversion' := p'.version_next (.inl m) (by omega)
      obtain ⟨Q, J, hnext⟩ := h.next_own hm hforeign hfirst (by omega) (by omega)
      exact ih hnext hown' hothers' hrest (by omega) (by omega)
    | inr m =>
      have hnext := h.next_other (hothers m List.mem_cons_self) hfirst (by omega)
      exact ih hnext hown' hothers' hrest (by omega) (by omega)

theorem own_eq (h : Beside P I c p p') :
    p.own.map Answer.unstamped = p'.own.map Answer.unstamped := by
  obtain ⟨_, hown⟩ := h
  generalize p.own = own, p'.own = own' at hown
  induction hown with
  | nil => rfl
  | cons hanswer _ ih => rw [List.map_cons, List.map_cons, hanswer.unstamped_eq, ih]

theorem standing_eq (h : Beside P I c p p') {name : String} (hname : c.session name) :
    p.standing name = p'.standing name := by
  unfold standing
  rcases h.world.session hname with ⟨hs, hs'⟩ | ⟨s, s', hs, hs', halike, _⟩
  · rw [hs, hs']
    rfl
  · rw [hs, hs', Option.map_some, Option.map_some, halike.state,
      halike.pendingOperations_eq h.world.manager]

theorem read_eq (h : Beside P I c p p') {partition : Partition} (hown : c.Owns partition)
    (row : String) :
    (TableStore.read p.store partition.table partition.key row).map (Option.map Entity.unstamped) =
      (TableStore.read p'.store partition.table partition.key row).map
        (Option.map Entity.unstamped) := by
  have hread := h.world.manager.store.read hown row
  unfold store
  generalize TableStore.read p.world.manager.store _ _ row = found,
    TableStore.read p'.world.manager.store _ _ row = found' at hread ⊢
  cases hread with
  | error e => rfl
  | ok hfound => exact congrArg Except.ok (Entity.unstamped_eq_of_alike hfound)

end Beside

/--
Sessions of different units of work on different partitions take turns on one manager, without a
deadline, over any store that has come from an empty one, and while its versions last. Whatever the
others do and whenever they do it, the sessions of one side get the answers that they get alone,
but for the tokens in them, stand as they stand alone, and leave in their partitions what they
leave alone. A token is shown by naming the answer that has told it, or is one that no store
stamps.
-/
theorem disjoint_partitions_do_not_interfere (s : AnyStore) (hempty : s.IsEmpty)
    (events : List StoreEvent) (hevents : StoreEvent.AllFit s events) (config : SessionConfig)
    (hconfig : config.commitTimeout = none) (mine theirs : List Move)
    (hapart : ∀ a ∈ mine, ∀ b ∈ theirs, a.Apart b) (hforeign : ∀ a ∈ mine, a.Foreign)
    (schedule : List (Move ⊕ Move)) (hmine : schedule.filterMap Sum.getLeft? = mine)
    (htheirs : schedule.filterMap Sum.getRight? = theirs)
    (hfits : (fresh (StoreEvent.after s events) config).Fits schedule)
    (hdrawn : StoreEvent.allDrawn s events +
      (fresh (StoreEvent.after s events) config).allDraws schedule < 2 ^ 64) :
    let joint := (fresh (StoreEvent.after s events) config).after schedule
    let solo := (fresh (StoreEvent.after s events) config).after (mine.map .inl)
    joint.own.map Answer.unstamped = solo.own.map Answer.unstamped ∧
      (∀ a ∈ mine, joint.standing a.session = solo.standing a.session) ∧
      ∀ a ∈ mine, ∀ u ∈ a.unit?,
        (TableStore.query joint.store u.2.table u.2.key).map (List.map Entity.unstamped) =
          (TableStore.query solo.store u.2.table u.2.key).map (List.map Entity.unstamped) ∧
        ∀ row, (TableStore.read joint.store u.2.table u.2.key row).map
            (Option.map Entity.unstamped) =
          (TableStore.read solo.store u.2.table u.2.key row).map
            (Option.map Entity.unstamped) := by
  have hfollows := StoreEvent.follows_after hempty.stamped events
    (by rw [hempty.version]; exact (Nat.zero_add _).trans_lt (by omega))
  have hsound := (StoreEvent.reachable_after (.empty hempty) hevents).sound
  have hversion := hfollows.version_le
  rw [hempty.version] at hversion
  generalize StoreEvent.after s events = store at *
  have hown : ∀ m, .inl m ∈ schedule → m ∈ mine ∧ m.Foreign := by
    intro m hm
    have hmem : m ∈ mine := hmine ▸ List.mem_filterMap.2 ⟨_, hm, rfl⟩
    exact ⟨hmem, hforeign m hmem⟩
  have hothers : ∀ m, .inr m ∈ schedule → ∀ a ∈ mine, a.Apart m := by
    intro m hm a ha
    exact hapart a ha m (htheirs ▸ List.mem_filterMap.2 ⟨_, hm, rfl⟩)
  have hbound : (fresh store config).version + (fresh store config).allDraws schedule < 2 ^ 64 :=
    Nat.lt_of_le_of_lt (Nat.add_le_add_right (hversion.trans_eq (Nat.zero_add _)) _) hdrawn
  have hstart : Beside _ _ (.of mine) (fresh store config) (fresh store config) :=
    ⟨.fresh (.of mine) hsound hfollows.stamped.sound hconfig, .nil⟩
  obtain ⟨Q, J, hend⟩ := hstart.after hown hothers hfits hbound hbound
  rw [hmine] at hend
  refine ⟨hend.own_eq, fun a ha => hend.standing_eq ⟨a, ha, rfl⟩, fun a ha u hu => ?_⟩
  have hplace : (Party.of mine).Owns u.2 := ⟨a, ha, u, hu, rfl, rfl⟩
  exact ⟨hend.world.manager.store.query hplace, hend.read_eq hplace⟩

private theorem validTableName_cargo : ValidTableName "Cargo" := by decide

private def cargo (key : String) (h : ValidKey key) : Partition :=
  ⟨"Cargo", key, validTableName_cargo, h⟩

private def load (name row : String) : Move :=
  .enlist name .insert ⟨name, row⟩ ∅ (.literal none)

private def reload (token : TokenName) : List Move :=
  [.createOpen "n" "north" (cargo "n" (by decide)), .enlist "n" .replace ⟨"n", "x"⟩ ∅ token,
    .complete "n" .start, .drop "n"]

/-- Inserts a row, tries to replace it by a stale token, and replaces it by the right one. -/
private def north : List Move :=
  [.createOpen "n" "north" (cargo "n" (by decide)), load "n" "x", .complete "n" .start, .drop "n"] ++
    reload (.literal (some ⟨"stale"⟩)) ++ reload (.committed 2 0)

private def south : List Move :=
  [.createOpen "s" "south" (cargo "s" (by decide)), load "s" "x", load "s" "y", .complete "s" .start]

/-- The south commits two rows while the north is about to commit one. -/
private def passing : List (Move ⊕ Move) :=
  (north.take 2).map .inl ++ south.map .inr ++ (north.drop 2).map .inl

private def portStore : AnyStore := .durable { config := {} }

private def portEvents : List StoreEvent :=
  [.call (.ensureTable "Cargo"), .reopen { createTableIfMissing := false }]

private def port : Play := fresh (StoreEvent.after portStore portEvents) {}

theorem disjoint_partitions_do_not_interfere_ports :
    portStore.IsEmpty ∧ StoreEvent.AllFit portStore portEvents ∧
      (∀ a ∈ north, ∀ b ∈ south, a.Apart b) ∧ (∀ a ∈ north, a.Foreign) ∧
      passing.filterMap Sum.getLeft? = north ∧ passing.filterMap Sum.getRight? = south ∧
      port.Fits passing ∧ StoreEvent.allDrawn portStore portEvents + port.allDraws passing = 5 ∧
      (∃ e, (port.after passing).own[6]? = some (.refused e)) ∧
      (port.after passing).own[10]? = some (.rows [⟨"x", some (.ofVersion 4)⟩]) ∧
      (port.after (north.map .inl)).own[10]? = some (.rows [⟨"x", some (.ofVersion 2)⟩]) ∧
      (port.after passing).own.map Answer.unstamped =
        (port.after (north.map .inl)).own.map Answer.unstamped := by
  have hempty : portStore.IsEmpty := rfl
  have hevents : StoreEvent.AllFit portStore portEvents := by decide +kernel
  have hapart : ∀ a ∈ north, ∀ b ∈ south, a.Apart b := by decide +kernel
  have hforeign : ∀ a ∈ north, a.Foreign := by
    have hstale : (Token.mk "stale").Foreign := Token.foreign_of_size (by decide +kernel)
    simp [north, load, reload, Move.Foreign, hstale]
  have hfits : port.Fits passing := by decide +kernel
  have hdrawn : StoreEvent.allDrawn portStore portEvents + port.allDraws passing = 5 := by
    decide +kernel
  obtain ⟨hanswers, _⟩ := disjoint_partitions_do_not_interfere portStore hempty portEvents hevents
    {} rfl north south hapart hforeign passing rfl rfl hfits
    (hdrawn.trans_lt (by decide))
  exact ⟨hempty, hevents, hapart, hforeign, rfl, rfl, hfits, hdrawn, ⟨_, rfl⟩,
    by decide +kernel, by decide +kernel, hanswers⟩

end Play

end UnitOfWork
