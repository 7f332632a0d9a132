import UnitOfWork.Proofs.Session.Prepared
import UnitOfWork.Proofs.Store.Decision
import UnitOfWork.Proofs.Store.Effect

/-!
Whether a unit of work can be completed is decided by the conditions of its pending operations
alone: it is carried out if the rows are as all operations expect them, and else the first
operation whose row is not is told.
-/

namespace UnitOfWork

namespace Operation

/-- The row is as the operation expects it: an insert finds none, and any other operation finds one
that carries its token. -/
def IsMet (op : Operation) (s : AnyStore) (table : String) : Prop :=
  match op.token? with
  | none => TableStore.read s table op.key.partition op.row = .ok none
  | some t => ∃ e, TableStore.read s table op.key.partition op.row = .ok (some e) ∧ e.token = t

/-- The row is not as the operation expects it, for a reason. -/
inductive FailsFor (op : Operation) (s : AnyStore) (table : String) : Rejection → Prop
  | alreadyExists {e : Entity} (hop : op.token? = none)
      (hread : TableStore.read s table op.key.partition op.row = .ok (some e)) :
      FailsFor op s table .alreadyExists
  | notFound {t : Token} (hop : op.token? = some t)
      (hread : TableStore.read s table op.key.partition op.row = .ok none) :
      FailsFor op s table .notFound
  | preconditionFailed {t : Token} {e : Entity} (hop : op.token? = some t)
      (hread : TableStore.read s table op.key.partition op.row = .ok (some e))
      (hne : e.token ≠ t) : FailsFor op s table .preconditionFailed

theorem isDelete_toBatchOp (op : Operation) :
    op.toBatchOp.isDelete = true ↔ op.kind = .delete := by
  unfold toBatchOp kind
  cases op.change <;> simp [BatchOp.isDelete]

section Reading

variable {op : Operation} {s : AnyStore} {table : String}

/-- The conditions of an operation are those of the batch operation that it turns into. -/
theorem isMet_toBatchOp :
    op.toBatchOp.IsMet s table op.key.partition ↔ op.IsMet s table := by
  unfold BatchOp.IsMet IsMet
  cases htoken : op.token? <;> simp [ifMatch?_toBatchOp, row_toBatchOp, htoken]

theorem failsFor_toBatchOp {reason : Rejection} :
    op.toBatchOp.FailsFor s table op.key.partition reason ↔ op.FailsFor s table reason := by
  have htoken := op.ifMatch?_toBatchOp
  have hrow := op.row_toBatchOp
  constructor
  · rintro (⟨hop, hread⟩ | ⟨hop, hread⟩ | ⟨hop, hread, hne⟩) <;> rw [htoken] at hop <;>
      rw [hrow] at hread
    · exact .alreadyExists hop hread
    · exact .notFound hop hread
    · exact .preconditionFailed hop hread hne
  · rintro (⟨hop, hread⟩ | ⟨hop, hread⟩ | ⟨hop, hread, hne⟩) <;> rw [← htoken] at hop <;>
      rw [← hrow] at hread
    · exact .alreadyExists hop hread
    · exact .notFound hop hread
    · exact .preconditionFailed hop hread hne

theorem FailsFor.not_isMet {reason : Rejection} (h : op.FailsFor s table reason) :
    ¬ op.IsMet s table := by
  rw [← isMet_toBatchOp]
  exact (failsFor_toBatchOp.2 h).not_isMet

variable (hs : s.Sound) (hfound : s.access table = .ok ())

include hs hfound

theorem isMet_of_rejection?
    (h : op.toBatchOp.rejection? (s.row? ⟨table, op.key.partition, op.row⟩) = none) :
    op.IsMet s table := by
  rw [← op.row_toBatchOp] at h
  exact isMet_toBatchOp.1 (BatchOp.isMet_of_rejection? hs hfound h)

theorem failsFor_of_rejection? {reason : Rejection}
    (h : op.toBatchOp.rejection? (s.row? ⟨table, op.key.partition, op.row⟩) = some reason) :
    op.FailsFor s table reason := by
  rw [← op.row_toBatchOp] at h
  exact failsFor_toBatchOp.1 (BatchOp.failsFor_of_rejection? hs hfound h)

end Reading

end Operation

namespace Accumulator

/-- One row is told for each operation, in order: without a token if the operation deletes it, and
else with the one that it has in the store. -/
structure Reports (table : String) (ops : List Operation) (s : AnyStore)
    (committed : List CommittedRow) : Prop where
  rows : committed.map CommittedRow.row = ops.map Operation.row
  deleted : ∀ (i : Nat) op c, ops[i]? = some op → committed[i]? = some c →
    (c.token = none ↔ op.kind = .delete)
  stamped : ∀ (i : Nat) op c t, ops[i]? = some op → committed[i]? = some c → c.token = some t →
    ∃ e, TableStore.read s table op.key.partition op.row = .ok (some e) ∧ e.token = t

theorem reports_committedRows {s s' : AnyStore} {table partition : String} {ops : List Operation}
    {tokens : List (Option Token)}
    (h : s.TakesEffect table partition (ops.map Operation.toBatchOp) tokens s')
    (hkeys : ∀ op ∈ ops, op.key.partition = partition) :
    Reports table ops s' (committedRows ops tokens) := by
  have hlength : ops.length = tokens.length := by
    rw [h.length_eq, List.length_map]
  have hrow : ∀ (i : Nat) op c, ops[i]? = some op → (committedRows ops tokens)[i]? = some c →
      (ops.map Operation.toBatchOp)[i]? = some op.toBatchOp ∧ tokens[i]? = some c.token := by
    intro i op c hop hc
    rw [committedRows, List.getElem?_zipWith, hop] at hc
    constructor
    · rw [List.getElem?_map, hop]
      rfl
    · cases htoken : tokens[i]? with
      | none => simp [htoken] at hc
      | some token =>
        rw [htoken] at hc
        obtain rfl := Option.some.inj hc
        rfl
  constructor
  case rows =>
    have hzip : committedRows ops tokens =
        (ops.zip tokens).map fun p => ⟨p.1.row, p.2⟩ := by
      rw [committedRows, ← List.map_uncurry_zip_eq_zipWith]
      rfl
    have hfst : (ops.zip tokens).map Prod.fst = ops := List.map_fst_zip (Nat.le_of_eq hlength)
    calc (committedRows ops tokens).map CommittedRow.row
      _ = ((ops.zip tokens).map Prod.fst).map Operation.row := by
        rw [hzip, List.map_map, List.map_map]
        rfl
      _ = ops.map Operation.row := by rw [hfst]
  case deleted =>
    intro i op c hop hc
    obtain ⟨hbatchOp, htoken⟩ := hrow i op c hop hc
    have hnone := h.eq_none_iff i _ hbatchOp
    rw [htoken, Option.some.injEq] at hnone
    exact hnone.trans op.isDelete_toBatchOp
  case stamped =>
    intro i op c t hop hc ht
    obtain ⟨hbatchOp, htoken⟩ := hrow i op c hop hc
    rw [ht] at htoken
    have hread := h.read_of_token hbatchOp htoken
    rw [op.row_toBatchOp, ← hkeys op (List.mem_of_getElem? hop)] at hread
    exact hread

/-- All that committing some operations can come to, and the store after it. -/
inductive Verdict (table : String) (s : AnyStore) :
    List Operation → Except SessionError (List CommittedRow) → AnyStore → Prop
  | carriedOut {ops : List Operation} {committed : List CommittedRow} {s' : AnyStore}
      (hmet : ∀ op ∈ ops, op.IsMet s table) (hreports : Reports table ops s' committed) :
      Verdict table s ops (.ok committed) s'
  | conflict {before later : List Operation} {op : Operation} {reason : Rejection} {s' : AnyStore}
      (hbefore : ∀ b ∈ before, b.IsMet s table) (hfails : op.FailsFor s table reason) :
      Verdict table s (before ++ op :: later)
        (.error (.optimisticConflict op.row before.length reason)) s'

theorem verdict_commit {a : Accumulator} {s : AnyStore} (ha : a.Sound) (hs : s.Sound)
    (hlimits : a.limits.Within (TableStore.limits s)) (hpending : a.ops ≠ [])
    (hfound : s.access a.partition.table = .ok ())
    (hfits : s.Fits a.partition.table a.partition.key (a.ops.map Operation.toBatchOp)) :
    Verdict a.partition.table s a.ops (a.commit s none).1 (a.commit s none).2.2 := by
  have hkeys : ∀ op ∈ a.ops, op.key.partition = a.partition.key := fun op hop =>
    (ha.keys op hop).1
  have hisMet : ∀ op ∈ a.ops, op.toBatchOp.rejection?
      (s.row? ⟨a.partition.table, a.partition.key, op.toBatchOp.row⟩) = none →
        op.IsMet s a.partition.table := by
    intro op hop happlies
    rw [op.row_toBatchOp, ← hkeys op hop] at happlies
    exact Operation.isMet_of_rejection? hs hfound happlies
  have hdecided := AnyStore.decided_submit (accept_of_sound ha hlimits) hfound hs
  have hempty : ¬ a.isEmpty = true := by simpa [isEmpty] using hpending
  rw [commit, if_neg hempty]
  dsimp only
  generalize hsubmit : TableStore.submit s a.partition.table a.partition.key
    (a.ops.map Operation.toBatchOp) none = submitted at hdecided ⊢
  obtain ⟨answer, s'⟩ := submitted
  generalize hops : a.ops.map Operation.toBatchOp = ops at hdecided
  cases hdecided with
  | applied happlies tokens =>
    subst hops
    have happlied : s.hasApplied (.ok tokens) = true := by cases s <;> rfl
    obtain ⟨_, heffect, htokens⟩ := AnyStore.exists_takesEffect hs hfits hsubmit happlied
    obtain rfl := htokens tokens rfl
    have hlength : tokens.length = a.ops.length := by rw [heffect.length_eq, List.length_map]
    simp only [if_pos hlength]
    refine .carriedOut (fun op hop => ?_) (reports_committedRows heffect hkeys)
    exact hisMet op hop (happlies _ (List.mem_map_of_mem hop))
  | rejected hbefore hop =>
    -- the batch has one operation for each pending one, so positions in both are the same
    obtain ⟨before, rest, hsplit, rfl, hrest⟩ := List.map_eq_append_iff.1 hops
    obtain ⟨op, later, rfl, rfl, rfl⟩ := List.map_eq_cons_iff.1 hrest
    rw [List.length_map, op.row_toBatchOp]
    rw [hsplit] at hkeys hisMet ⊢
    refine .conflict (fun b hb => ?_) ?_
    · exact hisMet b (List.mem_append_left _ hb) (hbefore _ (List.mem_map_of_mem hb))
    · rw [op.row_toBatchOp, ← hkeys op (by simp)] at hop
      exact Operation.failsFor_of_rejection? hs hfound hop

end Accumulator

namespace World

/--
An open session completes its unit of work exactly if, at that moment, every row is as the pending
operations expect it; it is told the rows with the tokens that they now have. Otherwise it is told
the first operation whose row is not so, and why. No other answer comes: what could be enlisted is
never too large or malformed for the store.
-/
theorem complete_decided_by_conditions (w : World AnyStore) (hw : w.Reached) (name : String)
    (s : Session) (id : BatchId) (b : SharedBatch) (hs : w.session? name = some s)
    (hstate : s.state = .open) (hbatch : s.batch = some id) (hb : w.manager.batch? id = some b)
    (hcompleted : b.completed = false) (hpoisoned : b.poisoned = false)
    (hpending : b.pending.ops ≠ []) (htimeout : w.manager.config.commitTimeout = none)
    (htable : TableStore.tableExists w.manager.store b.partition.table = true ∨
      w.manager.store.createsTables = true)
    (now : Instant) (hfits : w.FitsStep (.complete name now)) (answer : Answer)
    (w' : World AnyStore) (h : w.step (.complete name now) = (answer, w')) :
    ((∃ committed, answer = .rows committed) ↔
        ∀ op ∈ b.pending.ops, op.IsMet w.manager.store b.partition.table) ∧
      (∀ committed, answer = .rows committed →
        Accumulator.Reports b.partition.table b.pending.ops w'.manager.store committed) ∧
      ((¬ ∀ op ∈ b.pending.ops, op.IsMet w.manager.store b.partition.table) →
        ∃ before op later reason, b.pending.ops = before ++ op :: later ∧
          (∀ o ∈ before, o.IsMet w.manager.store b.partition.table) ∧
          op.FailsFor w.manager.store b.partition.table reason ∧
          answer = .refused (.optimisticConflict op.row before.length reason)) ∧
      ((∃ committed, answer = .rows committed) ∨
        ∃ row index reason, answer = .refused (.optimisticConflict row index reason)) := by
  have hprepared := hw.prepared
  have hready := hprepared.ready hb
  have hopen := Session.ensureOpen_eq_ok_iff.2 ⟨hstate, hbatch, hb, hcompleted⟩
  have hcommit := b.commit_of_lock w.manager.store w.manager.config.commitTimeout hpoisoned
  have hverdict : Accumulator.Verdict b.partition.table w.manager.store b.pending.ops
      (b.pending.commit w.manager.store none).1 (b.pending.commit w.manager.store none).2.2 :=
    Accumulator.verdict_commit hready.1 hprepared.sound hready.2 hpending
      (AnyStore.access_eq_ok htable) (hfits b ((submitting?_complete hs hbatch now).trans hb))
  have htold := SessionConfig.tellsDeadline_of_none htimeout now
  rw [step_complete hs hopen hcommit htold, htimeout, Prod.mk.injEq] at h
  obtain ⟨rfl, rfl⟩ := h
  have hstore : ∀ (s' : Session) (m : Manager AnyStore) b',
      (w.setSession name s' (m.close s.work id b')).manager.store = m.store :=
    fun _ m b' => m.store_close s.work id b'
  rw [hstore]
  generalize (b.pending.commit w.manager.store none).1 = result at hverdict ⊢
  generalize (b.pending.commit w.manager.store none).2.2 = store at hverdict ⊢
  generalize b.pending.ops = ops at hverdict ⊢
  cases hverdict with
  | carriedOut hmet hreports =>
    refine ⟨⟨fun _ => hmet, fun _ => ⟨_, rfl⟩⟩, ?_, fun hnot => absurd hmet hnot, .inl ⟨_, rfl⟩⟩
    rintro committed ⟨⟩
    exact hreports
  | conflict hbefore hfails =>
    refine ⟨⟨nofun, fun hmet => ?_⟩, nofun, fun _ => ⟨_, _, _, _, rfl, hbefore, hfails, rfl⟩,
      .inr ⟨_, _, _, rfl⟩⟩
    exact absurd (hmet _ (by simp)) hfails.not_isMet

private def cargo : Partition := ⟨"Cargo", "c", by decide, by decide⟩

private def insertOf (row : String) : Operation := Operation.insert ⟨"c", row⟩ ∅

private def noCargo : AnyStore := .durable { config := {} }

/-- Two rows are pending, and then somebody else inserts the second. -/
private def lostRace : World AnyStore :=
  ((fresh noCargo {}).after
    [.createOpen "a" "w" cargo, .enlist "a" (insertOf "x"), .enlist "a" (insertOf "y")]).onStore
    (.submit "Cargo" "c" [.insert "y" ∅] none)

private def twoPending : SharedBatch :=
  (((SharedBatch.create cargo {}).join.register (insertOf "x")).2.register (insertOf "y")).2

theorem complete_decided_by_conditions_lost_race :
    lostRace.Reached ∧ lostRace.FitsStep (.complete "a" .start) ∧
      ∃ s, lostRace.session? "a" = some s ∧ s.state = .open ∧ s.batch = some 0 ∧
        lostRace.manager.batch? 0 = some twoPending ∧
        twoPending.pending.ops = [insertOf "x", insertOf "y"] ∧
        (lostRace.step (.complete "a" .start)).1 =
          .refused (.optimisticConflict "y" 1 .alreadyExists) ∧
        ¬ ∀ op ∈ twoPending.pending.ops, op.IsMet lostRace.manager.store "Cargo" := by
  have hempty : noCargo.IsEmpty := rfl
  have hfresh : (fresh noCargo {}).Reached := .fresh (.empty hempty) {}
  have hopened := hfresh.step (.createOpen "a" "w" cargo) (by decide +kernel)
  have hfirst := hopened.step (.enlist "a" (insertOf "x")) (by decide +kernel)
  have hsecond := hfirst.step (.enlist "a" (insertOf "y")) (by decide +kernel)
  have hreached : lostRace.Reached :=
    hsecond.call (.submit "Cargo" "c" [.insert "y" ∅] none) (by decide +kernel)
  have hfits : lostRace.FitsStep (.complete "a" .start) := by decide +kernel
  have hs : lostRace.session? "a" =
      some { work := "w", partition := cargo, state := .open, batch := some 0 } := by
    decide +kernel
  have hb : lostRace.manager.batch? 0 = some twoPending := by decide +kernel
  have hops : twoPending.pending.ops = [insertOf "x", insertOf "y"] := by decide +kernel
  have hanswer : (lostRace.step (.complete "a" .start)).1 =
      .refused (.optimisticConflict "y" 1 .alreadyExists) := by decide +kernel
  have hverdict := complete_decided_by_conditions lostRace hreached "a" _ 0 twoPending hs rfl rfl hb
    (by decide +kernel) (by decide +kernel) (by simp [hops]) (by decide +kernel)
    (by decide +kernel) .start hfits _ _ (Prod.ext hanswer rfl)
  refine ⟨hreached, hfits, _, hs, rfl, rfl, hb, hops, hanswer, fun hmet => ?_⟩
  obtain ⟨committed, hcommitted⟩ := hverdict.1.2 hmet
  cases hcommitted

end World

end UnitOfWork
