import UnitOfWork.Proofs.Store.Effect
import UnitOfWork.Proofs.Store.Settlement

/-!
What calls to a store come to, told from its rows alone and the same for both kinds of store: what a
partition lists, what a batch without a deadline is answered, how many versions it draws and what it
leaves as it is.
-/

namespace UnitOfWork

namespace AnyStore

def isDurable : AnyStore → Bool
  | .memory _ => false
  | .durable _ => true

variable {s s' : AnyStore} {table partition : String} {ops ops' : List BatchOp}

theorem fits_iff : s.Fits table partition ops ↔ (s.isDurable = true →
    ∀ op ∈ ops, ∀ p ∈ op.leaves (s.row? ⟨table, partition, op.row⟩), p.Fits) := by
  cases s with
  | memory s => exact iff_of_true trivial nofun
  | durable s => exact ⟨fun h _ => h, fun h => h rfl⟩

theorem isDurable_submit (s : AnyStore) (table partition : String) (ops : List BatchOp)
    (timeLeft : Option Duration) :
    (TableStore.submit s table partition ops timeLeft).2.isDurable = s.isDurable := by
  cases s <;> rfl

theorem token?_eq (h : s.Sound) (id : RowId) :
    s.ledger.token? id = (s.row? id).map Row.token := by
  cases s with
  | memory s => rfl
  | durable s =>
    show (s.database.stored? id).bind Row.storedToken? = (s.database.row? id).map Row.token
    have hrow := Database.WellFormed.rowIn h id.table id.partition id.row
    rcases s.database.rowIn_eq_ok_iff.1 hrow with ⟨hnone, hrow⟩ | ⟨bytes, r, hstored, hr, hrow⟩
    · rw [hnone, hrow]
      rfl
    · rw [hstored, hrow]
      exact Row.storedToken?_of_decode? hr

/-- A query lists the rows of a partition if the table can be looked at. -/
theorem exists_lists (h : s.Sound) (hfound : s.access table = .ok ()) (partition : String) :
    ∃ es, TableStore.query s table partition = .ok es ∧ Lists s.row? table partition es := by
  cases s with
  | memory s =>
    obtain ⟨rows, hrows⟩ := access_memory_eq_ok_iff.1 hfound
    exact MemoryStore.query_of_rowsOf hrows partition
  | durable s =>
    obtain ⟨readable, hreadable⟩ := access_durable_eq_ok_iff.1 hfound
    exact DurableStore.query_of_isReadable h hreadable partition

theorem query_of_access_error {e : StorageError} (h : s.access table = .error e)
    (partition : String) : TableStore.query s table partition = .error e := by
  cases s with
  | memory s =>
    show (s.rowsOf table).map _ = _
    change (s.rowsOf table).map _ = _ at h
    cases hrows : s.rowsOf table with
    | error f => simpa [hrows, Except.map] using h
    | ok rows => simp [hrows, Except.map] at h
  | durable s =>
    show s.query table partition = _
    change (s.isReadable table).map _ = _ at h
    unfold DurableStore.query
    cases hreadable : s.isReadable table with
    | error f => simpa [hreadable, Except.map] using h
    | ok readable => simp [hreadable, Except.map] at h

/-- What a batch without a deadline comes to: refused, or staged against the rows as they stand. -/
def staged (s : AnyStore) (table partition : String) (ops : List BatchOp) :
    Except StorageError Batch.Writes :=
  match Batch.accept (TableStore.limits s) table partition ops, s.access table with
  | .error e, _ | .ok (), .error e => .error e
  | .ok (), .ok () => (Batch.stage (s.rowIn table partition) 0 s.ledger.version ops).1

theorem submit_fst_eq_staged (h : s.Sound) (table partition : String) (ops : List BatchOp) :
    (TableStore.submit s table partition ops none).1 =
      (s.staged table partition ops).map Batch.tokens := by
  have hcases := settled h table partition ops none
  generalize TableStore.submit s table partition ops none = submitted at hcases ⊢
  obtain ⟨answer, s'⟩ := submitted
  unfold staged
  cases hcases with
  | refused hrefused =>
    rw [hrefused]
    rfl
  | missing haccept haccess =>
    rw [haccept, haccess]
    rfl
  | rejected haccept hfound hstage =>
    rw [haccept, hfound, hstage]
    rfl
  | late _ _ _ hlate => cases hlate
  | applied haccept hfound hstages =>
    rw [haccept, hfound, Batch.stage_fst_eq_ok_iff.2 hstages]
    rfl

/-- Who can read all rows as before finds the same tables as before. -/
theorem Keeps.access_eq (h : s.Keeps s') (hs : s.Sound) (hs' : s'.Sound) (table : String) :
    s'.access table = s.access table := by
  have hread := h.read table "" ""
  rw [read_eq hs', read_eq hs] at hread
  cases hfound : s.access table <;> cases hfound' : s'.access table <;>
    simp_all [Except.map]

theorem exists_applied_of_ok (hs : s.Sound) (hfits : s.Fits table partition ops)
    {tokens : List (Option Token)}
    (hok : (TableStore.submit s table partition ops none).1 = .ok tokens) :
    ∃ writes,
      s.Applied table partition ops writes (TableStore.submit s table partition ops none).2 ∧
        tokens = Batch.tokens writes := by
  obtain ⟨writes, hwrites, htokens⟩ :=
    exists_applied hs hfits (Prod.ext hok rfl) (s.hasApplied_ok tokens)
  exact ⟨writes, hwrites, htokens tokens rfl⟩

theorem effects_of_applied {timeLeft : Option Duration}
    (happlied : s.hasApplied (TableStore.submit s table partition ops timeLeft).1 = true) :
    s.effects (.submit table partition ops timeLeft) =
      Ledger.effectsOf table partition ops := by
  cases s with
  | memory s => exact if_pos happlied
  | durable s => exact if_pos happlied

theorem effects_of_ok {timeLeft : Option Duration} {tokens : List (Option Token)}
    (hok : (TableStore.submit s table partition ops timeLeft).1 = .ok tokens) :
    s.effects (.submit table partition ops timeLeft) =
      Ledger.effectsOf table partition ops := by
  apply effects_of_applied
  rw [hok]
  exact s.hasApplied_ok tokens

namespace Applied

variable {writes : Batch.Writes}

/-- Each operation leaves its row with what it says, given the row as it was before the batch. -/
theorem properties_eq (h : s.Applied table partition ops writes s') {op : BatchOp}
    (hop : op ∈ ops) :
    (s'.row? ⟨table, partition, op.row⟩).map Row.properties =
      op.leaves (s.row? ⟨table, partition, op.row⟩) := by
  obtain ⟨i, hi, rfl⟩ := List.getElem_of_mem hop
  obtain ⟨version, _, _, hleft⟩ := h.written (List.getElem?_eq_getElem hi)
  rw [hleft, BatchOp.properties_result]

/-- The tokens that a batch is answered with are those that its rows carry afterwards. -/
theorem tokens_eq (h : s.Applied table partition ops writes s') :
    Batch.tokens writes =
      ops.map fun op => (s'.row? ⟨table, partition, op.row⟩).map Row.token := by
  obtain ⟨_, hstages⟩ := h.stages
  have hnodup := h.nodup
  rw [← hstages.map_fst] at hnodup
  have hwritten : Batch.tokens writes =
      (writes.map (·.1)).map fun row => (s'.row? ⟨table, partition, row⟩).map Row.token := by
    rw [List.map_map]
    refine List.map_congr_left fun w hw => ?_
    rw [Function.comp_apply, h.rows, if_pos ⟨rfl, rfl⟩, Batch.lookup_of_mem hnodup hw]
    rfl
  rw [hwritten, hstages.map_fst, List.map_map]
  rfl

end Applied

/-- The count of versions that a batch draws, whatever kind the store is of. -/
theorem drawn_submit (h : s.Sound) (table partition : String) (ops : List BatchOp)
    (timeLeft : Option Duration) :
    s.drawn (.submit table partition ops timeLeft) =
      match Batch.accept (TableStore.limits s) table partition ops, s.access table with
      | .ok (), .ok () => Batch.draws (s.rowIn table partition) ops
      | _, _ => 0 := by
  cases s with
  | memory s =>
    show s.draws table partition ops = match Batch.accept s.config.limits table partition ops,
      (s.rowsOf table).map _ with
      | .ok (), .ok () => Batch.draws (s.rowIn table partition) ops
      | _, _ => 0
    rw [MemoryStore.draws]
    cases Batch.accept s.config.limits table partition ops <;> cases s.rowsOf table <;> rfl
  | durable s =>
    have hlook : s.database.rowIn table partition = (AnyStore.durable s).rowIn table partition :=
      funext (Database.WellFormed.rowIn h table partition)
    show s.draws table partition ops = match Batch.accept s.config.limits table partition ops,
      (s.isReadable table).map _ with
      | .ok (), .ok () => Batch.draws ((AnyStore.durable s).rowIn table partition) ops
      | _, _ => 0
    rw [DurableStore.draws, hlook]
    cases Batch.accept s.config.limits table partition ops <;> cases s.isReadable table <;> rfl

/-- Outside its partition a batch without a deadline changes nothing. -/
theorem frame_submit (hs : s.Sound) (hfits : s.Fits table partition ops) :
    (∀ other, (TableStore.submit s table partition ops none).2.access other = s.access other) ∧
      ∀ id : RowId, ¬ (id.table = table ∧ id.partition = partition) →
        (TableStore.submit s table partition ops none).2.row? id = s.row? id := by
  have hs' := sound_submit hs hfits none
  cases hanswer : (TableStore.submit s table partition ops none).1 with
  | error e =>
    have hkeeps := keeps_of_error hs hanswer
    exact ⟨hkeeps.access_eq hs hs', fun id _ => hkeeps.row id⟩
  | ok tokens =>
    obtain ⟨writes, happlied, _⟩ := exists_applied_of_ok hs hfits hanswer
    exact ⟨happlied.access, fun id hid => happlied.row?_of_notMem fun h => hid ⟨h.1, h.2.1⟩⟩

end AnyStore

end UnitOfWork
