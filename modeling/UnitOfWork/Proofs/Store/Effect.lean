import UnitOfWork.Proofs.Store.Places
import UnitOfWork.Proofs.Store.Refusal

/-! A batch that takes effect does what its operations say, and nothing else. -/

namespace UnitOfWork

namespace MemoryStore

variable {s : MemoryStore} {table : String} {rows : TableRows}

theorem size_of_rowsOf (h : s.rowsOf table = .ok rows) :
    (s.tables.get? table).elim 0 SortedMap.size = rows.size := by
  rw [eq_of_rowsOf h]
  cases s.tables.get? table <;> rfl

theorem rowCount_insert (h : s.rowsOf table = .ok rows) (rows' : TableRows) (version : UInt64) :
    ({ s with tables := s.tables.insert table rows', version } : MemoryStore).rowCount +
      rows.size = s.rowCount + rows'.size := by
  rw [rowCount_eq, rowCount_eq, ← size_of_rowsOf h]
  exact SortedMap.total_insert _ s.tables table rows'

end MemoryStore

namespace AnyStore

/-- A batch has been carried out, and its writes are all that has changed. -/
structure Applied (s : AnyStore) (table partition : String) (ops : List BatchOp)
    (writes : Batch.Writes) (s' : AnyStore) : Prop where
  stages : ∃ version,
    Batch.Stages (fun row => .ok (s.row? ⟨table, partition, row⟩)) version ops writes
  nodup : (ops.map BatchOp.row).Nodup
  found : s.access table = .ok ()
  access : ∀ other, s'.access other = s.access other
  rows : ∀ id, s'.row? id =
    if id.table = table ∧ id.partition = partition then (writes.lookup id.row).getD (s.row? id)
    else s.row? id
  count : s'.rowCount + ops.countP BatchOp.isDelete = s.rowCount + ops.countP BatchOp.isInsert

section Applied

variable {table partition : String} {ops : List BatchOp} {writes : Batch.Writes} {version : UInt64}

theorem applied_memory {s : MemoryStore} {rows : TableRows}
    (haccept : Batch.accept s.config.limits table partition ops = .ok ())
    (hrows : s.rowsOf table = .ok rows)
    (hstages : Batch.Stages (s.rowIn table partition) s.version ops writes) :
    Applied (.memory s) table partition ops writes
      (.memory { s with
        tables := s.tables.insert table (rows.write partition writes)
        version }) := by
  obtain ⟨_, _, hnodup, _⟩ := Batch.check_eq_ok_iff.1 (Batch.accept_eq_ok_iff.1 haccept).2
  obtain ⟨_, hwrites⟩ := hstages.valid_of_accept haccept
  constructor
  case stages => exact ⟨s.version, hstages⟩
  case nodup => exact hnodup
  case found => exact access_memory_eq_ok_iff.2 ⟨_, hrows⟩
  case access =>
    intro other
    show (MemoryStore.rowsOf _ other).map _ = (s.rowsOf other).map _
    by_cases hother : other = table
    · rw [hother, hrows]
      unfold MemoryStore.rowsOf
      rw [SortedMap.get?_insert_self]
      rfl
    · unfold MemoryStore.rowsOf
      rw [SortedMap.get?_insert, if_neg hother]
  case rows => exact MemoryStore.row?_write hrows hwrites version
  case count =>
    have hkey : Function.Injective fun row => EntityKey.mk partition row := fun a b he => by
      simpa using he
    have hsize : (rows.write partition writes).size + ops.countP BatchOp.isDelete =
        rows.size + ops.countP BatchOp.isInsert := by
      refine hstages.size_install hkey hnodup rows fun op _ existing hlook => ?_
      rw [MemoryStore.get?_of_rowsOf hrows]
      rw [MemoryStore.rowIn, Except.ok.injEq] at hlook
      rw [hlook]
    have hcount := MemoryStore.rowCount_insert hrows (rows.write partition writes) version
    show MemoryStore.rowCount _ + _ = s.rowCount + _
    omega

theorem applied_durable {s : DurableStore} {readable : Bool} (h : s.database.WellFormed)
    (hfits : s.Fits table partition ops)
    (haccept : Batch.accept s.config.limits table partition ops = .ok ())
    (hreadable : s.isReadable table = .ok readable)
    (hstages : Batch.Stages (s.database.rowIn table partition) s.database.version ops writes) :
    Applied (.durable s) table partition ops writes
      (.durable { s with database := s.database.commit table partition writes version }) := by
  obtain ⟨htable, hcheck⟩ := Batch.accept_eq_ok_iff.1 haccept
  obtain ⟨hpartition, _, hnodup, _⟩ := Batch.check_eq_ok_iff.1 hcheck
  obtain ⟨hrows, hwrites⟩ := hstages.valid_of_accept haccept
  have hlook : s.database.rowIn table partition =
      fun row => .ok (s.database.row? ⟨table, partition, row⟩) :=
    funext (h.rowIn table partition)
  constructor
  case stages => exact ⟨s.database.version, hlook ▸ hstages⟩
  case nodup => exact hnodup
  case found => exact access_durable_eq_ok_iff.2 ⟨_, hreadable⟩
  case access =>
    intro other
    have hregistered : (s.database.commit table partition writes version).isRegistered other =
        (decide (other = table) || s.database.isRegistered other) :=
      s.database.isRegistered_register table other
    show (DurableStore.isReadable _ other).map _ = (s.isReadable other).map _
    by_cases hother : other = table
    · rw [hother] at hregistered ⊢
      rw [hreadable, DurableStore.isReadable, if_pos (by simp [hregistered])]
      rfl
    · unfold DurableStore.isReadable
      rw [hregistered, decide_eq_false hother, Bool.false_or]
  case rows =>
    exact Database.row?_commit htable hpartition hrows hwrites
      (fun _ _ => hfits.written h hstages hnodup) version
  case count =>
    show (Batch.install (PhysicalKey.encode table partition) Row.encode
      (s.database.register table).rows writes).size + _ = s.database.rows.size + _
    rw [Database.rows_register]
    apply hstages.size_install (PhysicalKey.encode_row_injective table partition) hnodup
    intro op _ existing hexisting
    change (s.database.stored? ⟨table, partition, op.row⟩).elim _ _ = _
    rcases s.database.rowIn_eq_ok_iff.1 hexisting with ⟨hnone, rfl⟩ | ⟨bytes, r, hsome, _, rfl⟩
    · rw [hnone]
      rfl
    · rw [hsome]
      rfl

end Applied

/-- What a batch has done, as readers see it. -/
structure TakesEffect (s : AnyStore) (table partition : String) (ops : List BatchOp)
    (tokens : List (Option Token)) (s' : AnyStore) : Prop where
  length_eq : tokens.length = ops.length
  eq_none_iff : ∀ (i : Nat) (op : BatchOp), ops[i]? = some op →
    (tokens[i]? = some none ↔ op.isDelete = true)
  deleted : ∀ row t, BatchOp.delete row t ∈ ops → TableStore.read s' table partition row = .ok none
  inserted : ∀ (i : Nat) row p, ops[i]? = some (BatchOp.insert row p) → ∃ token,
    tokens[i]? = some (some token) ∧
      TableStore.read s' table partition row = .ok (some ⟨⟨partition, row⟩, token, p⟩)
  replaced : ∀ (i : Nat) row p t, ops[i]? = some (BatchOp.replace row p t) → ∃ token,
    tokens[i]? = some (some token) ∧
      TableStore.read s' table partition row = .ok (some ⟨⟨partition, row⟩, token, p⟩)
  merged : ∀ (i : Nat) row p t, ops[i]? = some (BatchOp.merge row p t) → ∃ token before q,
    tokens[i]? = some (some token) ∧
      TableStore.read s table partition row = .ok (some before) ∧
      TableStore.read s' table partition row = .ok (some ⟨⟨partition, row⟩, token, q⟩) ∧
      ∀ name, SortedMap.get? q name = (SortedMap.get? p name).or (before.properties.get? name)
  others : ∀ t p row, ¬ (t = table ∧ p = partition ∧ row ∈ ops.map BatchOp.row) →
    TableStore.read s' t p row = TableStore.read s t p row
  count : s'.rowCount + ops.countP BatchOp.isDelete = s.rowCount + ops.countP BatchOp.isInsert

/-- The row of an operation carries the token that the batch tells. -/
theorem TakesEffect.read_of_token {s s' : AnyStore} {table partition : String}
    {ops : List BatchOp} {tokens : List (Option Token)}
    (h : s.TakesEffect table partition ops tokens s') {i : Nat} {op : BatchOp} {t : Token}
    (hop : ops[i]? = some op) (ht : tokens[i]? = some (some t)) :
    ∃ e, TableStore.read s' table partition op.row = .ok (some e) ∧ e.token = t := by
  cases op with
  | insert row p =>
    obtain ⟨token, htoken, hread⟩ := h.inserted i row p hop
    rw [ht, Option.some.injEq, Option.some.injEq] at htoken
    exact ⟨_, hread, htoken.symm⟩
  | replace row p held =>
    obtain ⟨token, htoken, hread⟩ := h.replaced i row p held hop
    rw [ht, Option.some.injEq, Option.some.injEq] at htoken
    exact ⟨_, hread, htoken.symm⟩
  | merge row p held =>
    obtain ⟨token, _, _, htoken, _, hread, _⟩ := h.merged i row p held hop
    rw [ht, Option.some.injEq, Option.some.injEq] at htoken
    exact ⟨_, hread, htoken.symm⟩
  | delete row held =>
    have hnone := (h.eq_none_iff i _ hop).2 rfl
    rw [ht, Option.some.injEq] at hnone
    cases hnone

namespace Applied

variable {s s' : AnyStore} {table partition : String} {ops : List BatchOp}
  {writes : Batch.Writes}

/-- The operation at a position applies to its row as it was before the batch, and leaves a row
with the token at that position. -/
theorem written (h : s.Applied table partition ops writes s') {i : Nat} {op : BatchOp}
    (hi : ops[i]? = some op) : ∃ version,
      op.rejection? (s.row? ⟨table, partition, op.row⟩) = none ∧
      (Batch.tokens writes)[i]? =
        some ((op.result (s.row? ⟨table, partition, op.row⟩) version).map Row.token) ∧
      s'.row? ⟨table, partition, op.row⟩ =
        op.result (s.row? ⟨table, partition, op.row⟩) version := by
  obtain ⟨first, hstages⟩ := h.stages
  obtain ⟨existing, hexisting, happlies, hwrite⟩ := hstages.getElem?_eq hi
  obtain rfl := Except.ok.inj hexisting
  have hnodup := h.nodup
  rw [← hstages.map_fst] at hnodup
  refine ⟨first + UInt64.ofNat (i + 1), happlies, ?_, ?_⟩
  · rw [Batch.tokens, List.getElem?_map, hwrite]
    rfl
  · rw [h.rows, if_pos ⟨rfl, rfl⟩, Batch.lookup_of_mem hnodup (List.mem_of_getElem? hwrite)]
    rfl

theorem row?_of_notMem (h : s.Applied table partition ops writes s') {id : RowId}
    (hid : ¬ (id.table = table ∧ id.partition = partition ∧ id.row ∈ ops.map BatchOp.row)) :
    s'.row? id = s.row? id := by
  obtain ⟨_, hstages⟩ := h.stages
  rw [h.rows]
  split
  · rename_i hplace
    rw [hstages.lookup_eq_none fun hrow => hid ⟨hplace.1, hplace.2, hrow⟩]
    rfl
  · rfl

theorem takesEffect (h : s.Applied table partition ops writes s') (hs : s.Sound)
    (hs' : s'.Sound) : s.TakesEffect table partition ops (Batch.tokens writes) s' := by
  have hread : ∀ row, TableStore.read s table partition row =
      .ok ((s.row? ⟨table, partition, row⟩).map (·.at ⟨partition, row⟩)) := by
    intro row
    rw [read_eq hs, h.found]
    rfl
  have hread' : ∀ row, TableStore.read s' table partition row =
      .ok ((s'.row? ⟨table, partition, row⟩).map (·.at ⟨partition, row⟩)) := by
    intro row
    rw [read_eq hs', h.access, h.found]
    rfl
  constructor
  case length_eq =>
    obtain ⟨_, hstages⟩ := h.stages
    have hlength := congrArg List.length hstages.map_fst
    rw [List.length_map, List.length_map] at hlength
    rw [Batch.tokens, List.length_map, hlength]
  case eq_none_iff =>
    intro i op hi
    obtain ⟨version, happlies, htoken, _⟩ := h.written hi
    rw [htoken, Option.some.injEq, Option.map_eq_none_iff]
    exact BatchOp.result_eq_none_iff happlies version
  case deleted =>
    intro row t hmem
    obtain ⟨i, hi⟩ := List.mem_iff_getElem?.1 hmem
    obtain ⟨version, _, _, hrow⟩ := h.written hi
    rw [hread', show s'.row? ⟨table, partition, row⟩ = none from hrow]
    rfl
  case inserted =>
    intro i row p hi
    obtain ⟨version, _, htoken, hrow⟩ := h.written hi
    refine ⟨Token.ofVersion version, htoken, ?_⟩
    rw [hread', show s'.row? ⟨table, partition, row⟩ = some ⟨_, p⟩ from hrow]
    rfl
  case replaced =>
    intro i row p t hi
    obtain ⟨version, _, htoken, hrow⟩ := h.written hi
    refine ⟨Token.ofVersion version, htoken, ?_⟩
    rw [hread', show s'.row? ⟨table, partition, row⟩ = some ⟨_, p⟩ from hrow]
    rfl
  case merged =>
    intro i row p t hi
    obtain ⟨version, happlies, htoken, hrow⟩ := h.written hi
    obtain ⟨before, hbefore, _⟩ := BatchOp.token_eq_of_rejection?_eq_none happlies rfl
    change s.row? ⟨table, partition, row⟩ = some before at hbefore
    change s'.row? ⟨table, partition, row⟩ = _ at hrow
    change _ = some (Option.map _ (BatchOp.result _ (s.row? ⟨table, partition, row⟩) _)) at htoken
    change _ = BatchOp.result _ (s.row? ⟨table, partition, row⟩) _ at hrow
    rw [hbefore] at hrow htoken
    refine ⟨Token.ofVersion version, before.at ⟨partition, row⟩, before.properties.override p,
      htoken, ?_, ?_, before.properties.get?_override p⟩
    · rw [hread, hbefore]
      rfl
    · rw [hread', hrow]
      rfl
  case others =>
    intro t p row hplace
    rw [read_eq hs', read_eq hs, h.access]
    have hrow : s'.row? ⟨t, p, row⟩ = s.row? ⟨t, p, row⟩ := h.row?_of_notMem hplace
    rw [hrow]
  case count => exact h.count

end Applied

section Submit

variable {table partition : String} {ops : List BatchOp} {timeLeft : Option Duration}
  {answer : Except StorageError (List (Option Token))}

theorem exists_applied_memory {s s' : MemoryStore}
    (h : s.Submitted table partition ops timeLeft answer s')
    (happlied : MemoryStore.hasApplied answer = true) :
    ∃ writes, Applied (.memory s) table partition ops writes (.memory s') ∧
      ∀ tokens, answer = .ok tokens → tokens = Batch.tokens writes := by
  cases h with
  | refused hrefused =>
    rw [MemoryStore.hasApplied, Batch.isAmbiguous_of_accept hrefused] at happlied
    cases happlied
  | missing _ hrows =>
    rw [MemoryStore.hasApplied, MemoryStore.isAmbiguous_of_rowsOf hrows] at happlied
    cases happlied
  | rejected _ _ hstage =>
    rw [MemoryStore.hasApplied, MemoryStore.isAmbiguous_of_stage hstage] at happlied
    cases happlied
  | applied haccept hrows hstages =>
    refine ⟨_, applied_memory haccept hrows hstages, fun tokens htokens => ?_⟩
    split at htokens
    · cases htokens
    · cases htokens
      rfl

theorem exists_applied_durable {s s' : DurableStore} (hs : s.database.WellFormed)
    (hfits : s.Fits table partition ops)
    (h : s.Submitted table partition ops timeLeft answer s')
    (happlied : DurableStore.hasApplied answer = true) :
    ∃ writes, Applied (.durable s) table partition ops writes (.durable s') ∧
      ∀ tokens, answer = .ok tokens → tokens = Batch.tokens writes := by
  cases h with
  | refused | missing | rejected | expired => cases happlied
  | applied haccept hreadable hstages =>
    refine ⟨_, applied_durable hs hfits haccept hreadable hstages, fun tokens htokens => ?_⟩
    cases htokens
    rfl

/-- Whether a batch that is answered so has been applied. -/
def hasApplied : AnyStore → Except StorageError (List (Option Token)) → Bool
  | .memory _ => MemoryStore.hasApplied
  | .durable _ => DurableStore.hasApplied

theorem hasApplied_ok (s : AnyStore) (tokens : List (Option Token)) :
    s.hasApplied (.ok tokens) = true := by
  cases s <;> rfl

theorem exists_applied {s s' : AnyStore} (hs : s.Sound) (hfits : s.Fits table partition ops)
    (h : TableStore.submit s table partition ops timeLeft = (answer, s'))
    (happlied : s.hasApplied answer = true) :
    ∃ writes, s.Applied table partition ops writes s' ∧
      ∀ tokens, answer = .ok tokens → tokens = Batch.tokens writes := by
  cases s with
  | memory s =>
    obtain rfl : (s.submit table partition ops timeLeft).1 = answer := congrArg Prod.fst h
    obtain rfl : .memory (s.submit table partition ops timeLeft).2 = s' := congrArg Prod.snd h
    exact exists_applied_memory (s.submitted table partition ops timeLeft) happlied
  | durable s =>
    obtain rfl : (s.submit table partition ops timeLeft).1 = answer := congrArg Prod.fst h
    obtain rfl : .durable (s.submit table partition ops timeLeft).2 = s' := congrArg Prod.snd h
    exact exists_applied_durable hs hfits (s.submitted table partition ops timeLeft) happlied

theorem exists_takesEffect {s s' : AnyStore} (hs : s.Sound) (hfits : s.Fits table partition ops)
    (h : TableStore.submit s table partition ops timeLeft = (answer, s'))
    (happlied : s.hasApplied answer = true) :
    ∃ tokens, s.TakesEffect table partition ops tokens s' ∧
      ∀ stamped, answer = .ok stamped → stamped = tokens := by
  have hs' : s'.Sound := by
    rw [show s' = _ from (congrArg Prod.snd h).symm]
    exact sound_submit hs hfits timeLeft
  obtain ⟨writes, happlied, htokens⟩ := exists_applied hs hfits h happlied
  exact ⟨_, happlied.takesEffect hs hs', htokens⟩

end Submit

/--
A batch that is answered with tokens has taken effect: each operation has done to its row what it
says, and nothing else has changed. So has a batch in memory that missed its deadline, while the
durable store has rolled such a batch back.
-/
theorem submit_takes_effect (s : AnyStore) (hs : s.Reachable) (table partition : String)
    (ops : List BatchOp) (hfits : s.Fits table partition ops) (timeLeft : Option Duration)
    (answer : Except StorageError (List (Option Token))) (s' : AnyStore)
    (h : TableStore.submit s table partition ops timeLeft = (answer, s')) :
    (∀ tokens, answer = .ok tokens → s.TakesEffect table partition ops tokens s') ∧
      ∀ elapsed, answer = .error (.timeout elapsed) →
        (∀ m, s = .memory m → ∃ tokens, s.TakesEffect table partition ops tokens s') ∧
          ∀ d, s = .durable d → s' = s := by
  constructor
  · rintro tokens rfl
    have happlied : s.hasApplied (.ok tokens) = true := by cases s <;> rfl
    obtain ⟨stamped, heffect, htokens⟩ := exists_takesEffect hs.sound hfits h happlied
    rw [htokens tokens rfl]
    exact heffect
  · rintro elapsed rfl
    constructor
    · rintro m rfl
      obtain ⟨tokens, heffect, _⟩ := exists_takesEffect hs.sound hfits h rfl
      exact ⟨tokens, heffect⟩
    · rintro d rfl
      have herror : (d.submit table partition ops timeLeft).1 = .error (.timeout elapsed) :=
        congrArg Prod.fst h
      have hs' : .durable (d.submit table partition ops timeLeft).2 = s' := congrArg Prod.snd h
      rw [← hs', DurableStore.submit_of_error herror]

private def threeRows : StoreCall :=
  .submit "Orders" "p" [.insert "a" (SortedMap.empty.insert "x" (.bool true)), .insert "b" ∅,
    .insert "c" ∅] none

private def noRows : AnyStore := .durable { config := {} }

private def withThreeRows : AnyStore := (threeRows.run noRows).2

/-- One operation of each kind, each on a row of its own. -/
private def allKinds : List BatchOp :=
  [.insert "d" ∅, .merge "a" (SortedMap.empty.insert "y" (.bool false)) (Token.ofVersion 1),
    .replace "b" ∅ (Token.ofVersion 2), .delete "c" (Token.ofVersion 3)]

theorem submit_takes_effect_all_kinds :
    withThreeRows.Reachable ∧ withThreeRows.Fits "Orders" "p" allKinds ∧
      ∃ s', TableStore.submit withThreeRows "Orders" "p" allKinds none =
          (.ok [some (Token.ofVersion 4), some (Token.ofVersion 5), some (Token.ofVersion 6), none],
            s') ∧
        withThreeRows.TakesEffect "Orders" "p" allKinds
          [some (Token.ofVersion 4), some (Token.ofVersion 5), some (Token.ofVersion 6), none]
          s' := by
  have hempty : noRows.IsEmpty := rfl
  have hreachable : withThreeRows.Reachable := .call (.empty hempty) threeRows (by decide +kernel)
  have hfits : withThreeRows.Fits "Orders" "p" allKinds := by decide +kernel
  have hanswer : (TableStore.submit withThreeRows "Orders" "p" allKinds none).1 =
      .ok [some (Token.ofVersion 4), some (Token.ofVersion 5), some (Token.ofVersion 6), none] := by
    decide +kernel
  have hsubmit := Prod.ext hanswer (Eq.refl (TableStore.submit withThreeRows "Orders" "p" allKinds
    none).2)
  exact ⟨hreachable, hfits, _, hsubmit,
    (submit_takes_effect _ hreachable _ _ _ hfits _ _ _ hsubmit).1 _ rfl⟩

end AnyStore

end UnitOfWork
