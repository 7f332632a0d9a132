import UnitOfWork.Config.Store
import UnitOfWork.Proofs.Store.TokenHistory
import UnitOfWork.Proofs.Store.WellFormed

/-! The states that a store can come to, and how it reads its rows in them. -/

namespace UnitOfWork

namespace DurableStore

/-- The lengths in all rows that a batch would leave are those of an actual machine, whose words
have 64 bits: a stored row tells them in that many. -/
def Fits (s : DurableStore) (table partition : String) (ops : List BatchOp) : Prop :=
  ∀ op ∈ ops, ∀ p ∈ op.leaves (s.database.row? ⟨table, partition, op.row⟩), p.Fits

instance (s : DurableStore) (table partition : String) (ops : List BatchOp) :
    Decidable (s.Fits table partition ops) :=
  inferInstanceAs (Decidable (∀ op ∈ ops, ∀ p ∈ op.leaves _, _))

section Submit

variable {s : DurableStore} {table partition : String} {ops : List BatchOp}

theorem Fits.written (hfits : s.Fits table partition ops) (h : s.database.WellFormed)
    {version : UInt64} {writes : Batch.Writes}
    (hstages : Batch.Stages (s.database.rowIn table partition) version ops writes)
    (hnodup : (ops.map BatchOp.row).Nodup) {row : String} {r : Row}
    (hr : writes.lookup row = some (some r)) : r.Fits ∧ ∃ v, r.token = Token.ofVersion v := by
  have hmem : row ∈ ops.map BatchOp.row := by
    by_contra hnot
    rw [hstages.lookup_eq_none hnot] at hr
    cases hr
  obtain ⟨op, hop, rfl⟩ := List.mem_map.1 hmem
  obtain ⟨k, hk⟩ := List.mem_iff_getElem?.1 hop
  obtain ⟨existing, hexisting, _, hlookup⟩ := hstages.lookup_eq hnodup hk
  rw [h.rowIn, Except.ok.injEq] at hexisting
  subst hexisting
  rw [hr, Option.some.injEq] at hlookup
  obtain ⟨p, hp, rfl⟩ := Option.map_eq_some_iff.1 hlookup.symm
  refine ⟨⟨?_, hfits op hop p hp⟩, _, rfl⟩
  rw [Token.utf8ByteSize_ofVersion]
  decide

theorem wellFormed_submit (h : s.database.WellFormed) (hfits : s.Fits table partition ops)
    (timeLeft : Option Duration) :
    (s.submit table partition ops timeLeft).2.database.WellFormed := by
  have hcases := s.submitted table partition ops timeLeft
  generalize s.submit table partition ops timeLeft = submitted at hcases ⊢
  obtain ⟨answer, s'⟩ := submitted
  dsimp only at hcases ⊢
  cases hcases with
  | refused | missing | rejected | expired => exact h
  | applied haccept _ hstages =>
    obtain ⟨htable, hcheck⟩ := Batch.accept_eq_ok_iff.1 haccept
    obtain ⟨hpartition, _, hnodup, _⟩ := Batch.check_eq_ok_iff.1 hcheck
    obtain ⟨hrows, hwrites⟩ := hstages.valid_of_accept haccept
    exact h.commit htable hpartition hrows hwrites
      (fun _ _ => hfits.written h hstages hnodup) _

end Submit

end DurableStore

namespace AnyStore

/-- The row that stands at a place. -/
def row? : AnyStore → RowId → Option Row
  | .memory s => s.row?
  | .durable s => s.database.row?

/-- Whether the rows of a table can be looked at: it is there or would be created. -/
def access (s : AnyStore) (table : String) : Except StorageError Unit :=
  match s with
  | .memory s => (s.rowsOf table).map fun _ => ()
  | .durable s => (s.isReadable table).map fun _ => ()

theorem access_memory_eq_ok_iff {s : MemoryStore} {table : String} :
    (AnyStore.memory s).access table = .ok () ↔ ∃ rows, s.rowsOf table = .ok rows := by
  show (s.rowsOf table).map _ = _ ↔ _
  cases s.rowsOf table <;> simp [Except.map]

theorem access_durable_eq_ok_iff {s : DurableStore} {table : String} :
    (AnyStore.durable s).access table = .ok () ↔ ∃ readable, s.isReadable table = .ok readable := by
  show (s.isReadable table).map _ = _ ↔ _
  cases s.isReadable table <;> simp [Except.map]

/-- What the store keeps can be read back. -/
def Sound : AnyStore → Prop
  | .memory _ => True
  | .durable s => s.database.WellFormed

/-- A batch leaves rows that the store can keep. -/
def Fits : AnyStore → (table partition : String) → List BatchOp → Prop
  | .memory _, _, _, _ => True
  | .durable s, table, partition, ops => s.Fits table partition ops

instance : (s : AnyStore) → (table partition : String) → (ops : List BatchOp) →
    Decidable (s.Fits table partition ops)
  | .memory _, _, _, _ => inferInstanceAs (Decidable True)
  | .durable s, table, partition, ops =>
    inferInstanceAs (Decidable (s.Fits table partition ops))

/-- A submission leaves rows that the store can keep; other calls leave none. -/
def FitsCall (s : AnyStore) : StoreCall → Prop
  | .submit table partition ops _ => s.Fits table partition ops
  | .read .. | .query .. | .ensureTable .. => True

instance (s : AnyStore) : (c : StoreCall) → Decidable (s.FitsCall c)
  | .submit table partition ops _ => inferInstanceAs (Decidable (s.Fits table partition ops))
  | .read .. | .query .. | .ensureTable .. => inferInstanceAs (Decidable True)

/-- The states that calls lead to from an empty store. A durable store may be closed and opened
again with another configuration. -/
inductive Reachable : AnyStore → Prop
  | empty {s : AnyStore} (h : s.IsEmpty) : Reachable s
  | call {s : AnyStore} (h : Reachable s) (c : StoreCall) (hfits : s.FitsCall c) :
      Reachable (c.run s).2
  | reopen {s : DurableStore} (h : Reachable (.durable s)) (config : DurableConfig) :
      Reachable (.durable { s with config })

theorem sound_submit {s : AnyStore} (h : s.Sound) {table partition : String} {ops : List BatchOp}
    (hfits : s.Fits table partition ops) (timeLeft : Option Duration) :
    (TableStore.submit s table partition ops timeLeft).2.Sound := by
  cases s with
  | memory s => trivial
  | durable s => exact DurableStore.wellFormed_submit h hfits timeLeft

theorem sound_ensureTable {s : AnyStore} (h : s.Sound) (table : String) :
    (TableStore.ensureTable s table).2.Sound := by
  cases s with
  | memory s => trivial
  | durable s =>
    show (s.ensureTable table).2.database.WellFormed
    unfold DurableStore.ensureTable
    split
    · exact h
    · exact Database.WellFormed.register h table

theorem sound_run {s : AnyStore} (h : s.Sound) {c : StoreCall} (hfits : s.FitsCall c) :
    (c.run s).2.Sound := by
  cases c with
  | read | query => exact h
  | ensureTable table => exact sound_ensureTable h table
  | submit table partition ops timeLeft => exact sound_submit h hfits timeLeft

theorem Reachable.sound {s : AnyStore} (h : s.Reachable) : s.Sound := by
  induction h with
  | @empty s hempty =>
    cases s with
    | memory s => trivial
    | durable s =>
      obtain ⟨config, database⟩ := s
      obtain rfl : database = {} := hempty
      exact Database.wellFormed_empty
  | call _ c hfits ih => exact sound_run ih hfits
  | reopen _ config ih => exact ih

@[simp] theorem limits_submit (s : AnyStore) (table partition : String) (ops : List BatchOp)
    (timeLeft : Option Duration) :
    TableStore.limits (TableStore.submit s table partition ops timeLeft).2 =
      TableStore.limits s := by
  cases s with
  | memory s => exact congrArg MemoryConfig.limits (s.config_submit table partition ops timeLeft)
  | durable s =>
    exact congrArg DurableConfig.limits (s.config_submit table partition ops timeLeft)

@[simp] theorem limits_ensureTable (s : AnyStore) (table : String) :
    TableStore.limits (TableStore.ensureTable s table).2 = TableStore.limits s := by
  cases s with
  | memory s => exact congrArg MemoryConfig.limits (s.config_ensureTable table)
  | durable s => exact congrArg DurableConfig.limits (s.config_ensureTable table)

@[simp] theorem limits_run (s : AnyStore) (c : StoreCall) :
    TableStore.limits (c.run s).2 = TableStore.limits s := by
  cases c with
  | read | query => rfl
  | ensureTable table => exact limits_ensureTable s table
  | submit table partition ops timeLeft => exact limits_submit s table partition ops timeLeft

theorem read_eq {s : AnyStore} (h : s.Sound) (table partition row : String) :
    TableStore.read s table partition row = (s.access table).map fun _ =>
      (s.row? ⟨table, partition, row⟩).map (·.at ⟨partition, row⟩) := by
  cases s with
  | memory s =>
    refine (s.read_eq table partition row).trans ?_
    show _ = ((s.rowsOf table).map _).map _
    cases s.rowsOf table <;> rfl
  | durable s =>
    refine (DurableStore.read_eq h table partition row).trans ?_
    show _ = ((s.isReadable table).map _).map _
    cases s.isReadable table <;> rfl

end AnyStore

end UnitOfWork
