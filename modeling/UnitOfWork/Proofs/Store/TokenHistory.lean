import Mathlib.Algebra.Group.Nat.Defs
import UnitOfWork.Config.Store
import UnitOfWork.Proofs.RowFormat.Row
import UnitOfWork.Proofs.Store.Durable
import UnitOfWork.Proofs.Store.Ledger
import UnitOfWork.Proofs.Store.Memory
import UnitOfWork.Proofs.Table.Token

/-!
The tokens of a store over a run of calls. Whatever the calls are, a token is matched at most once,
and a row that was written or deleted since it carried a token is not matched by that token again.
-/

namespace UnitOfWork

namespace MemoryStore

variable (s : MemoryStore)

def ledger : Ledger := ⟨s.version, fun id => (s.row? id).map Row.token⟩

/-- Whether a batch that is answered so has been applied: its deadline is looked at afterwards. -/
def hasApplied : Except StorageError (List (Option Token)) → Bool
  | .ok _ => true
  | .error e => e.isAmbiguous

/-- What takes effect when a batch is submitted. -/
def submitEffects (table partition : String) (ops : List BatchOp) (timeLeft : Option Duration) :
    List Effect :=
  if hasApplied (s.submit table partition ops timeLeft).1 then
    Ledger.effectsOf table partition ops
  else []

/-- What is written leaves its own tokens at the rows that it names. -/
theorem token?_write {table partition : String} {rows : TableRows}
    (hrows : s.rowsOf table = .ok rows) {writes : Batch.Writes}
    (hnodup : (writes.map (·.1)).Nodup) (version : UInt64) (id : RowId) :
    ({ s with tables := s.tables.insert table (rows.write partition writes), version } :
        MemoryStore).ledger.token? id =
      if id.table = table ∧ id.partition = partition then
        match writes.lookup id.row with
        | some written => written.map Row.token
        | none => s.ledger.token? id
      else s.ledger.token? id := by
  refine (congrArg (Option.map Row.token) (row?_write hrows hnodup version id)).trans ?_
  split
  · cases writes.lookup id.row <;> rfl
  · rfl

theorem step_submit {table partition : String} {ops : List BatchOp} (timeLeft : Option Duration)
    (h : s.version.toNat + s.draws table partition ops < 2 ^ 64) :
    Ledger.Step s.ledger (s.submitEffects table partition ops timeLeft)
      (s.submit table partition ops timeLeft).2.ledger := by
  have hcases := s.submitted table partition ops timeLeft
  have hversion := s.version_submit table partition ops timeLeft
  unfold submitEffects
  generalize s.submit table partition ops timeLeft = submitted at hcases hversion ⊢
  obtain ⟨answer, s'⟩ := submitted
  dsimp only at hcases hversion ⊢
  cases hcases with
  | refused hrefused =>
    rw [hasApplied, Batch.isAmbiguous_of_accept hrefused]
    exact .idle (UInt64.le_refl _) fun _ => rfl
  | missing _ hrows =>
    rw [hasApplied, isAmbiguous_of_rowsOf hrows]
    exact .idle (UInt64.le_refl _) fun _ => rfl
  | @rejected rows e version haccept hrows hstage =>
    rw [hasApplied, isAmbiguous_of_stage hstage]
    refine .idle ?_ fun id => congrArg (Option.map Row.token) (row?_insert_rowsOf hrows version id)
    show s.version ≤ version
    rw [show version = _ from hversion, UInt64.le_iff_toNat_le, Ledger.toNat_add_ofNat (Nat.le_refl _) h]
    exact Nat.le_add_right ..
  | @applied rows writes haccept hrows hstages =>
    have hnodup := (Batch.check_eq_ok_iff.1 (Batch.accept_eq_ok_iff.1 haccept).2).2.2.1
    obtain ⟨_, hwrites⟩ := hstages.valid_of_accept haccept
    rw [draws, haccept, hrows] at h
    rw [if_pos (by split <;> rfl)]
    refine Ledger.step_of_stages hstages hnodup ?_ ?_ rfl (s.token?_write hrows hwrites _)
    · rwa [← hstages.draws_eq]
    · intro row existing hrow
      rw [rowIn, Except.ok.injEq] at hrow
      exact congrArg (Option.map Row.token) hrow

end MemoryStore

namespace DurableStore

variable (s : DurableStore)

def ledger : Ledger :=
  ⟨s.database.version, fun id => (s.database.stored? id).bind Row.storedToken?⟩

/-- Whether a batch that is answered so has been applied: every error rolls it back. -/
def hasApplied : Except StorageError (List (Option Token)) → Bool
  | .ok _ => true
  | .error _ => false

/-- What takes effect when a batch is submitted. -/
def submitEffects (table partition : String) (ops : List BatchOp) (timeLeft : Option Duration) :
    List Effect :=
  if hasApplied (s.submit table partition ops timeLeft).1 then
    Ledger.effectsOf table partition ops
  else []

/-- What is committed leaves its own tokens at the rows that it names. -/
theorem token?_commit {table partition : String} {ops : List BatchOp} {writes : Batch.Writes}
    (haccept : Batch.accept s.config.limits table partition ops = .ok ())
    (hstages : Batch.Stages (s.database.rowIn table partition) s.database.version ops writes)
    (version : UInt64) (id : RowId) :
    ({ s with database := s.database.commit table partition writes version } :
        DurableStore).ledger.token? id =
      if id.table = table ∧ id.partition = partition then
        match writes.lookup id.row with
        | some written => written.map Row.token
        | none => s.ledger.token? id
      else s.ledger.token? id := by
  obtain ⟨htable, hcheck⟩ := Batch.accept_eq_ok_iff.1 haccept
  obtain ⟨hpartition, _⟩ := Batch.check_eq_ok_iff.1 hcheck
  obtain ⟨hrows, hwrites⟩ := hstages.valid_of_accept haccept
  have hstored := s.database.stored?_commit htable hpartition hrows hwrites version id
  refine (congrArg (Option.bind · Row.storedToken?) hstored).trans ?_
  split
  · cases hlookup : writes.lookup id.row with
    | none => rfl
    | some written =>
      cases written with
      | none => rfl
      | some r =>
        obtain ⟨v, hv⟩ := hstages.stamped hlookup
        refine Row.storedToken?_encode ?_
        rw [hv, Token.utf8ByteSize_ofVersion]
        decide
  · rfl

theorem step_submit {table partition : String} {ops : List BatchOp} (timeLeft : Option Duration)
    (h : s.database.version.toNat + s.draws table partition ops < 2 ^ 64) :
    Ledger.Step s.ledger (s.submitEffects table partition ops timeLeft)
      (s.submit table partition ops timeLeft).2.ledger := by
  have hcases := s.submitted table partition ops timeLeft
  unfold submitEffects
  generalize s.submit table partition ops timeLeft = submitted at hcases ⊢
  obtain ⟨answer, s'⟩ := submitted
  dsimp only at hcases ⊢
  have hidle : Ledger.Step s.ledger [] s.ledger := .idle (UInt64.le_refl _) fun _ => rfl
  cases hcases with
  | refused => exact hidle
  | missing => exact hidle
  | rejected => exact hidle
  | expired => exact hidle
  | @applied readable writes haccept hreadable hstages =>
    have hnodup := (Batch.check_eq_ok_iff.1 (Batch.accept_eq_ok_iff.1 haccept).2).2.2.1
    rw [draws, haccept, hreadable] at h
    show Ledger.Step _ (Ledger.effectsOf table partition ops) _
    refine Ledger.step_of_stages hstages hnodup ?_ ?_ ?_ (s.token?_commit haccept hstages _)
    · rwa [← hstages.draws_eq]
    · intro row existing hrow
      rcases s.database.rowIn_eq_ok_iff.1 hrow with ⟨hstored, rfl⟩ | ⟨bytes, r, hstored, hr, rfl⟩
      · exact congrArg (Option.bind · Row.storedToken?) hstored
      · refine (congrArg (Option.bind · Row.storedToken?) hstored).trans ?_
        exact Row.storedToken?_of_decode? hr
    · exact Database.version_commit ..

end DurableStore

namespace AnyStore

def ledger : AnyStore → Ledger
  | .memory s => s.ledger
  | .durable s => s.ledger

/-- What takes effect in a call. -/
def effects (s : AnyStore) : StoreCall → List Effect
  | .submit table partition ops timeLeft =>
    match s with
    | .memory s => s.submitEffects table partition ops timeLeft
    | .durable s => s.submitEffects table partition ops timeLeft
  | .read .. | .query .. | .ensureTable .. => []

/-- The count of versions that a call draws, also if they are given back in the end. -/
def drawn (s : AnyStore) : StoreCall → Nat
  | .submit table partition ops _ =>
    match s with
    | .memory s => s.draws table partition ops
    | .durable s => s.draws table partition ops
  | .read .. | .query .. | .ensureTable .. => 0

theorem ledger_ensureTable (s : AnyStore) (table : String) :
    (s.ensureTable table).2.ledger = s.ledger := by
  cases s with
  | memory s =>
    have hrow := funext fun id => congrArg (Option.map Row.token) (s.row?_ensureTable table id)
    exact congrArg₂ Ledger.mk (s.version_ensureTable table) hrow
  | durable s =>
    show DurableStore.ledger (s.ensureTable table).2 = s.ledger
    unfold DurableStore.ensureTable
    cases checkTableName table with
    | error fault => rfl
    | ok _ => simp [DurableStore.ledger, Database.stored?]

theorem step_run (s : AnyStore) (c : StoreCall) (h : s.ledger.version.toNat + s.drawn c < 2 ^ 64) :
    Ledger.Step s.ledger (s.effects c) (c.run s).2.ledger ∧
      (c.run s).2.ledger.version.toNat ≤ s.ledger.version.toNat + s.drawn c := by
  cases c with
  | read => exact ⟨.idle (UInt64.le_refl _) fun _ => rfl, Nat.le_refl _⟩
  | query => exact ⟨.idle (UInt64.le_refl _) fun _ => rfl, Nat.le_refl _⟩
  | ensureTable table =>
    have hsame : ((StoreCall.ensureTable table).run s).2.ledger = s.ledger :=
      s.ledger_ensureTable table
    rw [hsame]
    exact ⟨.idle (UInt64.le_refl _) fun _ => rfl, Nat.le_refl _⟩
  | submit table partition ops timeLeft =>
    cases s with
    | memory s =>
      refine ⟨s.step_submit timeLeft h, Nat.le_of_eq ?_⟩
      show (s.submit table partition ops timeLeft).2.version.toNat = _
      rw [s.version_submit]
      exact Ledger.toNat_add_ofNat (Nat.le_refl _) h
    | durable s =>
      refine ⟨s.step_submit timeLeft h, ?_⟩
      show (s.submit table partition ops timeLeft).2.database.version.toNat ≤ _
      rcases s.version_submit table partition ops timeLeft with hversion | hversion
      · rw [hversion]
        exact Nat.le_add_right ..
      · rw [hversion]
        exact Nat.le_of_eq (Ledger.toNat_add_ofNat (Nat.le_refl _) h)

/-- What takes effect in a run of calls. -/
def runEffects (s : AnyStore) : List StoreCall → List Effect
  | [] => []
  | c :: calls => s.effects c ++ (c.run s).2.runEffects calls

/-- The count of versions that a run of calls draws. -/
def runDrawn (s : AnyStore) : List StoreCall → Nat
  | [] => 0
  | c :: calls => s.drawn c + (c.run s).2.runDrawn calls

theorem run_after (s : AnyStore) (calls : List StoreCall)
    (h : s.ledger.version.toNat + s.runDrawn calls < 2 ^ 64) :
    Ledger.Run s.ledger (s.runEffects calls) (StoreCall.after s calls).ledger ∧
      (StoreCall.after s calls).ledger.version.toNat ≤
        s.ledger.version.toNat + s.runDrawn calls := by
  induction calls generalizing s with
  | nil => exact ⟨.nil _, Nat.le_refl _⟩
  | cons c calls ih =>
    rw [runDrawn] at h
    obtain ⟨hstep, hversion⟩ := s.step_run c (by omega)
    obtain ⟨hrest, hlast⟩ := ih (c.run s).2 (by omega)
    refine ⟨.cons hstep hrest, ?_⟩
    rw [StoreCall.after_cons, runDrawn]
    omega

theorem runDrawn_append (s : AnyStore) (calls later : List StoreCall) :
    s.runDrawn (calls ++ later) =
      s.runDrawn calls + (StoreCall.after s calls).runDrawn later := by
  induction calls generalizing s with
  | nil => exact (Nat.zero_add _).symm
  | cons c calls ih => rw [List.cons_append, runDrawn, runDrawn, ih, Nat.add_assoc]; rfl

/-- A store in which nothing has been done. -/
def IsEmpty : AnyStore → Prop
  | .memory s => s.tables = ∅ ∧ s.version = 0
  | .durable s => s.database = {}

theorem IsEmpty.version {s : AnyStore} (h : s.IsEmpty) : s.ledger.version = 0 := by
  cases s with
  | memory s => exact h.2
  | durable s =>
    show s.database.version = 0
    rw [show s.database = {} from h]
    rfl

theorem IsEmpty.sound {s : AnyStore} (h : s.IsEmpty) : s.ledger.Sound := by
  have hnone : ∀ id, s.ledger.token? id = none := by
    intro id
    cases s with
    | memory s =>
      show (s.row? id).map Row.token = none
      rw [MemoryStore.row?, h.1]
      rfl
    | durable s =>
      show (s.database.stored? id).bind Row.storedToken? = none
      rw [show s.database = {} from h]
      rfl
  exact ⟨fun ht => by simp [hnone] at ht, fun ht => by simp [hnone] at ht⟩

/-- A row can be read and carries the token. -/
def Carries (s : AnyStore) (id : RowId) (t : Token) : Prop :=
  ∃ e, TableStore.read s id.table id.partition id.row = .ok (some e) ∧ e.token = t

theorem token?_of_carries {s : AnyStore} {id : RowId} {t : Token} (h : s.Carries id t) :
    s.ledger.token? id = some t := by
  obtain ⟨e, hread, rfl⟩ := h
  cases s with
  | memory s =>
    obtain ⟨r, hr, rfl⟩ := MemoryStore.row?_of_read hread
    exact congrArg (Option.map Row.token) hr
  | durable s =>
    obtain ⟨bytes, r, hstored, hr, rfl⟩ := DurableStore.stored?_of_read hread
    exact (congrArg (Option.bind · Row.storedToken?) hstored).trans
      (Row.storedToken?_of_decode? hr)

/--
No update is lost, whatever calls are made of an empty store while its versions last: a token is
matched at most once, and it is not matched at a row that was written or deleted since the row
carried it.
-/
theorem no_lost_update (s : AnyStore) (hempty : s.IsEmpty) (calls : List StoreCall)
    (hdrawn : s.runDrawn calls < 2 ^ 64) :
    (∀ t, (s.runEffects calls).countP (·.op.ifMatch? = some t) ≤ 1) ∧
      ∀ (before between later : List StoreCall) (c : StoreCall) (e : Effect) (t : Token),
        calls = before ++ between ++ c :: later →
        (StoreCall.after s before).Carries e.id t →
        e ∈ (StoreCall.after s (before ++ between)).effects c →
        e.op.ifMatch? = some t →
        ∀ earlier ∈ (StoreCall.after s before).runEffects between, earlier.id ≠ e.id := by
  have hversion : s.ledger.version.toNat = 0 := by rw [hempty.version]; rfl
  constructor
  · intro t
    exact (s.run_after calls (by omega)).1.countP_ifMatch?_le_one hempty.sound t
  · rintro before between later c e t rfl hcarries he hop earlier hearlier hid
    rw [runDrawn_append, runDrawn_append, runDrawn, StoreCall.after_append] at hdrawn
    rw [StoreCall.after_append] at he
    obtain ⟨hbefore, hversion₁⟩ := s.run_after before (by omega)
    obtain ⟨hbetween, hversion₂⟩ := (StoreCall.after s before).run_after between (by omega)
    have hstep := ((StoreCall.after (StoreCall.after s before) between).step_run c (by omega)).1
    -- the earlier effect has spent the token for good
    have hspent := hbetween.spent_of_mem (hbefore.sound hempty.sound) (token?_of_carries hcarries)
      (hid ▸ List.mem_map_of_mem hearlier)
    exact hstep.ifMatch?_ne_of_spent hspent he hop

private def emptyStore : AnyStore := .durable { config := {} }

private def submitOne (op : BatchOp) : StoreCall := .submit "Orders" "p" [op] none

/-- Two rows are inserted. -/
private def insertBoth : List StoreCall :=
  [submitOne (.insert "a" ∅), submitOne (.insert "b" ∅)]

/-- The second row is not deleted with the token of the first, but with its own. -/
private def deleteSecond : List StoreCall :=
  [submitOne (.delete "b" (Token.ofVersion 1)), submitOne (.delete "b" (Token.ofVersion 2))]

private def replaceFirst : BatchOp := .replace "a" ∅ (Token.ofVersion 1)

theorem no_lost_update_replace :
    emptyStore.IsEmpty ∧
      emptyStore.runDrawn (insertBoth ++ deleteSecond ++ [submitOne replaceFirst]) < 2 ^ 64 ∧
      (StoreCall.after emptyStore insertBoth).Carries ⟨"Orders", "p", "a"⟩ (Token.ofVersion 1) ∧
      ⟨⟨"Orders", "p", "a"⟩, replaceFirst⟩ ∈
        (StoreCall.after emptyStore (insertBoth ++ deleteSecond)).effects
          (submitOne replaceFirst) ∧
      ∀ earlier ∈ (StoreCall.after emptyStore insertBoth).runEffects deleteSecond,
        earlier.id ≠ ⟨"Orders", "p", "a"⟩ := by
  have hempty : emptyStore.IsEmpty := rfl
  have hdrawn : emptyStore.runDrawn (insertBoth ++ deleteSecond ++ [submitOne replaceFirst]) <
      2 ^ 64 := by decide +kernel
  have hcarries : (StoreCall.after emptyStore insertBoth).Carries ⟨"Orders", "p", "a"⟩
      (Token.ofVersion 1) := ⟨⟨⟨"p", "a"⟩, Token.ofVersion 1, ∅⟩, by decide +kernel, rfl⟩
  have heffect : ⟨⟨"Orders", "p", "a"⟩, replaceFirst⟩ ∈
      (StoreCall.after emptyStore (insertBoth ++ deleteSecond)).effects
        (submitOne replaceFirst) := by decide +kernel
  exact ⟨hempty, hdrawn, hcarries, heffect,
    (no_lost_update emptyStore hempty _ hdrawn).2 insertBoth deleteSecond [] _ _ _ rfl hcarries
      heffect rfl⟩

end AnyStore

end UnitOfWork
