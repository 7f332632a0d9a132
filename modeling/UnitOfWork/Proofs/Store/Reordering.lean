import UnitOfWork.Proofs.Store.Agreement
import UnitOfWork.Proofs.Store.Decision
import UnitOfWork.Proofs.Store.Staged
import UnitOfWork.Proofs.Store.Success

/-!
The order of the operations in a batch makes no difference to what the batch does. Only which
version goes to which row depends on it, and which operation is told if one does not apply.
-/

namespace UnitOfWork

namespace BatchOp

/-- The token of an operation's row after it, if the operation has drawn this version. -/
def stamp (op : BatchOp) (version : UInt64) : Option Token :=
  if op.isDelete then none else some (Token.ofVersion version)

theorem isSome_stamp (op : BatchOp) (version : UInt64) :
    (op.stamp version).isSome = !op.isDelete := by
  unfold stamp
  cases op.isDelete <;> rfl

theorem map_token_result {op : BatchOp} {existing : Option Row}
    (h : op.rejection? existing = none) (version : UInt64) :
    (op.result existing version).map Row.token = op.stamp version := by
  unfold stamp
  cases hdelete : op.isDelete with
  | true => simp [(op.result_eq_none_iff h version).2 hdelete]
  | false =>
    have hsome : op.result existing version ≠ none := by
      rw [Ne, result_eq_none_iff h, hdelete]
      exact Bool.false_ne_true
    obtain ⟨r, hr⟩ := Option.ne_none_iff_exists'.1 hsome
    obtain ⟨p, _, rfl⟩ := Option.map_eq_some_iff.1 hr
    rw [hr]
    rfl

end BatchOp

namespace Batch

variable {limits : Limits} {table partition : String} {ops ops' : List BatchOp}

theorem checkRows_eq_ok_iff_of_perm (h : ops.Perm ops') :
    checkRows [] ops = .ok () ↔ checkRows [] ops' = .ok () := by
  rw [checkRows_eq_ok_iff, checkRows_eq_ok_iff, (h.map BatchOp.row).nodup_iff]
  simp only [h.mem_iff]

/-- Batches of the same operations are both accepted or refused alike, but they may be malformed in
different ways. -/
theorem accept_of_perm (h : ops.Perm ops') :
    accept limits table partition ops = accept limits table partition ops' ∨
      ∃ fault fault', accept limits table partition ops = .error (.invalidKey fault) ∧
        accept limits table partition ops' = .error (.invalidKey fault') := by
  have hlength : ops.length = ops'.length := h.length_eq
  have hsize : payloadSize ops = payloadSize ops' := (h.map BatchOp.payloadSize).sum_eq
  have hrows := checkRows_eq_ok_iff_of_perm h
  unfold accept
  cases checkTableName table with
  | error fault => exact .inl rfl
  | ok _ =>
    dsimp only
    unfold check
    cases checkKey "partition key" partition with
    | error fault => exact .inl rfl
    | ok _ =>
      dsimp only
      cases hone : checkRows [] ops <;> cases hother : checkRows [] ops'
      case error.error fault fault' => exact .inr ⟨fault, fault', rfl, rfl⟩
      case ok.ok => simp only [hlength, hsize, true_or]
      case error.ok => simp [hone, hother] at hrows
      case ok.error => simp [hone, hother] at hrows

/-- Answers to the same operations in two orders. Which fault of a malformed batch is told, and
which operation of a rejected one, depends on the order. -/
inductive SameVerdict :
    Except StorageError (List (Option Token)) → Except StorageError (List (Option Token)) → Prop
  | applied (tokens tokens' : List (Option Token)) : SameVerdict (.ok tokens) (.ok tokens')
  | refused (e : StorageError) : SameVerdict (.error e) (.error e)
  | malformed (fault fault' : NamingFault) :
      SameVerdict (.error (.invalidKey fault)) (.error (.invalidKey fault'))
  | rejected (i i' : Nat) (row row' : String) (reason reason' : Rejection) :
      SameVerdict (.error (.batchRejected i row reason)) (.error (.batchRejected i' row' reason'))

namespace SameVerdict

variable {answer answer' : Except StorageError (List (Option Token))}

theorem ok_iff (h : SameVerdict answer answer') :
    (∃ tokens, answer = .ok tokens) ↔ ∃ tokens, answer' = .ok tokens := by
  cases h <;> simp

theorem batchTooLarge_iff (h : SameVerdict answer answer') (operations bytes : Nat) :
    answer = .error (.batchTooLarge operations bytes) ↔
      answer' = .error (.batchTooLarge operations bytes) := by
  cases h <;> simp

theorem batchRejected_iff (h : SameVerdict answer answer') :
    (∃ i row reason, answer = .error (.batchRejected i row reason)) ↔
      ∃ i row reason, answer' = .error (.batchRejected i row reason) := by
  cases h <;> simp

end SameVerdict

/-- The versions that come next after one. -/
def versionsAfter (version : UInt64) (count : Nat) : List UInt64 :=
  (List.range count).map fun k => version + UInt64.ofNat (k + 1)

theorem versionsAfter_succ (version : UInt64) (count : Nat) :
    versionsAfter version (count + 1) = (version + 1) :: versionsAfter (version + 1) count := by
  simp only [versionsAfter, List.range_succ_eq_map, List.map_cons, List.map_map,
    Function.comp_def, Nat.succ_eq_add_one, add_ofNat_succ version (_ + 1)]
  rfl

/-- Each version in turn is stamped on the row of an operation, or goes with a deleted row. -/
theorem Stages.tokens_eq_zipWith {rows : String → Except StorageError (Option Row)}
    {version : UInt64} {writes : Writes} (h : Stages rows version ops writes) :
    tokens writes = List.zipWith BatchOp.stamp ops (versionsAfter version ops.length) := by
  induction h with
  | nil => rfl
  | cons _ happlies _ ih =>
    rw [List.length_cons, versionsAfter_succ, List.zipWith_cons_cons, ← ih, tokens, List.map_cons,
      BatchOp.map_token_result happlies]
    rfl

/-- Deleted rows get no token, and all others do. -/
theorem zip_isSome_stamp (version : UInt64) (ops : List BatchOp) :
    (ops.zip (List.zipWith BatchOp.stamp ops (versionsAfter version ops.length))).map
        (fun p => (p.1, p.2.isSome)) = ops.map fun op => (op, !op.isDelete) := by
  induction ops generalizing version with
  | nil => rfl
  | cons op ops ih =>
    rw [List.length_cons, versionsAfter_succ, List.zipWith_cons_cons, List.zip_cons_cons,
      List.map_cons, List.map_cons, ih, BatchOp.isSome_stamp]

end Batch

namespace AnyStore

section Verdict

variable {s : AnyStore} {table partition : String} {ops ops' : List BatchOp}
  {answer answer' : Except StorageError (List (Option Token))}

theorem Decided.sameVerdict (h : s.Decided table partition ops answer)
    (h' : s.Decided table partition ops' answer') (hperm : ops.Perm ops') :
    Batch.SameVerdict answer answer' := by
  cases h with
  | applied happlies tokens =>
    cases h' with
    | applied _ tokens' => exact .applied tokens tokens'
    | @rejected _ _ op _ _ hop =>
      have happlies := happlies op (hperm.mem_iff.2 (by simp))
      rw [happlies] at hop
      cases hop
  | @rejected _ _ op _ _ hop =>
    cases h' with
    | applied happlies =>
      have happlies := happlies op (hperm.mem_iff.1 (by simp))
      rw [happlies] at hop
      cases hop
    | rejected => exact .rejected ..

theorem sameVerdict_submit (hs : s.Sound) (hperm : ops.Perm ops') (table partition : String) :
    Batch.SameVerdict (TableStore.submit s table partition ops none).1
      (TableStore.submit s table partition ops' none).1 := by
  have hrefused : ∀ {ops e}, Batch.accept (TableStore.limits s) table partition ops = .error e →
      (TableStore.submit s table partition ops none).1 = .error e := by
    intro ops e haccept
    rw [submit_fst_eq_staged hs, staged, haccept]
    rfl
  rcases Batch.accept_of_perm hperm with haccept | ⟨fault, fault', hfault, hfault'⟩
  case inr =>
    rw [hrefused hfault, hrefused hfault']
    exact .malformed fault fault'
  case inl =>
    cases hone : Batch.accept (TableStore.limits s) table partition ops with
    | error e =>
      rw [hrefused hone, hrefused (haccept.symm.trans hone)]
      exact .refused e
    | ok _ =>
      have hother := haccept.symm.trans hone
      cases hfound : s.access table with
      | error e =>
        rw [submit_fst_eq_staged hs, submit_fst_eq_staged hs, staged, staged, hone, hother, hfound]
        exact .refused e
      | ok _ =>
        exact (decided_submit hone hfound hs).sameVerdict (decided_submit hother hfound hs) hperm

end Verdict

/-- The versions that a call draws, one after the other. -/
def versionsDrawn (s : AnyStore) (c : StoreCall) : List UInt64 :=
  Batch.versionsAfter s.ledger.version (s.drawn c)

theorem rowFound_eq {s : AnyStore} (hs : s.Sound) (table partition : String) :
    s.rowFound table partition = s.rowIn table partition := by
  cases s with
  | memory s => rfl
  | durable s => exact funext (Database.WellFormed.rowIn hs table partition)

/-- Stores that show the same rows, tokens aside. -/
structure SameButTokens (s s' : AnyStore) : Prop where
  properties : ∀ id, (s.row? id).map Row.properties = (s'.row? id).map Row.properties
  read : ∀ t p row, (TableStore.read s t p row).map (Option.map Entity.unstamped) =
    (TableStore.read s' t p row).map (Option.map Entity.unstamped)
  query : ∀ t p, (TableStore.query s t p).map (List.map Entity.unstamped) =
    (TableStore.query s' t p).map (List.map Entity.unstamped)

/-- What the same operations in two orders lead to: the same rows but for their tokens. As many
versions are drawn for both, and each goes to the operation at its place. -/
structure Reordered (s : AnyStore) (table partition : String) (ops ops' : List BatchOp)
    (tokens tokens' : List (Option Token)) (s₁ s₂ : AnyStore) : Prop
    extends SameButTokens s₁ s₂ where
  versions : s.versionsDrawn (.submit table partition ops none) =
    s.versionsDrawn (.submit table partition ops' none)
  version : s₁.ledger.version = s₂.ledger.version
  stamped : tokens =
    List.zipWith BatchOp.stamp ops (s.versionsDrawn (.submit table partition ops none))
  stamped' : tokens' =
    List.zipWith BatchOp.stamp ops' (s.versionsDrawn (.submit table partition ops' none))
  pattern : ((ops.zip tokens).map fun p => (p.1, p.2.isSome)).Perm
    ((ops'.zip tokens').map fun p => (p.1, p.2.isSome))

section Submit

variable {s s' : AnyStore} {table partition : String} {ops ops' : List BatchOp}
  {tokens tokens' : List (Option Token)}

theorem versionsDrawn_of_ok (hs : s.Sound)
    (h : TableStore.submit s table partition ops none = (.ok tokens, s')) :
    s.versionsDrawn (.submit table partition ops none) =
        Batch.versionsAfter s.ledger.version ops.length ∧
      s'.ledger.version = s.ledger.version + UInt64.ofNat ops.length ∧
      tokens = List.zipWith BatchOp.stamp ops
        (s.versionsDrawn (.submit table partition ops none)) := by
  obtain ⟨haccept, hfound, writes, hstages, rfl, rfl⟩ := submit_eq_ok_iff.1 h
  have hdrawn : s.drawn (.submit table partition ops none) = ops.length := by
    rw [drawn_submit hs, haccept, hfound]
    rw [rowFound_eq hs] at hstages
    exact hstages.draws_eq
  rw [versionsDrawn, hdrawn]
  exact ⟨rfl, s.version_carryOut .., hstages.tokens_eq_zipWith⟩

/-- Each row of the partition is left with what its own operation says, and no other changes. -/
theorem Applied.properties_of_perm {writes writes' : Batch.Writes} {s₁ s₂ : AnyStore}
    (h₁ : s.Applied table partition ops writes s₁) (h₂ : s.Applied table partition ops' writes' s₂)
    (hperm : ops.Perm ops') (id : RowId) :
    (s₁.row? id).map Row.properties = (s₂.row? id).map Row.properties := by
  by_cases hid : id.table = table ∧ id.partition = partition ∧ id.row ∈ ops.map BatchOp.row
  · obtain ⟨t, p, row⟩ := id
    obtain ⟨rfl, rfl, hrow⟩ := hid
    obtain ⟨op, hop, rfl⟩ := List.mem_map.1 hrow
    rw [h₁.properties_eq hop, h₂.properties_eq (hperm.mem_iff.1 hop)]
  · have hid' : ¬ (id.table = table ∧ id.partition = partition ∧
        id.row ∈ ops'.map BatchOp.row) := by
      rwa [← (hperm.map BatchOp.row).mem_iff]
    rw [h₁.row?_of_notMem hid, h₂.row?_of_notMem hid']

theorem read_unstamped_eq (hs : s.Sound) (hs' : s'.Sound) {t : String}
    (haccess : s.access t = s'.access t)
    (hrows : ∀ id, (s.row? id).map Row.properties = (s'.row? id).map Row.properties)
    (p row : String) :
    (TableStore.read s t p row).map (Option.map Entity.unstamped) =
      (TableStore.read s' t p row).map (Option.map Entity.unstamped) := by
  rw [read_eq hs, read_eq hs', haccess]
  cases s'.access t with
  | error e => rfl
  | ok _ =>
    show Except.ok _ = Except.ok _
    rw [Row.map_unstamped_at, Row.map_unstamped_at, hrows]

theorem query_unstamped_eq (hs : s.Sound) (hs' : s'.Sound) {t : String}
    (haccess : s.access t = s'.access t)
    (hrows : ∀ id, (s.row? id).map Row.properties = (s'.row? id).map Row.properties)
    (p : String) :
    (TableStore.query s t p).map (List.map Entity.unstamped) =
      (TableStore.query s' t p).map (List.map Entity.unstamped) := by
  cases hfound : s'.access t with
  | error e => rw [query_of_access_error hfound, query_of_access_error (haccess.trans hfound)]
  | ok _ =>
    obtain ⟨es, hquery, hlists⟩ := exists_lists hs (haccess.trans hfound) p
    obtain ⟨es', hquery', hlists'⟩ := exists_lists hs' hfound p
    rw [hquery, hquery']
    exact congrArg Except.ok (hlists.unstamped_eq hlists' fun row => hrows ⟨t, p, row⟩)

/-- Batches of the same operations leave the same rows but for their tokens. -/
theorem Applied.sameButTokens {writes writes' : Batch.Writes} {s₁ s₂ : AnyStore}
    (h₁ : s.Applied table partition ops writes s₁) (h₂ : s.Applied table partition ops' writes' s₂)
    (hperm : ops.Perm ops') (hs₁ : s₁.Sound) (hs₂ : s₂.Sound) : s₁.SameButTokens s₂ := by
  have hproperties := h₁.properties_of_perm h₂ hperm
  have haccess : ∀ t, s₁.access t = s₂.access t := fun t => (h₁.access t).trans (h₂.access t).symm
  constructor
  case properties => exact hproperties
  case read => exact fun t p row => read_unstamped_eq hs₁ hs₂ (haccess t) hproperties p row
  case query => exact fun t p => query_unstamped_eq hs₁ hs₂ (haccess t) hproperties p

theorem reordered_of_ok {s₁ s₂ : AnyStore} (hs : s.Sound) (hperm : ops.Perm ops')
    (hfits : s.Fits table partition ops)
    (h₁ : TableStore.submit s table partition ops none = (.ok tokens, s₁))
    (h₂ : TableStore.submit s table partition ops' none = (.ok tokens', s₂)) :
    s.Reordered table partition ops ops' tokens tokens' s₁ s₂ := by
  have hfits' : s.Fits table partition ops' := by
    rw [fits_iff] at hfits ⊢
    exact fun hdurable op hop => hfits hdurable op (hperm.mem_iff.2 hop)
  obtain ⟨writes, happlied, _⟩ := exists_applied_of_ok hs hfits (congrArg Prod.fst h₁)
  obtain ⟨writes', happlied', _⟩ := exists_applied_of_ok hs hfits' (congrArg Prod.fst h₂)
  have hs₁ := sound_submit hs hfits none
  have hs₂ := sound_submit hs hfits' none
  rw [h₁] at happlied hs₁
  rw [h₂] at happlied' hs₂
  obtain ⟨hversions, hversion, hstamped⟩ := versionsDrawn_of_ok hs h₁
  obtain ⟨hversions', hversion', hstamped'⟩ := versionsDrawn_of_ok hs h₂
  constructor
  case toSameButTokens => exact happlied.sameButTokens happlied' hperm hs₁ hs₂
  case versions => rw [hversions, hversions', hperm.length_eq]
  case version => rw [hversion, hversion', hperm.length_eq]
  case stamped => exact hstamped
  case stamped' => exact hstamped'
  case pattern =>
    rw [hstamped, hversions, hstamped', hversions', Batch.zip_isSome_stamp,
      Batch.zip_isSome_stamp]
    exact hperm.map _

end Submit

/--
Whichever order the operations of a batch are in, the batch is applied or not, and is too large or
not, all the same. If it is applied, it leaves the same rows but for their tokens, and draws the
same versions; if one of its operations does not apply, one does not in the other order either.
-/
theorem order_makes_no_difference (s : AnyStore) (hs : s.Reachable) (table partition : String)
    (ops ops' : List BatchOp) (hperm : ops.Perm ops')
    (answer answer' : Except StorageError (List (Option Token))) (s₁ s₂ : AnyStore)
    (h₁ : TableStore.submit s table partition ops none = (answer, s₁))
    (h₂ : TableStore.submit s table partition ops' none = (answer', s₂)) :
    ((∃ tokens, answer = .ok tokens) ↔ ∃ tokens, answer' = .ok tokens) ∧
      (s.Fits table partition ops → ∀ tokens tokens', answer = .ok tokens →
        answer' = .ok tokens' → s.Reordered table partition ops ops' tokens tokens' s₁ s₂) ∧
      (∀ operations bytes, answer = .error (.batchTooLarge operations bytes) ↔
        answer' = .error (.batchTooLarge operations bytes)) ∧
      ((∃ i row reason, answer = .error (.batchRejected i row reason)) ↔
        ∃ i row reason, answer' = .error (.batchRejected i row reason)) := by
  have hverdict := sameVerdict_submit hs.sound hperm table partition
  rw [h₁, h₂] at hverdict
  refine ⟨hverdict.ok_iff, fun hfits tokens tokens' htokens htokens' => ?_,
    hverdict.batchTooLarge_iff, hverdict.batchRejected_iff⟩
  rw [htokens] at h₁
  rw [htokens'] at h₂
  exact reordered_of_ok hs.sound hperm hfits h₁ h₂

private def noCards : AnyStore := .durable { config := {} }

private def twoCards : StoreCall := .submit "Cards" "p" [.insert "a" ∅, .insert "b" ∅] none

private def withCards : AnyStore := (twoCards.run noCards).2

private def mergeCard : BatchOp :=
  .merge "a" (SortedMap.empty.insert "x" (.bool true)) (Token.ofVersion 1)

private def dealt : List BatchOp := [mergeCard, .delete "b" (Token.ofVersion 2), .insert "c" ∅]

private def shuffled : List BatchOp := [.insert "c" ∅, mergeCard, .delete "b" (Token.ofVersion 2)]

theorem order_makes_no_difference_shuffled :
    withCards.Reachable ∧ dealt.Perm shuffled ∧ withCards.Fits "Cards" "p" dealt ∧
      ∃ s₁ s₂, TableStore.submit withCards "Cards" "p" dealt none =
          (.ok [some (Token.ofVersion 3), none, some (Token.ofVersion 5)], s₁) ∧
        TableStore.submit withCards "Cards" "p" shuffled none =
          (.ok [some (Token.ofVersion 3), some (Token.ofVersion 4), none], s₂) ∧
        withCards.Reordered "Cards" "p" dealt shuffled
          [some (Token.ofVersion 3), none, some (Token.ofVersion 5)]
          [some (Token.ofVersion 3), some (Token.ofVersion 4), none] s₁ s₂ := by
  have hempty : noCards.IsEmpty := rfl
  have hreachable : withCards.Reachable := .call (.empty hempty) twoCards (by decide +kernel)
  have hperm : dealt.Perm shuffled := by decide +kernel
  have hfits : withCards.Fits "Cards" "p" dealt := by decide +kernel
  have hone : (TableStore.submit withCards "Cards" "p" dealt none).1 =
      .ok [some (Token.ofVersion 3), none, some (Token.ofVersion 5)] := by decide +kernel
  have hother : (TableStore.submit withCards "Cards" "p" shuffled none).1 =
      .ok [some (Token.ofVersion 3), some (Token.ofVersion 4), none] := by decide +kernel
  obtain ⟨_, hreordered, _⟩ := order_makes_no_difference _ hreachable _ _ _ _ hperm _ _ _ _
    (Prod.ext hone rfl) (Prod.ext hother rfl)
  exact ⟨hreachable, hperm, hfits, _, _, Prod.ext hone rfl, Prod.ext hother rfl,
    hreordered hfits _ _ rfl rfl⟩

end AnyStore

end UnitOfWork
