import UnitOfWork.Proofs.Store.Settlement

/-!
Which batches a store applies: those whose operations all apply to the rows as they stand. Of any
other batch the first operation that does not apply is told.
-/

namespace UnitOfWork

namespace BatchOp

/-- The row is as the operation expects it: an insert finds none, and any other operation finds one
that carries its token. -/
def IsMet (op : BatchOp) (s : AnyStore) (table partition : String) : Prop :=
  match op.ifMatch? with
  | none => TableStore.read s table partition op.row = .ok none
  | some t => ∃ e, TableStore.read s table partition op.row = .ok (some e) ∧ e.token = t

/-- The row is not as the operation expects it, for a reason. -/
inductive FailsFor (op : BatchOp) (s : AnyStore) (table partition : String) : Rejection → Prop
  | alreadyExists {e : Entity} (hop : op.ifMatch? = none)
      (hread : TableStore.read s table partition op.row = .ok (some e)) :
      FailsFor op s table partition .alreadyExists
  | notFound {t : Token} (hop : op.ifMatch? = some t)
      (hread : TableStore.read s table partition op.row = .ok none) :
      FailsFor op s table partition .notFound
  | preconditionFailed {t : Token} {e : Entity} (hop : op.ifMatch? = some t)
      (hread : TableStore.read s table partition op.row = .ok (some e)) (hne : e.token ≠ t) :
      FailsFor op s table partition .preconditionFailed

section Reading

variable {op : BatchOp} {s : AnyStore} {table partition : String}

theorem FailsFor.not_isMet {reason : Rejection} (h : op.FailsFor s table partition reason) :
    ¬ op.IsMet s table partition := by
  unfold IsMet
  cases h with
  | alreadyExists hop hread | notFound hop hread => simp [hop, hread]
  | preconditionFailed hop hread hne => simpa [hop, hread] using hne

variable (hs : s.Sound) (hfound : s.access table = .ok ())

include hs hfound

theorem isMet_of_rejection? (h : op.rejection? (s.row? ⟨table, partition, op.row⟩) = none) :
    op.IsMet s table partition := by
  unfold IsMet
  unfold rejection? at h
  rw [AnyStore.read_eq hs, hfound]
  cases htoken : op.ifMatch? <;> cases hrow : s.row? ⟨table, partition, op.row⟩ <;>
    simp_all [Except.map, Row.at]

theorem failsFor_of_rejection? {reason : Rejection}
    (h : op.rejection? (s.row? ⟨table, partition, op.row⟩) = some reason) :
    op.FailsFor s table partition reason := by
  have hread := AnyStore.read_eq hs table partition op.row
  rw [hfound] at hread
  unfold rejection? at h
  cases htoken : op.ifMatch? with
  | none =>
    cases hrow : s.row? ⟨table, partition, op.row⟩ with
    | none => simp [htoken, hrow] at h
    | some r =>
      rw [htoken, hrow] at h
      rw [hrow] at hread
      cases h
      exact .alreadyExists htoken hread
  | some t =>
    cases hrow : s.row? ⟨table, partition, op.row⟩ with
    | none =>
      rw [htoken, hrow] at h
      rw [hrow] at hread
      cases h
      exact .notFound htoken hread
    | some r =>
      rw [hrow] at hread
      by_cases ht : r.token = t
      · simp [htoken, hrow, ht] at h
      · simp only [htoken, hrow, if_neg ht, Option.some.injEq] at h
        subst h
        exact .preconditionFailed htoken hread ht

end Reading

end BatchOp

namespace AnyStore

/-- Whether tables are created when they are first used. -/
def createsTables : AnyStore → Bool
  | .memory s => s.config.createTableIfMissing
  | .durable s => s.config.createTableIfMissing

theorem access_eq_ok {s : AnyStore} {table : String}
    (h : TableStore.tableExists s table = true ∨ s.createsTables = true) :
    s.access table = .ok () := by
  cases s with
  | memory s =>
    change s.tables.contains table = true ∨ s.config.createTableIfMissing = true at h
    rw [access_memory_eq_ok_iff]
    unfold MemoryStore.rowsOf
    cases hrows : s.tables.get? table with
    | some rows => exact ⟨rows, rfl⟩
    | none => exact ⟨∅, if_pos (by simpa [SortedMap.contains, hrows] using h)⟩
  | durable s =>
    change s.database.isRegistered table = true ∨ s.config.createTableIfMissing = true at h
    rw [access_durable_eq_ok_iff]
    unfold DurableStore.isReadable
    by_cases hregistered : s.database.isRegistered table = true
    · exact ⟨true, if_pos hregistered⟩
    · rw [if_neg hregistered, if_pos (h.resolve_left hregistered)]
      exact ⟨false, rfl⟩

/-- What is answered to an accepted batch: tokens if all operations apply to the rows as they
stand, and else the first one that does not, with the reason. -/
inductive Decided (s : AnyStore) (table partition : String) :
    List BatchOp → Except StorageError (List (Option Token)) → Prop
  | applied {ops : List BatchOp}
      (happlies : ∀ op ∈ ops, op.rejection? (s.row? ⟨table, partition, op.row⟩) = none)
      (tokens : List (Option Token)) : Decided s table partition ops (.ok tokens)
  | rejected {before later : List BatchOp} {op : BatchOp} {reason : Rejection}
      (hbefore : ∀ b ∈ before, b.rejection? (s.row? ⟨table, partition, b.row⟩) = none)
      (hop : op.rejection? (s.row? ⟨table, partition, op.row⟩) = some reason) :
      Decided s table partition (before ++ op :: later)
        (.error (.batchRejected before.length op.row reason))

section Submit

variable {s : AnyStore} {table partition : String} {ops : List BatchOp}

theorem decided_of_stages {version : UInt64} {writes : Batch.Writes}
    (hstages : Batch.Stages (s.rowIn table partition) version ops writes) :
    s.Decided table partition ops (.ok (Batch.tokens writes)) := by
  refine .applied (fun op hop => ?_) _
  obtain ⟨existing, hexisting, happlies⟩ := hstages.applies hop
  rw [Except.ok.inj hexisting]
  exact happlies

theorem decided_of_stage_error {version : UInt64} {e : StorageError}
    (hstage : (Batch.stage (s.rowIn table partition) 0 version ops).1 = .error e) :
    s.Decided table partition ops (.error e) := by
  obtain ⟨before, op, later, rfl, hbefore, hstop⟩ := Batch.stage_fst_eq_error_iff.1 hstage
  rw [Batch.stop?, Nat.zero_add] at hstop
  dsimp only [rowIn] at hstop
  obtain ⟨reason, hop, rfl⟩ := Option.map_eq_some_iff.1 hstop
  refine .rejected (fun b hb => ?_) hop
  obtain ⟨existing, hexisting, happlies⟩ := hbefore b hb
  rw [Except.ok.inj hexisting]
  exact happlies

/-- Once a batch is accepted, its operations alone decide about it, unless there is a deadline. -/
theorem decided_submit (haccept : Batch.accept (TableStore.limits s) table partition ops = .ok ())
    (hfound : s.access table = .ok ()) (h : s.Sound) :
    s.Decided table partition ops (TableStore.submit s table partition ops none).1 := by
  have hcases := settled h table partition ops none
  generalize (TableStore.submit s table partition ops none).1 = answer,
    (TableStore.submit s table partition ops none).2 = s' at hcases ⊢
  cases hcases with
  | refused hrefused =>
    rw [haccept] at hrefused
    cases hrefused
  | missing _ hmissing =>
    rw [hfound] at hmissing
    cases hmissing
  | rejected _ _ hstage => exact decided_of_stage_error hstage
  | late _ _ _ hlate => cases hlate
  | applied _ _ hstages => exact decided_of_stages hstages

end Submit

/--
A batch that passes the acceptance test, for a table that is there or is created, is applied exactly
if every row is as its operation expects it. Otherwise the first operation whose row is not is told
with its index and the reason, and no row changes.
-/
theorem rejects_first_unmet (s : AnyStore) (hs : s.Reachable) (table partition : String)
    (ops : List BatchOp)
    (haccept : Batch.accept (TableStore.limits s) table partition ops = .ok ())
    (htable : TableStore.tableExists s table = true ∨ s.createsTables = true)
    (answer : Except StorageError (List (Option Token))) (s' : AnyStore)
    (h : TableStore.submit s table partition ops none = (answer, s')) :
    ((∃ tokens, answer = .ok tokens) ↔ ∀ op ∈ ops, op.IsMet s table partition) ∧
      ((¬ ∀ op ∈ ops, op.IsMet s table partition) → ∃ (i : Nat) (op : BatchOp) (reason : Rejection),
        ops[i]? = some op ∧ op.FailsFor s table partition reason ∧
          (∀ j < i, ∀ o, ops[j]? = some o → o.IsMet s table partition) ∧
          answer = .error (.batchRejected i op.row reason) ∧ s.Keeps s') := by
  have hfound : s.access table = .ok () := access_eq_ok htable
  have hdecided := decided_submit haccept hfound hs.sound
  have hkeeps : ∀ e, answer = .error e → s.Keeps s' := by
    intro e he
    have herror := keeps_of_error hs.sound ((congrArg Prod.fst h).trans he)
    rwa [h] at herror
  rw [h] at hdecided
  dsimp only at hdecided
  generalize hanswer : answer = given at hdecided
  cases hdecided with
  | applied happlies tokens =>
    have hmet : ∀ op ∈ ops, op.IsMet s table partition := fun op hop =>
      BatchOp.isMet_of_rejection? hs.sound hfound (happlies op hop)
    exact ⟨⟨fun _ => hmet, fun _ => ⟨tokens, rfl⟩⟩, fun hunmet => absurd hmet hunmet⟩
  | @rejected before later op reason hbefore hop =>
    have hfails : op.FailsFor s table partition reason :=
      BatchOp.failsFor_of_rejection? hs.sound hfound hop
    refine ⟨⟨nofun, fun hmet => absurd (hmet op (by simp)) hfails.not_isMet⟩, fun _ => ?_⟩
    refine ⟨before.length, op, reason, by simp, hfails, fun j hj o ho => ?_, rfl,
      hkeeps _ hanswer⟩
    rw [List.getElem?_append_left hj] at ho
    exact BatchOp.isMet_of_rejection? hs.sound hfound (hbefore o (List.mem_of_getElem? ho))

private def noDrafts : AnyStore := .durable { config := {} }

private def threeDrafts : StoreCall :=
  .submit "Drafts" "p" [.insert "a" ∅, .insert "b" ∅, .insert "c" ∅] none

private def withDrafts : AnyStore := (threeDrafts.run noDrafts).2

/-- The first two operations apply, and both others do not. -/
private def twoUnmet : List BatchOp :=
  [.merge "a" ∅ (Token.ofVersion 1), .insert "d" ∅, .delete "b" (Token.ofVersion 1), .insert "c" ∅]

theorem rejects_first_unmet_two :
    withDrafts.Reachable ∧
      Batch.accept (TableStore.limits withDrafts) "Drafts" "p" twoUnmet = .ok () ∧
      TableStore.tableExists withDrafts "Drafts" = true ∧
      (TableStore.submit withDrafts "Drafts" "p" twoUnmet none).1 =
        .error (.batchRejected 2 "b" .preconditionFailed) ∧
      ¬ ∀ op ∈ twoUnmet, op.IsMet withDrafts "Drafts" "p" := by
  have hempty : noDrafts.IsEmpty := rfl
  have hreachable : withDrafts.Reachable :=
    .call (.empty hempty) threeDrafts (by decide +kernel)
  have haccept : Batch.accept (TableStore.limits withDrafts) "Drafts" "p" twoUnmet = .ok () := by
    decide +kernel
  have htable : TableStore.tableExists withDrafts "Drafts" = true := by decide +kernel
  have hanswer : (TableStore.submit withDrafts "Drafts" "p" twoUnmet none).1 =
      .error (.batchRejected 2 "b" .preconditionFailed) := by decide +kernel
  have hfirst := rejects_first_unmet _ hreachable _ _ _ haccept (.inl htable) _ _
    (Prod.ext hanswer rfl)
  refine ⟨hreachable, haccept, htable, hanswer, fun hmet => ?_⟩
  obtain ⟨tokens, htokens⟩ := hfirst.1.2 hmet
  cases htokens

end AnyStore

end UnitOfWork
