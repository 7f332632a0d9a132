import UnitOfWork.Proofs.Store.Reordering
import UnitOfWork.Proofs.Store.TokenFreshness

/-!
A batch may be submitted again when it is not known whether it was applied: it is applied once in
all. If it was applied before, its first operation does not apply any more, since an insert now
finds a row, and any other operation finds none or one with a new token.
-/

namespace UnitOfWork.AnyStore

/-- The states that calls lead to from an empty store as long as no versions run out. -/
inductive Lasting : AnyStore → Prop
  | empty {s : AnyStore} (h : s.IsEmpty) : Lasting s
  | call {s : AnyStore} (h : Lasting s) (c : StoreCall) (hfits : s.FitsCall c)
      (hdrawn : s.ledger.version.toNat + s.drawn c < 2 ^ 64) : Lasting (c.run s).2
  | reopen {s : DurableStore} (h : Lasting (.durable s)) (config : DurableConfig) :
      Lasting (.durable { s with config })

namespace Lasting

variable {s : AnyStore}

theorem reachable (h : s.Lasting) : s.Reachable := by
  induction h with
  | empty hempty => exact .empty hempty
  | call _ c hfits _ ih => exact .call ih c hfits
  | reopen _ config ih => exact .reopen ih config

theorem stamped (h : s.Lasting) : s.Stamped := by
  induction h with
  | empty hempty => exact hempty.stamped
  | call _ c _ hdrawn ih => exact (ih.follows_run hdrawn).stamped
  | reopen _ config ih => exact (ih.follows_reopen config).stamped

end Lasting

variable {s s' s'' : AnyStore} {table partition : String} {ops : List BatchOp}
  {timeLeft : Option Duration} {answer : Except StorageError (List (Option Token))}

theorem SameButTokens.refl (s : AnyStore) : s.SameButTokens s :=
  ⟨fun _ => rfl, fun _ _ _ => rfl, fun _ _ => rfl⟩

theorem SameButTokens.of_keeps (h : s.SameButTokens s') (hkeeps : s.Keeps s'') :
    s''.SameButTokens s' := by
  constructor
  case properties =>
    intro id
    rw [hkeeps.row, h.properties]
  case read =>
    intro t p row
    rw [hkeeps.read, h.read]
  case query =>
    intro t p
    rw [hkeeps.query, h.query]

/-- Whatever versions a batch has drawn, it leaves the same rows but for their tokens. -/
theorem sameButTokens_of_applied {s₁ s₂ : AnyStore} {tokens : List (Option Token)} (hs : s.Sound)
    (hfits : s.Fits table partition ops)
    (h₁ : TableStore.submit s table partition ops timeLeft = (answer, s₁))
    (happlied : s.hasApplied answer = true)
    (h₂ : TableStore.submit s table partition ops none = (.ok tokens, s₂)) :
    s₁.SameButTokens s₂ := by
  obtain ⟨writes, hwritten₁, -⟩ := exists_applied hs hfits h₁ happlied
  obtain ⟨writes', hwritten₂, -⟩ := exists_applied hs hfits h₂ (hasApplied_ok s tokens)
  have hs₁ := sound_submit hs hfits timeLeft
  have hs₂ := sound_submit hs hfits none
  rw [h₁] at hs₁
  rw [h₂] at hs₂
  exact hwritten₁.sameButTokens hwritten₂ (.refl ops) hs₁ hs₂

/-- The answers after which a batch may have been applied: tokens, or a missed deadline. -/
def MayHaveApplied (answer : Except StorageError (List (Option Token))) : Prop :=
  (∃ tokens, answer = .ok tokens) ∨ ∃ elapsed, answer = .error (.timeout elapsed)

/-- A batch that may have been applied passes all tests, whatever its deadline was. -/
theorem exists_stages (hs : s.Sound)
    (hanswer : MayHaveApplied (TableStore.submit s table partition ops timeLeft).1) :
    Batch.accept (TableStore.limits s) table partition ops = .ok () ∧ s.access table = .ok () ∧
      ∃ writes, Batch.Stages (s.rowIn table partition) s.ledger.version ops writes := by
  have hcases := settled hs table partition ops timeLeft
  generalize (TableStore.submit s table partition ops timeLeft).1 = answer,
    (TableStore.submit s table partition ops timeLeft).2 = s' at hcases hanswer
  cases hcases with
  | late haccept hfound hstages | applied haccept hfound hstages =>
    exact ⟨haccept, hfound, _, hstages⟩
  | refused hrefused =>
    rcases Batch.eq_of_accept_error hrefused with ⟨fault, rfl⟩ | rfl
    · simp [MayHaveApplied] at hanswer
    · simp [MayHaveApplied] at hanswer
  | missing _ hmissing =>
    obtain rfl := eq_of_access_error hmissing
    simp [MayHaveApplied] at hanswer
  | rejected _ _ hstage =>
    have hdecided := decided_of_stage_error hstage
    generalize hrefusal : Except.error _ = refusal at hdecided hanswer
    cases hdecided with
    | applied => cases hrefusal
    | rejected => simp [MayHaveApplied] at hanswer

/-- Without a deadline such a batch is applied. -/
theorem submit_of_mayHaveApplied (hs : s.Sound)
    (hanswer : MayHaveApplied (TableStore.submit s table partition ops timeLeft).1) :
    ∃ tokens once, TableStore.submit s table partition ops none = (.ok tokens, once) := by
  obtain ⟨haccept, hfound, writes, hstages⟩ := exists_stages hs hanswer
  rw [← rowFound_eq hs] at hstages
  exact ⟨_, _, submit_eq_ok_iff.2 ⟨haccept, hfound, writes, hstages, rfl, rfl⟩⟩

/-- It was not applied only if the deadline was missed in a durable store, which rolls it back. -/
theorem eq_of_not_applied
    (hanswer : MayHaveApplied (TableStore.submit s table partition ops timeLeft).1)
    (hnot : s.hasApplied (TableStore.submit s table partition ops timeLeft).1 = false) :
    (TableStore.submit s table partition ops timeLeft).2 = s := by
  rcases hanswer with ⟨tokens, hok⟩ | ⟨elapsed, hlate⟩
  · rw [hok] at hnot
    cases s <;> cases hnot
  · rw [hlate] at hnot
    cases s with
    | memory s => cases hnot
    | durable s => exact congrArg AnyStore.durable (DurableStore.submit_of_error hlate)

/-- The tokens of the rows before and after a batch that was applied. -/
theorem step_of_applied (hs : s.Sound) (hversions : s.ledger.version.toNat + ops.length < 2 ^ 64)
    (hanswer : MayHaveApplied (TableStore.submit s table partition ops timeLeft).1)
    (happlied : s.hasApplied (TableStore.submit s table partition ops timeLeft).1 = true) :
    Ledger.Step s.ledger (Ledger.effectsOf table partition ops)
      (TableStore.submit s table partition ops timeLeft).2.ledger := by
  obtain ⟨haccept, hfound, _, hstages⟩ := exists_stages hs hanswer
  have hdrawn : s.drawn (.submit table partition ops timeLeft) = ops.length := by
    rw [drawn_submit hs, haccept, hfound]
    exact hstages.draws_eq
  rw [← hdrawn] at hversions
  rw [← effects_of_applied happlied]
  exact (s.step_run (.submit table partition ops timeLeft) hversions).1

section Again

variable (hs : s.Stamped) (hsound : s.Sound) (hfits : s.Fits table partition ops)
  (hversions : s.ledger.version.toNat + ops.length < 2 ^ 64)
  (hanswer : MayHaveApplied (TableStore.submit s table partition ops timeLeft).1)
  (happlied : s.hasApplied (TableStore.submit s table partition ops timeLeft).1 = true)

include hs hsound hfits hversions hanswer happlied

/-- No operation of a batch applies a second time. -/
theorem rejection?_again {op : BatchOp} (hop : op ∈ ops) :
    op.rejection? ((TableStore.submit s table partition ops timeLeft).2.row?
      ⟨table, partition, op.row⟩) ≠ none := by
  obtain ⟨writes, hwritten, -⟩ := exists_applied hsound hfits (Prod.eta _).symm happlied
  obtain ⟨i, hi⟩ := List.mem_iff_getElem?.1 hop
  obtain ⟨version, hfirst, -, hrow⟩ := hwritten.written hi
  intro hagain
  cases hmatch : op.ifMatch? with
  | none =>
    -- an insert has left a row
    have hkept : op.isDelete = false := by
      cases op with
      | insert => rfl
      | merge | replace | delete => cases hmatch
    have hsome : op.result (s.row? ⟨table, partition, op.row⟩) version ≠ none := by
      rw [Ne, BatchOp.result_eq_none_iff hfirst, hkept]
      exact Bool.false_ne_true
    obtain ⟨r, hr⟩ := Option.ne_none_iff_exists'.1 hsome
    rw [hrow, hr] at hagain
    simp [BatchOp.rejection?, hmatch] at hagain
  | some t =>
    -- the row would carry the token that it carried before, but what it carries is new
    obtain ⟨r, hr, htoken⟩ := BatchOp.token_eq_of_rejection?_eq_none hagain hmatch
    have hcarried := token?_eq (sound_submit hsound hfits timeLeft) ⟨table, partition, op.row⟩
    rw [hr, Option.map_some, htoken] at hcarried
    have hstep := step_of_applied hsound hversions hanswer happlied
    have heffect : (⟨⟨table, partition, op.row⟩, op⟩ : Effect) ∈
        Ledger.effectsOf table partition ops := List.mem_map_of_mem hop
    have hissued : s.ledger.Issued t := hs.sound.issued (hstep.matched heffect hmatch)
    exact hstep.not_issued (List.mem_map_of_mem heffect) hcarried hissued

/-- The same batch is rejected at its first operation, and no row changes. -/
theorem rejected_again (hops : ops ≠ []) {s' : AnyStore}
    (hs' : (TableStore.submit s table partition ops timeLeft).2 = s') :
    ∃ op reason, ops[0]? = some op ∧ op.FailsFor s' table partition reason ∧
      (TableStore.submit s' table partition ops none).1 =
        .error (.batchRejected 0 op.row reason) ∧
      s'.Keeps (TableStore.submit s' table partition ops none).2 := by
  have hrejected : ∀ op ∈ ops, op.rejection? (s'.row? ⟨table, partition, op.row⟩) ≠ none := by
    intro op hop
    rw [← hs']
    exact rejection?_again hs hsound hfits hversions hanswer happlied hop
  obtain ⟨writes, hwritten, -⟩ := exists_applied hsound hfits (Prod.eta _).symm happlied
  obtain ⟨haccept, hfound, -⟩ := exists_stages hsound hanswer
  have hsound' := sound_submit hsound hfits timeLeft
  rw [← limits_submit s table partition ops timeLeft] at haccept
  rw [← hwritten.access] at hfound
  rw [hs'] at haccept hfound hsound'
  have hdecided := decided_submit haccept hfound hsound'
  generalize hagain : (TableStore.submit s' table partition ops none).1 = again at hdecided
  cases hdecided with
  | applied happlies =>
    obtain ⟨op, hop⟩ := List.exists_mem_of_ne_nil ops hops
    exact absurd (happlies op hop) (hrejected op hop)
  | @rejected before later op reason hbefore hop =>
    cases before with
    | cons first before => exact absurd (hbefore first (by simp)) (hrejected first (by simp))
    | nil =>
      have hfails := BatchOp.failsFor_of_rejection? hsound' hfound hop
      exact ⟨op, reason, rfl, hfails, rfl, keeps_of_error hsound' hagain⟩

end Again

/--
A batch that was answered with tokens or a missed deadline may be submitted again, without a
deadline. If it was applied, it is rejected at its first operation and no row changes; if not,
nothing had changed and it is applied now. Either way the rows are those of one submission without a
deadline, tokens aside.
-/
theorem resubmitting_applies_once (s : AnyStore) (hs : s.Lasting) (table partition : String)
    (ops : List BatchOp) (hops : ops ≠ []) (hfits : s.Fits table partition ops)
    (hversions : s.ledger.version.toNat + ops.length < 2 ^ 64) (timeLeft : Option Duration)
    (answer again : Except StorageError (List (Option Token))) (s' s'' : AnyStore)
    (h : TableStore.submit s table partition ops timeLeft = (answer, s'))
    (hanswer : MayHaveApplied answer)
    (hagain : TableStore.submit s' table partition ops none = (again, s'')) :
    (s.hasApplied answer = true →
      (∃ tokens, s.TakesEffect table partition ops tokens s') ∧
      (∃ op reason, ops[0]? = some op ∧ op.FailsFor s' table partition reason ∧
        again = .error (.batchRejected 0 op.row reason)) ∧ s'.Keeps s'') ∧
    (s.hasApplied answer = false →
      s' = s ∧ ∃ tokens, again = .ok tokens ∧ s'.TakesEffect table partition ops tokens s'') ∧
    ∃ tokens once, TableStore.submit s table partition ops none = (.ok tokens, once) ∧
      s''.SameButTokens once := by
  have hsound : s.Sound := hs.reachable.sound
  obtain rfl : (TableStore.submit s table partition ops timeLeft).1 = answer := congrArg Prod.fst h
  obtain ⟨tokens, once, honce⟩ := submit_of_mayHaveApplied hsound hanswer
  cases happlied : s.hasApplied (TableStore.submit s table partition ops timeLeft).1 with
  | true =>
    obtain ⟨op, reason, hop, hfails, hrejected, hkeeps⟩ :=
      rejected_again hs.stamped hsound hfits hversions hanswer happlied hops (congrArg Prod.snd h)
    rw [hagain] at hrejected hkeeps
    obtain ⟨stamped, heffect, -⟩ := exists_takesEffect hsound hfits h happlied
    have hsame : s'.SameButTokens once := sameButTokens_of_applied hsound hfits h happlied honce
    exact ⟨fun _ => ⟨⟨stamped, heffect⟩, ⟨op, reason, hop, hfails, hrejected⟩, hkeeps⟩, nofun,
      tokens, once, honce, hsame.of_keeps hkeeps⟩
  | false =>
    have hsame : s' = s := (congrArg Prod.snd h).symm.trans (eq_of_not_applied hanswer happlied)
    rw [hsame, honce] at hagain
    obtain ⟨rfl, rfl⟩ := Prod.mk.inj hagain
    obtain ⟨stamped, heffect, htokens⟩ := exists_takesEffect hsound hfits honce (hasApplied_ok s _)
    obtain rfl := htokens tokens rfl
    rw [hsame]
    exact ⟨nofun, fun _ => ⟨rfl, tokens, rfl, heffect⟩, tokens, once, honce, .refl once⟩

private def issueTickets : StoreCall :=
  .submit "Tickets" "p" [.insert "a" ∅, .insert "b" ∅] none

/-- A store in memory that takes a second to answer. -/
private def slowStore : AnyStore := .memory { config := { responseLatency := some ⟨1, 0⟩ } }

private def durableStore : AnyStore := .durable { config := {} }

private def stampTickets : List BatchOp :=
  [.merge "a" (SortedMap.empty.insert "used" (.bool true)) (Token.ofVersion 1),
    .delete "b" (Token.ofVersion 2), .insert "c" ∅]

/-- Tickets are stamped with no time left. -/
private def stampLate (s : AnyStore) : Except StorageError (List (Option Token)) × AnyStore :=
  TableStore.submit (issueTickets.run s).2 "Tickets" "p" stampTickets (some ⟨0, 0⟩)

private def stampAgain (s : AnyStore) : Except StorageError (List (Option Token)) × AnyStore :=
  TableStore.submit (stampLate s).2 "Tickets" "p" stampTickets none

/-- Both stores miss the deadline, and only the one in memory has applied the batch by then. -/
theorem resubmitting_applies_once_tickets :
    (issueTickets.run slowStore).2.Lasting ∧ (issueTickets.run durableStore).2.Lasting ∧
      (stampLate slowStore).1 = .error (.timeout ⟨1, 0⟩) ∧
      (stampAgain slowStore).1 = .error (.batchRejected 0 "a" .preconditionFailed) ∧
      (stampLate slowStore).2.Keeps (stampAgain slowStore).2 ∧
      (stampLate durableStore).1 = .error (.timeout ⟨0, 0⟩) ∧
      (stampLate durableStore).2 = (issueTickets.run durableStore).2 ∧
      (stampAgain durableStore).1 =
        .ok [some (Token.ofVersion 3), none, some (Token.ofVersion 5)] := by
  have hempty : slowStore.IsEmpty := ⟨rfl, rfl⟩
  have hempty' : durableStore.IsEmpty := rfl
  have hslow : (issueTickets.run slowStore).2.Lasting :=
    .call (.empty hempty) issueTickets trivial (by decide +kernel)
  have hdurable : (issueTickets.run durableStore).2.Lasting :=
    .call (.empty hempty') issueTickets (by decide +kernel) (by decide +kernel)
  have hlate : (stampLate slowStore).1 = .error (.timeout ⟨1, 0⟩) := by decide +kernel
  have hlate' : (stampLate durableStore).1 = .error (.timeout ⟨0, 0⟩) := by decide +kernel
  obtain ⟨hrejected, -⟩ := resubmitting_applies_once _ hslow "Tickets" "p" stampTickets
    (List.cons_ne_nil _ _) trivial (by decide +kernel) (some ⟨0, 0⟩) _ _ _ _
    (Prod.ext hlate rfl) (.inr ⟨_, rfl⟩) (Prod.eta _).symm
  obtain ⟨-, happlied, -⟩ := resubmitting_applies_once _ hdurable "Tickets" "p" stampTickets
    (List.cons_ne_nil _ _) (by decide +kernel) (by decide +kernel) (some ⟨0, 0⟩) _ _ _ _
    (Prod.ext hlate' rfl) (.inr ⟨_, rfl⟩) (Prod.eta _).symm
  exact ⟨hslow, hdurable, hlate, by decide +kernel, (hrejected rfl).2.2, hlate',
    (happlied rfl).1, by decide +kernel⟩

end UnitOfWork.AnyStore
