import UnitOfWork.Proofs.Session.Manager
import UnitOfWork.Proofs.Session.Prepared
import UnitOfWork.Proofs.Store.Beside
import UnitOfWork.Session.World

/-!
What sessions keep and answer in two runs that differ only in the names of tokens. Enlisting comes
to the same in both, and so does committing, over a store that others use too and over the same
store without them.
-/

namespace UnitOfWork

variable {P Q : Pairing UInt64}

theorem getElem?_of_forall₂ {α β : Type} {R : α → β → Prop} {xs : List α} {ys : List β}
    (h : List.Forall₂ R xs ys) (i : Nat) : Option.Rel R xs[i]? ys[i]? := by
  induction h generalizing i with
  | nil => exact .none
  | cons hhead _ ih =>
    cases i with
    | zero => exact .some hhead
    | succ i => exact ih i

theorem set_of_forall₂ {α β : Type} {R : α → β → Prop} {xs : List α} {ys : List β}
    (h : List.Forall₂ R xs ys) (i : Nat) {x : α} {y : β} (hxy : R x y) :
    List.Forall₂ R (xs.set i x) (ys.set i y) := by
  induction h generalizing i with
  | nil => exact .nil
  | cons hhead htail ih =>
    cases i with
    | zero => exact .cons hxy htail
    | succ i => exact .cons hhead (ih i)

theorem optionRel_mono {α : Type} {R S : α → α → Prop} {o o' : Option α}
    (h : Option.Rel R o o') (hRS : ∀ a a', R a a' → S a a') : Option.Rel S o o' := by
  cases h with
  | none => exact .none
  | some h => exact .some (hRS _ _ h)

theorem optionRel_bind {α β : Type} {R : α → α → Prop} {S : β → β → Prop} {o o' : Option α}
    (h : Option.Rel R o o') {f : α → Option β}
    (hf : ∀ a a', R a a' → Option.Rel S (f a) (f a')) : Option.Rel S (o.bind f) (o'.bind f) := by
  cases h with
  | none => exact .none
  | some h => exact hf _ _ h

namespace Operation

/-- The same operation but for the token that it shows. -/
inductive Alike (P : Pairing UInt64) : Operation → Operation → Prop
  | insert (key : EntityKey) (p : Properties) : Alike P ⟨key, .insert p⟩ ⟨key, .insert p⟩
  | update (key : EntityKey) (p : Properties) {held held' : HeldToken}
      (h : held.token.Alike P held'.token) : Alike P ⟨key, .update p held⟩ ⟨key, .update p held'⟩
  | delete (key : EntityKey) {held held' : HeldToken} (h : held.token.Alike P held'.token) :
      Alike P ⟨key, .delete held⟩ ⟨key, .delete held'⟩
  | replace (key : EntityKey) (p : Properties) {held held' : HeldToken}
      (h : held.token.Alike P held'.token) :
      Alike P ⟨key, .replace p held⟩ ⟨key, .replace p held'⟩

namespace Alike

variable {op op' next next' : Operation}

theorem mono (h : op.Alike P op') (hPQ : P.Within Q) : op.Alike Q op' := by
  cases h with
  | insert key p => exact .insert key p
  | update key p h => exact .update key p (h.mono hPQ)
  | delete key h => exact .delete key (h.mono hPQ)
  | replace key p h => exact .replace key p (h.mono hPQ)

theorem key_eq (h : op.Alike P op') : op.key = op'.key := by
  cases h <;> rfl

theorem row_eq (h : op.Alike P op') : op.row = op'.row := congrArg EntityKey.row h.key_eq

theorem kind_eq (h : op.Alike P op') : op.kind = op'.kind := by
  cases h <;> rfl

theorem toBatchOp (h : op.Alike P op') : op.toBatchOp.Alike P op'.toBatchOp := by
  cases h with
  | insert key p => exact .insert _ p
  | update key p h => exact .merge _ p h
  | delete key h => exact .delete _ h
  | replace key p h => exact .replace _ p h

theorem payloadSize_eq (h : op.Alike P op') : op.payloadSize = op'.payloadSize :=
  h.toBatchOp.payloadSize_eq

/-- Whether operations merge is the same in both runs. -/
theorem canMerge_eq (h : op.Alike P op') (hnext : next.Alike P next') :
    op.canMerge next = op'.canMerge next' := by
  cases h with
  | insert | delete | replace => rfl
  | update key p held =>
    cases hnext with
    | insert | delete | replace => rfl
    | update _ _ held' => simp only [canMerge, held.eq_iff held']

theorem mergedWith (h : op.Alike P op') (hnext : next.Alike P next') :
    (op.mergedWith next).Alike P (op'.mergedWith next') := by
  cases h with
  | insert key p => exact .insert key p
  | delete key h => exact .delete key h
  | replace key p h => exact .replace key p h
  | update key p h =>
    cases hnext with
    | delete => exact .update key p h
    | insert _ q | update _ q | replace _ q => exact .update key (p.override q) h

end Alike

end Operation

namespace Operation

variable {t t' : Option Token} (h : Option.Rel (Token.Alike P) t t')

include h

/-- An operation lacks its token in both runs, or in none. -/
theorem requireToken_alike (kind : OperationKind) (key : EntityKey) :
    SameVerdict (fun held held' : HeldToken => held.token.Alike P held'.token)
      (requireToken kind key t) (requireToken kind key t') := by
  cases h with
  | none => exact .error _
  | @some t t' h =>
    unfold requireToken HeldToken.ofOption?
    dsimp only
    by_cases hblank : t.isBlank = false
    · rw [dif_pos hblank, dif_pos (h.isBlank_eq ▸ hblank)]
      exact .ok h
    · rw [dif_neg hblank, dif_neg (h.isBlank_eq ▸ hblank)]
      exact .error _

theorem update_alike (key : EntityKey) (p : Properties) :
    SameVerdict (Alike P) (update key p t) (update key p t') :=
  (requireToken_alike h .update key).map fun _ _ hheld => .update key p hheld

theorem delete_alike (key : EntityKey) : SameVerdict (Alike P) (delete key t) (delete key t') :=
  (requireToken_alike h .delete key).map fun _ _ hheld => .delete key hheld

theorem replace_alike (key : EntityKey) (p : Properties) :
    SameVerdict (Alike P) (replace key p t) (replace key p t') :=
  (requireToken_alike h .replace key).map fun _ _ hheld => .replace key p hheld

end Operation

/-- The same committed row but for the name of its token. -/
structure CommittedRow.Alike (P : Pairing UInt64) (r r' : CommittedRow) : Prop where
  row : r.row = r'.row
  token : Option.Rel (Token.Alike P) r.token r'.token

theorem CommittedRow.Alike.mono {P Q : Pairing UInt64} {r r' : CommittedRow} (h : r.Alike P r')
    (hPQ : P.Within Q) : r.Alike Q r' :=
  { h with token := optionRel_mono h.token fun _ _ ht => ht.mono hPQ }

namespace Accumulator

/-- The same is pending, but for the tokens that are shown. -/
structure Alike (P : Pairing UInt64) (a a' : Accumulator) : Prop where
  partition : a.partition = a'.partition
  limits : a.limits = a'.limits
  ops : List.Forall₂ (Operation.Alike P) a.ops a'.ops
  sizes : a.sizes = a'.sizes
  positions : a.positions = a'.positions
  payloadBytes : a.payloadBytes = a'.payloadBytes

namespace Alike

variable {a a' : Accumulator} {op op' : Operation}

theorem create (partition : Partition) (limits : Limits) :
    Alike P (create partition limits) (Accumulator.create partition limits) :=
  ⟨rfl, rfl, .nil, rfl, rfl, rfl⟩

theorem mono (h : a.Alike P a') (hPQ : P.Within Q) : a.Alike Q a' :=
  { h with ops := h.ops.imp fun _ _ hop => hop.mono hPQ }

theorem clear (h : a.Alike P a') : a.clear.Alike P a'.clear := by
  unfold Accumulator.clear
  rw [h.partition, h.limits]
  exact create ..

theorem checkLimits_eq (h : a.Alike P a') (operations bytes : Nat) :
    a.checkLimits operations bytes = a'.checkLimits operations bytes := by
  unfold checkLimits
  rw [h.limits]

/-- For a row either nothing is pending in both, or operations that are alike. -/
theorem pending? (h : a.Alike P a') (row : String) :
    a.pending? row = none ∧ a'.pending? row = none ∨ ∃ position pending pending' size,
      a.pending? row = some (position, pending, size) ∧
        a'.pending? row = some (position, pending', size) ∧ pending.Alike P pending' := by
  unfold Accumulator.pending?
  rw [h.positions, h.sizes]
  cases a'.positions.get? row with
  | none => exact .inl ⟨rfl, rfl⟩
  | some position =>
    have hop := getElem?_of_forall₂ h.ops position
    simp only [Option.bind_eq_bind, Option.bind_some]
    generalize a.ops[position]? = o, a'.ops[position]? = o' at hop
    cases hop with
    | none => exact .inl ⟨rfl, rfl⟩
    | @some pending pending' hop =>
      cases a'.sizes[position]? with
      | none => exact .inl ⟨rfl, rfl⟩
      | some size => exact .inr ⟨position, pending, pending', size, rfl, rfl, hop⟩

theorem append (h : a.Alike P a') (hop : op.Alike P op') :
    (a.append op).1 = (a'.append op').1 ∧ (a.append op).2.Alike P (a'.append op').2 := by
  unfold Accumulator.append
  dsimp only
  rw [hop.payloadSize_eq, h.ops.length_eq, h.payloadBytes, h.checkLimits_eq, hop.row_eq, h.sizes,
    h.positions]
  cases a'.checkLimits (a'.ops.length + 1) (a'.payloadBytes + op'.payloadSize) with
  | error e => exact ⟨rfl, h⟩
  | ok _ =>
    exact ⟨rfl, h.partition, h.limits, List.rel_append h.ops (.cons hop .nil), rfl, rfl, rfl⟩

theorem mergeInto (h : a.Alike P a') (position : Nat) {pending pending' : Operation}
    (hpending : pending.Alike P pending') (size : Nat) (hop : op.Alike P op') :
    (a.mergeInto position pending size op).1 = (a'.mergeInto position pending' size op').1 ∧
      (a.mergeInto position pending size op).2.Alike P
        (a'.mergeInto position pending' size op').2 := by
  have hmerged := hpending.mergedWith hop
  unfold Accumulator.mergeInto
  rw [hpending.canMerge_eq hop]
  split
  · dsimp only
    rw [hmerged.payloadSize_eq, h.ops.length_eq, h.payloadBytes, h.checkLimits_eq, h.sizes]
    cases a'.checkLimits a'.ops.length
        (a'.payloadBytes - size + (pending'.mergedWith op').payloadSize) with
    | error e => exact ⟨rfl, h⟩
    | ok _ =>
      exact ⟨rfl, h.partition, h.limits, set_of_forall₂ h.ops position hmerged, rfl, h.positions,
        rfl⟩
  · rw [hop.row_eq, hpending.kind_eq, hop.kind_eq]
    exact ⟨rfl, h⟩

theorem register (h : a.Alike P a') (hop : op.Alike P op') :
    (a.register op).1 = (a'.register op').1 ∧ (a.register op).2.Alike P (a'.register op').2 := by
  unfold Accumulator.register
  rw [hop.key_eq, h.partition, hop.row_eq]
  split
  · exact ⟨rfl, h⟩
  · cases checkKey "row key" op'.row with
    | error fault => exact ⟨rfl, h⟩
    | ok _ =>
      rcases h.pending? op'.row with ⟨hnone, hnone'⟩ |
        ⟨position, pending, pending', size, hsome, hsome', hpending⟩
      · rw [hnone, hnone']
        exact h.append hop
      · rw [hsome, hsome']
        exact h.mergeInto position hpending size hop

theorem toBatchOp (h : a.Alike P a') : List.Forall₂ (BatchOp.Alike P)
    (a.ops.map Operation.toBatchOp) (a'.ops.map Operation.toBatchOp) :=
  List.rel_map (fun _ _ hop => hop.toBatchOp) h.ops

theorem committedRows {ops ops' : List Operation} {tokens tokens' : List (Option Token)}
    (hops : List.Forall₂ (Operation.Alike P) ops ops')
    (htokens : List.Forall₂ (Option.Rel (Token.Alike P)) tokens tokens') :
    List.Forall₂ (CommittedRow.Alike P) (committedRows ops tokens)
      (Accumulator.committedRows ops' tokens') := by
  unfold Accumulator.committedRows
  induction hops generalizing tokens tokens' with
  | nil => exact .nil
  | cons hop _ ih =>
    cases htokens with
    | nil => exact .nil
    | cons htoken hrest => exact .cons ⟨hop.row_eq, htoken⟩ (ih hrest)

section Commit

variable {own : String → String → Prop} {s s' : AnyStore}

/-- What is pending is committed alike to both stores. -/
theorem commit (h : a.Alike P a') (hs : s.Beside P own s')
    (hown : own a.partition.table a.partition.key)
    (hfits : s.Fits a.partition.table a.partition.key (a.ops.map Operation.toBatchOp))
    (hdrawn : s.ledger.version.toNat + s.drawn (.submit a.partition.table a.partition.key
      (a.ops.map Operation.toBatchOp) none) < 2 ^ 64)
    (hdrawn' : s'.ledger.version.toNat + s'.drawn (.submit a'.partition.table a'.partition.key
      (a'.ops.map Operation.toBatchOp) none) < 2 ^ 64) :
    ∃ Q : Pairing UInt64, P.Within Q ∧
      SameVerdict (List.Forall₂ (CommittedRow.Alike Q)) (a.commit s none).1
        (a'.commit s' none).1 ∧
      (a.commit s none).2.1.Alike Q (a'.commit s' none).2.1 ∧
      (a.commit s none).2.2.Beside Q own (a'.commit s' none).2.2 := by
  have hempty : a.isEmpty = a'.isEmpty := by
    rw [Bool.eq_iff_iff, isEmpty, isEmpty, List.isEmpty_iff_length_eq_zero,
      List.isEmpty_iff_length_eq_zero, h.ops.length_eq]
  unfold Accumulator.commit
  rw [hempty]
  split
  · exact ⟨P, Pairing.Within.refl P, .ok .nil, h, hs⟩
  · rw [← h.partition] at hdrawn'
    obtain ⟨Q, hPQ, hanswer, hafter⟩ := hs.submit hown h.toBatchOp hfits hdrawn hdrawn'
    refine ⟨Q, hPQ, ?_⟩
    rw [← h.partition]
    dsimp only
    generalize TableStore.submit s a.partition.table a.partition.key
      (a.ops.map Operation.toBatchOp) none = submitted at hanswer hafter
    generalize TableStore.submit s' a.partition.table a.partition.key
      (a'.ops.map Operation.toBatchOp) none = submitted' at hanswer hafter
    obtain ⟨answer, s₁⟩ := submitted
    obtain ⟨answer', s₁'⟩ := submitted'
    dsimp only at hanswer hafter
    cases hanswer with
    | error e => exact ⟨.error _, h.mono hPQ, hafter⟩
    | ok htokens =>
      dsimp only
      rw [htokens.length_eq, h.ops.length_eq]
      split
      · exact ⟨.ok (committedRows (h.mono hPQ).ops htokens), (h.mono hPQ).clear, hafter⟩
      · exact ⟨.error _, h.mono hPQ, hafter⟩

end Commit

end Alike

end Accumulator

namespace SharedBatch

/-- The count of versions that the store would draw for what is pending. -/
def draws (b : SharedBatch) (store : AnyStore) : Nat :=
  store.drawn (.submit b.partition.table b.partition.key (b.pending.ops.map Operation.toBatchOp)
    none)

/-- The same batch, but for the tokens that its pending operations show. -/
structure Alike (P : Pairing UInt64) (b b' : SharedBatch) : Prop where
  pending : b.pending.Alike P b'.pending
  participants : b.participants = b'.participants
  completed : b.completed = b'.completed
  poisoned : b.poisoned = b'.poisoned

namespace Alike

variable {b b' : SharedBatch} {op op' : Operation}

theorem create (partition : Partition) (limits : Limits) :
    Alike P (create partition limits) (SharedBatch.create partition limits) :=
  ⟨.create partition limits, rfl, rfl, rfl⟩

theorem partition_eq (h : b.Alike P b') : b.partition = b'.partition := h.pending.partition

theorem mono (h : b.Alike P b') (hPQ : P.Within Q) : b.Alike Q b' :=
  { h with pending := h.pending.mono hPQ }

theorem join (h : b.Alike P b') : b.join.Alike P b'.join :=
  { h with participants := congrArg (· + 1) h.participants }

theorem leave (h : b.Alike P b') : b.leave.Alike P b'.leave :=
  { h with participants := congrArg (· - 1) h.participants }

theorem discard (h : b.Alike P b') : b.discard.Alike P b'.discard := by
  unfold SharedBatch.discard
  rw [h.completed]
  split
  · exact h
  · exact ⟨h.pending.clear, h.participants, rfl, h.poisoned⟩

theorem register (h : b.Alike P b') (hop : op.Alike P op') :
    (b.register op).1 = (b'.register op').1 ∧ (b.register op).2.Alike P (b'.register op').2 := by
  obtain ⟨hanswer, hpending⟩ := h.pending.register hop
  unfold SharedBatch.register lock
  cases hlock : b.poisoned with
  | true =>
    rw [← h.poisoned, hlock]
    exact ⟨rfl, h⟩
  | false =>
    rw [← h.poisoned, hlock]
    exact ⟨hanswer, hpending, h.participants, h.completed, rfl⟩

theorem draws_eq (h : b.Alike P b') {own : String → String → Prop} {s s' : AnyStore}
    (hs : s.Beside P own s') (hown : own b.partition.table b.partition.key) :
    b.draws s = b'.draws s' := by
  rw [draws, draws, ← h.partition_eq]
  exact hs.drawn_eq hown h.pending.toBatchOp none

/-- The batch is committed alike to both stores. -/
theorem commit (h : b.Alike P b') {own : String → String → Prop} {s s' : AnyStore}
    (hs : s.Beside P own s') (hown : own b.partition.table b.partition.key) (hfits : b.Fits s)
    (hdrawn : s.ledger.version.toNat + b.draws s < 2 ^ 64)
    (hdrawn' : s'.ledger.version.toNat + b'.draws s' < 2 ^ 64) :
    ∃ Q : Pairing UInt64, P.Within Q ∧
      SameVerdict (List.Forall₂ (CommittedRow.Alike Q)) (b.commit s none).1
        (b'.commit s' none).1 ∧
      (b.commit s none).2.1.Alike Q (b'.commit s' none).2.1 ∧
      (b.commit s none).2.2.Beside Q own (b'.commit s' none).2.2 := by
  cases hlock : b.poisoned with
  | true =>
    rw [b.commit_of_poisoned s none hlock, b'.commit_of_poisoned s' none (h.poisoned ▸ hlock)]
    exact ⟨P, Pairing.Within.refl P, .error _, h, hs⟩
  | false =>
    rw [b.commit_of_lock s none hlock, b'.commit_of_lock s' none (h.poisoned ▸ hlock)]
    obtain ⟨Q, hPQ, hanswer, hpending, hafter⟩ :=
      h.pending.commit hs hown hfits hdrawn hdrawn'
    exact ⟨Q, hPQ, hanswer, ⟨hpending, h.participants, h.completed, h.poisoned⟩, hafter⟩

end Alike

end SharedBatch

end UnitOfWork
