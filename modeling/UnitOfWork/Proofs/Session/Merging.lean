import UnitOfWork.Proofs.Batch.Intent
import UnitOfWork.Proofs.Session.Coalescing

/-!
Updates of one row that are merged do to it what they do one after the other, each expecting what
the one before has left. In which groups they are merged makes no difference.
-/

namespace UnitOfWork

namespace Batch

/-- The row after operations at it one after the other, each with a version of its own. All but the
first expect the token that the one before has left. -/
def applyInTurn (index : Nat) (existing : Option Row) (version : UInt64) (op : BatchOp) :
    List (BatchOp × UInt64) → Except StorageError (Option Row)
  | [] => applyAt index op existing version
  | (next, version') :: later =>
    match applyAt index op existing version with
    | .error e => .error e
    | .ok left => applyInTurn index left version' (next.withToken (Token.ofVersion version)) later

theorem applyAt_eq_error_iff {index : Nat} {op : BatchOp} {existing : Option Row}
    {version : UInt64} {e : StorageError} :
    applyAt index op existing version = .error e ↔
      ∃ reason, op.rejection? existing = some reason ∧ e = .batchRejected index op.row reason := by
  rw [applyAt, BatchOp.apply_eq]
  cases op.rejection? existing with
  | none => simp [Except.mapError]
  | some reason => simp [Except.mapError, eq_comm]

end Batch

namespace Operation

open Batch

/-- An operation with all later ones merged into it. -/
def mergeAll (op : Operation) (later : List Operation) : Operation := later.foldl mergedWith op

/-- An update of a row as it was read with a token. -/
structure IsUpdateOf (op : Operation) (row : String) (t : Token) : Prop where
  kind_eq : op.kind = .update
  row_eq : op.row = row
  token?_eq : op.token? = some t

namespace IsUpdateOf

variable {row : String} {t : Token} {pending op : Operation}

theorem mergedWith (h : pending.IsUpdateOf row t) (next : Operation) :
    (pending.mergedWith next).IsUpdateOf row t where
  kind_eq := (pending.kind_mergedWith next).trans h.kind_eq
  row_eq := (pending.row_mergedWith next).trans h.row_eq
  token?_eq := (pending.token?_mergedWith next).trans h.token?_eq

theorem mergeAll (h : pending.IsUpdateOf row t) (later : List Operation) :
    (pending.mergeAll later).IsUpdateOf row t := by
  induction later generalizing pending with
  | nil => exact h
  | cons next later ih => exact ih (h.mergedWith next)

theorem folds (h : pending.IsUpdateOf row t) (hop : op.IsUpdateOf row t) : pending.Folds op :=
  ⟨h.kind_eq, hop.kind_eq, h.token?_eq.trans hop.token?_eq.symm⟩

/-- Updates from one read are rejected alike, whatever they write. -/
theorem applyAt_eq_error_iff (h : pending.IsUpdateOf row t) (hop : op.IsUpdateOf row t)
    {index : Nat} {existing : Option Row} {version version' : UInt64} {e : StorageError} :
    applyAt index pending.toBatchOp existing version = .error e ↔
      applyAt index op.toBatchOp existing version' = .error e := by
  have hrejection : pending.toBatchOp.rejection? existing = op.toBatchOp.rejection? existing := by
    unfold BatchOp.rejection?
    rw [ifMatch?_toBatchOp, ifMatch?_toBatchOp, h.token?_eq, hop.token?_eq]
  rw [Batch.applyAt_eq_error_iff, Batch.applyAt_eq_error_iff, hrejection, row_toBatchOp,
    row_toBatchOp, h.row_eq, hop.row_eq]

end IsUpdateOf

section InTurn

variable {pending op : Operation} (index : Nat) (existing : Option Row)

/-- Two updates merged into one are the second one upon what the first one leaves. -/
theorem applyAt_mergedWith (hpending : pending.kind = .update) (hop : op.kind = .update)
    (version version' : UInt64) :
    applyAt index (pending.mergedWith op).toBatchOp existing version' =
      match applyAt index pending.toBatchOp existing version with
      | .error e => .error e
      | .ok left =>
        applyAt index (op.toBatchOp.withToken (Token.ofVersion version)) left version' := by
  obtain ⟨key, change⟩ := pending
  obtain ⟨key', change'⟩ := op
  cases change with
  | insert | delete | replace => cases hpending
  | update p held =>
    cases change' with
    | insert | delete | replace => cases hop
    | update q held' =>
      cases existing with
      | none => rfl
      | some r =>
        simp only [mergedWith, properties?, toBatchOp, applyAt, BatchOp.apply]
        by_cases htoken : r.token = held.token
        · simp [htoken, Except.mapError, BatchOp.withToken, SortedMap.override_assoc]
        · simp [htoken, Except.mapError, BatchOp.row]

theorem applyInTurn_merge (hpending : pending.kind = .update) (hop : op.kind = .update)
    (version version' : UInt64) (later : List (BatchOp × UInt64)) :
    applyInTurn index existing version pending.toBatchOp ((op.toBatchOp, version') :: later) =
      applyInTurn index existing version' (pending.mergedWith op).toBatchOp later := by
  have hstep := applyAt_mergedWith index existing hpending hop version version'
  cases later with
  | nil => exact hstep.symm
  | cons next later =>
    rw [applyInTurn, applyInTurn, hstep]
    cases applyAt index pending.toBatchOp existing version <;> rfl

/-- Each operation that is applied in turn may as well be merged into those before it. -/
theorem applyInTurn_eq_applyAt (hpending : pending.kind = .update) (version : UInt64)
    (later : List (Operation × UInt64)) (hlater : ∀ s ∈ later, s.1.kind = .update) :
    applyInTurn index existing version pending.toBatchOp
        (later.map fun s => (s.1.toBatchOp, s.2)) =
      applyAt index (pending.mergeAll (later.map (·.1))).toBatchOp existing
        ((later.map (·.2)).getLastD version) := by
  induction later generalizing pending version with
  | nil => rfl
  | cons s later ih =>
    obtain ⟨hs, hrest⟩ := List.forall_mem_cons.1 hlater
    have hmerged : (pending.mergedWith s.1).kind = .update := by rw [kind_mergedWith, hpending]
    rw [List.map_cons, List.map_cons, List.map_cons, List.getLastD_cons,
      applyInTurn_merge index existing hpending hs]
    exact ih hmerged s.2 hrest

end InTurn

/-- A way to merge operations two at a time. -/
inductive Grouping
  | one (op : Operation)
  | both (earlier later : Grouping)

namespace Grouping

def members : Grouping → List Operation
  | one op => [op]
  | both earlier later => earlier.members ++ later.members

def merged : Grouping → Operation
  | one op => op
  | both earlier later => earlier.merged.mergedWith later.merged

/-- Later operations are merged one by one into what there is. -/
def inOrder (g : Grouping) (later : List Operation) : Grouping :=
  later.foldl (fun g op => g.both (one op)) g

theorem members_inOrder (g : Grouping) (later : List Operation) :
    (g.inOrder later).members = g.members ++ later := by
  induction later generalizing g with
  | nil => exact (List.append_nil _).symm
  | cons op later ih => exact (ih (g.both (one op))).trans (List.append_assoc ..)

theorem merged_inOrder (g : Grouping) (later : List Operation) :
    (g.inOrder later).merged = g.merged.mergeAll later := by
  induction later generalizing g with
  | nil => rfl
  | cons op later ih => exact ih (g.both (one op))

variable {row : String} {t : Token}

theorem isUpdateOf_merged (g : Grouping) (h : ∀ op ∈ g.members, op.IsUpdateOf row t) :
    g.merged.IsUpdateOf row t := by
  induction g with
  | one op => exact h op (List.mem_singleton_self op)
  | both earlier later ih _ =>
    exact (ih fun op hop => h op (List.mem_append_left _ hop)).mergedWith later.merged

theorem standsFor_merged (g : Grouping) (h : ∀ op ∈ g.members, op.IsUpdateOf row t) :
    g.merged.StandsFor g.members := by
  induction g with
  | one op => exact .single op
  | both earlier later ih ih' =>
    have hearlier : ∀ op ∈ earlier.members, op.IsUpdateOf row t := fun op hop =>
      h op (List.mem_append_left _ hop)
    have hlater : ∀ op ∈ later.members, op.IsUpdateOf row t := fun op hop =>
      h op (List.mem_append_right _ hop)
    exact (ih hearlier).append (ih' hlater)
      ((earlier.isUpdateOf_merged hearlier).folds (later.isUpdateOf_merged hlater))

end Grouping

/--
Updates from one read, merged in any groups, make one update. It is rejected where the first of them
is, for the same reason, and else it leaves what they leave one after the other, the later ones with
the tokens that the ones before have left.
-/
theorem mergeAll_applies_in_turn (row : String) (t : Token) (op : Operation) (version : UInt64)
    (later : List (Operation × UInt64)) (hop : op.IsUpdateOf row t)
    (hlater : ∀ s ∈ later, s.1.IsUpdateOf row t) :
    (∀ index existing v v' e,
      applyAt index (op.mergeAll (later.map (·.1))).toBatchOp existing v = .error e ↔
        applyAt index op.toBatchOp existing v' = .error e) ∧
      (∀ index existing,
        applyAt index (op.mergeAll (later.map (·.1))).toBatchOp existing
            ((later.map (·.2)).getLastD version) =
          applyInTurn index existing version op.toBatchOp
            (later.map fun s => (s.1.toBatchOp, s.2))) ∧
      ∀ g : Grouping, g.members = op :: later.map (·.1) →
        g.merged = op.mergeAll (later.map (·.1)) := by
  refine ⟨fun _ _ _ _ _ => (hop.mergeAll _).applyAt_eq_error_iff hop, fun index existing => ?_,
    fun g hmembers => ?_⟩
  · have hkinds : ∀ s ∈ later, s.1.kind = .update := fun s hs => (hlater s hs).kind_eq
    exact (applyInTurn_eq_applyAt index existing hop.kind_eq version later hkinds).symm
  · have hall : ∀ o ∈ op :: later.map (·.1), o.IsUpdateOf row t := by
      refine List.forall_mem_cons.2 ⟨hop, fun o ho => ?_⟩
      obtain ⟨s, hs, rfl⟩ := List.mem_map.1 ho
      exact hlater s hs
    -- what stands for the members of a group is unique, and the fold is one of the groupings
    have horder : ((Grouping.one op).inOrder (later.map (·.1))).members =
        op :: later.map (·.1) := Grouping.members_inOrder ..
    have hfold := ((Grouping.one op).inOrder (later.map (·.1))).standsFor_merged (horder ▸ hall)
    have hgroup := g.standsFor_merged (hmembers ▸ hall)
    rw [Grouping.merged_inOrder, horder] at hfold
    rw [hmembers] at hgroup
    exact hgroup.unique hfold

private def palletUpdate (name : String) (value : Bool) : Operation :=
  ⟨⟨"j", "pallet"⟩, .update (SortedMap.empty.insert name (.bool value)) ⟨⟨"bound"⟩, by decide⟩⟩

/-- The last of these writes again what the update before them writes. -/
private def laterUpdates : List (Operation × UInt64) :=
  [(palletUpdate "sealed" true, 8), (palletUpdate "tag" false, 9)]

private def palletAsRead : Row := ⟨⟨"bound"⟩, SortedMap.empty.insert "empty" (.bool false)⟩

theorem mergeAll_applies_in_turn_overlapping :
    (palletUpdate "tag" true).IsUpdateOf "pallet" ⟨"bound"⟩ ∧
      (∀ s ∈ laterUpdates, s.1.IsUpdateOf "pallet" ⟨"bound"⟩) ∧
      applyInTurn 0 (some palletAsRead) 7 (palletUpdate "tag" true).toBatchOp
          (laterUpdates.map fun s => (s.1.toBatchOp, s.2)) =
        .ok (some ⟨Token.ofVersion 9, ((SortedMap.empty.insert "empty" (.bool false)).insert
          "sealed" (.bool true)).insert "tag" (.bool false)⟩) ∧
      (Grouping.both (.one (palletUpdate "tag" true))
          (.both (.one (palletUpdate "sealed" true)) (.one (palletUpdate "tag" false)))).merged =
        (palletUpdate "tag" true).mergeAll (laterUpdates.map (·.1)) := by
  have hfirst : (palletUpdate "tag" true).IsUpdateOf "pallet" ⟨"bound"⟩ := ⟨rfl, rfl, rfl⟩
  have hlater : ∀ s ∈ laterUpdates, s.1.IsUpdateOf "pallet" ⟨"bound"⟩ := by
    simp only [laterUpdates, List.forall_mem_cons]
    exact ⟨⟨rfl, rfl, rfl⟩, ⟨rfl, rfl, rfl⟩, nofun⟩
  obtain ⟨_, hturn, hgroup⟩ := mergeAll_applies_in_turn "pallet" ⟨"bound"⟩
    (palletUpdate "tag" true) 7 laterUpdates hfirst hlater
  refine ⟨hfirst, hlater, ?_, hgroup _ rfl⟩
  rw [← hturn]
  decide +kernel

end Operation

end UnitOfWork
