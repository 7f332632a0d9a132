import UnitOfWork.Proofs.RowFormat.Size
import UnitOfWork.Proofs.Session.Bookkeeping

/-!
Merging and the byte limit: an update takes no more of the limit when it is merged into a pending
one than it would take by itself.
-/

namespace UnitOfWork

namespace Operation

variable {pending op : Operation}

theorem length_encode_toBatchOp (op : Operation) : op.toBatchOp.encode.length = op.payloadSize :=
  op.toBatchOp.length_encode

theorem exists_update (h : op.kind = .update) :
    ∃ row p held, op = ⟨row, .update p held⟩ := by
  obtain ⟨key, change⟩ := op
  cases change with
  | update p held => exact ⟨key, p, held, rfl⟩
  | insert | delete | replace => cases h

/-- What a merge leaves out is the second update's header, which has as many bytes as the count of
the properties can gain. -/
theorem payloadSize_mergedWith_le (hpending : pending.kind = .update) (hop : op.kind = .update) :
    (pending.mergedWith op).payloadSize ≤ pending.payloadSize + op.payloadSize := by
  obtain ⟨key, p, held, rfl⟩ := exists_update hpending
  obtain ⟨key', q, held', rfl⟩ := exists_update hop
  have hproperties := Properties.size_override_le p q
  have hrow := RowFormat.textSize_pos key'.row
  have htoken := RowFormat.textSize_pos held'.token.text
  simp only [mergedWith, properties?, payloadSize, toBatchOp, BatchOp.payloadSize]
  omega

theorem kind_of_canMerge (h : pending.canMerge op = true) :
    pending.kind = .update ∧ op.kind = .update ∧ pending.key = op.key := by
  obtain ⟨key, change⟩ := pending
  obtain ⟨key', change'⟩ := op
  cases change with
  | update p held =>
    cases change' with
    | update q held' =>
      have hkey : key = key' := by
        have hboth := Bool.and_eq_true_iff.1 h
        exact of_decide_eq_true hboth.1
      exact ⟨rfl, rfl, hkey⟩
    | insert | delete | replace => cases h
  | insert | delete | replace => cases h

end Operation

namespace Accumulator

variable {a : Accumulator} {op pending : Operation}

/-- The pending update is exchanged for the merged one and the limits are asked about the rest. -/
theorem Sound.register_of_canMerge (h : a.Sound) (hpending : pending ∈ a.ops)
    (hmerge : pending.canMerge op = true)
    (hlimits : a.limits.admits a.ops.length
      (a.payloadBytes - pending.payloadSize + (pending.mergedWith op).payloadSize) = true) :
    (a.register op).1 = .ok () ∧ (a.register op).2.payloadBytes =
      a.payloadBytes - pending.payloadSize + (pending.mergedWith op).payloadSize := by
  have hkey : pending.key = op.key := (Operation.kind_of_canMerge hmerge).2.2
  have hrow : pending.row = op.row := congrArg EntityKey.row hkey
  obtain ⟨hpartition, hvalid⟩ := h.keys pending hpending
  rw [hkey] at hpartition
  rw [hrow] at hvalid
  obtain ⟨k, hk⟩ := List.mem_iff_getElem?.1 hpending
  obtain ⟨found, hfound, -, hlookup⟩ :=
    h.pending?_of_position ((h.position op.row k).2 ⟨pending, hk, hrow⟩)
  obtain rfl : found = pending := Option.some.inj (hfound.symm.trans hk)
  unfold register
  rw [if_neg (not_not_intro hpartition), checkKey_eq_ok_iff.2 hvalid, hlookup]
  dsimp only
  unfold mergeInto checkLimits
  dsimp only
  rw [if_pos hmerge, if_pos hlimits]
  exact ⟨rfl, rfl⟩

/-- Merging saves bytes: two updates in one operation are no larger than as two, so that an update
for whose size there is room is taken up by the pending one it can be merged into. -/
theorem merging_saves_bytes (a : Accumulator) (ha : a.Reachable) :
    (∀ pending op : Operation, pending.kind = .update → op.kind = .update →
      (pending.mergedWith op).payloadSize ≤ pending.payloadSize + op.payloadSize) ∧
    (∀ op : Operation, op.payloadSize = op.toBatchOp.encode.length) ∧
    ∀ op, (∃ pending ∈ a.ops, pending.canMerge op = true) →
      a.payloadBytes + op.payloadSize ≤ a.limits.bytes →
      (a.register op).1 = .ok () ∧
        (a.register op).2.payloadBytes ≤ a.payloadBytes + op.payloadSize := by
  have hsound : a.Sound := ha.sound
  refine ⟨fun pending op => Operation.payloadSize_mergedWith_le,
    fun op => op.length_encode_toBatchOp.symm, ?_⟩
  rintro op ⟨pending, hpending, hmerge⟩ hroom
  obtain ⟨hkind, hkind', -⟩ := Operation.kind_of_canMerge hmerge
  have hmerged := Operation.payloadSize_mergedWith_le hkind hkind'
  -- the pending size is part of the sum, so taking it off cuts nothing off at zero
  have hpart : pending.payloadSize ≤ a.payloadBytes := by
    rw [hsound.bytes, hsound.sizes]
    exact List.le_sum_of_mem (List.mem_map_of_mem hpending)
  have hbytes : a.payloadBytes - pending.payloadSize + (pending.mergedWith op).payloadSize ≤
      a.payloadBytes + op.payloadSize := by omega
  have hlimits : a.limits.admits a.ops.length
      (a.payloadBytes - pending.payloadSize + (pending.mergedWith op).payloadSize) = true :=
    Limits.admits_eq_true_iff.2 ⟨hsound.within_limits.1, Nat.le_trans hbytes hroom⟩
  obtain ⟨haccepted, hsize⟩ := hsound.register_of_canMerge hpending hmerge hlimits
  exact ⟨haccepted, hsize ▸ hbytes⟩

private def quay : Partition := ⟨"Quays", "q", by decide, by decide⟩

private def quayUpdate (name : String) : Operation :=
  ⟨⟨"q", "crate"⟩, .update (SortedMap.empty.insert name (.bool true)) ⟨⟨"seen"⟩, by decide⟩⟩

/-- A quay whose one place is taken, with the bytes for a second update of the crate left. -/
private def takenQuay : Accumulator :=
  ((create quay ⟨1, 41⟩).register (quayUpdate "tag")).2

theorem merging_saves_bytes_taken :
    takenQuay.Reachable ∧
      takenQuay.payloadBytes + (quayUpdate "sealed").payloadSize = takenQuay.limits.bytes ∧
      (takenQuay.register (quayUpdate "sealed")).1 = .ok () ∧
      (takenQuay.register (quayUpdate "sealed")).2.payloadBytes = 28 := by
  have hreachable : takenQuay.Reachable := .register (.create quay ⟨1, 41⟩) (quayUpdate "tag")
  have hmerge : ∃ pending ∈ takenQuay.ops, pending.canMerge (quayUpdate "sealed") = true :=
    ⟨quayUpdate "tag", by decide +kernel, by decide +kernel⟩
  have hroom : takenQuay.payloadBytes + (quayUpdate "sealed").payloadSize =
      takenQuay.limits.bytes := by
    decide +kernel
  obtain ⟨hok, -⟩ :=
    (merging_saves_bytes takenQuay hreachable).2.2 _ hmerge (Nat.le_of_eq hroom)
  exact ⟨hreachable, hroom, hok, by decide +kernel⟩

end Accumulator

end UnitOfWork
