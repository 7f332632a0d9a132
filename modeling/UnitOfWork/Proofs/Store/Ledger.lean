import Mathlib.Algebra.Group.Nat.Defs
import Mathlib.Data.List.Nodup
import UnitOfWork.Proofs.Batch.Staging
import UnitOfWork.Proofs.Store.Call
import UnitOfWork.Proofs.Table.Token

/-!
Ledgers: what the tokens of a store go through while batches take effect. A token that its row has
lost is spent: it never comes back to any row, and no later operation matches it.
-/

namespace UnitOfWork

/-- A store as its tokens show it: the last version drawn and the token that each row carries. -/
structure Ledger where
  version : UInt64
  token? : RowId → Option Token

/-- An operation that took effect, and its row. -/
structure Effect where
  id : RowId
  op : BatchOp
deriving DecidableEq

namespace Ledger

variable {l l' : Ledger} {effects : List Effect} {id : RowId} {t : Token}

def Issued (l : Ledger) (t : Token) : Prop := ∃ v, 0 < v ∧ v ≤ l.version ∧ t = Token.ofVersion v

/-- No row carries the token any more. -/
def Spent (l : Ledger) (t : Token) : Prop := l.Issued t ∧ ∀ id, l.token? id ≠ some t

/-- All tokens have been issued, and no two rows carry the same one. -/
structure Sound (l : Ledger) : Prop where
  issued : ∀ {id t}, l.token? id = some t → l.Issued t
  unique : ∀ {id id' t}, l.token? id = some t → l.token? id' = some t → id = id'

/--
Operations take effect together: each on a row of its own, where it finds the token that it names,
and what they stamp is new.
-/
structure Step (l : Ledger) (effects : List Effect) (l' : Ledger) : Prop where
  version_le : l.version ≤ l'.version
  nodup : (effects.map Effect.id).Nodup
  frame : ∀ {id}, id ∉ effects.map Effect.id → l'.token? id = l.token? id
  matched : ∀ {e t}, e ∈ effects → e.op.ifMatch? = some t → l.token? e.id = some t
  stamped : ∀ {id t}, id ∈ effects.map Effect.id → l'.token? id = some t →
    ∃ v, l.version < v ∧ v ≤ l'.version ∧ t = Token.ofVersion v
  distinct : ∀ {id id' t}, id ∈ effects.map Effect.id → id' ∈ effects.map Effect.id →
    l'.token? id = some t → l'.token? id' = some t → id = id'

namespace Step

/-- A step in which only the version may grow. -/
theorem idle (hversion : l.version ≤ l'.version) (htoken : ∀ id, l'.token? id = l.token? id) :
    Step l [] l' where
  version_le := hversion
  nodup := List.nodup_nil
  frame _ := htoken _
  matched h := nomatch h
  stamped h := nomatch h
  distinct h := nomatch h

theorem issued (h : Step l effects l') (ht : l.Issued t) : l'.Issued t := by
  obtain ⟨v, hpos, hle, rfl⟩ := ht
  exact ⟨v, hpos, UInt64.le_trans hle h.version_le, rfl⟩

/-- What a step stamps has not been issued before it. -/
theorem not_issued (h : Step l effects l') (hid : id ∈ effects.map Effect.id)
    (ht : l'.token? id = some t) : ¬ l.Issued t := by
  rintro ⟨v, _, hle, rfl⟩
  obtain ⟨w, hlt, _, he⟩ := h.stamped hid ht
  rw [Token.ofVersion_injective he] at hle
  exact UInt64.not_le.2 hlt hle

/-- What a step stamps has been issued after it. -/
theorem issued_of_mem (h : Step l effects l') (hid : id ∈ effects.map Effect.id)
    (ht : l'.token? id = some t) : l'.Issued t := by
  obtain ⟨v, hlt, hle, rfl⟩ := h.stamped hid ht
  exact ⟨v, UInt64.lt_of_le_of_lt (UInt64.zero_le ..) hlt, hle, rfl⟩

theorem sound (h : Step l effects l') (hs : l.Sound) : l'.Sound where
  issued {id t} ht := by
    by_cases hid : id ∈ effects.map Effect.id
    · exact h.issued_of_mem hid ht
    · rw [h.frame hid] at ht
      exact h.issued (hs.issued ht)
  unique {id id' t} ht ht' := by
    by_cases hid : id ∈ effects.map Effect.id
    · by_cases hid' : id' ∈ effects.map Effect.id
      · exact h.distinct hid hid' ht ht'
      · rw [h.frame hid'] at ht'
        exact absurd (hs.issued ht') (h.not_issued hid ht)
    · by_cases hid' : id' ∈ effects.map Effect.id
      · rw [h.frame hid] at ht
        exact absurd (hs.issued ht) (h.not_issued hid' ht')
      · rw [h.frame hid] at ht
        rw [h.frame hid'] at ht'
        exact hs.unique ht ht'

theorem spent (h : Step l effects l') (ht : l.Spent t) : l'.Spent t := by
  refine ⟨h.issued ht.1, fun id hid => ?_⟩
  by_cases hmem : id ∈ effects.map Effect.id
  · exact h.not_issued hmem hid ht.1
  · rw [h.frame hmem] at hid
    exact ht.2 id hid

/-- Whatever is done to a row spends the token that it carried. -/
theorem spent_of_mem (h : Step l effects l') (hs : l.Sound) (ht : l.token? id = some t)
    (hid : id ∈ effects.map Effect.id) : l'.Spent t := by
  refine ⟨h.issued (hs.issued ht), fun other hother => ?_⟩
  by_cases hmem : other ∈ effects.map Effect.id
  · exact h.not_issued hmem hother (hs.issued ht)
  · rw [h.frame hmem] at hother
    obtain rfl := hs.unique ht hother
    exact hmem hid

theorem ifMatch?_ne_of_spent (h : Step l effects l') (ht : l.Spent t) {e : Effect}
    (he : e ∈ effects) : e.op.ifMatch? ≠ some t := fun hop => ht.2 e.id (h.matched he hop)

private theorem length_le_one {matching : List Effect} (hnodup : (matching.map Effect.id).Nodup)
    (hsame : ∀ e ∈ matching, ∀ e' ∈ matching, e.id = e'.id) : matching.length ≤ 1 := by
  match matching with
  | [] => exact Nat.zero_le 1
  | [_] => exact Nat.le_refl 1
  | e :: e' :: rest =>
    have he := hsame e (by simp) e' (by simp)
    simp [he] at hnodup

theorem countP_ifMatch?_le_one (h : Step l effects l') (hs : l.Sound) (t : Token) :
    effects.countP (·.op.ifMatch? = some t) ≤ 1 := by
  have hcarried : ∀ e ∈ effects.filter (·.op.ifMatch? = some t), l.token? e.id = some t := by
    intro e he
    obtain ⟨hmem, hop⟩ := List.mem_filter.1 he
    exact h.matched hmem (of_decide_eq_true hop)
  rw [List.countP_eq_length_filter]
  apply length_le_one
  · exact h.nodup.sublist (List.filter_sublist.map _)
  · intro e he e' he'
    exact hs.unique (hcarried e he) (hcarried e' he')

end Step

/-- Steps one after the other, with all that took effect. -/
inductive Run : Ledger → List Effect → Ledger → Prop
  | nil (l : Ledger) : Run l [] l
  | cons {l m n : Ledger} {effects later : List Effect} (hstep : Step l effects m)
      (hrest : Run m later n) : Run l (effects ++ later) n

namespace Run

theorem sound (h : Run l effects l') (hs : l.Sound) : l'.Sound := by
  induction h with
  | nil => exact hs
  | cons hstep _ ih => exact ih (hstep.sound hs)

theorem spent (h : Run l effects l') (ht : l.Spent t) : l'.Spent t := by
  induction h with
  | nil => exact ht
  | cons hstep _ ih => exact ih (hstep.spent ht)

theorem ifMatch?_ne_of_spent (h : Run l effects l') (ht : l.Spent t) :
    ∀ e ∈ effects, e.op.ifMatch? ≠ some t := by
  induction h with
  | nil => nofun
  | cons hstep _ ih =>
    intro e he
    rcases List.mem_append.1 he with he | he
    · exact hstep.ifMatch?_ne_of_spent ht he
    · exact ih (hstep.spent ht) e he

/-- In any run a token is matched at most once. -/
theorem countP_ifMatch?_le_one (h : Run l effects l') (hs : l.Sound) (t : Token) :
    effects.countP (·.op.ifMatch? = some t) ≤ 1 := by
  induction h with
  | nil => exact Nat.zero_le 1
  | @cons l m n effects later hstep hrest ih =>
    rw [List.countP_append]
    by_cases hmatch : ∃ e ∈ effects, e.op.ifMatch? = some t
    · obtain ⟨e, he, hop⟩ := hmatch
      have hspent := hstep.spent_of_mem hs (hstep.matched he hop) (List.mem_map_of_mem he)
      have hlater : later.countP (·.op.ifMatch? = some t) = 0 :=
        List.countP_eq_zero.2 fun e he => by simpa using hrest.ifMatch?_ne_of_spent hspent e he
      have hnow := hstep.countP_ifMatch?_le_one hs t
      omega
    · have hnow : effects.countP (·.op.ifMatch? = some t) = 0 :=
        List.countP_eq_zero.2 fun e he => by simpa using fun hop => hmatch ⟨e, he, hop⟩
      have hlater := ih (hstep.sound hs)
      omega

/-- A row that is touched loses its token for good. -/
theorem spent_of_mem (h : Run l effects l') (hs : l.Sound) (ht : l.token? id = some t)
    (hid : id ∈ effects.map Effect.id) : l'.Spent t := by
  induction h with
  | nil => cases hid
  | @cons l m n effects later hstep hrest ih =>
    by_cases hnow : id ∈ effects.map Effect.id
    · exact hrest.spent (hstep.spent_of_mem hs ht hnow)
    · rw [List.map_append, List.mem_append] at hid
      exact ih (hstep.sound hs) ((hstep.frame hnow).trans ht) (hid.resolve_left hnow)

end Run

section Stages

variable {table partition : String} {ops : List BatchOp} {writes : Batch.Writes}
  {rows : String → Except StorageError (Option Row)}

/-- The effects of a batch that is applied. -/
def effectsOf (table partition : String) (ops : List BatchOp) : List Effect :=
  ops.map fun op => ⟨⟨table, partition, op.row⟩, op⟩

theorem mem_map_id_effectsOf :
    id ∈ (effectsOf table partition ops).map Effect.id ↔
      id.table = table ∧ id.partition = partition ∧ id.row ∈ ops.map BatchOp.row := by
  simp only [effectsOf, List.map_map, List.mem_map, Function.comp_apply]
  constructor
  · rintro ⟨op, hop, rfl⟩
    exact ⟨rfl, rfl, op, hop, rfl⟩
  · rintro ⟨rfl, rfl, op, hop, he⟩
    exact ⟨op, hop, by rw [he]⟩

theorem toNat_add_ofNat {v : UInt64} {k n : Nat} (hk : k ≤ n) (hn : v.toNat + n < 2 ^ 64) :
    (v + UInt64.ofNat k).toNat = v.toNat + k := by
  have hsize : UInt64.size = 2 ^ 64 := rfl
  rw [UInt64.toNat_add, UInt64.toNat_ofNat_of_lt' (by omega), Nat.mod_eq_of_lt (by omega)]

/-- A staged batch whose versions do not run out is a step. -/
theorem step_of_stages (hstages : Batch.Stages rows l.version ops writes)
    (hnodup : (ops.map BatchOp.row).Nodup) (hlast : l.version.toNat + ops.length < 2 ^ 64)
    (hrows : ∀ {row existing}, rows row = .ok existing →
      l.token? ⟨table, partition, row⟩ = existing.map Row.token)
    (hversion : l'.version = l.version + UInt64.ofNat ops.length)
    (htoken : ∀ id, l'.token? id =
      if id.table = table ∧ id.partition = partition then
        match writes.lookup id.row with
        | some written => written.map Row.token
        | none => l.token? id
      else l.token? id) :
    Step l (effectsOf table partition ops) l' := by
  -- what a touched row carries bears the version of the operation's position
  have hstamp : ∀ {id t}, id ∈ (effectsOf table partition ops).map Effect.id →
      l'.token? id = some t → id.table = table ∧ id.partition = partition ∧
        ∃ k op, ops[k]? = some op ∧ op.row = id.row ∧
          t = Token.ofVersion (l.version + UInt64.ofNat (k + 1)) := by
    intro id t hid ht
    obtain ⟨htable, hpartition, hrow⟩ := mem_map_id_effectsOf.1 hid
    obtain ⟨op, hop, he⟩ := List.mem_map.1 hrow
    obtain ⟨k, hk⟩ := List.getElem?_of_mem hop
    obtain ⟨existing, _, _, hlookup⟩ := hstages.lookup_eq hnodup hk
    rw [htoken, if_pos ⟨htable, hpartition⟩, ← he, hlookup] at ht
    obtain ⟨r, hr, rfl⟩ := Option.map_eq_some_iff.1 ht
    obtain ⟨p, _, rfl⟩ := Option.map_eq_some_iff.1 hr
    exact ⟨htable, hpartition, k, op, hk, he, rfl⟩
  have hposition : ∀ {k op}, ops[k]? = some op →
      (l.version + UInt64.ofNat (k + 1)).toNat = l.version.toNat + (k + 1) := by
    intro k op hk
    obtain ⟨hlt, _⟩ := List.getElem?_eq_some_iff.1 hk
    exact toNat_add_ofNat hlt hlast
  have hend := toNat_add_ofNat (Nat.le_refl ops.length) hlast
  constructor
  case version_le =>
    rw [hversion, UInt64.le_iff_toNat_le, hend]
    omega
  case nodup =>
    rw [effectsOf, List.map_map]
    refine List.Nodup.of_map RowId.row ?_
    rwa [List.map_map]
  case frame =>
    intro id hid
    rw [htoken]
    split
    · rename_i h
      rw [hstages.lookup_eq_none fun hrow => hid (mem_map_id_effectsOf.2 ⟨h.1, h.2, hrow⟩)]
    · rfl
  case matched =>
    intro e t he hop
    obtain ⟨op, hmem, rfl⟩ := List.mem_map.1 he
    obtain ⟨existing, hrow, happlies⟩ := hstages.applies hmem
    obtain ⟨r, rfl, rfl⟩ := BatchOp.token_eq_of_rejection?_eq_none happlies hop
    exact hrows hrow
  case stamped =>
    intro id t hid ht
    obtain ⟨_, _, k, op, hk, _, rfl⟩ := hstamp hid ht
    have hlt : k < ops.length := (List.getElem?_eq_some_iff.1 hk).1
    refine ⟨_, ?_, ?_, rfl⟩
    · rw [UInt64.lt_iff_toNat_lt, hposition hk]
      omega
    · rw [hversion, UInt64.le_iff_toNat_le, hposition hk, hend]
      omega
  case distinct =>
    intro id id' t hid hid' ht ht'
    obtain ⟨htable, hpartition, k, op, hk, hrow, rfl⟩ := hstamp hid ht
    obtain ⟨htable', hpartition', k', op', hk', hrow', he⟩ := hstamp hid' ht'
    have hsame := congrArg UInt64.toNat (Token.ofVersion_injective he)
    rw [hposition hk, hposition hk'] at hsame
    obtain rfl : k = k' := by omega
    rw [hk, Option.some.injEq] at hk'
    subst hk'
    cases id
    cases id'
    simp_all

end Stages

end Ledger

end UnitOfWork
