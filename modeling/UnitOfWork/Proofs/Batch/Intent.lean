import Mathlib.Data.List.Forall2
import UnitOfWork.Proofs.Batch.Staging
import UnitOfWork.Proofs.Table.Token

/-!
Operations that mean a row's current token, whatever it is. Against rows that differ in their
stamped tokens only, a batch of them is staged to the same effect.
-/

namespace UnitOfWork

/-- The same operation with another token to match; an insert names none. -/
def BatchOp.withToken (t : Token) : BatchOp → BatchOp
  | .insert row p => .insert row p
  | .merge row p _ => .merge row p t
  | .replace row p _ => .replace row p t
  | .delete row _ => .delete row t

/-- Of a token only its size counts. -/
theorem BatchOp.payloadSize_withToken (op : BatchOp) {t u : Token}
    (h : t.text.utf8ByteSize = u.text.utf8ByteSize) :
    (op.withToken t).payloadSize = (op.withToken u).payloadSize := by
  cases op <;> simp only [withToken, payloadSize, RowFormat.textSize, h]

/-- Stamped tokens are all of one size. -/
theorem BatchOp.payloadSize_withToken_ofVersion (op : BatchOp) (v w : UInt64) :
    (op.withToken (Token.ofVersion v)).payloadSize =
      (op.withToken (Token.ofVersion w)).payloadSize := by
  apply op.payloadSize_withToken
  rw [Token.utf8ByteSize_ofVersion, Token.utf8ByteSize_ofVersion]

/-- An operation, and whether it is to match the token that its row carries; if there is no row the
token counts that the operation names. -/
structure Intent where
  op : BatchOp
  followsRow : Bool

namespace Intent

/-- The operation that is meant when this row stands there. -/
def against (i : Intent) (existing : Option Row) : BatchOp :=
  match i.followsRow, existing with
  | true, some r => i.op.withToken r.token
  | _, _ => i.op

/-- No store stamps the token that the operation names. -/
def Foreign (i : Intent) : Prop := ∀ v, i.op.ifMatch? ≠ some (Token.ofVersion v)

variable (i : Intent)

/-- Stamped tokens have twenty bytes. -/
theorem foreign_of_size (h : ∀ t ∈ i.op.ifMatch?, t.text.utf8ByteSize ≠ 20) : i.Foreign :=
  fun v hv => h _ hv (Token.utf8ByteSize_ofVersion v)

@[simp] theorem row_against (existing : Option Row) : (i.against existing).row = i.op.row := by
  unfold against
  split
  · cases i.op <;> rfl
  · rfl

theorem leaves_against (existing row : Option Row) :
    (i.against existing).leaves row = i.op.leaves row := by
  unfold against
  split
  · cases i.op <;> rfl
  · rfl

/-- The operation meets its own condition, or a condition on a token that no store stamps. -/
theorem rejection?_against (existing : Option Row) :
    (i.against existing).rejection? existing =
      match i.op.ifMatch?, existing with
      | none, none => none
      | none, some _ => some .alreadyExists
      | some _, none => some .notFound
      | some t, some r =>
        if i.followsRow = true ∨ r.token = t then none else some .preconditionFailed := by
  unfold against
  cases existing with
  | none =>
    cases i.op <;> simp [BatchOp.rejection?, BatchOp.ifMatch?]
  | some r =>
    cases i.followsRow with
    | true => cases i.op <;> simp [BatchOp.rejection?, BatchOp.ifMatch?, BatchOp.withToken]
    | false => cases i.op <;> simp [BatchOp.rejection?, BatchOp.ifMatch?]

end Intent

/-- Rows that may differ in their tokens, which stores have stamped. -/
structure SameButStamps (existing existing' : Option Row) : Prop where
  properties : existing.map Row.properties = existing'.map Row.properties
  stamped : ∀ r, existing = some r → ∃ v, r.token = Token.ofVersion v
  stamped' : ∀ r, existing' = some r → ∃ v, r.token = Token.ofVersion v

namespace SameButStamps

variable {existing existing' : Option Row} {i : Intent}

theorem leaves_eq (h : SameButStamps existing existing') (op : BatchOp) :
    op.leaves existing = op.leaves existing' := op.leaves_congr h.properties

theorem rejection?_eq (h : SameButStamps existing existing') (hforeign : i.Foreign) :
    (i.against existing).rejection? existing = (i.against existing').rejection? existing' := by
  rw [i.rejection?_against, i.rejection?_against]
  have hproperties := h.properties
  cases existing with
  | none =>
    cases existing' with
    | none => rfl
    | some r' => cases hproperties
  | some r =>
    cases existing' with
    | none => cases hproperties
    | some r' =>
      obtain ⟨v, hv⟩ := h.stamped r rfl
      obtain ⟨v', hv'⟩ := h.stamped' r' rfl
      cases ht : i.op.ifMatch? with
      | none => rfl
      | some t =>
        have hne : ∀ v, Token.ofVersion v ≠ t := fun v he => hforeign v (he ▸ ht)
        simp only [hv, hv', hne, or_false]

theorem payloadSize_eq (h : SameButStamps existing existing') (i : Intent) :
    (i.against existing).payloadSize = (i.against existing').payloadSize := by
  have hproperties := h.properties
  cases existing with
  | none =>
    cases existing' with
    | none => rfl
    | some r' => cases hproperties
  | some r =>
    cases existing' with
    | none => cases hproperties
    | some r' =>
      obtain ⟨v, hv⟩ := h.stamped r rfl
      obtain ⟨v', hv'⟩ := h.stamped' r' rfl
      unfold Intent.against
      cases i.followsRow with
      | false => rfl
      | true =>
        dsimp only
        rw [hv, hv']
        exact i.op.payloadSize_withToken_ofVersion v v'

end SameButStamps

namespace Batch

/-- What writes leave at each row, tokens aside. -/
def effects (writes : Writes) : List (String × Option Properties) :=
  writes.map fun w => (w.1, w.2.map Row.properties)

theorem lookup_effects (writes : Writes) (row : String) :
    (effects writes).lookup row = (writes.lookup row).map (Option.map Row.properties) := by
  induction writes with
  | nil => rfl
  | cons w writes ih =>
    rw [effects, List.map_cons, List.lookup_cons, List.lookup_cons]
    split
    · rfl
    · exact ih

theorem map_fst_effects (writes : Writes) : (effects writes).map (·.1) = writes.map (·.1) := by
  simp only [effects, List.map_map, Function.comp_def]

/-- Which rows get a token is told by the effects. -/
theorem map_tokens (writes : Writes) (t : Token) :
    (tokens writes).map (Option.map fun _ => t) =
      (effects writes).map fun e => e.2.map fun _ => t := by
  simp only [tokens, effects, List.map_map]
  refine List.map_congr_left fun w _ => ?_
  simp only [Function.comp_apply, Option.map_map]
  rfl

/-- Operations at one row that are rejected alike and leave the same, each where it is applied. -/
structure SameAt (look look' : String → Option Row) (op op' : BatchOp) : Prop where
  row : op.row = op'.row
  rejection : op.rejection? (look op.row) = op'.rejection? (look' op'.row)
  leaves : op.leaves (look op.row) = op'.leaves (look' op'.row)

/-- The batch has the same effect, or is rejected with the same error. -/
theorem stage_congr {look look' : String → Option Row} {ops ops' : List BatchOp}
    (h : List.Forall₂ (SameAt look look') ops ops') (index : Nat) (version version' : UInt64) :
    (stage (fun row => .ok (look row)) index version ops).1.map effects =
      (stage (fun row => .ok (look' row)) index version' ops').1.map effects := by
  induction h generalizing index version version' with
  | nil => rfl
  | @cons op op' ops ops' hop _ ih =>
    have hcons : ∀ (staged : Except StorageError Writes) (row : String) (written : Option Row),
        (staged.map ((row, written) :: ·)).map effects =
          (staged.map effects).map ((row, written.map Row.properties) :: ·) := by
      intro staged row written
      cases staged <;> rfl
    have hresult : (op.result (look op.row) (version + 1)).map Row.properties =
        (op'.result (look' op'.row) (version' + 1)).map Row.properties := by
      rw [BatchOp.properties_result, BatchOp.properties_result, hop.leaves]
    rw [stage_cons, stage_cons]
    dsimp only
    rw [← hop.rejection]
    cases op.rejection? (look op.row) with
    | some reason => rw [hop.row]
    | none =>
      dsimp only
      rw [hcons, hcons, ih (index + 1) (version + 1) (version' + 1), hresult, hop.row]

/-- Staging goes equally far. -/
theorem draws_congr {look look' : String → Option Row} {ops ops' : List BatchOp}
    (h : List.Forall₂ (SameAt look look') ops ops') :
    draws (fun row => .ok (look row)) ops = draws (fun row => .ok (look' row)) ops' := by
  induction h with
  | nil => rfl
  | cons hop _ ih =>
    rw [draws, draws]
    dsimp only
    rw [hop.rejection, ih]

section Intents

variable {look look' : String → Option Row} {intents : List Intent}

theorem map_row_against (look : String → Option Row) (intents : List Intent) :
    (intents.map fun i => i.against (look i.op.row)).map BatchOp.row =
      intents.map fun i => i.op.row := by
  simp only [List.map_map, Function.comp_def, Intent.row_against]

theorem map_payloadSize_against (hsame : ∀ row, SameButStamps (look row) (look' row))
    (intents : List Intent) :
    (intents.map fun i => i.against (look i.op.row)).map BatchOp.payloadSize =
      (intents.map fun i => i.against (look' i.op.row)).map BatchOp.payloadSize := by
  simp only [List.map_map]
  exact List.map_congr_left fun i _ => (hsame i.op.row).payloadSize_eq i

theorem accept_against (hsame : ∀ row, SameButStamps (look row) (look' row)) (limits : Limits)
    (table partition : String) (intents : List Intent) :
    accept limits table partition (intents.map fun i => i.against (look i.op.row)) =
      accept limits table partition (intents.map fun i => i.against (look' i.op.row)) := by
  apply accept_congr
  · rw [map_row_against, map_row_against]
  · exact map_payloadSize_against hsame intents

theorem stage_against (hsame : ∀ row, SameButStamps (look row) (look' row))
    (hforeign : ∀ i ∈ intents, i.Foreign) (index : Nat) (version version' : UInt64) :
    (stage (fun row => .ok (look row)) index version
        (intents.map fun i => i.against (look i.op.row))).1.map effects =
      (stage (fun row => .ok (look' row)) index version'
        (intents.map fun i => i.against (look' i.op.row))).1.map effects := by
  apply stage_congr
  rw [List.forall₂_map_left_iff, List.forall₂_map_right_iff, List.forall₂_same]
  intro i hi
  constructor
  · rw [Intent.row_against, Intent.row_against]
  · rw [Intent.row_against, Intent.row_against]
    exact (hsame i.op.row).rejection?_eq (hforeign i hi)
  · rw [Intent.row_against, Intent.row_against, i.leaves_against, i.leaves_against]
    exact (hsame i.op.row).leaves_eq i.op

end Intents

end Batch

end UnitOfWork
