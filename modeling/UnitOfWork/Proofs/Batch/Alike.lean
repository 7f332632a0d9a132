import UnitOfWork.Proofs.Batch.Intent
import UnitOfWork.Proofs.Table.Pairing

/-!
Rows and operations of two runs that differ only in the names of tokens. Whatever is asked about
them without looking at a token's text has the same answer in both.
-/

namespace UnitOfWork

variable {P Q : Pairing UInt64}

/-- What stands at a row in two runs: the same properties, and tokens that stand for each other. -/
structure RowsAlike (P : Pairing UInt64) (existing existing' : Option Row) : Prop where
  properties : existing.map Row.properties = existing'.map Row.properties
  token : ∀ r r', existing = some r → existing' = some r' → r.token.Alike P r'.token

namespace RowsAlike

variable {existing existing' : Option Row}

theorem mono (h : RowsAlike P existing existing') (hPQ : P.Within Q) :
    RowsAlike Q existing existing' :=
  ⟨h.properties, fun r r' hr hr' => (h.token r r' hr hr').mono hPQ⟩

/-- Either nothing stands at both, or something that is alike. -/
theorem none_or_some (h : RowsAlike P existing existing') :
    existing = none ∧ existing' = none ∨ ∃ r r', existing = some r ∧ existing' = some r' ∧
      r.properties = r'.properties ∧ r.token.Alike P r'.token := by
  have hproperties := h.properties
  cases existing with
  | none =>
    cases existing' with
    | none => exact .inl ⟨rfl, rfl⟩
    | some r' => cases hproperties
  | some r =>
    cases existing' with
    | none => cases hproperties
    | some r' => exact .inr ⟨r, r', rfl, rfl, Option.some.inj hproperties, h.token r r' rfl rfl⟩

end RowsAlike

namespace BatchOp

/-- The same operation but for the token that it names. -/
inductive Alike (P : Pairing UInt64) : BatchOp → BatchOp → Prop
  | insert (row : String) (p : Properties) : Alike P (.insert row p) (.insert row p)
  | merge (row : String) (p : Properties) {t t' : Token} (h : t.Alike P t') :
      Alike P (.merge row p t) (.merge row p t')
  | replace (row : String) (p : Properties) {t t' : Token} (h : t.Alike P t') :
      Alike P (.replace row p t) (.replace row p t')
  | delete (row : String) {t t' : Token} (h : t.Alike P t') :
      Alike P (.delete row t) (.delete row t')

namespace Alike

variable {op op' : BatchOp} {existing existing' : Option Row}

theorem row_eq (h : Alike P op op') : op.row = op'.row := by
  cases h <;> rfl

theorem payloadSize_eq (h : Alike P op op') : op.payloadSize = op'.payloadSize := by
  cases h with
  | insert => rfl
  | merge _ _ h | replace _ _ h | delete _ h =>
    simp only [payloadSize, RowFormat.textSize, h.utf8ByteSize_eq]

theorem ifMatch? (h : Alike P op op') : Option.Rel (Token.Alike P) op.ifMatch? op'.ifMatch? := by
  cases h with
  | insert => exact .none
  | merge _ _ h | replace _ _ h | delete _ h => exact .some h

theorem rejection?_eq (h : Alike P op op') (hrows : RowsAlike P existing existing') :
    op.rejection? existing = op'.rejection? existing' := by
  have hmatch := h.ifMatch?
  unfold rejection?
  generalize op.ifMatch? = named, op'.ifMatch? = named' at hmatch
  rcases hrows.none_or_some with ⟨rfl, rfl⟩ | ⟨r, r', rfl, rfl, _, htoken⟩
  · cases hmatch <;> rfl
  · cases hmatch with
    | none => rfl
    | some hnamed => simp only [htoken.eq_iff hnamed]

theorem leaves_eq (h : Alike P op op') (hrows : RowsAlike P existing existing') :
    op.leaves existing = op'.leaves existing' := by
  rw [op.leaves_congr hrows.properties]
  cases h <;> rfl

end Alike

end BatchOp

namespace Batch

variable {look look' : String → Option Row} {ops ops' : List BatchOp}

theorem sameAt_of_alike (h : List.Forall₂ (BatchOp.Alike P) ops ops')
    (hrows : ∀ row, RowsAlike P (look row) (look' row)) :
    List.Forall₂ (SameAt look look') ops ops' :=
  h.imp fun op op' hop => by
    have hrow : RowsAlike P (look op.row) (look' op'.row) := hop.row_eq ▸ hrows op.row
    exact ⟨hop.row_eq, hop.rejection?_eq hrow, hop.leaves_eq hrow⟩

theorem map_row_of_alike (h : List.Forall₂ (BatchOp.Alike P) ops ops') :
    ops.map BatchOp.row = ops'.map BatchOp.row := by
  induction h with
  | nil => rfl
  | cons hop _ ih => rw [List.map_cons, List.map_cons, hop.row_eq, ih]

theorem accept_of_alike (h : List.Forall₂ (BatchOp.Alike P) ops ops') (limits : Limits)
    (table partition : String) :
    accept limits table partition ops = accept limits table partition ops' := by
  apply accept_congr (map_row_of_alike h)
  induction h with
  | nil => rfl
  | cons hop _ ih => rw [List.map_cons, List.map_cons, hop.payloadSize_eq, ih]

end Batch

end UnitOfWork
