import UnitOfWork.Table.Token
import UnitOfWork.Table.Value

/-! Rows and entities, addressed by partition key and row key. -/

namespace UnitOfWork

/-- Where a row stands inside its table. -/
structure EntityKey where
  partition : String
  row : String
deriving DecidableEq, Repr, Inhabited

namespace EntityKey

/-- Keys are ordered by partition first. -/
instance : Ord EntityKey := ⟨compareLex (compareOn partition) (compareOn row)⟩

instance : Std.TransOrd EntityKey :=
  inferInstanceAs (Std.TransCmp (compareLex (compareOn partition) (compareOn row)))

instance : Std.LawfulEqOrd EntityKey where
  eq_of_compare {a b} h := by
    have h : compareLex (compareOn partition) (compareOn row) a b = .eq := h
    obtain ⟨h1, h2⟩ := compareLex_eq_eq.1 h
    cases a
    cases b
    simp_all [compareOn]

def text (k : EntityKey) : String := k.partition ++ "/" ++ k.row

end EntityKey

/-- What is stored for a row. -/
structure Row where
  token : Token
  properties : Properties
deriving DecidableEq, Inhabited

/-- A row as it is read, with its key. -/
structure Entity where
  key : EntityKey
  token : Token
  properties : Properties
deriving DecidableEq, Inhabited

def Row.at (r : Row) (key : EntityKey) : Entity := ⟨key, r.token, r.properties⟩

end UnitOfWork
