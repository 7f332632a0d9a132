import UnitOfWork.Text.Quoted

/-! The rules for table names, partition keys and row keys. -/

namespace UnitOfWork

/-- What is wrong with a name or a key. -/
inductive NamingFault
  | empty (role : String)
  | tooLong (role : String) (bytes : Nat)
  | forbidden (role key : String) (c : Char)
  | tableName (table : String)
  | repeatedRow (row : String)
  /-- A fault in the words of whoever found it. -/
  | reported (detail : String)
deriving DecidableEq, Repr, Inhabited

def maxKeyBytes : Nat := 1024

namespace NamingFault

def message : NamingFault → String
  | .empty role => s!"{role} must not be empty"
  | .tooLong role bytes => s!"{role} is {bytes} bytes, maximum is {maxKeyBytes}"
  | .forbidden role key c => s!"{role} '{key}' contains forbidden character {Text.quoteChar c}"
  | .tableName table => s!"table name '{table}' must be 3-63 alphanumerics starting with a letter"
  | .repeatedRow row => s!"row '{row}' appears more than once in one batch"
  | .reported detail => detail

end NamingFault

/-- The characters that no key may hold. -/
def isForbiddenChar (c : Char) : Bool :=
  c = '/' || c = '\\' || c = '#' || c = '?' || Text.isControl c

/-- Keys are not empty, have at most 1024 bytes and no forbidden character. -/
def ValidKey (key : String) : Prop :=
  key ≠ "" ∧ key.utf8ByteSize ≤ maxKeyBytes ∧ key.toList.all (!isForbiddenChar ·) = true

instance (key : String) : Decidable (ValidKey key) := inferInstanceAs (Decidable (_ ∧ _ ∧ _))

/-- The first rule that a key breaks; `role` says in messages what the key is for. -/
def checkKey (role key : String) : Except NamingFault Unit :=
  if key = "" then .error (.empty role)
  else if maxKeyBytes < key.utf8ByteSize then .error (.tooLong role key.utf8ByteSize)
  else match key.toList.find? isForbiddenChar with
    | some c => .error (.forbidden role key c)
    | none => .ok ()

theorem checkKey_eq_ok_iff {role key : String} : checkKey role key = .ok () ↔ ValidKey key := by
  unfold checkKey
  split
  · rename_i h
    exact ⟨nofun, fun v => absurd h v.1⟩
  split
  · rename_i h
    exact ⟨nofun, fun v => absurd v.2.1 (Nat.not_le.2 h)⟩
  split
  · rename_i c hc
    refine ⟨nofun, fun v => ?_⟩
    have hgood := List.all_eq_true.1 v.2.2 c (List.mem_of_find?_eq_some hc)
    simp [List.find?_some hc] at hgood
  · rename_i hempty hlong _ hnone
    refine ⟨fun _ => ⟨hempty, Nat.le_of_not_lt hlong, ?_⟩, fun _ => rfl⟩
    refine List.all_eq_true.2 fun c hc => ?_
    simpa using List.find?_eq_none.1 hnone c hc

/-- Table names have 3 to 63 ASCII letters and digits and begin with a letter. -/
def ValidTableName (table : String) : Prop :=
  3 ≤ table.utf8ByteSize ∧ table.utf8ByteSize ≤ 63 ∧ table.toList.head?.any Char.isAlpha = true ∧
    table.toList.all Char.isAlphanum = true

instance (table : String) : Decidable (ValidTableName table) :=
  inferInstanceAs (Decidable (_ ∧ _ ∧ _ ∧ _))

def checkTableName (table : String) : Except NamingFault Unit :=
  if ValidTableName table then .ok () else .error (.tableName table)

theorem checkTableName_eq_ok_iff {table : String} :
    checkTableName table = .ok () ↔ ValidTableName table := by
  unfold checkTableName
  split <;> simp_all

end UnitOfWork
