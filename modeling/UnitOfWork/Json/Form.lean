import UnitOfWork.Json.Document
import UnitOfWork.Duration

/-! Documents of plain types, and the fields of records. -/

namespace UnitOfWork

/-- Types with a form as a document. -/
class Documented (α : Type) where
  write : α → Document
  read? : Document → Option α

namespace Document

/-- An integer from `low` on and below `high`. -/
def intIn? (low high : Int) : Document → Option Int
  | .integer n => if low ≤ n ∧ n < high then some n else none
  | _ => none

/-- An unsigned integer of 64 bits. -/
def nat? (d : Document) : Option Nat := (d.intIn? 0 UInt64.size).map Int.toNat

def byte? (d : Document) : Option UInt8 := (d.intIn? 0 256).map fun n => UInt8.ofNat n.toNat

def bool? : Document → Option Bool
  | .bool b => some b
  | _ => none

def text? : Document → Option String
  | .text s => some s
  | _ => none

def list? : Document → Option (List Document)
  | .list items => some items
  | _ => none

/-- A double from any number; integers are rounded to the nearest double. -/
def double? : Document → Option Double
  | .double d => some d
  | .integer n => Double.ofDecimal? (n < 0) n.natAbs 0
  | _ => none

/-- Null for nothing. -/
def orNull {α : Type} (write : α → Document) : Option α → Document
  | some a => write a
  | none => .null

/--
The named fields of a record. An object may leave fields out and have others beside them; a list
has exactly the fields in their order.
-/
def record? (names : List String) : Document → Option (List (Option Document))
  | .object fields => some (names.map (Document.object fields).field?)
  | .list items => if items.length = names.length then some (items.map some) else none
  | _ => none

/-- A field that must be there. -/
def required {α : Type} (read? : Document → Option α) (field : Option Document) : Option α :=
  field.bind read?

/-- A field that may be missing or null. -/
def optional {α : Type} (read? : Document → Option α) : Option Document → Option (Option α)
  | none | some .null => some none
  | some d => (read? d).map some

end Document

namespace Duration

def write (d : Duration) : Document :=
  .object [("secs", .integer d.seconds), ("nanos", .integer d.nanos)]

/-- Only the two fields, and no other; whole seconds among the nanoseconds are carried over. -/
def read? (d : Document) : Option Duration := do
  let known : Bool :=
    match d with
    | .object fields => fields.all fun (name, _) => name = "secs" || name = "nanos"
    | _ => true
  if !known then none
  else
    match ← d.record? ["secs", "nanos"] with
    | [seconds, nanos] =>
      let seconds ← Document.required Document.nat? seconds
      let nanos ← Document.required (Document.intIn? 0 UInt32.size) nanos
      let seconds := seconds + nanos.toNat / nanosPerSecond
      if seconds < UInt64.size then some ⟨seconds, nanos.toNat % nanosPerSecond⟩ else none
    | _ => none

instance : Documented Duration := ⟨write, read?⟩

end Duration

end UnitOfWork
