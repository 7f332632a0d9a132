import UnitOfWork.Json.Decimal
import UnitOfWork.Text.Hex

/-! JSON documents and their text. -/

namespace UnitOfWork

/-- A JSON document; integers that fit into 64 bits are kept apart from other numbers. -/
inductive Document
  | null
  | bool (b : Bool)
  | integer (n : Int)
  | double (d : Double)
  | text (s : String)
  | list (items : List Document)
  | object (fields : List (String × Document))
deriving Inhabited

namespace Document

/-- A field of an object; the last one of a name counts. -/
def field? (d : Document) (name : String) : Option Document :=
  match d with
  | .object fields => (fields.reverse.find? (·.1 = name)).map (·.2)
  | _ => none

/-- A four-digit escape of a sixteen-bit unit. -/
def unitEscape (n : Nat) : String := "\\u" ++ String.ofList (Hex.digits 4 n)

/-- A character in a JSON text, with all but printable ASCII escaped. -/
def escape (c : Char) : String :=
  let n := c.toNat
  if c = '"' then "\\\""
  else if c = '\\' then "\\\\"
  else if 0x20 ≤ n ∧ n < 0x7f then c.toString
  else if n < 0x10000 then unitEscape n
  else unitEscape (0xd800 + (n - 0x10000) / 0x400) ++ unitEscape (0xdc00 + (n - 0x10000) % 0x400)

def quote (s : String) : String := "\"" ++ String.join (s.toList.map escape) ++ "\""

mutual

/-- The text of a document, without white space. A number that is not finite is written as null. -/
def render : Document → String
  | .null => "null"
  | .bool b => if b then "true" else "false"
  | .integer n => toString n
  | .double d => if d.isFinite then d.text else "null"
  | .text s => quote s
  | .list items => "[" ++ ",".intercalate (renderItems items) ++ "]"
  | .object fields => "\x7b" ++ ",".intercalate (renderFields fields) ++ "\x7d"

def renderItems : List Document → List String
  | [] => []
  | d :: rest => render d :: renderItems rest

def renderFields : List (String × Document) → List String
  | [] => []
  | (name, d) :: rest => (quote name ++ ":" ++ render d) :: renderFields rest

end

end Document

end UnitOfWork
