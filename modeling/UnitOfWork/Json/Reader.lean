import UnitOfWork.Json.Document

/-! Reading JSON texts. -/

namespace UnitOfWork.Document

/-- The white space of JSON. -/
def isSpace (c : Char) : Bool := c = ' ' || c = '\t' || c = '\n' || c = '\r'

def skipSpace (cs : List Char) : List Char := cs.dropWhile isSpace

/-- The value of decimal digits. -/
def digitsValue (digits : List Char) : Nat :=
  digits.foldl (fun n c => 10 * n + (c.toNat - '0'.toNat)) 0

/-- A run of at least one digit and the rest. -/
def takeDigits? (cs : List Char) : Option (List Char × List Char) :=
  let digits := cs.takeWhile Char.isDigit
  if digits.isEmpty then none else some (digits, cs.dropWhile Char.isDigit)

/-- An exponent part, zero if there is none. -/
def readExponent? (cs : List Char) : Option (Option Int × List Char) :=
  match cs with
  | c :: rest =>
    if c = 'e' ∨ c = 'E' then
      let (negative, rest) :=
        match rest with
        | '+' :: rest => (false, rest)
        | '-' :: rest => (true, rest)
        | rest => (false, rest)
      (takeDigits? rest).map fun (digits, rest) =>
        let n : Int := digitsValue digits
        (some (if negative then -n else n), rest)
    else some (none, cs)
  | [] => some (none, [])

def readFraction? (cs : List Char) : Option (Option (List Char) × List Char) :=
  match cs with
  | '.' :: rest => (takeDigits? rest).map fun (digits, rest) => (some digits, rest)
  | _ => some (none, cs)

/-- Appends digits to a numeral while it fits into 64 bits; beside it stand the digits left over. -/
def absorb (m : Nat) : List Char → Nat × List Char
  | [] => (m, [])
  | c :: rest =>
    let longer := 10 * m + (c.toNat - '0'.toNat)
    if longer < UInt64.size then absorb longer rest else (m, c :: rest)

/--
The document of a number: an integer only if it is written as one and fits into 64 bits, and else
the double of the leading digits that fit, scaled by the power of ten that they lack.
-/
def ofNumber? (negative : Bool) (whole : List Char) (fraction : Option (List Char))
    (exponent : Option Int) : Option Document :=
  let (m, left) := absorb 0 whole
  let n : Int := if negative then -(m : Int) else m
  if fraction.isNone ∧ exponent.isNone ∧ left.isEmpty ∧ ¬(negative ∧ m = 0) ∧
      -0x8000000000000000 ≤ n then
    some (.integer n)
  else
    let digits := fraction.getD []
    let (m, unused) := absorb m digits
    let power : Int := left.length + unused.length - digits.length + exponent.getD 0
    (Double.scale? m power).map fun d => .double (d.withSign negative)

def readNumber? (cs : List Char) : Option (Document × List Char) := do
  let (negative, cs) :=
    match cs with
    | '-' :: rest => (true, rest)
    | _ => (false, cs)
  let (whole, rest) ← takeDigits? cs
  if whole.length > 1 ∧ whole.head? = some '0' then none
  else
    let (fraction, rest) ← readFraction? rest
    let (exponent, rest) ← readExponent? rest
    let d ← ofNumber? negative whole fraction exponent
    some (d, rest)

def hexDigit? (c : Char) : Option Nat := Hex.digitValue? c.toLower

def readUnit? : List Char → Option (Nat × List Char)
  | a :: b :: c :: d :: rest => do
    let n := ((← hexDigit? a) * 16 + (← hexDigit? b)) * 256 + (← hexDigit? c) * 16 + (← hexDigit? d)
    some (n, rest)
  | _ => none

/-- The character of a `\u` escape, of two for a pair of surrogates. -/
def readCodePoint? (cs : List Char) : Option (Char × List Char) := do
  let (n, rest) ← readUnit? cs
  if 0xd800 ≤ n ∧ n < 0xdc00 then
    match rest with
    | '\\' :: 'u' :: rest =>
      let (m, rest) ← readUnit? rest
      if 0xdc00 ≤ m ∧ m < 0xe000 then
        some (Char.ofNat (0x10000 + (n - 0xd800) * 0x400 + (m - 0xdc00)), rest)
      else none
    | _ => none
  else if 0xdc00 ≤ n ∧ n < 0xe000 then none
  else some (Char.ofNat n, rest)

def readEscape? : List Char → Option (Char × List Char)
  | '"' :: rest => some ('"', rest)
  | '\\' :: rest => some ('\\', rest)
  | '/' :: rest => some ('/', rest)
  | 'b' :: rest => some (Char.ofNat 8, rest)
  | 'f' :: rest => some (Char.ofNat 12, rest)
  | 'n' :: rest => some ('\n', rest)
  | 'r' :: rest => some ('\r', rest)
  | 't' :: rest => some ('\t', rest)
  | 'u' :: rest => readCodePoint? rest
  | _ => none

/-- The rest of a string after its opening quote; `done` holds what came before, last first. -/
def readString? : Nat → List Char → List Char → Option (String × List Char)
  | 0, _, _ => none
  | fuel + 1, done, cs =>
    match cs with
    | '"' :: rest => some (String.ofList done.reverse, rest)
    | '\\' :: rest =>
      match readEscape? rest with
      | some (c, rest) => readString? fuel (c :: done) rest
      | none => none
    | c :: rest => if c.toNat < 0x20 then none else readString? fuel (c :: done) rest
    | [] => none

/-- The rest of a fixed word. -/
def readWord? (word : String) (cs : List Char) : Option (List Char) :=
  let letters := word.toList
  if letters.isPrefixOf cs then some (cs.drop letters.length) else none

mutual

/-- A document at the front of a text; every character read costs some of the fuel. -/
def readValue? : Nat → List Char → Option (Document × List Char)
  | 0, _ => none
  | fuel + 1, cs =>
    let cs := skipSpace cs
    match cs with
    | '"' :: rest => (readString? (fuel + 1) [] rest).map fun (s, rest) => (.text s, rest)
    | '[' :: rest =>
      match skipSpace rest with
      | ']' :: rest => some (.list [], rest)
      | rest => readItems? fuel [] rest
    | '\x7b' :: rest =>
      match skipSpace rest with
      | '\x7d' :: rest => some (.object [], rest)
      | rest => readFields? fuel [] rest
    | 'n' :: _ => (readWord? "null" cs).map (.null, ·)
    | 't' :: _ => (readWord? "true" cs).map (.bool true, ·)
    | 'f' :: _ => (readWord? "false" cs).map (.bool false, ·)
    | _ => readNumber? cs

def readItems? : Nat → List Document → List Char → Option (Document × List Char)
  | 0, _, _ => none
  | fuel + 1, done, cs =>
    match readValue? fuel cs with
    | none => none
    | some (d, rest) =>
      match skipSpace rest with
      | ',' :: rest => readItems? fuel (d :: done) rest
      | ']' :: rest => some (.list (d :: done).reverse, rest)
      | _ => none

def readFields? : Nat → List (String × Document) → List Char → Option (Document × List Char)
  | 0, _, _ => none
  | fuel + 1, done, cs =>
    match skipSpace cs with
    | '"' :: rest =>
      match readString? (fuel + 1) [] rest with
      | none => none
      | some (name, rest) =>
        match skipSpace rest with
        | ':' :: rest =>
          match readValue? fuel rest with
          | none => none
          | some (d, rest) =>
            match skipSpace rest with
            | ',' :: rest => readFields? fuel ((name, d) :: done) rest
            | '\x7d' :: rest => some (.object ((name, d) :: done).reverse, rest)
            | _ => none
        | _ => none
    | _ => none

end

/-- The document that a text spells, if it spells one. -/
def parse? (s : String) : Option Document :=
  let cs := s.toList
  match readValue? (2 * cs.length + 2) cs with
  | some (d, rest) => if (skipSpace rest).isEmpty then some d else none
  | none => none

end UnitOfWork.Document
