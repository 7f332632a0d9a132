import UnitOfWork.Text.Unprintable

/-! Characters and texts in quotes, with escapes, as messages show them. -/

namespace UnitOfWork.Text

/-- The control characters, Unicode category Cc. -/
def isControl (c : Char) : Bool := c.toNat ≤ 0x1f || (0x7f ≤ c.toNat && c.toNat ≤ 0x9f)

/-- An escape by code point: lower-case hexadecimal digits without leading zeros, in braces. -/
def codePointEscape (c : Char) : String :=
  "\\u\x7b" ++ String.ofList (Nat.toDigits 16 c.toNat) ++ "\x7d"

/-- A character inside quotes; the delimiting quote itself is escaped too. -/
def escape (delimiter c : Char) : String :=
  if c = '\\' then "\\\\"
  else if c = '\t' then "\\t"
  else if c = '\n' then "\\n"
  else if c = '\r' then "\\r"
  else if c.toNat = 0 then "\\0"
  else if c = delimiter then "\\" ++ c.toString
  else if isUnprintable c then codePointEscape c
  else c.toString

def quoteChar (c : Char) : String := "'" ++ escape '\'' c ++ "'"

def quote (s : String) : String := "\"" ++ String.join (s.toList.map (escape '"')) ++ "\""

end UnitOfWork.Text
