/-! Blank text: the characters of the Unicode property White_Space. -/

namespace UnitOfWork.Text

/-- The code points of White_Space, as closed ranges. -/
def blankRanges : List (Nat × Nat) :=
  [(0x0009, 0x000d), (0x0020, 0x0020), (0x0085, 0x0085), (0x00a0, 0x00a0), (0x1680, 0x1680),
    (0x2000, 0x200a), (0x2028, 0x2029), (0x202f, 0x202f), (0x205f, 0x205f), (0x3000, 0x3000)]

def isBlankChar (c : Char) : Bool := blankRanges.any fun r => r.1 ≤ c.toNat && c.toNat ≤ r.2

/-- Text that is empty once the white space around it is trimmed, so all of it is white space. -/
def isBlank (s : String) : Bool := s.toList.all isBlankChar

end UnitOfWork.Text
