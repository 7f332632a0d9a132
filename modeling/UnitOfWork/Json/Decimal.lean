import UnitOfWork.Table.Value

/-!
Doubles in decimal: the nearest double of a decimal number, the shortest text of a double, and the
scaling of a numeral by a power of ten in a few rounded steps.
-/

namespace UnitOfWork.Double

/-- The integer nearest to a quotient; of two equally near ones the even one. -/
def roundQuotient (n d : Nat) : Nat :=
  let q := n / d
  let r := n % d
  if 2 * r < d ∨ (2 * r = d ∧ q % 2 = 0) then q else q + 1

/-- The exponent of the largest power of two that is at most a positive quotient. -/
def log2Quotient (n d : Nat) : Int :=
  let k : Int := n.log2 - d.log2
  let reached := if 0 ≤ k then d <<< k.toNat ≤ n else d ≤ n <<< (-k).toNat
  if reached then k else k - 1

/-- The bits of infinity, which no finite magnitude reaches. -/
def infinityBits : Nat := 0x7ff0000000000000

/-- The double nearest to a quotient, unless it is out of range. -/
def ofQuotient? (negative : Bool) (n d : Nat) : Option Double :=
  let sign : Nat := if negative then 0x8000000000000000 else 0
  if n = 0 then some ⟨UInt64.ofNat sign⟩
  else
    let q : Int := max (log2Quotient n d - 52) (-1074)
    let m := if 0 ≤ q then roundQuotient n (d <<< q.toNat) else roundQuotient (n <<< (-q).toNat) d
    let magnitude := ((q + 1074).toNat <<< 52) + m
    if magnitude < infinityBits then some ⟨UInt64.ofNat (sign + magnitude)⟩ else none

/-- The double nearest to `m` times ten to the power `e`, unless it is out of range. -/
def ofDecimal? (negative : Bool) (m : Nat) (e : Int) : Option Double :=
  if 0 ≤ e then
    if m = 0 then ofQuotient? negative 0 1
    else if 400 < e then none
    else ofQuotient? negative (m * Nat.pow 10 e.toNat) 1
  else if 400 + m.log2 < (-e).toNat then ofQuotient? negative 0 1
  else ofQuotient? negative m (Nat.pow 10 (-e).toNat)

/-- The magnitude of a finite double as a quotient. -/
def quotient (d : Double) : Nat × Nat :=
  let exponent := (d.magnitude >>> 52).toNat
  let fraction := (d.magnitude &&& 0x000fffffffffffff).toNat
  let m := if exponent = 0 then fraction else fraction + (1 <<< 52)
  let q : Int := if exponent = 0 then -1074 else exponent - 1075
  if 0 ≤ q then (m <<< q.toNat, 1) else (m, 1 <<< (-q).toNat)

/-- The product of two magnitudes, unless it is out of range. -/
def times? (a b : Double) : Option Double :=
  let (n, d) := a.quotient
  let (p, q) := b.quotient
  ofQuotient? false (n * p) (d * q)

/-- The quotient of a magnitude by one that is not zero, unless it is out of range. -/
def over? (a b : Double) : Option Double :=
  let (n, d) := a.quotient
  let (p, q) := b.quotient
  ofQuotient? false (n * q) (d * p)

/-- The double nearest to a power of ten; the largest in range is the 308th. -/
def powerOfTen? (k : Nat) : Option Double := ofQuotient? false (Nat.pow 10 k) 1

/--
A numeral of at most 64 bits times ten to the power `e`, unless it is out of range. The numeral, the
power of ten and their product or quotient are each rounded, so the result need not be the nearest
double. A number below the smallest power of ten is divided twice.
-/
def scale? (m : Nat) (e : Int) : Option Double := do
  let f ← ofQuotient? false m 1
  if m = 0 then some f
  else if 308 < e then none
  else if 0 ≤ e then f.times? (← powerOfTen? e.toNat)
  else if -308 ≤ e then f.over? (← powerOfTen? (-e).toNat)
  else if -616 ≤ e then
    let g ← f.over? (← powerOfTen? 308)
    g.over? (← powerOfTen? (-e - 308).toNat)
  else ofQuotient? false 0 1

/-- A magnitude with a sign. -/
def withSign (negative : Bool) (d : Double) : Double :=
  if negative then ⟨d.bits ||| 0x8000000000000000⟩ else d

/-- The exponent of the largest power of ten that is at most a positive quotient. -/
def log10Quotient (n d : Nat) : Int :=
  if d ≤ n then (Nat.toDigits 10 (n / d)).length - 1
  else
    let count := (Nat.toDigits 10 (d / n)).length
    if d ≤ n * Nat.pow 10 (count - 1) then 1 - (count : Int) else -(count : Int)

/--
The neighbour of a positive double among the numbers of `places` digits that reads back, of two
the nearer one and of equally near ones the even one, as a numeral and its power of ten.
-/
def neighbour? (d : Double) (places : Nat) : Option (Nat × Int) :=
  let (n, divisor) := d.quotient
  let shift : Int := places - 1 - log10Quotient n divisor
  let (n, divisor) :=
    if 0 ≤ shift then (n * Nat.pow 10 shift.toNat, divisor)
    else (n, divisor * Nat.pow 10 (-shift).toNat)
  let low := n / divisor
  let readsBack (c : Nat) := ofDecimal? false c (-shift) = some ⟨d.magnitude⟩
  let nearer := roundQuotient n divisor
  let farther := if nearer = low then low + 1 else low
  if readsBack nearer then some (nearer, -shift)
  else if readsBack farther then some (farther, -shift)
  else none

/-- The fewest digits that read back; seventeen always do. -/
def shortest (d : Double) : Nat × Int :=
  ((List.range 17).findSome? fun i => d.neighbour? (i + 1)).getD (0, 0)

/-- A numeral times a power of ten, positional from 0.00001 on and below ten to the sixteenth. -/
def layOut (numeral : Nat) (power : Int) : String :=
  let digits := Nat.toDigits 10 numeral
  let point : Int := digits.length + power
  let zeros (n : Int) := List.replicate n.toNat '0'
  if 0 ≤ power ∧ point ≤ 16 then String.ofList (digits ++ zeros power) ++ ".0"
  else if 0 < point ∧ point ≤ 16 then
    String.ofList (digits.take point.toNat) ++ "." ++ String.ofList (digits.drop point.toNat)
  else if -5 < point ∧ point ≤ 0 then "0." ++ String.ofList (zeros (-point) ++ digits)
  else
    let fraction := if digits.length ≤ 1 then [] else '.' :: digits.drop 1
    String.ofList (digits.take 1 ++ fraction) ++ "e" ++ toString (point - 1)

def isFinite (d : Double) : Bool := d.magnitude.toNat < infinityBits

/-- The shortest text of a finite double that reads back. -/
def text (d : Double) : String :=
  let sign := if d.magnitude = d.bits then "" else "-"
  if d.isZero then sign ++ "0.0"
  else
    let (numeral, power) := d.shortest
    sign ++ layOut numeral power

end UnitOfWork.Double
