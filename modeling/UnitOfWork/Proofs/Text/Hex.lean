import Mathlib.Algebra.Group.Nat.Defs
import UnitOfWork.Proofs.Text.Order
import UnitOfWork.Text.Hex

/-!
Hexadecimal digits take one byte each, and those of numbers in one width are ordered as the numbers
are. What is written of bytes spells them, and can be read back.
-/

namespace UnitOfWork.Hex

theorem digitValue?_digit (n : Nat) : digitValue? (digit n) = some (n % 16) := by
  have hn : n % 16 < 16 := Nat.mod_lt _ (by decide)
  unfold digit
  generalize n % 16 = d at hn
  revert d
  decide

theorem toNat_digit (n : Nat) :
    (digit n).toNat = if n % 16 < 10 then 48 + n % 16 else 87 + n % 16 := by
  have hn : n % 16 < 16 := Nat.mod_lt _ (by decide)
  unfold digit
  generalize n % 16 = d at hn
  revert d
  decide

theorem digit_lt_digit_iff {n m : Nat} : digit n < digit m ↔ n % 16 < m % 16 := by
  have hn := toNat_digit n
  have hm := toNat_digit m
  rw [Char.lt_def, UInt32.lt_iff_toNat_lt]
  change (digit n).toNat < (digit m).toNat ↔ _
  split at hn <;> split at hm <;> omega

/-- The ten figures and the six lower-case letters. -/
def IsDigit (c : Char) : Prop := '0' ≤ c ∧ c ≤ '9' ∨ 'a' ≤ c ∧ c ≤ 'f'

theorem isDigit_of_digitValue? {c : Char} {n : Nat} (h : digitValue? c = some n) : IsDigit c := by
  unfold digitValue? at h
  split at h
  · rename_i hfigure
    exact .inl hfigure
  split at h
  · rename_i hletter
    exact .inr hletter
  · cases h

theorem IsDigit.toNat_bounds {c : Char} (h : IsDigit c) :
    48 ≤ c.toNat ∧ c.toNat ≤ 57 ∨ 97 ≤ c.toNat ∧ c.toNat ≤ 102 := h

theorem IsDigit.utf8Size_eq {c : Char} (h : IsDigit c) : c.utf8Size = 1 := by
  have hbounds := h.toNat_bounds
  rw [Char.utf8Size_eq_one_iff, UInt32.le_iff_toNat_le]
  change c.toNat ≤ 127
  omega

/-- A text of digits has one byte for each. -/
theorem utf8ByteSize_ofList {cs : List Char} (h : ∀ c ∈ cs, IsDigit c) :
    (String.ofList cs).utf8ByteSize = cs.length := by
  have hsizes : cs.map Char.utf8Size = List.replicate cs.length 1 :=
    List.map_eq_replicate_iff.2 fun c hc => (h c hc).utf8Size_eq
  rw [Text.utf8ByteSize_ofList, hsizes, List.sum_replicate_nat, Nat.mul_one]

theorem isDigit_of_mem_digits {count n : Nat} : ∀ c ∈ digits count n, IsDigit c := by
  induction count generalizing n with
  | zero => nofun
  | succ count ih =>
    intro c hc
    rcases List.mem_append.1 hc with hhigh | hlow
    · exact ih c hhigh
    · rw [List.mem_singleton.1 hlow]
      exact isDigit_of_digitValue? (digitValue?_digit n)

@[simp] theorem length_digits (count n : Nat) : (digits count n).length = count := by
  induction count generalizing n with
  | zero => rfl
  | succ count ih => rw [digits, List.length_append, ih, List.length_singleton]

/-- Numbers that fit into the width are told apart by their digits. -/
theorem digits_injective {count n m : Nat} (hn : n < 16 ^ count) (hm : m < 16 ^ count)
    (h : digits count n = digits count m) : n = m := by
  induction count generalizing n m with
  | zero => omega
  | succ count ih =>
    obtain ⟨hhigh, hlow⟩ := List.append_inj' h rfl
    have hdigit := congrArg digitValue? (List.singleton_inj.1 hlow)
    rw [digitValue?_digit, digitValue?_digit, Option.some.injEq] at hdigit
    have hdiv : n / 16 = m / 16 := by
      rw [Nat.pow_succ'] at hn hm
      exact ih (Nat.div_lt_of_lt_mul hn) (Nat.div_lt_of_lt_mul hm) hhigh
    omega

/-- Numbers that fit into the width are ordered as their digits are. -/
theorem digits_lt_digits_iff {count n m : Nat} (hn : n < 16 ^ count) (hm : m < 16 ^ count) :
    digits count n < digits count m ↔ n < m := by
  induction count generalizing n m with
  | zero =>
    rw [Nat.pow_zero, Nat.lt_one_iff] at hn hm
    simp [digits, hn, hm]
  | succ count ih =>
    rw [Nat.pow_succ'] at hn hm
    have hn' : n / 16 < 16 ^ count := Nat.div_lt_of_lt_mul hn
    have hm' : m / 16 < 16 ^ count := Nat.div_lt_of_lt_mul hm
    have hhigh : digits count (n / 16) = digits count (m / 16) ↔ n / 16 = m / 16 :=
      ⟨digits_injective hn' hm', fun h => by rw [h]⟩
    have hlow : [digit n] < [digit m] ↔ n % 16 < m % 16 := by
      rw [← digit_lt_digit_iff]
      simp [List.cons_lt_cons_iff]
    rw [digits, digits, Text.append_lt_append_iff (by simp), ih hn' hm', hhigh, hlow]
    -- the larger number has the larger high digits, or the same ones and a larger last digit
    omega

section Bytes

/-- Digits that spell bytes one after the other, the high half of each byte first. -/
inductive Spells : List Char → List UInt8 → Prop
  | nil : Spells [] []
  | cons {high low : Char} {b : UInt8} {cs : List Char} {bytes : List UInt8}
      (hhigh : digitValue? high = some (b.toNat / 16))
      (hlow : digitValue? low = some (b.toNat % 16)) (rest : Spells cs bytes) :
      Spells (high :: low :: cs) (b :: bytes)

theorem spells_encode (bytes : List UInt8) : Spells (encode bytes).toList bytes := by
  rw [encode, String.toList_ofList]
  induction bytes with
  | nil => exact .nil
  | cons b bytes ih =>
    have hhigh : b.toNat / 16 % 16 = b.toNat / 16 :=
      Nat.mod_eq_of_lt (Nat.div_lt_of_lt_mul b.toNat_lt)
    refine .cons ?_ (digitValue?_digit b.toNat) ih
    rw [digitValue?_digit, hhigh]

namespace Spells

variable {cs : List Char} {bytes : List UInt8}

theorem length_eq (h : Spells cs bytes) : cs.length = 2 * bytes.length := by
  induction h with
  | nil => rfl
  | cons _ _ _ ih =>
    rw [List.length_cons, List.length_cons, List.length_cons, ih, Nat.mul_succ]

theorem isDigit (h : Spells cs bytes) : ∀ c ∈ cs, IsDigit c := by
  induction h with
  | nil => nofun
  | cons hhigh hlow _ ih =>
    rw [List.forall_mem_cons, List.forall_mem_cons]
    exact ⟨isDigit_of_digitValue? hhigh, isDigit_of_digitValue? hlow, ih⟩

theorem decodeOnto_eq (h : Spells cs bytes) (done : List UInt8) :
    decodeOnto done cs = some (done.reverse ++ bytes) := by
  induction h generalizing done with
  | nil => rw [decodeOnto, List.append_nil]
  | @cons high low b cs bytes hhigh hlow _ ih =>
    have hbyte : UInt8.ofNat (16 * (b.toNat / 16) + b.toNat % 16) = b := by
      rw [Nat.div_add_mod, UInt8.ofNat_toNat]
    rw [decodeOnto, hhigh, hlow]
    dsimp only
    rw [ih, hbyte, List.reverse_cons, List.append_assoc, List.singleton_append]

end Spells

@[simp] theorem decode?_encode (bytes : List UInt8) : decode? (encode bytes) = some bytes :=
  (spells_encode bytes).decodeOnto_eq []

theorem encode_injective {bytes bytes' : List UInt8} (h : encode bytes = encode bytes') :
    bytes = bytes' := by
  simpa using congrArg decode? h

theorem utf8ByteSize_encode (bytes : List UInt8) :
    (encode bytes).utf8ByteSize = 2 * bytes.length := by
  have hspells := spells_encode bytes
  rw [← String.ofList_toList (s := encode bytes), utf8ByteSize_ofList hspells.isDigit,
    hspells.length_eq]

end Bytes

end UnitOfWork.Hex
