import UnitOfWork.Proofs.RowFormat.Integer
import UnitOfWork.RowFormat.Row
import UnitOfWork.SortedMap.Lemmas

/-!
The stored form of rows: reading undoes writing for every row whose lengths and counts are 64-bit
numbers, and the token stands in front.
-/

namespace UnitOfWork

open RowFormat

namespace RowFormat

variable (rest : List UInt8)

theorem decodeBytes_encodeBytes {bytes : List UInt8} (h : bytes.length < 2 ^ 64) :
    decodeBytes (encodeBytes bytes ++ rest) = some (bytes, rest) := by
  rw [encodeBytes, List.append_assoc, decodeBytes, decodeNat_encodeNat h (.inr rfl)]
  exact takeBytes_append bytes rest

theorem decodeText_encodeText {s : String} (h : s.utf8ByteSize < 2 ^ 64) :
    decodeText (encodeText s ++ rest) = some (s, rest) := by
  rw [← Text.length_utf8] at h
  rw [encodeText, decodeText, decodeBytes_encodeBytes rest h]
  simp [Text.ofUtf8?_utf8]

end RowFormat

namespace Value

/-- Its length is a 64-bit number. -/
def Fits : Value → Prop
  | .text s => s.utf8ByteSize < 2 ^ 64
  | .binary bytes => bytes.length < 2 ^ 64
  | _ => True

instance : (v : Value) → Decidable v.Fits
  | .text s => inferInstanceAs (Decidable (s.utf8ByteSize < 2 ^ 64))
  | .binary bytes => inferInstanceAs (Decidable (bytes.length < 2 ^ 64))
  | .int32 _ | .int64 _ | .double _ | .bool _ => isTrue trivial

theorem zigzag_lt {n : Int} {bits : Nat} (hlow : -2 ^ bits ≤ n) (hhigh : n < 2 ^ bits) :
    zigzag n < 2 ^ (bits + 1) := by
  have hpow : (2 : Int) ^ bits = (2 ^ bits : Nat) := by simp
  rw [zigzag, Nat.pow_succ]
  split <;> omega

theorem decode_encode {v : Value} (h : v.Fits) (rest : List UInt8) :
    decode (v.encode ++ rest) = some (v, rest) := by
  have hvariant : ∀ k < 6, ∀ tail, decodeNat 4 (encodeNat k ++ tail) = some (k, tail) :=
    fun k hk tail => decodeNat_encodeNat (by omega) (.inl rfl) tail
  cases v with
  | text s =>
    rw [encode, List.append_assoc, decode, hvariant 0 (by decide)]
    simp [decodeText_encodeText rest h]
  | int32 n =>
    have hn := @zigzag_lt n.toInt 31 n.le_toInt n.toInt_lt
    rw [encode, List.append_assoc, decode, hvariant 1 (by decide)]
    simp [@decodeNat_encodeNat 4 _ hn (.inl rfl), unzigzag_zigzag]
  | int64 n =>
    have hn := @zigzag_lt n.toInt 63 n.le_toInt n.toInt_lt
    rw [encode, List.append_assoc, decode, hvariant 2 (by decide)]
    simp [@decodeNat_encodeNat 8 _ hn (.inr rfl), unzigzag_zigzag]
  | double d =>
    rw [encode, List.append_assoc, decode, hvariant 3 (by decide)]
    simp [@takeField_littleEndian 8 _ d.bits.toNat_lt]
  | bool b =>
    rw [encode, List.append_assoc, decode, hvariant 4 (by decide)]
    cases b <;> rfl
  | binary bytes =>
    rw [encode, List.append_assoc, decode, hvariant 5 (by decide)]
    simp [decodeBytes_encodeBytes rest h]

end Value

namespace Properties

/-- The count of properties and all their lengths are 64-bit numbers. -/
def Fits (p : Properties) : Prop :=
  p.entries.length < 2 ^ 64 ∧ ∀ e ∈ p.entries, e.1.utf8ByteSize < 2 ^ 64 ∧ e.2.Fits

instance (p : Properties) : Decidable p.Fits := inferInstanceAs (Decidable (_ ∧ _))

theorem decodeOnto_append {entries : List (String × Value)}
    (h : ∀ e ∈ entries, e.1.utf8ByteSize < 2 ^ 64 ∧ e.2.Fits) (p : Properties) (rest : List UInt8) :
    decodeOnto entries.length p
        ((entries.flatMap fun (name, value) => encodeText name ++ value.encode) ++ rest) =
      some (p.insertMany entries, rest) := by
  induction entries generalizing p with
  | nil => rfl
  | cons e entries ih =>
    obtain ⟨name, value⟩ := e
    obtain ⟨⟨hname, hvalue⟩, hentries⟩ := List.forall_mem_cons.1 h
    simp only [List.flatMap_cons, List.length_cons, decodeOnto, List.append_assoc,
      decodeText_encodeText _ hname, Value.decode_encode hvalue, Option.bind_eq_bind,
      Option.bind_some]
    exact ih hentries (p.insert name value)

theorem decode_encode {p : Properties} (h : p.Fits) (rest : List UInt8) :
    decode (encode p ++ rest) = some (p, rest) := by
  have hof : SortedMap.insertMany ∅ p.entries = p := p.ofList_entries
  rw [encode, List.append_assoc, decode, decodeNat_encodeNat h.1 (.inr rfl)]
  simp [decodeOnto_append h.2, hof]

end Properties

namespace Row

/-- All lengths and counts of the row are 64-bit numbers. -/
def Fits (r : Row) : Prop := r.token.text.utf8ByteSize < 2 ^ 64 ∧ r.properties.Fits

theorem decodeFront_encode {r : Row} (h : r.Fits) (rest : List UInt8) :
    decodeFront (r.encode ++ rest) = some (r, rest) := by
  rw [encode, List.append_assoc, decodeFront, decodeText_encodeText _ h.1]
  simp [Properties.decode_encode h.2]

theorem decode?_encode {r : Row} (h : r.Fits) : decode? r.encode = some r := by
  have := decodeFront_encode h []
  rw [List.append_nil] at this
  rw [decode?, this]
  rfl

/-- The token at the front of a stored row. -/
def storedToken? (bytes : List UInt8) : Option Token := (decodeText bytes).map fun t => ⟨t.1⟩

theorem storedToken?_encode {r : Row} (h : r.token.text.utf8ByteSize < 2 ^ 64) :
    storedToken? r.encode = some r.token := by
  rw [encode, storedToken?, decodeText_encodeText _ h]
  rfl

theorem storedToken?_of_decode? {bytes : List UInt8} {r : Row} (h : decode? bytes = some r) :
    storedToken? bytes = some r.token := by
  simp only [decode?, decodeFront, Option.bind_eq_bind, Option.map_eq_some_iff,
    Option.bind_eq_some_iff, Option.some.injEq] at h
  obtain ⟨⟨_, _⟩, ⟨⟨text, tail⟩, htext, _, _, he⟩, rfl⟩ := h
  cases he
  rw [storedToken?, htext]
  rfl

end Row

end UnitOfWork
