import UnitOfWork.Proofs.RowFormat.Row

/-!
The stored form of rows told apart from its writer and its reader: which bytes spell a number, a
text, a value and a row. Every row whose lengths are 64-bit numbers has one spelling, the one that
is written, and it is found again in front of whatever follows it.
-/

namespace UnitOfWork

namespace RowFormat

/-- A field of fixed width holds a number, its least significant byte first. -/
def SpellsField (width n : Nat) (bytes : List UInt8) : Prop :=
  bytes.length = width ∧ ofLittleEndian bytes = n

/-- A number up to 250 is its own byte, and a larger one has a marker before the narrowest field of
two, four or eight bytes that holds it. -/
inductive SpellsNat : Nat → List UInt8 → Prop
  | byte {b : UInt8} (h : b.toNat ≤ 250) : SpellsNat b.toNat [b]
  | two {n : Nat} {field : List UInt8} (h : 250 < n) (hfield : SpellsField 2 n field) :
      SpellsNat n (251 :: field)
  | four {n : Nat} {field : List UInt8} (h : 2 ^ 16 ≤ n) (hfield : SpellsField 4 n field) :
      SpellsNat n (252 :: field)
  | eight {n : Nat} {field : List UInt8} (h : 2 ^ 32 ≤ n) (hfield : SpellsField 8 n field) :
      SpellsNat n (253 :: field)

/-- The signed numbers 0, -1, 1, -2 are spelled as 0, 1, 2, 3. -/
def SpellsInt : Int → List UInt8 → Prop
  | .ofNat k => SpellsNat (2 * k)
  | .negSucc k => SpellsNat (2 * k + 1)

/-- The length stands before the bytes. -/
inductive SpellsBytes (content : List UInt8) : List UInt8 → Prop
  | mk {length : List UInt8} (h : SpellsNat content.length length) :
      SpellsBytes content (length ++ content)

def SpellsText (s : String) : List UInt8 → Prop := SpellsBytes (Text.utf8 s)

end RowFormat

open RowFormat

/-- A value is spelled as the number of its kind and its content. -/
inductive Value.Spells : Value → List UInt8 → Prop
  | text {s : String} {bytes : List UInt8} (h : SpellsText s bytes) : Spells (.text s) (0 :: bytes)
  | int32 {n : Int32} {bytes : List UInt8} (h : SpellsInt n.toInt bytes) :
      Spells (.int32 n) (1 :: bytes)
  | int64 {n : Int64} {bytes : List UInt8} (h : SpellsInt n.toInt bytes) :
      Spells (.int64 n) (2 :: bytes)
  | double {d : Double} {bytes : List UInt8} (h : SpellsField 8 d.bits.toNat bytes) :
      Spells (.double d) (3 :: bytes)
  | bool (b : Bool) : Spells (.bool b) [4, if b then 1 else 0]
  | binary {content bytes : List UInt8} (h : SpellsBytes content bytes) :
      Spells (.binary content) (5 :: bytes)

namespace Properties

/-- Names and values by turns. -/
inductive SpellsEntries : List (String × Value) → List UInt8 → Prop
  | nil : SpellsEntries [] []
  | cons {name : String} {value : Value} {entries : List (String × Value)}
      {nameBytes valueBytes bytes : List UInt8} (hname : SpellsText name nameBytes)
      (hvalue : value.Spells valueBytes) (h : SpellsEntries entries bytes) :
      SpellsEntries ((name, value) :: entries) (nameBytes ++ valueBytes ++ bytes)

/-- The count of the properties stands before them, and they come in the order of their names. -/
inductive Spells (p : Properties) : List UInt8 → Prop
  | mk {count bytes : List UInt8} (hcount : SpellsNat p.entries.length count)
      (h : SpellsEntries p.entries bytes) : Spells p (count ++ bytes)

end Properties

/-- A row is spelled as its token and its properties. -/
inductive Row.Spells (r : Row) : List UInt8 → Prop
  | mk {token properties : List UInt8} (htoken : SpellsText r.token.text token)
      (h : Properties.Spells r.properties properties) : Row.Spells r (token ++ properties)

namespace RowFormat

variable {n width : Nat} {bytes : List UInt8}

@[simp] theorem ofLittleEndian_cons (b : UInt8) (bytes : List UInt8) :
    ofLittleEndian (b :: bytes) = b.toNat + 256 * ofLittleEndian bytes := rfl

theorem ofLittleEndian_lt (bytes : List UInt8) : ofLittleEndian bytes < 256 ^ bytes.length := by
  induction bytes with
  | nil => simp [ofLittleEndian]
  | cons b bytes ih =>
    have hb : b.toNat < 256 := b.toNat_lt
    rw [ofLittleEndian_cons, List.length_cons, Nat.pow_succ]
    omega

/-- A field is what is written for the number that it holds. -/
theorem littleEndian_ofLittleEndian (bytes : List UInt8) :
    littleEndian bytes.length (ofLittleEndian bytes) = bytes := by
  induction bytes with
  | nil => rfl
  | cons b bytes ih =>
    have hb : b.toNat < 256 := b.toNat_lt
    have hfirst : UInt8.ofNat (b.toNat + 256 * ofLittleEndian bytes) = b := by
      apply UInt8.toNat_inj.1
      rw [UInt8.toNat_ofNat']
      omega
    have hrest : (b.toNat + 256 * ofLittleEndian bytes) / 256 = ofLittleEndian bytes := by omega
    rw [ofLittleEndian_cons, List.length_cons, littleEndian, hfirst, hrest, ih]

theorem spellsField_iff (h : n < 256 ^ width) :
    SpellsField width n bytes ↔ bytes = littleEndian width n := by
  constructor
  · rintro ⟨rfl, rfl⟩
    exact (littleEndian_ofLittleEndian bytes).symm
  · rintro rfl
    exact ⟨length_littleEndian width n, ofLittleEndian_littleEndian h⟩

theorem SpellsField.lt (h : SpellsField width n bytes) : n < 256 ^ width := by
  obtain ⟨rfl, rfl⟩ := h
  exact ofLittleEndian_lt bytes

theorem SpellsNat.eq_encodeNat (h : SpellsNat n bytes) : bytes = encodeNat n := by
  unfold encodeNat
  cases h with
  | @byte b hb => rw [if_pos hb, UInt8.ofNat_toNat]
  | two hlow hfield =>
    have hlt := hfield.lt
    rw [if_neg (by omega), if_pos (by omega), (spellsField_iff hlt).1 hfield]
  | four hlow hfield =>
    have hlt := hfield.lt
    rw [if_neg (by omega), if_neg (by omega), if_pos (by omega), (spellsField_iff hlt).1 hfield]
  | eight hlow hfield =>
    have hlt := hfield.lt
    rw [if_neg (by omega), if_neg (by omega), if_neg (by omega), (spellsField_iff hlt).1 hfield]

theorem spellsNat_encodeNat (h : n < 2 ^ 64) : SpellsNat n (encodeNat n) := by
  unfold encodeNat
  split
  · rename_i hbyte
    have hn : (UInt8.ofNat n).toNat = n := by
      rw [UInt8.toNat_ofNat']
      omega
    have hspells := SpellsNat.byte (b := UInt8.ofNat n) (by omega)
    rwa [hn] at hspells
  split
  · exact .two (by omega) ((spellsField_iff (by omega)).2 rfl)
  split
  · exact .four (by omega) ((spellsField_iff (by omega)).2 rfl)
  · exact .eight (by omega) ((spellsField_iff (by omega)).2 rfl)

theorem spellsNat_iff (h : n < 2 ^ 64) : SpellsNat n bytes ↔ bytes = encodeNat n := by
  constructor
  · exact SpellsNat.eq_encodeNat
  · rintro rfl
    exact spellsNat_encodeNat h

example : [250, 251, 2 ^ 16, 2 ^ 32].map encodeNat =
    [[250], [251, 251, 0], [252, 0, 0, 1, 0], [253, 0, 0, 0, 0, 1, 0, 0, 0]] := by decide

theorem spellsInt_iff {n : Int} (h : zigzag n < 2 ^ 64) :
    SpellsInt n bytes ↔ bytes = encodeNat (zigzag n) := by
  have hfold : SpellsInt n bytes ↔ SpellsNat (zigzag n) bytes := by
    cases n with
    | ofNat k =>
      have hk : zigzag (.ofNat k) = 2 * k := by simp [zigzag]
      rw [hk]
      rfl
    | negSucc k =>
      have hk : zigzag (.negSucc k) = 2 * k + 1 := by
        unfold zigzag
        split <;> omega
      rw [hk]
      rfl
  rw [hfold, spellsNat_iff h]

theorem spellsBytes_iff {content : List UInt8} (h : content.length < 2 ^ 64) :
    SpellsBytes content bytes ↔ bytes = encodeBytes content := by
  constructor
  · rintro ⟨hlength⟩
    rw [encodeBytes, ← hlength.eq_encodeNat]
  · rintro rfl
    exact .mk (spellsNat_encodeNat h)

theorem spellsText_iff {s : String} (h : s.utf8ByteSize < 2 ^ 64) :
    SpellsText s bytes ↔ bytes = encodeText s := by
  rw [← Text.length_utf8] at h
  exact spellsBytes_iff h

end RowFormat

theorem Value.spells_iff {v : Value} (h : v.Fits) (bytes : List UInt8) :
    v.Spells bytes ↔ bytes = v.encode := by
  constructor
  · intro hspells
    cases hspells with
    | text hcontent =>
      rw [(spellsText_iff h).1 hcontent]
      rfl
    | @int32 n content hcontent =>
      have hn : zigzag n.toInt < 2 ^ 32 := Value.zigzag_lt n.le_toInt n.toInt_lt
      rw [(spellsInt_iff (by omega)).1 hcontent]
      rfl
    | @int64 n content hcontent =>
      have hn : zigzag n.toInt < 2 ^ 64 := Value.zigzag_lt n.le_toInt n.toInt_lt
      rw [(spellsInt_iff hn).1 hcontent]
      rfl
    | @double d content hcontent =>
      rw [(spellsField_iff d.bits.toNat_lt).1 hcontent]
      rfl
    | bool b => rfl
    | binary hcontent =>
      rw [(spellsBytes_iff h).1 hcontent]
      rfl
  · rintro rfl
    cases v with
    | text s => exact .text ((spellsText_iff h).2 rfl)
    | int32 n =>
      have hn : zigzag n.toInt < 2 ^ 32 := Value.zigzag_lt n.le_toInt n.toInt_lt
      exact .int32 ((spellsInt_iff (by omega)).2 rfl)
    | int64 n =>
      have hn : zigzag n.toInt < 2 ^ 64 := Value.zigzag_lt n.le_toInt n.toInt_lt
      exact .int64 ((spellsInt_iff hn).2 rfl)
    | double d => exact .double ((spellsField_iff d.bits.toNat_lt).2 rfl)
    | bool b => exact .bool b
    | binary content => exact .binary ((spellsBytes_iff h).2 rfl)

namespace Properties

theorem spellsEntries_iff {entries : List (String × Value)}
    (h : ∀ e ∈ entries, e.1.utf8ByteSize < 2 ^ 64 ∧ e.2.Fits) (bytes : List UInt8) :
    SpellsEntries entries bytes ↔
      bytes = entries.flatMap fun (name, value) => encodeText name ++ value.encode := by
  induction entries generalizing bytes with
  | nil =>
    constructor
    · rintro ⟨⟩
      rfl
    · rintro rfl
      exact .nil
  | cons e entries ih =>
    obtain ⟨name, value⟩ := e
    obtain ⟨⟨hname, hvalue⟩, hentries⟩ := List.forall_mem_cons.1 h
    rw [List.flatMap_cons]
    constructor
    · intro hspells
      cases hspells with
      | cons hn hv hrest =>
        rw [(spellsText_iff hname).1 hn, (Value.spells_iff hvalue _).1 hv, (ih hentries _).1 hrest]
    · rintro rfl
      exact .cons ((spellsText_iff hname).2 rfl) ((Value.spells_iff hvalue _).2 rfl)
        ((ih hentries _).2 rfl)

theorem spells_iff {p : Properties} (h : p.Fits) (bytes : List UInt8) :
    Spells p bytes ↔ bytes = encode p := by
  constructor
  · rintro ⟨hcount, hentries⟩
    rw [hcount.eq_encodeNat, (spellsEntries_iff h.2 _).1 hentries]
    rfl
  · rintro rfl
    exact .mk (spellsNat_encodeNat h.1) ((spellsEntries_iff h.2 _).2 rfl)

end Properties

namespace Row

theorem spells_iff {r : Row} (h : r.Fits) (bytes : List UInt8) :
    r.Spells bytes ↔ bytes = r.encode := by
  constructor
  · rintro ⟨htoken, hproperties⟩
    rw [(spellsText_iff h.1).1 htoken, (Properties.spells_iff h.2 _).1 hproperties]
    rfl
  · rintro rfl
    exact .mk ((spellsText_iff h.1).2 rfl) ((Properties.spells_iff h.2 _).2 rfl)

/-- No row's stored form stands in front of another's. -/
theorem eq_of_encode_append {r other : Row} (h : r.Fits) (hother : other.Fits) {rest : List UInt8}
    (hrest : other.encode ++ rest = r.encode) : other = r := by
  have hr : decodeFront (r.encode ++ []) = some (r, []) := decodeFront_encode h []
  have hfront : decodeFront (other.encode ++ rest) = some (other, rest) :=
    decodeFront_encode hother rest
  rw [List.append_nil, ← hrest, hfront] at hr
  exact congrArg Prod.fst (Option.some.inj hr)

/-- The stored form of a row is the row's only spelling. It is read back as the row whatever bytes
follow it, and no other row has the same form or one that it begins with. -/
theorem stored_form_is_exact (r : Row) (h : r.Fits) :
    (∀ bytes, r.Spells bytes ↔ bytes = r.encode) ∧
      (∀ rest, decode? (r.encode ++ rest) = some r) ∧
      ∀ other : Row, other.Fits → other ≠ r →
        other.encode ≠ r.encode ∧ ¬ other.encode <+: r.encode := by
  refine ⟨spells_iff h, ?_, ?_⟩
  · intro rest
    rw [decode?, decodeFront_encode h rest]
    rfl
  · intro other hother hne
    have hfront : ¬ other.encode <+: r.encode := by
      rintro ⟨rest, hrest⟩
      exact hne (eq_of_encode_append h hother hrest)
    constructor
    · intro hsame
      apply hfront
      simp [hsame]
    · exact hfront

/-- A value of each kind, numbers at the ends of their ranges and a text of three hundred bytes. -/
private def manifest : Row :=
  ⟨⟨"v7"⟩, SortedMap.ofList [("label", .text (String.ofList (List.replicate 300 'a'))),
    ("low", .int32 (-2147483648)), ("high", .int64 9223372036854775807),
    ("weight", .double ⟨0x8000000000000000⟩), ("sealed", .bool true), ("seal", .binary [0, 255])]⟩

private def blankManifest : Row := ⟨⟨"v7"⟩, ∅⟩

theorem stored_form_is_exact_manifest :
    manifest.Fits ∧ blankManifest.Fits ∧ manifest.properties.entries.length = 6 ∧
      (∀ rest, decode? (manifest.encode ++ rest) = some manifest) ∧
        ¬ blankManifest.encode <+: manifest.encode := by
  have hfits : manifest.Fits := ⟨by decide +kernel, by decide +kernel⟩
  have hblank : blankManifest.Fits := ⟨by decide +kernel, by decide +kernel⟩
  have hne : blankManifest ≠ manifest := by decide +kernel
  obtain ⟨-, hread, hothers⟩ := stored_form_is_exact manifest hfits
  exact ⟨hfits, hblank, by decide +kernel, hread, (hothers blankManifest hblank hne).2⟩

end Row

end UnitOfWork
