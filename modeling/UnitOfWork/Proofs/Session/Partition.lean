import UnitOfWork.Proofs.Batch.Fault
import UnitOfWork.Proofs.Store.Decision
import UnitOfWork.Proofs.Text.Hex
import UnitOfWork.Session.Partition

/-!
Partitions derived from some content. Their keys are the digests of the content, written out, which
every store accepts as a key; so it is only for the name of its table that one cannot be derived.
-/

namespace UnitOfWork

namespace Sha256

@[simp] theorem length_bigEndian (count n : Nat) : (bigEndian count n).length = count := by
  induction count generalizing n with
  | zero => rfl
  | succ count ih => rw [bigEndian, List.length_append, ih, List.length_singleton]

@[simp] theorem length_digest (message : List UInt8) : (digest message).length = 32 := by
  simp [digest, Words.toBytes]

end Sha256

namespace Hex

theorem IsDigit.isForbiddenChar_eq_false {c : Char} (h : IsDigit c) :
    isForbiddenChar c = false := by
  have hbounds := h.toNat_bounds
  rw [Bool.eq_false_iff]
  intro hforbidden
  simp only [isForbiddenChar, Text.isControl, Bool.or_eq_true, Bool.and_eq_true,
    decide_eq_true_eq] at hforbidden
  rcases hforbidden with (((rfl | rfl) | rfl) | rfl) | hcontrol
  · exact absurd hbounds (by decide)
  · exact absurd hbounds (by decide)
  · exact absurd hbounds (by decide)
  · exact absurd hbounds (by decide)
  · omega

theorem validKey_encode {bytes : List UInt8} (hnonempty : bytes ≠ [])
    (hlength : 2 * bytes.length ≤ maxKeyBytes) : ValidKey (encode bytes) := by
  refine ⟨fun h => hnonempty ?_, ?_, List.all_eq_true.2 fun c hc => ?_⟩
  · exact encode_injective (h.trans rfl)
  · rw [utf8ByteSize_encode]
    exact hlength
  · rw [((spells_encode bytes).isDigit c hc).isForbiddenChar_eq_false]
    rfl

end Hex

namespace AnyStore

variable {s : AnyStore} {table partition : String} {ops : List BatchOp}
  {timeLeft : Option Duration} {fault : NamingFault}

/-- Only the acceptance test finds fault with names. -/
theorem submit_invalidKey_iff (hs : s.Sound) :
    (TableStore.submit s table partition ops timeLeft).1 = .error (.invalidKey fault) ↔
      Batch.accept (TableStore.limits s) table partition ops = .error (.invalidKey fault) := by
  have hcases := settled hs table partition ops timeLeft
  generalize (TableStore.submit s table partition ops timeLeft).1 = answer,
    (TableStore.submit s table partition ops timeLeft).2 = s' at hcases ⊢
  cases hcases with
  | refused hrefused => simp [hrefused]
  | missing haccept hmissing =>
    rw [eq_of_access_error hmissing, haccept]
    simp
  | rejected haccept hfound hstage =>
    have hdecided := decided_of_stage_error hstage
    cases hdecided with
    | rejected => simp [haccept]
  | late haccept => simp [haccept]
  | applied haccept => simp [haccept]

/-- In a valid table and partition names are what the rows of a batch are refused for. -/
theorem submit_invalidKey_iff_firstFault (hs : s.Sound) (htable : ValidTableName table)
    (hpartition : ValidKey partition) :
    (TableStore.submit s table partition ops timeLeft).1 = .error (.invalidKey fault) ↔
      Batch.FirstFault ops fault := by
  rw [submit_invalidKey_iff hs, Batch.accept, checkTableName_eq_ok_iff.2 htable]
  exact Batch.check_eq_invalidKey_iff hpartition

end AnyStore

namespace Partition

variable {key table : String} {content : List UInt8} {p : Partition}

theorem create_eq_ok_iff : create key table = .ok p ↔ p.key = key ∧ p.table = table := by
  constructor
  · intro h
    unfold create at h
    split at h
    · cases h
      exact ⟨rfl, rfl⟩
    · cases h
    · cases h
  · rintro ⟨rfl, rfl⟩
    unfold create
    split
    · rfl
    · rename_i fault hkey
      rw [checkKey_eq_ok_iff.2 p.key_valid] at hkey
      cases hkey
    · rename_i fault hkey htable
      rw [checkTableName_eq_ok_iff.2 p.table_valid] at htable
      cases htable

theorem create_of_table_fault (hkey : ValidKey key) {fault : NamingFault}
    (htable : checkTableName table = .error fault) :
    create key table = .error (.invalidKey fault) := by
  unfold create
  split
  · rename_i hok
    rw [htable] at hok
    cases hok
  · rename_i fault' hfault
    rw [checkKey_eq_ok_iff.2 hkey] at hfault
    cases hfault
  · rename_i fault' _ hfault
    rw [htable] at hfault
    cases hfault
    rfl

theorem validKey_digest (content : List UInt8) : ValidKey (Hex.encode (Sha256.digest content)) := by
  apply Hex.validKey_encode
  · rw [← List.length_pos_iff, Sha256.length_digest]
    decide
  · rw [Sha256.length_digest]
    decide

theorem derive_eq_ok_iff : derive content table = .ok p ↔
    p.key = Hex.encode (Sha256.digest content) ∧ p.table = table := create_eq_ok_iff

theorem exists_derive_iff : (∃ p, derive content table = .ok p) ↔ ValidTableName table := by
  constructor
  · rintro ⟨p, hp⟩
    exact (derive_eq_ok_iff.1 hp).2 ▸ p.table_valid
  · intro htable
    exact ⟨⟨table, _, htable, validKey_digest content⟩, derive_eq_ok_iff.2 ⟨rfl, rfl⟩⟩

/-- The key spells the digest of some content in 64 digits, and no store takes exception to it. -/
structure IsDigestKey (content : List UInt8) (key : String) : Prop where
  length : key.toList.length = 64
  digits : ∀ c ∈ key.toList, Hex.IsDigit c
  spells : Hex.Spells key.toList (Sha256.digest content)
  decodes : Hex.decode? key = some (Sha256.digest content)
  valid : ∀ role, checkKey role key = .ok ()
  no_separator : 0 ∉ Text.utf8 key
  /-- It comes back whole from the physical key of any row. -/
  separates : ∀ table row, ValidTableName table →
    PhysicalKey.decode? (PhysicalKey.encode table key row) = some (table, key, row)
  /-- A batch for it is refused for a name only if the name is that of a row. -/
  accepted : ∀ (s : AnyStore) (table : String) (ops : List BatchOp) (timeLeft : Option Duration)
    (fault : NamingFault), s.Reachable → ValidTableName table →
      ((TableStore.submit s table key ops timeLeft).1 = .error (.invalidKey fault) ↔
        Batch.FirstFault ops fault)

theorem isDigestKey_encode (content : List UInt8) :
    IsDigestKey content (Hex.encode (Sha256.digest content)) := by
  have hvalid : ValidKey (Hex.encode (Sha256.digest content)) := validKey_digest content
  have hspells := Hex.spells_encode (Sha256.digest content)
  have hlength := hspells.length_eq
  rw [Sha256.length_digest] at hlength
  exact {
    length := hlength
    digits := hspells.isDigit
    spells := hspells
    decodes := Hex.decode?_encode _
    valid := fun _ => checkKey_eq_ok_iff.2 hvalid
    no_separator := hvalid.zero_notMem
    separates := fun _ row htable =>
      PhysicalKey.decode?_encode htable.zero_notMem hvalid.zero_notMem row
    accepted := fun _ _ _ _ _ hs htable =>
      AnyStore.submit_invalidKey_iff_firstFault hs.sound htable hvalid }

/--
A partition can be derived from any content whatever, unless the table name is malformed. Its key
spells the digest of the content and is good in every store, and partitions of one table are equal
exactly if the digests are.
-/
theorem derived_key_is_usable (content : List UInt8) (table : String) :
    ((∃ p, derive content table = .ok p) ↔ checkTableName table = .ok ()) ∧
    (∀ fault, checkTableName table = .error fault →
      derive content table = .error (.invalidKey fault)) ∧
    (∀ p, derive content table = .ok p → p.table = table ∧ IsDigestKey content p.key) ∧
    (Sha256.digest content).length = 32 ∧
    ∀ content' p p', derive content table = .ok p → derive content' table = .ok p' →
      (p = p' ↔ Sha256.digest content = Sha256.digest content') := by
  refine ⟨?_, fun fault => create_of_table_fault (validKey_digest content), fun p hp => ?_,
    Sha256.length_digest content, fun content' p p' hp hp' => ?_⟩
  · rw [exists_derive_iff, checkTableName_eq_ok_iff]
  · obtain ⟨hkey, htable⟩ := derive_eq_ok_iff.1 hp
    exact ⟨htable, hkey ▸ isDigestKey_encode content⟩
  · obtain ⟨hkey, htable⟩ := derive_eq_ok_iff.1 hp
    obtain ⟨hkey', htable'⟩ := derive_eq_ok_iff.1 hp'
    constructor
    · rintro rfl
      exact Hex.encode_injective (hkey.symm.trans hkey')
    · intro hdigest
      have hsame : derive content table = derive content' table := by rw [derive, derive, hdigest]
      exact Except.ok.inj (hp.symm.trans (hsame.trans hp'))

/-- A correlation value with characters that no key may hold. -/
private def correlation : List UInt8 := Text.utf8 "tenant/orders#1?"

theorem derived_key_is_usable_correlation :
    checkTableName "bad-name" = .error (.tableName "bad-name") ∧
      derive correlation "bad-name" = .error (.invalidKey (.tableName "bad-name")) ∧
      ∃ p, derive correlation "Sagas" = .ok p ∧ IsDigestKey correlation p.key ∧
        p.key = "47b208b0defae0df82072b17346d7352997b84e5986c02c933db51316e060397" := by
  have hbad : checkTableName "bad-name" = .error (.tableName "bad-name") := by decide
  have hgood : checkTableName "Sagas" = .ok () := by decide
  have hkey : Hex.encode (Sha256.digest correlation) =
      "47b208b0defae0df82072b17346d7352997b84e5986c02c933db51316e060397" := by decide +kernel
  obtain ⟨p, hp⟩ := (derived_key_is_usable correlation "Sagas").1.2 hgood
  obtain ⟨-, hdigest⟩ := (derived_key_is_usable correlation "Sagas").2.2.1 p hp
  exact ⟨hbad, (derived_key_is_usable correlation "bad-name").2.1 _ hbad, p, hp, hdigest,
    (derive_eq_ok_iff.1 hp).1.trans hkey⟩

end Partition

end UnitOfWork
