import UnitOfWork.Proofs.Table.Token

/-!
Names in two runs that stand for each other. A run may draw its versions, and number its batches,
otherwise than another one that does the same; what a caller can tell apart is which names are
equal, and that is the same in both.
-/

namespace UnitOfWork

/-- Pairs of a name in one run and the name in another run that it stands for, one to one. -/
structure Pairing (α : Type) where
  pairs : α → α → Prop
  one_to_one : ∀ {a a' b b'}, pairs a a' → pairs b b' → (a = b ↔ a' = b')

namespace Pairing

variable {α : Type} {P Q : Pairing α} {a a' b b' : α}

/-- The name of the first run stands for something. -/
def Covers (P : Pairing α) (a : α) : Prop := ∃ a', P.pairs a a'

/-- All pairs of one are pairs of the other. -/
def Within (P Q : Pairing α) : Prop := ∀ a a', P.pairs a a' → Q.pairs a a'

theorem Within.refl (P : Pairing α) : P.Within P := fun _ _ h => h

/-- Each of some names stands for itself. -/
def diagonal (p : α → Prop) : Pairing α where
  pairs a a' := a = a' ∧ p a
  one_to_one h h' := by rw [h.1, h'.1]

/-- Further pairs, of names that are new to both runs. -/
def extend (P : Pairing α) (new : α → α → Prop)
    (hnew : ∀ {a a' b b'}, new a a' → new b b' → (a = b ↔ a' = b'))
    (hfresh : ∀ {a a' b b'}, P.pairs a a' → new b b' → a ≠ b ∧ a' ≠ b') : Pairing α where
  pairs a a' := P.pairs a a' ∨ new a a'
  one_to_one h h' := by
    rcases h with h | h <;> rcases h' with h' | h'
    · exact P.one_to_one h h'
    · exact iff_of_false (hfresh h h').1 (hfresh h h').2
    · exact iff_of_false (hfresh h' h).1.symm (hfresh h' h).2.symm
    · exact hnew h h'

/-- A single further pair. -/
def insert (P : Pairing α) (n n' : α) (hfresh : ∀ {a a'}, P.pairs a a' → a ≠ n ∧ a' ≠ n') :
    Pairing α :=
  P.extend (fun a a' => a = n ∧ a' = n')
    (fun h h' => iff_of_true (h.1.trans h'.1.symm) (h.2.trans h'.2.symm)) fun h h' => by
      rw [h'.1, h'.2]
      exact hfresh h

end Pairing

namespace Token

/-- No store stamps the token. -/
def Foreign (t : Token) : Prop := ∀ v, t ≠ ofVersion v

/-- Stamped tokens have twenty bytes. -/
theorem foreign_of_size {t : Token} (h : t.text.utf8ByteSize ≠ 20) : t.Foreign := by
  rintro v rfl
  exact h (utf8ByteSize_ofVersion v)

/-- Tokens that stand for each other: they are stamped at versions that do, or no store has stamped
them and they are the same. -/
inductive Alike (P : Pairing UInt64) : Token → Token → Prop
  | foreign {t : Token} (h : t.Foreign) : Alike P t t
  | stamped {v v' : UInt64} (h : P.pairs v v') : Alike P (ofVersion v) (ofVersion v')

namespace Alike

variable {P Q : Pairing UInt64} {t t' u u' : Token}

theorem mono (h : Alike P t t') (hPQ : P.Within Q) : Alike Q t t' := by
  cases h with
  | foreign h => exact .foreign h
  | stamped h => exact .stamped (hPQ _ _ h)

/-- Which tokens are equal is the same in both runs. -/
theorem eq_iff (h : Alike P t t') (h' : Alike P u u') : t = u ↔ t' = u' := by
  cases h with
  | foreign h =>
    cases h' with
    | foreign => exact Iff.rfl
    | stamped => exact iff_of_false (h _) (h _)
  | stamped h =>
    cases h' with
    | foreign h' => exact iff_of_false (h' _).symm (h' _).symm
    | stamped h' =>
      have hversion := P.one_to_one h h'
      constructor
      · exact fun he => congrArg ofVersion (hversion.1 (ofVersion_injective he))
      · exact fun he => congrArg ofVersion (hversion.2 (ofVersion_injective he))

theorem utf8ByteSize_eq (h : Alike P t t') : t.text.utf8ByteSize = t'.text.utf8ByteSize := by
  cases h with
  | foreign => rfl
  | stamped => rw [utf8ByteSize_ofVersion, utf8ByteSize_ofVersion]

theorem isBlank_eq (h : Alike P t t') : t.isBlank = t'.isBlank := by
  cases h with
  | foreign => rfl
  | stamped => rw [isBlank_ofVersion, isBlank_ofVersion]

end Alike

end Token

end UnitOfWork
