import UnitOfWork.Proofs.Batch.Intent
import UnitOfWork.Session.Error

/-!
What the tokens that stores stamp mean to the operations that show them: every such token is
accepted, and it makes no difference to the size of an operation which one it shows.
-/

namespace UnitOfWork

/-- A stamped token in the hands of whoever has read the row. -/
def HeldToken.ofVersion (version : UInt64) : HeldToken :=
  ⟨Token.ofVersion version, Token.isBlank_ofVersion version⟩

namespace Operation

/-- A builder of operations takes either token, shows the one it is given, and builds operations of
one size with both. -/
def TakesEither (build : Option Token → Except SessionError Operation) (t u : Token) : Prop :=
  ∃ op op', build (some t) = .ok op ∧ op.token? = some t ∧
    build (some u) = .ok op' ∧ op'.token? = some u ∧ op.payloadSize = op'.payloadSize

theorem requireToken_ofVersion (kind : OperationKind) (key : EntityKey) (version : UInt64) :
    requireToken kind key (some (Token.ofVersion version)) = .ok (.ofVersion version) := by
  have hheld : HeldToken.ofOption? (some (Token.ofVersion version)) =
      some (HeldToken.ofVersion version) := by
    unfold HeldToken.ofOption?
    dsimp only
    rw [dif_pos (Token.isBlank_ofVersion version)]
    rfl
  rw [requireToken, hheld]

/-- The three kinds of operations that show a token are built in the same way. -/
theorem TakesEither.ofVersion (kind : OperationKind) (key : EntityKey)
    {change : HeldToken → Change} (op : BatchOp)
    (htoken : ∀ held, (⟨key, change held⟩ : Operation).token? = some held.token)
    (hbatch : ∀ held, (⟨key, change held⟩ : Operation).toBatchOp = op.withToken held.token)
    (v w : UInt64) :
    TakesEither (fun token => (requireToken kind key token).map fun held => ⟨key, change held⟩)
      (Token.ofVersion v) (Token.ofVersion w) := by
  have hbuild : ∀ version, (requireToken kind key (some (Token.ofVersion version))).map
      (fun held => (⟨key, change held⟩ : Operation)) = .ok ⟨key, change (.ofVersion version)⟩ := by
    intro version
    rw [requireToken_ofVersion]
    rfl
  refine ⟨_, _, hbuild v, htoken _, hbuild w, htoken _, ?_⟩
  rw [payloadSize, payloadSize, hbatch, hbatch]
  exact op.payloadSize_withToken_ofVersion v w

end Operation

/--
Stamped tokens are equal exactly if their versions are, and ordered by their bytes as their versions
are. All have twenty bytes and none is blank, so that updates, deletions and replacements take any
of them and have the same size with all.
-/
theorem Token.ofVersion_keeps_order_and_size (v w : UInt64) :
    (ofVersion v = ofVersion w ↔ v = w) ∧
    (Text.utf8 (ofVersion v).text < Text.utf8 (ofVersion w).text ↔ v < w) ∧
    (Text.utf8 (ofVersion v).text).length = 20 ∧ (ofVersion v).isBlank = false ∧
    (∀ (key : EntityKey) (p : Properties),
      Operation.TakesEither (Operation.update key p) (ofVersion v) (ofVersion w) ∧
      Operation.TakesEither (Operation.delete key) (ofVersion v) (ofVersion w) ∧
      Operation.TakesEither (Operation.replace key p) (ofVersion v) (ofVersion w)) ∧
    ∀ op : BatchOp,
      (op.withToken (ofVersion v)).payloadSize = (op.withToken (ofVersion w)).payloadSize := by
  refine ⟨⟨ofVersion_injective, congrArg ofVersion⟩, utf8_ofVersion_lt_iff, ?_,
    isBlank_ofVersion v, fun key p => ⟨?_, ?_, ?_⟩,
    fun op => op.payloadSize_withToken_ofVersion v w⟩
  · rw [Text.length_utf8, utf8ByteSize_ofVersion]
  · exact .ofVersion .update key (.merge key.row p .none) (fun _ => rfl) (fun _ => rfl) v w
  · exact .ofVersion .delete key (.delete key.row .none) (fun _ => rfl) (fun _ => rfl) v w
  · exact .ofVersion .replace key (.replace key.row p .none) (fun _ => rfl) (fun _ => rfl) v w

/-- The figures come before the letters. -/
example : Text.utf8 (Token.ofVersion 0x9f).text < Text.utf8 (Token.ofVersion 0xa0).text := by
  decide

end UnitOfWork
