import UnitOfWork.Proofs.Session.Undisturbed
import UnitOfWork.Script.Action

/-!
Two sets of session steps, interleaved over one manager. Each set names the tokens that it shows by
what its own earlier answers have told.
-/

namespace UnitOfWork

/-- How a set of steps names a token. -/
inductive TokenName
  | literal (token : Option Token)
  /-- The token of the entity that the answer at a position has found. -/
  | found (answer : Nat)
  /-- The token of a row that the answer at a position has committed. -/
  | committed (answer row : Nat)

namespace Answer

def foundToken : Answer → Option Token
  | .entity found => found.map Entity.token
  | _ => none

def committedToken (row : Nat) : Answer → Option Token
  | .rows committed => committed[row]?.bind CommittedRow.token
  | _ => none

/-- An answer with its tokens erased. -/
def unstamped : Answer → Answer
  | .entity found => .entity (found.map Entity.unstamped)
  | .rows committed =>
    .rows (committed.map fun r => { r with token := r.token.map fun _ => Token.none })
  | answer => answer

end Answer

/-- The token that is meant, given the earlier answers of the same set. -/
def TokenName.resolve (answers : List Answer) : TokenName → Option Token
  | .literal token => token
  | .found answer => answers[answer]?.bind Answer.foundToken
  | .committed answer row => answers[answer]?.bind (Answer.committedToken row)

/-- A call of a session, with tokens by their names. -/
inductive Move
  | create (name : String) (work : WorkId) (partition : Partition)
  | createOpen (name : String) (work : WorkId) (partition : Partition)
  | start (name : String)
  | read (name row : String)
  | enlist (name : String) (kind : OperationKind) (key : EntityKey) (properties : Properties)
      (token : TokenName)
  | complete (name : String) (now : Instant)
  | abort (name : String)
  | drop (name : String)

namespace Move

/-- The step that is meant; there is none if an operation lacks the token that it needs. -/
def step? (answers : List Answer) : Move → Except SessionError Step
  | .create name work partition => .ok (.create name work partition)
  | .createOpen name work partition => .ok (.createOpen name work partition)
  | .start name => .ok (.start name)
  | .read name row => .ok (.read name row)
  | .enlist name kind key properties token =>
    (Script.Draft.build ⟨kind, key, properties, .current⟩ (token.resolve answers)).map
      (.enlist name)
  | .complete name now => .ok (.complete name now)
  | .abort name => .ok (.abort name)
  | .drop name => .ok (.drop name)

def session : Move → String
  | .create name _ _ | .createOpen name _ _ | .start name | .read name _ | .enlist name _ _ _ _
  | .complete name _ | .abort name | .drop name => name

/-- The unit of work and the partition that a session is created for. -/
def unit? : Move → Option (WorkId × Partition)
  | .create _ work partition | .createOpen _ work partition => some (work, partition)
  | _ => none

/-- Different sessions, for different units of work in different partitions. -/
def Apart (a b : Move) : Prop :=
  a.session ≠ b.session ∧ ∀ u ∈ a.unit?, ∀ v ∈ b.unit?,
    u.1 ≠ v.1 ∧ ¬ (u.2.table = v.2.table ∧ u.2.key = v.2.key)

instance (a b : Move) : Decidable (a.Apart b) := inferInstanceAs (Decidable (_ ∧ _))

/-- A token that is given literally is one that no store stamps. -/
def Foreign : Move → Prop
  | .enlist _ _ _ _ (.literal token) => ∀ t ∈ token, t.Foreign
  | _ => True

end Move

/-- Two sets of session steps at work in one world, with the answers that each has got. -/
structure Play where
  world : World AnyStore
  own : List Answer := []
  others : List Answer := []

namespace Play

/-- Nobody has moved yet. -/
def fresh (store : AnyStore) (config : SessionConfig) : Play where
  world := .fresh store config

def step? (p : Play) : Move ⊕ Move → Except SessionError Step
  | .inl m => m.step? p.own
  | .inr m => m.step? p.others

/-- Adds an answer to those of the set that has asked. -/
def note (p : Play) (answer : Answer) : Move ⊕ Move → Play
  | .inl _ => { p with own := p.own ++ [answer] }
  | .inr _ => { p with others := p.others ++ [answer] }

/-- One of the sets makes its next move. -/
def next (p : Play) (m : Move ⊕ Move) : Play :=
  match p.step? m with
  | .error e => p.note (.refused e) m
  | .ok step => { p with world := (p.world.step step).2 }.note (p.world.step step).1 m

def after (p : Play) (schedule : List (Move ⊕ Move)) : Play := schedule.foldl next p

def store (p : Play) : AnyStore := p.world.manager.store

/-- The state of a session and the count of its pending operations. -/
def standing (p : Play) (session : String) : Option (SessionState × Nat) :=
  (p.world.session? session).map fun s => (s.state, s.pendingOperations p.world.manager)

/-- The count of versions that a move draws. -/
def draws (p : Play) (m : Move ⊕ Move) : Nat := (p.step? m).toOption.elim 0 p.world.draws

def allDraws (p : Play) : List (Move ⊕ Move) → Nat
  | [] => 0
  | m :: schedule => p.draws m + (p.next m).allDraws schedule

/-- What a move submits leaves rows that the store can keep. -/
def FitsMove (p : Play) (m : Move ⊕ Move) : Prop :=
  ∀ step ∈ (p.step? m).toOption, p.world.FitsStep step

instance (p : Play) (m : Move ⊕ Move) : Decidable (p.FitsMove m) :=
  inferInstanceAs (Decidable (∀ step ∈ (p.step? m).toOption, _))

def Fits (p : Play) : List (Move ⊕ Move) → Prop
  | [] => True
  | m :: schedule => p.FitsMove m ∧ (p.next m).Fits schedule

instance decidableFits : (p : Play) → (schedule : List (Move ⊕ Move)) → Decidable (p.Fits schedule)
  | _, [] => isTrue trivial
  | p, m :: schedule =>
    have := decidableFits (p.next m) schedule
    inferInstanceAs (Decidable (_ ∧ _))

end Play

section Alike

variable {P Q : Pairing UInt64}

namespace Answer.Alike

variable {a a' : Answer}

theorem mono (h : a.Alike P a') (hPQ : P.Within Q) : a.Alike Q a' := by
  cases h with
  | done => exact .done
  | refused e => exact .refused e
  | entity h => exact .entity (optionRel_mono h fun _ _ he => he.mono hPQ)
  | rows h => exact .rows (h.imp fun _ _ hr => hr.mono hPQ)
  | misnamed => exact .misnamed

theorem unstamped_eq (h : a.Alike P a') : a.unstamped = a'.unstamped := by
  cases h with
  | done | refused | misnamed => rfl
  | entity h => exact congrArg Answer.entity (Entity.unstamped_eq_of_alike h)
  | rows h =>
    refine congrArg Answer.rows ?_
    induction h with
    | nil => rfl
    | @cons r r' _ _ hr _ ih =>
      have htoken : r.token.map (fun _ => Token.none) = r'.token.map fun _ => Token.none := by
        have hrel := hr.token
        generalize r.token = o, r'.token = o' at hrel
        cases hrel <;> rfl
      rw [List.map_cons, List.map_cons, ih, hr.row, htoken]

theorem foundToken (h : a.Alike P a') :
    Option.Rel (Token.Alike P) a.foundToken a'.foundToken := by
  cases h with
  | done | refused | rows | misnamed => exact .none
  | entity h =>
    cases h with
    | none => exact .none
    | some he => exact .some he.token

theorem committedToken (h : a.Alike P a') (row : Nat) :
    Option.Rel (Token.Alike P) (a.committedToken row) (a'.committedToken row) := by
  cases h with
  | done | refused | entity | misnamed => exact .none
  | rows h => exact optionRel_bind (getElem?_of_forall₂ h row) fun _ _ hr => hr.token

end Answer.Alike

variable {answers answers' : List Answer}

/-- A name means tokens that stand for each other, or none in both runs. -/
theorem TokenName.resolve_alike (h : List.Forall₂ (Answer.Alike P) answers answers')
    (name : TokenName) (hforeign : ∀ t, name = .literal (some t) → t.Foreign) :
    Option.Rel (Token.Alike P) (name.resolve answers) (name.resolve answers') := by
  cases name with
  | literal token =>
    cases token with
    | none => exact .none
    | some t => exact .some (.foreign (hforeign t rfl))
  | found i => exact optionRel_bind (getElem?_of_forall₂ h i) fun _ _ ha => ha.foundToken
  | committed i row =>
    exact optionRel_bind (getElem?_of_forall₂ h i) fun _ _ ha => ha.committedToken row

/-- What a move means is the same in both runs but for tokens. -/
theorem Move.step?_alike (h : List.Forall₂ (Answer.Alike P) answers answers') {m : Move}
    (hforeign : m.Foreign) :
    SameVerdict (Step.Alike P) (m.step? answers) (m.step? answers') := by
  cases m with
  | create name work partition => exact .ok (.create name work partition)
  | createOpen name work partition => exact .ok (.createOpen name work partition)
  | start name => exact .ok (.start name)
  | read name row => exact .ok (.read name row)
  | complete name now => exact .ok (.complete name now)
  | abort name => exact .ok (.abort name)
  | drop name => exact .ok (.drop name)
  | enlist name kind key properties token =>
    have htoken := token.resolve_alike h (by
      rintro t rfl
      exact hforeign t rfl)
    have hbuild : SameVerdict (Operation.Alike P)
        (Script.Draft.build ⟨kind, key, properties, .current⟩ (token.resolve answers))
        (Script.Draft.build ⟨kind, key, properties, .current⟩ (token.resolve answers')) := by
      cases kind with
      | insert => exact .ok (.insert key properties)
      | update => exact Operation.update_alike htoken key properties
      | delete => exact Operation.delete_alike htoken key
      | replace => exact Operation.replace_alike htoken key properties
    exact hbuild.map fun _ _ hop => .enlist name hop

end Alike

end UnitOfWork
