import Mathlib.Data.List.Basic
import UnitOfWork.Proofs.Session.Outcome

/-! How many sessions a batch is said to have makes no difference to the sessions of other batches. -/

namespace UnitOfWork

namespace SharedBatch

/-- The same batch with another count of participants. -/
def recount (b : SharedBatch) (count : Nat) : SharedBatch := { b with participants := count }

theorem register_recount (b : SharedBatch) (count : Nat) (op : Operation) :
    (b.recount count).register op = ((b.register op).1, (b.register op).2.recount count) := by
  have hlock : (b.recount count).lock = b.lock := rfl
  unfold register
  rw [hlock]
  cases b.lock <;> rfl

theorem commit_recount {σ : Type} [TableStore σ] (b : SharedBatch) (count : Nat) (store : σ)
    (timeLeft : Option Duration) :
    (b.recount count).commit store timeLeft =
      ((b.commit store timeLeft).1, (b.commit store timeLeft).2.1.recount count,
        (b.commit store timeLeft).2.2) := by
  have hlock : (b.recount count).lock = b.lock := rfl
  unfold commit
  rw [hlock]
  cases b.lock <;> rfl

end SharedBatch

namespace Manager

variable {σ : Type} {m : Manager σ} {id i : BatchId} {b : SharedBatch}

/-- The same state with another count of participants of one batch. -/
def recount (m : Manager σ) (id : BatchId) (count : Nat) : Manager σ :=
  m.modifyBatch id (SharedBatch.recount · count)

theorem batch?_recount_self (h : m.batch? id = some b) (count : Nat) :
    (m.recount id count).batch? id = some (b.recount count) := by
  have hmodify := List.getElem?_modify_eq (SharedBatch.recount · count) id m.batches
  exact hmodify.trans (congrArg (Option.map (SharedBatch.recount · count)) h)

theorem batch?_recount_of_ne (m : Manager σ) (count : Nat) (hi : i ≠ id) :
    (m.recount id count).batch? i = m.batch? i :=
  List.getElem?_modify_ne _ m.batches (Ne.symm hi)

theorem modifyBatch_recount (m : Manager σ) (count : Nat) (hi : i ≠ id)
    (f : SharedBatch → SharedBatch) :
    (m.recount id count).modifyBatch i f = (m.modifyBatch i f).recount id count := by
  have hmodify := List.modify_modify_ne (SharedBatch.recount · count) f m.batches (Ne.symm hi)
  rw [recount, modifyBatch, modifyBatch, recount, modifyBatch, modifyBatch, hmodify]

theorem setBatch_recount (m : Manager σ) (count : Nat) (hi : i ≠ id) (b' : SharedBatch) :
    (m.recount id count).setBatch i b' = (m.setBatch i b').recount id count := by
  have hset : ∀ m : Manager σ, m.setBatch i b' = m.modifyBatch i fun _ => b' := fun m => by
    rw [setBatch, modifyBatch, List.set_eq_modify]
  rw [hset, hset, modifyBatch_recount m count hi]

/-- What is put in the place of a batch takes its count along. -/
theorem setBatch_recount_self (m : Manager σ) (count : Nat) (b' : SharedBatch) :
    (m.recount id count).setBatch id (b'.recount count) =
      (m.setBatch id b').recount id count := by
  have hset : (m.batches.modify id (SharedBatch.recount · count)).set id (b'.recount count) =
      (m.batches.set id b').modify id (SharedBatch.recount · count) := by
    rw [List.set_eq_modify, List.set_eq_modify, List.modify_modify_eq, List.modify_modify_eq]
    rfl
  rw [recount, modifyBatch, setBatch, recount, setBatch, modifyBatch, hset]

/-- A recount forgets who joined or left before. -/
theorem recount_modifyBatch (m : Manager σ) (count : Nat) {f : SharedBatch → SharedBatch}
    (hf : ∀ b, (f b).recount count = b.recount count) :
    (m.modifyBatch id f).recount id count = m.recount id count := by
  have hmodify := List.modify_modify_eq f (SharedBatch.recount · count) id m.batches
  rw [recount, modifyBatch, modifyBatch, hmodify, recount, modifyBatch]
  exact congrArg (fun g => { m with batches := m.batches.modify id g }) (funext hf)

theorem releaseBatch_recount (m : Manager σ) (count : Nat) (work : WorkId) :
    (m.recount id count).releaseBatch work i = (m.releaseBatch work i).recount id count := by
  have hregistry : (m.recount id count).registry = m.registry := rfl
  unfold releaseBatch
  rw [hregistry]
  split <;> rfl

theorem close_recount (m : Manager σ) (count : Nat) (hi : i ≠ id) (work : WorkId)
    (b' : SharedBatch) :
    (m.recount id count).close work i b' = (m.close work i b').recount id count := by
  rw [close, setBatch_recount m count hi, releaseBatch_recount, close]

theorem registered?_recount (count : Nat) {work : WorkId}
    (hwork : m.registry.get? work ≠ some id) :
    (m.recount id count).registered? work = m.registered? work := by
  have hregistry : (m.recount id count).registry = m.registry := rfl
  unfold registered?
  rw [hregistry]
  cases hi : m.registry.get? work with
  | none => rfl
  | some i =>
    have hne : i ≠ id := fun he => hwork (hi.trans (congrArg some he))
    simp only [Option.bind_eq_bind, Option.bind_some, batch?_recount_of_ne m count hne]

theorem enter_recount (h : m.batch? id = some b) (count : Nat) (work : WorkId)
    (partition : Partition) :
    (m.recount id count).enter work partition = (m.enter work partition).recount id count := by
  obtain ⟨hlt, _⟩ := List.getElem?_eq_some_iff.1 h
  have hentered : (m.enter work partition).batch? id = some b := by
    rw [batch?_enter, if_neg (Nat.ne_of_lt hlt), h]
  rw [recount, recount, modifyBatch_eq h, modifyBatch_eq hentered]
  simp [enter, setBatch, List.set_append_left _ _ hlt]

/-- Another unit of work finds the same batch. -/
theorem acquire_recount (h : m.batch? id = some b) (count : Nat) {work : WorkId}
    (hwork : m.registry.get? work ≠ some id) (partition : Partition) :
    (m.recount id count).acquire work partition =
      ((m.acquire work partition).1, (m.acquire work partition).2.recount id count) := by
  unfold acquire
  rw [registered?_recount count hwork]
  cases m.registered? work with
  | none =>
    have hlength : (m.recount id count).batches.length = m.batches.length :=
      List.length_modify ..
    have henter := enter_recount h count work partition
    exact Prod.ext (congrArg Except.ok hlength) henter
  | some found =>
    obtain ⟨i, b'⟩ := found
    dsimp only
    split <;> rfl

end Manager

namespace Session

section Recount

variable {σ : Type} {m : Manager σ} {s : Session} {id : BatchId} {b : SharedBatch}
  (hb : m.batch? id = some b) (hwork : m.registry.get? s.work ≠ some id)
  (hbatch : s.batch ≠ some id) (count : Nat)

include hbatch in
theorem ensureOpen_recount :
    s.ensureOpen (m.recount id count) = s.ensureOpen m := by
  unfold ensureOpen
  split
  · rfl
  · rename_i i _ hi
    have hne : i ≠ id := fun he => hbatch (hi.trans (congrArg some he))
    rw [Manager.batch?_recount_of_ne m count hne]
  · rfl

include hb hwork in
theorem start_recount :
    s.start (m.recount id count) =
      ((s.start m).1, (s.start m).2.1, (s.start m).2.2.recount id count) := by
  unfold start
  by_cases hstate : s.state = .idle
  · rw [if_neg (by simpa using hstate), if_neg (by simpa using hstate),
      Manager.acquire_recount hb count hwork]
    cases hacquire : m.acquire s.work s.partition with
    | mk answer m' =>
      cases answer with
      | error e => rfl
      | ok i =>
        have hi := Manager.ne_of_acquire hacquire hwork hb
        exact congrArg (_, _, ·) (m'.modifyBatch_recount count hi SharedBatch.join)
  · rw [if_pos hstate, if_pos hstate]

include hbatch in
theorem enlist_recount (op : Operation) :
    s.enlist (m.recount id count) op =
      ((s.enlist m op).1, (s.enlist m op).2.recount id count) := by
  unfold enlist
  rw [ensureOpen_recount hbatch]
  cases hopen : s.ensureOpen m with
  | error e => rfl
  | ok joined =>
    obtain ⟨i, b'⟩ := joined
    have hi : i ≠ id := fun he => hbatch (he ▸ (ensureOpen_eq_ok_iff.1 hopen).2.1)
    exact congrArg (_, ·) (m.setBatch_recount count hi _)

include hbatch in
theorem abort_recount :
    s.abort (m.recount id count) =
      ((s.abort m).1, (s.abort m).2.1, (s.abort m).2.2.recount id count) := by
  cases hopen : s.ensureOpen m with
  | error e =>
    rw [abort, abort, ensureOpen_recount hbatch, hopen]
  | ok joined =>
    obtain ⟨i, b'⟩ := joined
    have hi : i ≠ id := fun he => hbatch (he ▸ (ensureOpen_eq_ok_iff.1 hopen).2.1)
    rw [abort_eq hopen, abort_eq ((ensureOpen_recount hbatch count).trans hopen),
      m.close_recount count hi]

include hbatch in
theorem drop_recount : s.drop (m.recount id count) = (s.drop m).recount id count := by
  unfold drop
  split
  · rename_i i _ hi
    have hne : i ≠ id := fun he => hbatch (hi.trans (congrArg some he))
    rw [Manager.batch?_recount_of_ne m count hne]
    cases m.batch? i with
    | none => rfl
    | some b' =>
      dsimp only
      split
      · exact m.setBatch_recount count hne _
      · rw [m.setBatch_recount count hne, Manager.releaseBatch_recount]
  · rfl

variable [TableStore σ]

include hbatch in
theorem complete_recount (now : Instant) :
    s.complete (m.recount id count) now =
      ((s.complete m now).1, (s.complete m now).2.1, (s.complete m now).2.2.recount id count) := by
  have hsame := ensureOpen_recount (m := m) hbatch count
  cases hopen : s.ensureOpen m with
  | error e => rw [complete_of_error hopen, complete_of_error (hsame.trans hopen)]
  | ok joined =>
    obtain ⟨i, b'⟩ := joined
    have hi : i ≠ id := fun he => hbatch (he ▸ (ensureOpen_eq_ok_iff.1 hopen).2.1)
    have hopen' := hsame.trans hopen
    cases htold : m.config.tellsDeadline now with
    | false => rw [complete_of_lost hopen htold, complete_of_lost hopen' htold]
    | true =>
      cases hcommit : b'.commit m.store m.config.commitTimeout with
      | mk answer left =>
        obtain ⟨b'', store⟩ := left
        have hclose := Manager.close_recount { m with store } count hi s.work b''
        rw [complete_eq hopen hcommit htold, complete_eq hopen' hcommit htold]
        exact congrArg (some answer, { s with state := endState answer, batch := none }, ·) hclose

/-- A change of the shared state that the calls of a session neither notice nor disturb. -/
structure Unaware (change : Manager σ → Manager σ) (m : Manager σ) (s : Session) : Prop where
  start : s.start (change m) = ((s.start m).1, (s.start m).2.1, change (s.start m).2.2)
  read : ∀ row, s.read (change m) row = s.read m row
  enlist : ∀ op, s.enlist (change m) op = ((s.enlist m op).1, change (s.enlist m op).2)
  complete : ∀ now, s.complete (change m) now =
    ((s.complete m now).1, (s.complete m now).2.1, change (s.complete m now).2.2)
  abort : s.abort (change m) = ((s.abort m).1, (s.abort m).2.1, change (s.abort m).2.2)
  drop : s.drop (change m) = change (s.drop m)

theorem unaware_self : s.Unaware (fun m => m) m :=
  ⟨rfl, fun _ => rfl, fun _ => rfl, fun _ => rfl, rfl, rfl⟩

include hb hwork hbatch in
/-- The sessions of other batches do not notice how many sessions a batch has. -/
theorem unaware_recount : s.Unaware (Manager.recount · id count) m where
  start := start_recount hb hwork count
  read row := by
    unfold read
    rw [ensureOpen_recount hbatch]
    rfl
  enlist := enlist_recount hbatch count
  complete := complete_recount hbatch count
  abort := abort_recount hbatch count
  drop := drop_recount hbatch count

end Recount

end Session

end UnitOfWork
