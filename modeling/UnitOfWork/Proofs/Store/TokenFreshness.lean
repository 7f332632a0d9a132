import UnitOfWork.Proofs.Store.Carried

/-!
No token is given twice: at every moment the rows of a store carry different tokens, each of a
version that has been drawn, and what a batch stamps has never been seen before, on a row or in an
answer.
-/

namespace UnitOfWork

/-- A store is called, or its database is closed and opened again. -/
inductive StoreEvent
  | call (c : StoreCall)
  | reopen (config : DurableConfig)

namespace AnyStore

/-- Opens the same database again. A memory store has none, and goes on as it is. -/
def reopen (config : DurableConfig) : AnyStore → AnyStore
  | .memory s => .memory s
  | .durable s => .durable { s with config }

/-- Its rows carry different tokens of versions that have been drawn. -/
structure Stamped (s : AnyStore) : Prop where
  keyed : s.Keyed
  sound : s.ledger.Sound

variable {s s' s'' : AnyStore} {t : Token}

theorem IsEmpty.stamped (h : s.IsEmpty) : s.Stamped := ⟨h.keyed, h.sound⟩

namespace Stamped

theorem nodup_tokens (h : s.Stamped) : s.tokens.Nodup := by
  obtain ⟨places, hnodup, htokens, hsome⟩ := exists_tokens_eq h.keyed
  rw [htokens]
  exact h.sound.nodup_map hnodup hsome

theorem exists_issued (h : s.Stamped) {o : Option Token} (ho : o ∈ s.tokens) :
    ∃ t, o = some t ∧ s.ledger.Issued t := by
  obtain ⟨places, _, htokens, hsome⟩ := exists_tokens_eq h.keyed
  rw [htokens] at ho
  obtain ⟨id, hid, rfl⟩ := List.mem_map.1 ho
  obtain ⟨t, ht⟩ := hsome id hid
  exact ⟨t, ht, h.sound.issued ht⟩

theorem issued_of_mem (h : s.Stamped) (ht : some t ∈ s.tokens) : s.ledger.Issued t := by
  obtain ⟨u, hu, hissued⟩ := h.exists_issued ht
  exact Option.some.inj hu ▸ hissued

end Stamped

/-- What comes of a store while tokens are shown and versions are drawn. -/
structure Follows (s s' : AnyStore) (shown : List Token) (drawn : Nat) : Prop where
  stamped : s'.Stamped
  issued : ∀ {t}, s.ledger.Issued t → s'.ledger.Issued t
  shown_issued : ∀ t ∈ shown, s'.ledger.Issued t
  version_le : s'.ledger.version.toNat ≤ s.ledger.version.toNat + drawn

namespace Follows

theorem refl (h : s.Stamped) : s.Follows s [] 0 := ⟨h, fun ht => ht, nofun, Nat.le_refl _⟩

theorem trans {shown shown' : List Token} {drawn drawn' : Nat} (h : s.Follows s' shown drawn)
    (h' : s'.Follows s'' shown' drawn') : s.Follows s'' (shown ++ shown') (drawn + drawn') where
  stamped := h'.stamped
  issued ht := h'.issued (h.issued ht)
  shown_issued t ht := by
    rcases List.mem_append.1 ht with ht | ht
    · exact h'.issued (h.shown_issued t ht)
    · exact h'.shown_issued t ht
  version_le := by
    have hfirst := h.version_le
    have hsecond := h'.version_le
    omega

end Follows

section Calls

variable {c : StoreCall} (hdrawn : s.ledger.version.toNat + s.drawn c < 2 ^ 64)

include hdrawn

theorem issued_of_stamps (ht : t ∈ s.stamps c) : (c.run s).2.ledger.Issued t := by
  obtain ⟨e, he, hcarried⟩ := List.mem_filterMap.1 ht
  exact (s.step_run c hdrawn).1.issued_of_mem (List.mem_map_of_mem he) hcarried

/-- What a batch stamps is new. -/
theorem not_issued_of_stamps (ht : t ∈ s.stamps c) : ¬ s.ledger.Issued t := by
  obtain ⟨e, he, hcarried⟩ := List.mem_filterMap.1 ht
  exact (s.step_run c hdrawn).1.not_issued (List.mem_map_of_mem he) hcarried

theorem Stamped.follows_run (h : s.Stamped) :
    s.Follows (c.run s).2 (c.run s).1.shown (s.drawn c) := by
  obtain ⟨hstep, hversion⟩ := s.step_run c hdrawn
  refine ⟨⟨keyed_run h.keyed c, hstep.sound h.sound⟩, hstep.issued, fun t ht => ?_, hversion⟩
  rcases token?_of_shown h.keyed ht with ⟨id, hid⟩ | hstamped
  · exact hstep.issued (h.sound.issued hid)
  · exact issued_of_stamps hdrawn hstamped

end Calls

theorem Stamped.follows_reopen (h : s.Stamped) (config : DurableConfig) :
    s.Follows (s.reopen config) [] 0 := by
  cases s with
  | memory s => exact .refl h
  | durable s => exact ⟨⟨h.keyed, h.sound⟩, fun ht => ht, nofun, Nat.le_refl _⟩

end AnyStore

namespace StoreEvent

variable {s : AnyStore} {e : StoreEvent} {events : List StoreEvent}

def run (s : AnyStore) : StoreEvent → AnyStore
  | .call c => (c.run s).2
  | .reopen config => s.reopen config

/-- The tokens that the answer of a call shows. -/
def shown (s : AnyStore) : StoreEvent → List Token
  | .call c => (c.run s).1.shown
  | .reopen _ => []

def drawn (s : AnyStore) : StoreEvent → Nat
  | .call c => s.drawn c
  | .reopen _ => 0

/-- The store after some events. -/
def after (s : AnyStore) (events : List StoreEvent) : AnyStore := events.foldl run s

/-- All tokens that answers show in the course of some events. -/
def allShown (s : AnyStore) : List StoreEvent → List Token
  | [] => []
  | e :: events => e.shown s ++ allShown (e.run s) events

/-- The count of versions that are drawn, also of those that are given back. -/
def allDrawn (s : AnyStore) : List StoreEvent → Nat
  | [] => 0
  | e :: events => e.drawn s + allDrawn (e.run s) events

theorem after_append (s : AnyStore) (events later : List StoreEvent) :
    after s (events ++ later) = after (after s events) later := List.foldl_append

theorem allDrawn_append (s : AnyStore) (events later : List StoreEvent) :
    allDrawn s (events ++ later) = allDrawn s events + allDrawn (after s events) later := by
  induction events generalizing s with
  | nil => exact (Nat.zero_add _).symm
  | cons e events ih =>
    rw [List.cons_append, allDrawn, allDrawn, ih, Nat.add_assoc]
    rfl

theorem follows_run (h : s.Stamped) (hdrawn : s.ledger.version.toNat + e.drawn s < 2 ^ 64) :
    s.Follows (e.run s) (e.shown s) (e.drawn s) := by
  cases e with
  | call c => exact h.follows_run hdrawn
  | reopen config => exact h.follows_reopen config

theorem follows_after (h : s.Stamped) (events : List StoreEvent)
    (hdrawn : s.ledger.version.toNat + allDrawn s events < 2 ^ 64) :
    s.Follows (after s events) (allShown s events) (allDrawn s events) := by
  induction events generalizing s with
  | nil => exact .refl h
  | cons e events ih =>
    rw [allDrawn] at hdrawn
    have hstep := follows_run h (e := e) (by omega)
    have hversion := hstep.version_le
    exact hstep.trans (ih hstep.stamped (by omega))

/-- What an event submits leaves rows that the store can keep. -/
def Fits (s : AnyStore) : StoreEvent → Prop
  | .call c => s.FitsCall c
  | .reopen _ => True

instance (s : AnyStore) : (e : StoreEvent) → Decidable (e.Fits s)
  | .call c => inferInstanceAs (Decidable (s.FitsCall c))
  | .reopen _ => inferInstanceAs (Decidable True)

def AllFit (s : AnyStore) : List StoreEvent → Prop
  | [] => True
  | e :: events => e.Fits s ∧ AllFit (e.run s) events

instance decidableAllFit : (s : AnyStore) → (events : List StoreEvent) →
    Decidable (AllFit s events)
  | _, [] => isTrue trivial
  | s, e :: events =>
    have := decidableAllFit (e.run s) events
    inferInstanceAs (Decidable (_ ∧ _))

theorem reachable_run (h : s.Reachable) (hfits : e.Fits s) : (e.run s).Reachable := by
  cases e with
  | call c => exact h.call c hfits
  | reopen config =>
    cases s with
    | memory s => exact h
    | durable s => exact h.reopen config

theorem reachable_after (h : s.Reachable) (hfits : AllFit s events) :
    (after s events).Reachable := by
  induction events generalizing s with
  | nil => exact h
  | cons e events ih => exact ih (reachable_run h hfits.1) hfits.2

end StoreEvent

namespace AnyStore

/--
From an empty store on, while its versions last and whatever is rejected, late or opened again: at
every moment no two rows carry the same token, and each token is that of a version between one and
the last one drawn. What takes effect stamps tokens that no row has carried and no answer has shown
at any moment before; the tokens that a batch is answered with are among them.
-/
theorem tokens_fresh_and_unique (s : AnyStore) (hempty : s.IsEmpty) (events : List StoreEvent)
    (hdrawn : StoreEvent.allDrawn s events < 2 ^ 64) :
    (∀ before later, events = before ++ later →
      (StoreEvent.after s before).tokens.Nodup ∧
        ∀ o ∈ (StoreEvent.after s before).tokens, ∃ v, 1 ≤ v ∧
          v ≤ (StoreEvent.after s before).ledger.version ∧ o = some (Token.ofVersion v)) ∧
      ∀ before c later, events = before ++ .call c :: later →
        (∀ ts, (c.run (StoreEvent.after s before)).1 = .tokens (.ok ts) →
          ∀ t, some t ∈ ts → t ∈ (StoreEvent.after s before).stamps c) ∧
        ∀ t ∈ (StoreEvent.after s before).stamps c,
          (∀ earlier between, before = earlier ++ between →
            some t ∉ (StoreEvent.after s earlier).tokens) ∧
          t ∉ StoreEvent.allShown s before := by
  have hstart : s.ledger.version.toNat = 0 := by rw [hempty.version]; rfl
  constructor
  · rintro before later rfl
    rw [StoreEvent.allDrawn_append] at hdrawn
    have hstamped := (StoreEvent.follows_after hempty.stamped before (by omega)).stamped
    refine ⟨hstamped.nodup_tokens, fun o ho => ?_⟩
    obtain ⟨t, rfl, v, hpos, hle, rfl⟩ := hstamped.exists_issued ho
    refine ⟨v, ?_, hle, rfl⟩
    rw [UInt64.lt_iff_toNat_lt] at hpos
    exact UInt64.le_iff_toNat_le.2 hpos
  · rintro before c later rfl
    refine ⟨fun ts hts t => mem_stamps_of_run hts, fun t ht => ?_⟩
    rw [StoreEvent.allDrawn_append, StoreEvent.allDrawn] at hdrawn
    have hbefore := StoreEvent.follows_after hempty.stamped before (by omega)
    have hversion := hbefore.version_le
    change _ + ((StoreEvent.after s before).drawn c + _) < _ at hdrawn
    have hnew := not_issued_of_stamps (by omega) ht
    refine ⟨?_, fun hshown => hnew (hbefore.shown_issued t hshown)⟩
    rintro earlier between rfl hcarried
    rw [StoreEvent.allDrawn_append] at hdrawn
    have hearlier := StoreEvent.follows_after hempty.stamped earlier (by omega)
    have hversion' := hearlier.version_le
    have hbetween := StoreEvent.follows_after hearlier.stamped between (by omega)
    rw [StoreEvent.after_append] at hnew
    exact hnew (hbetween.issued (hearlier.stamped.issued_of_mem hcarried))

private def noFerries : AnyStore := .durable { config := {} }

private def submitFerry (op : BatchOp) (timeLeft : Option Duration) : StoreEvent :=
  .call (.submit "Ferries" "f" [.insert "x" ∅, op] timeLeft)

/-- A batch is late, another is rejected, a third is applied, and the database is opened again. -/
private def ferryEvents : List StoreEvent :=
  [submitFerry (.insert "y" ∅) (some ⟨0, 0⟩), submitFerry (.delete "y" ⟨"v"⟩) none,
    submitFerry (.insert "y" ∅) none, .reopen {}]

private def replaceFerry : StoreCall :=
  .submit "Ferries" "f" [.replace "x" ∅ (Token.ofVersion 1)] none

theorem tokens_fresh_and_unique_reopened :
    noFerries.IsEmpty ∧
      StoreEvent.allDrawn noFerries (ferryEvents ++ [.call replaceFerry]) < 2 ^ 64 ∧
      StoreEvent.allDrawn noFerries ferryEvents = 6 ∧
      StoreEvent.allShown noFerries ferryEvents = [Token.ofVersion 1, Token.ofVersion 2] ∧
      (StoreEvent.after noFerries ferryEvents).tokens =
        [some (Token.ofVersion 1), some (Token.ofVersion 2)] ∧
      (StoreEvent.after noFerries ferryEvents).stamps replaceFerry = [Token.ofVersion 3] ∧
      Token.ofVersion 3 ∉ StoreEvent.allShown noFerries ferryEvents := by
  have hempty : noFerries.IsEmpty := rfl
  have hdrawn : StoreEvent.allDrawn noFerries (ferryEvents ++ [.call replaceFerry]) < 2 ^ 64 := by
    decide +kernel
  have hstamps : (StoreEvent.after noFerries ferryEvents).stamps replaceFerry =
      [Token.ofVersion 3] := by decide +kernel
  have hfresh := ((tokens_fresh_and_unique noFerries hempty _ hdrawn).2 ferryEvents replaceFerry []
    rfl).2 (Token.ofVersion 3) (by rw [hstamps]; exact List.mem_singleton_self _)
  exact ⟨hempty, hdrawn, by decide +kernel, by decide +kernel, by decide +kernel, hstamps,
    hfresh.2⟩

end AnyStore

end UnitOfWork
