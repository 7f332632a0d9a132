import Mathlib.Data.List.Infix
import UnitOfWork.Proofs.Session.Shares
import UnitOfWork.Store.Memory

/-!
Sharing is transparent: what any number of sessions enlist in a unit of work, and what becomes of
it, is the same as if a single session had done it all.
-/

namespace UnitOfWork.SharedUnit

variable {σ : Type} [TableStore σ] {u : SharedUnit} {w : World σ}

/-- What the single session does, with the steps of all others: it opens when a first session of
the unit does. -/
def soloSteps (u : SharedUnit) (before mid : List Step) : List Step :=
  before.filterMap u.soloStep? ++
    .createOpen u.solo u.work u.partition :: mid.filterMap u.soloStep?

theorem AllowsRun.append {before later : List Step} (h : u.AllowsRun w (before ++ later)) :
    u.AllowsRun w before ∧ u.AllowsRun (w.after before) later := by
  induction before generalizing w with
  | nil => exact ⟨trivial, h⟩
  | cons step before ih =>
    obtain ⟨hstep, hrest⟩ := h
    obtain ⟨hbefore, hlater⟩ := ih hrest
    exact ⟨⟨hstep, hbefore⟩, hlater⟩

/--
From any world in which a unit of work is not registered: sessions that share it are opened,
enlist, read and are dropped in any order, from the first opening on one of them is always open,
and in the end one that is open completes the unit. A single session that enlists the same
operations and completes gets the same answers and leaves the same store, with the steps of all
others in their places.
-/
theorem sharing_is_transparent (u : SharedUnit) {w : World σ} (hreachable : w.Reachable)
    (hunregistered : w.manager.registry.get? u.work = none) (hfree : w.session? u.solo = none)
    (hbound : u.OwnBound w) {before mid : List Step} {first : Step}
    (hallows : u.AllowsRun w (before ++ first :: mid))
    (hclosed : ∀ done, done <+: before → ¬ u.SomeOpen (w.after done))
    (hopen : ∀ done, done <+: mid → u.SomeOpen (w.after (before ++ first :: done)))
    {last : String} {s : Session} (hlast : u.isOwn last = true)
    (hs : (w.after (before ++ first :: mid)).session? last = some s) (hstate : s.state = .open)
    (now : Instant) :
    (w.run (u.soloSteps before mid ++ [.complete u.solo now])).1 =
        u.answers w before ++ .done :: (u.answers (w.after (before ++ [first])) mid ++
          [((w.after (before ++ first :: mid)).step (.complete last now)).1]) ∧
      (w.after (u.soloSteps before mid ++ [.complete u.solo now])).manager.store =
        (w.after (before ++ first :: mid ++ [.complete last now])).manager.store := by
  obtain ⟨hallowsBefore, hallowsFirst, hallowsMid⟩ := hallows.append
  have hstart : u.Apart w w :=
    ⟨⟨rfl, fun _ _ _ => rfl⟩, hfree, hbound, hunregistered, hreachable.grounded⟩
  -- Nothing is shared before a first session opens.
  obtain ⟨hanswersBefore, hapart⟩ := keepsUp_run
    (fun h hallows hnow hnext => apart_step h hallows hnow hnext) hstart hallowsBefore hclosed
  have hfirst := hopen [] List.nil_prefix
  rw [World.after_append] at hfirst
  obtain ⟨hdone, hshares⟩ := hapart.open hallowsFirst (hclosed before (List.prefix_refl before)) hfirst
  -- From then on the batch is the same.
  have hopenMid : ∀ done, done <+: mid →
      u.SomeOpen (((w.after before).step first).2.after done) := by
    intro done hdone
    have hlater := hopen done hdone
    rwa [World.after_append, World.after_cons] at hlater
  obtain ⟨hanswersMid, hsharesMid⟩ := keepsUp_run
    (fun h hallows _ hnext => h.keepsUp hallows hnext) hshares hallowsMid hopenMid
  rw [w.after_append, World.after_cons] at hs
  obtain ⟨hanswer, hstore⟩ := hsharesMid.complete hlast hs hstate now
  have hshared : w.after (before ++ first :: mid) = ((w.after before).step first).2.after mid := by
    rw [World.after_append, World.after_cons]
  have halone : w.after (u.soloSteps before mid) = ((w.after (before.filterMap u.soloStep?)).step
      (.createOpen u.solo u.work u.partition)).2.after (mid.filterMap u.soloStep?) := by
    rw [soloSteps, World.after_append, World.after_cons]
  have hopened : w.after (before ++ [first]) = ((w.after before).step first).2 := by
    rw [World.after_append]
    rfl
  constructor
  · have hrun : (w.run (u.soloSteps before mid)).1 =
        u.answers w before ++ .done :: u.answers (w.after (before ++ [first])) mid := by
      rw [soloSteps, World.run_append, hanswersBefore, hopened, ← hanswersMid, ← hdone]
      rfl
    rw [World.run_append, hrun, halone, hshared, ← hanswer, List.append_assoc]
    rfl
  · rw [w.after_append (u.soloSteps before mid), w.after_append (before ++ first :: mid), halone,
      hshared]
    exact hstore

private def parcels : Partition := ⟨"Parcels", "p", by decide, by decide⟩

/-- The sessions of some names, and one more. -/
private def parcelUnit : SharedUnit where
  work := "w"
  partition := parcels
  isOwn name := name = "a" || name = "b"
  solo := "alone"
  solo_not_own := by decide

private def freshParcels : World MemoryStore := .fresh { config := {} } {}

private def parcelSteps : List Step :=
  [.createOpen "b" "w" parcels, .enlist "b" (.insert ⟨"p", "r"⟩ ∅),
    .createOpen "c" "v" parcels, .enlist "a" (.insert ⟨"p", "s"⟩ ∅), .drop "a",
    .complete "c" .start]

theorem sharing_is_transparent_parcels :
    freshParcels.manager.registry.get? "w" = none ∧
      freshParcels.session? "alone" = none ∧
      parcelUnit.AllowsRun freshParcels ([.create "a" "w" parcels] ++ .start "a" :: parcelSteps) ∧
      (freshParcels.run (parcelUnit.soloSteps [.create "a" "w" parcels] parcelSteps ++
          [.complete "alone" .start])).1 =
        [.done, .done, .done, .done, .rows [],
          .rows [⟨"r", some (.ofVersion 1)⟩, ⟨"s", some (.ofVersion 2)⟩]] := by
  have hreachable : freshParcels.Reachable := ⟨_, _, [], rfl⟩
  have hunregistered : freshParcels.manager.registry.get? "w" = none := rfl
  have hfree : freshParcels.session? "alone" = none := rfl
  have hallows : parcelUnit.AllowsRun freshParcels
      ([.create "a" "w" parcels] ++ .start "a" :: parcelSteps) := by decide +kernel
  have hclosed : ∀ done ∈ List.inits [Step.create "a" "w" parcels],
      ¬ parcelUnit.SomeOpen (freshParcels.after done) := by decide +kernel
  have hopen : ∀ done ∈ List.inits parcelSteps, parcelUnit.SomeOpen
      (freshParcels.after ([.create "a" "w" parcels] ++ .start "a" :: done)) := by decide +kernel
  have hlast : (freshParcels.after ([.create "a" "w" parcels] ++ .start "a" :: parcelSteps)).session?
      "b" = some ⟨"w", parcels, .open, some 0⟩ := by decide +kernel
  obtain ⟨hanswers, _⟩ := sharing_is_transparent parcelUnit hreachable hunregistered hfree nofun
    hallows (fun done hdone => hclosed done ((List.mem_inits _ _).2 hdone))
    (fun done hdone => hopen done ((List.mem_inits _ _).2 hdone)) rfl hlast rfl .start
  exact ⟨hunregistered, hfree, hallows, hanswers.trans (by decide +kernel)⟩

end UnitOfWork.SharedUnit
