import UnitOfWork.Proofs.Batch.Alike
import UnitOfWork.Proofs.Store.Agreement
import UnitOfWork.Proofs.Store.Staged

/-!
A store that others use too, and the same store without them. In the partitions that the others
leave alone both hold the same rows, but for the versions that tokens are stamped with, and a batch
in such a partition comes to the same in both.
-/

namespace UnitOfWork

/-- Both fail with the same error, or both succeed with results that are related. -/
inductive SameVerdict {ε α : Type} (R : α → α → Prop) : Except ε α → Except ε α → Prop
  | error (e : ε) : SameVerdict R (.error e) (.error e)
  | ok {a a' : α} (h : R a a') : SameVerdict R (.ok a) (.ok a')

theorem SameVerdict.map {ε α β : Type} {R : α → α → Prop} {S : β → β → Prop}
    {x x' : Except ε α} (h : SameVerdict R x x') {f : α → β}
    (hf : ∀ a a', R a a' → S (f a) (f a')) : SameVerdict S (x.map f) (x'.map f) := by
  cases h with
  | error e => exact .error e
  | ok h => exact .ok (hf _ _ h)

/-- The same entity but for the name of its token. -/
structure Entity.Alike (P : Pairing UInt64) (e e' : Entity) : Prop where
  key : e.key = e'.key
  properties : e.properties = e'.properties
  token : e.token.Alike P e'.token

theorem Entity.Alike.mono {P Q : Pairing UInt64} {e e' : Entity} (h : e.Alike P e')
    (hPQ : P.Within Q) : e.Alike Q e' := { h with token := h.token.mono hPQ }

theorem Entity.unstamped_eq_of_alike {P : Pairing UInt64} {found found' : Option Entity}
    (h : Option.Rel (Entity.Alike P) found found') :
    found.map Entity.unstamped = found'.map Entity.unstamped := by
  cases h with
  | none => rfl
  | some h => rw [Option.map_some, Option.map_some, Entity.unstamped, Entity.unstamped, h.key,
      h.properties]

/-- The pairs are of versions whose tokens have been issued. -/
def Pairing.Issued (P : Pairing UInt64) (l l' : Ledger) : Prop :=
  ∀ {v v'}, P.pairs v v' → l.Issued (Token.ofVersion v) ∧ l'.Issued (Token.ofVersion v')

/-- Tokens that are stamped at the same rows in two runs stand for each other from then on. -/
theorem Ledger.Step.exists_pairing {P : Pairing UInt64} {l m l' m' : Ledger}
    {effects effects' : List Effect} (h : l.Step effects m) (h' : l'.Step effects' m')
    (hids : ∀ id, id ∈ effects.map Effect.id → id ∈ effects'.map Effect.id)
    (hP : P.Issued l l') :
    ∃ Q : Pairing UInt64, P.Within Q ∧ Q.Issued m m' ∧ ∀ id ∈ effects.map Effect.id,
      ∀ t t', m.token? id = some t → m'.token? id = some t' → t.Alike Q t' := by
  -- versions stand for each other if they stamp the same row; those of earlier tokens are not reused
  let new (v v' : UInt64) : Prop := ∃ id ∈ effects.map Effect.id,
    m.token? id = some (Token.ofVersion v) ∧ m'.token? id = some (Token.ofVersion v')
  have hnew : ∀ {v v' w w'}, new v v' → new w w' → (v = w ↔ v' = w') := by
    rintro v v' w w' ⟨id, hid, hv, hv'⟩ ⟨id', hid', hw, hw'⟩
    constructor
    · rintro rfl
      obtain rfl := h.distinct hid hid' hv hw
      exact Token.ofVersion_injective (Option.some.inj (hv'.symm.trans hw'))
    · rintro rfl
      obtain rfl := h'.distinct (hids _ hid) (hids _ hid') hv' hw'
      exact Token.ofVersion_injective (Option.some.inj (hv.symm.trans hw))
  have hfresh : ∀ {v v' w w'}, P.pairs v v' → new w w' → v ≠ w ∧ v' ≠ w' := by
    rintro v v' w w' hpair ⟨id, hid, hw, hw'⟩
    obtain ⟨hv, hv'⟩ := hP hpair
    constructor
    · rintro rfl
      exact h.not_issued hid hw hv
    · rintro rfl
      exact h'.not_issued (hids _ hid) hw' hv'
  refine ⟨P.extend new hnew hfresh, fun _ _ => .inl, ?_, fun id hid t t' ht ht' => ?_⟩
  · rintro v v' (hpair | ⟨id, hid, hv, hv'⟩)
    · obtain ⟨hv, hv'⟩ := hP hpair
      exact ⟨h.issued hv, h'.issued hv'⟩
    · exact ⟨h.issued_of_mem hid hv, h'.issued_of_mem (hids _ hid) hv'⟩
  · obtain ⟨v, _, _, rfl⟩ := h.stamped hid ht
    obtain ⟨v', _, _, rfl⟩ := h'.stamped (hids _ hid) ht'
    exact .stamped (.inr ⟨id, hid, ht, ht'⟩)

namespace AnyStore

variable {s s' : AnyStore} {table partition : String} {ops ops' : List BatchOp}

/-- The same store with others and without them, in the partitions that are not the others'. -/
structure Beside (P : Pairing UInt64) (own : String → String → Prop) (s s' : AnyStore) : Prop where
  isDurable : s.isDurable = s'.isDurable
  limits : TableStore.limits s = TableStore.limits s'
  access : ∀ table, s.access table = s'.access table
  rows : ∀ {table partition}, own table partition → ∀ row,
    RowsAlike P (s.row? ⟨table, partition, row⟩) (s'.row? ⟨table, partition, row⟩)
  issued : P.Issued s.ledger s'.ledger
  sound : s.Sound
  sound' : s'.Sound

namespace Beside

variable {P : Pairing UInt64} {own : String → String → Prop}

/-- At the beginning there is nobody else. -/
theorem refl (hs : s.Sound) (hl : s.ledger.Sound) (own : String → String → Prop) :
    Beside (.diagonal fun v => s.ledger.Issued (Token.ofVersion v)) own s s where
  isDurable := rfl
  limits := rfl
  access _ := rfl
  rows _ row := by
    refine ⟨rfl, fun r r' hr hr' => ?_⟩
    obtain rfl : r = r' := Option.some.inj (hr.symm.trans hr')
    have hissued := hl.issued ((token?_eq hs _).trans (congrArg (Option.map Row.token) hr))
    obtain ⟨v, hv⟩ : ∃ v, r.token = Token.ofVersion v := by
      obtain ⟨v, _, _, hv⟩ := hissued
      exact ⟨v, hv⟩
    rw [hv] at hissued ⊢
    exact .stamped ⟨rfl, hissued⟩
  issued h := by
    obtain ⟨rfl, hissued⟩ := h
    exact ⟨hissued, hissued⟩
  sound := hs
  sound' := hs

section Own

variable (h : Beside P own s s') (hown : own table partition)
  (hops : List.Forall₂ (BatchOp.Alike P) ops ops')

include h hown

theorem read (row : String) :
    SameVerdict (Option.Rel (Entity.Alike P)) (TableStore.read s table partition row)
      (TableStore.read s' table partition row) := by
  rw [read_eq h.sound, read_eq h.sound', ← h.access]
  cases s.access table with
  | error e => exact .error e
  | ok _ =>
    refine .ok ?_
    rcases (h.rows hown row).none_or_some with ⟨hr, hr'⟩ | ⟨r, r', hr, hr', hproperties, htoken⟩
    · rw [hr, hr']
      exact .none
    · rw [hr, hr']
      exact .some ⟨rfl, hproperties, htoken⟩

/-- Queries list the same rows but for their tokens. -/
theorem query : (TableStore.query s table partition).map (List.map Entity.unstamped) =
    (TableStore.query s' table partition).map (List.map Entity.unstamped) := by
  have haccess := h.access table
  cases hfound : s.access table with
  | error e =>
    rw [hfound] at haccess
    rw [query_of_access_error hfound, query_of_access_error haccess.symm]
  | ok _ =>
    rw [hfound] at haccess
    obtain ⟨es, hes, hlists⟩ := exists_lists h.sound hfound partition
    obtain ⟨es', hes', hlists'⟩ := exists_lists h.sound' haccess.symm partition
    rw [hes, hes']
    exact congrArg Except.ok
      (hlists.unstamped_eq hlists' fun row => (h.rows hown row).properties)

include hops

theorem fits_iff : s.Fits table partition ops ↔ s'.Fits table partition ops' := by
  rw [AnyStore.fits_iff, AnyStore.fits_iff, h.isDurable]
  have hleaves : ops.map (fun op => op.leaves (s.row? ⟨table, partition, op.row⟩)) =
      ops'.map fun op => op.leaves (s'.row? ⟨table, partition, op.row⟩) := by
    induction hops with
    | nil => rfl
    | @cons op op' ops ops' hop _ ih =>
      rw [List.map_cons, List.map_cons, ih, ← hop.row_eq, hop.leaves_eq (h.rows hown op.row)]
  have hall : ∀ (s : AnyStore) (ops : List BatchOp),
      (∀ op ∈ ops, ∀ p ∈ op.leaves (s.row? ⟨table, partition, op.row⟩), p.Fits) ↔
        ∀ o ∈ ops.map fun op => op.leaves (s.row? ⟨table, partition, op.row⟩),
          ∀ p ∈ o, p.Fits := fun s ops => by simp
  rw [hall, hall, hleaves]

theorem drawn_eq (timeLeft : Option Duration) :
    s.drawn (.submit table partition ops timeLeft) =
      s'.drawn (.submit table partition ops' timeLeft) := by
  rw [drawn_submit h.sound, drawn_submit h.sound', h.limits, Batch.accept_of_alike hops, h.access]
  have hdraws : Batch.draws (s.rowIn table partition) ops =
      Batch.draws (s'.rowIn table partition) ops' :=
    Batch.draws_congr (Batch.sameAt_of_alike hops (h.rows hown))
  rw [hdraws]

/-- A batch is refused alike, or it has the same effect. -/
theorem staged_eq : (s.staged table partition ops).map Batch.effects =
    (s'.staged table partition ops').map Batch.effects := by
  unfold staged
  rw [h.limits, Batch.accept_of_alike hops, h.access]
  have hstage : (Batch.stage (s.rowIn table partition) 0 s.ledger.version ops).1.map
      Batch.effects = (Batch.stage (s'.rowIn table partition) 0 s'.ledger.version ops').1.map
        Batch.effects :=
    Batch.stage_congr (Batch.sameAt_of_alike hops (h.rows hown)) 0 _ _
  cases Batch.accept (TableStore.limits s') table partition ops' with
  | error e => rfl
  | ok _ =>
    cases s'.access table with
    | error e => rfl
    | ok _ => exact hstage

/-- What can be told of both stores after a batch, whatever names its tokens got. -/
theorem after_submit {Q : Pairing UInt64} (hfits : s.Fits table partition ops)
    (hrows : ∀ {t p}, own t p → ∀ row,
      RowsAlike Q ((TableStore.submit s table partition ops none).2.row? ⟨t, p, row⟩)
        ((TableStore.submit s' table partition ops' none).2.row? ⟨t, p, row⟩))
    (hissued : Q.Issued (TableStore.submit s table partition ops none).2.ledger
      (TableStore.submit s' table partition ops' none).2.ledger) :
    Beside Q own (TableStore.submit s table partition ops none).2
      (TableStore.submit s' table partition ops' none).2 where
  isDurable := by rw [isDurable_submit, isDurable_submit, h.isDurable]
  limits := by rw [limits_submit, limits_submit, h.limits]
  access other := by
    rw [(frame_submit h.sound hfits).1,
      (frame_submit h.sound' ((h.fits_iff hown hops).1 hfits)).1, h.access]
  rows := hrows
  issued := hissued
  sound := sound_submit h.sound hfits none
  sound' := sound_submit h.sound' ((h.fits_iff hown hops).1 hfits) none

/-- Once the rows that a batch has written carry tokens that stand for each other, all rows do. -/
theorem rows_of_applied {Q : Pairing UInt64} (hPQ : P.Within Q) {s₁ s₁' : AnyStore}
    {writes writes' : Batch.Writes} (happlied : s.Applied table partition ops writes s₁)
    (happlied' : s'.Applied table partition ops' writes' s₁')
    (hstamped : ∀ row ∈ ops.map BatchOp.row, ∀ r r', s₁.row? ⟨table, partition, row⟩ = some r →
      s₁'.row? ⟨table, partition, row⟩ = some r' → r.token.Alike Q r'.token)
    {t p : String} (hplace : own t p) (row : String) :
    RowsAlike Q (s₁.row? ⟨t, p, row⟩) (s₁'.row? ⟨t, p, row⟩) := by
  by_cases hid : t = table ∧ p = partition ∧ row ∈ ops.map BatchOp.row
  · obtain ⟨rfl, rfl, hrow⟩ := hid
    refine ⟨?_, hstamped row hrow⟩
    obtain ⟨op, hop, rfl⟩ := List.mem_map.1 hrow
    obtain ⟨i, hi, rfl⟩ := List.getElem_of_mem hop
    have hi' : i < ops'.length := hops.length_eq ▸ hi
    have halike : ops[i].Alike P ops'[i] := hops.get hi hi'
    have hleft := happlied.properties_eq hop
    have hleft' := happlied'.properties_eq (List.getElem_mem hi')
    rw [← halike.row_eq] at hleft'
    rw [hleft, hleft', halike.leaves_eq (h.rows hplace ops[i].row)]
  · rw [happlied.row?_of_notMem hid,
      happlied'.row?_of_notMem (by rwa [← Batch.map_row_of_alike hops])]
    exact (h.rows hplace row).mono hPQ

/-- A batch that both stores apply gives the tokens that it stamps the same roles in both. -/
theorem exists_pairing (hfits : s.Fits table partition ops)
    (hdrawn : s.ledger.version.toNat + s.drawn (.submit table partition ops none) < 2 ^ 64)
    (hdrawn' : s'.ledger.version.toNat + s'.drawn (.submit table partition ops' none) < 2 ^ 64)
    {tokens tokens' : List (Option Token)}
    (hok : (TableStore.submit s table partition ops none).1 = .ok tokens)
    (hok' : (TableStore.submit s' table partition ops' none).1 = .ok tokens') :
    ∃ Q : Pairing UInt64, P.Within Q ∧ List.Forall₂ (Option.Rel (Token.Alike Q)) tokens tokens' ∧
      Beside Q own (TableStore.submit s table partition ops none).2
        (TableStore.submit s' table partition ops' none).2 := by
  have hfits' := (h.fits_iff hown hops).1 hfits
  have hstep : Ledger.Step _ _ (TableStore.submit s table partition ops none).2.ledger :=
    (s.step_run (.submit table partition ops none) hdrawn).1
  have hstep' : Ledger.Step _ _ (TableStore.submit s' table partition ops' none).2.ledger :=
    (s'.step_run (.submit table partition ops' none) hdrawn').1
  rw [effects_of_ok hok] at hstep
  rw [effects_of_ok hok'] at hstep'
  obtain ⟨Q, hPQ, hissued, hstamped⟩ := hstep.exists_pairing hstep' (fun id hid => by
    rw [Ledger.mem_map_id_effectsOf] at hid ⊢
    rwa [← Batch.map_row_of_alike hops]) h.issued
  obtain ⟨_, happlied, rfl⟩ := exists_applied_of_ok h.sound hfits hok
  obtain ⟨_, happlied', rfl⟩ := exists_applied_of_ok h.sound' hfits' hok'
  have hrows : ∀ {t p}, own t p → ∀ row,
      RowsAlike Q ((TableStore.submit s table partition ops none).2.row? ⟨t, p, row⟩)
        ((TableStore.submit s' table partition ops' none).2.row? ⟨t, p, row⟩) := by
    refine h.rows_of_applied hown hops hPQ happlied happlied' fun row hrow r r' hr hr' => ?_
    refine hstamped ⟨table, partition, row⟩ (Ledger.mem_map_id_effectsOf.2 ⟨rfl, rfl, hrow⟩) _ _
      ?_ ?_
    · rw [token?_eq (sound_submit h.sound hfits none), hr, Option.map_some]
    · rw [token?_eq (sound_submit h.sound' hfits' none), hr', Option.map_some]
  refine ⟨Q, hPQ, ?_, h.after_submit hown hops hfits hrows hissued⟩
  rw [happlied.tokens_eq, happlied'.tokens_eq, List.forall₂_map_left_iff,
    List.forall₂_map_right_iff]
  refine hops.imp fun op op' hop => ?_
  rw [← hop.row_eq]
  rcases (hrows hown op.row).none_or_some with ⟨hr, hr'⟩ | ⟨r, r', hr, hr', _, htoken⟩
  · rw [hr, hr']
    exact .none
  · rw [hr, hr']
    exact .some htoken

/-- A batch is answered alike by both stores, and leaves them alike. -/
theorem submit (hfits : s.Fits table partition ops)
    (hdrawn : s.ledger.version.toNat + s.drawn (.submit table partition ops none) < 2 ^ 64)
    (hdrawn' : s'.ledger.version.toNat + s'.drawn (.submit table partition ops' none) < 2 ^ 64) :
    ∃ Q : Pairing UInt64, P.Within Q ∧
      SameVerdict (List.Forall₂ (Option.Rel (Token.Alike Q)))
        (TableStore.submit s table partition ops none).1
        (TableStore.submit s' table partition ops' none).1 ∧
      Beside Q own (TableStore.submit s table partition ops none).2
        (TableStore.submit s' table partition ops' none).2 := by
  have hstaged := h.staged_eq hown hops
  have hanswer := submit_fst_eq_staged h.sound table partition ops
  have hanswer' := submit_fst_eq_staged h.sound' table partition ops'
  generalize s.staged table partition ops = staged at hstaged hanswer
  generalize s'.staged table partition ops' = staged' at hstaged hanswer'
  cases staged with
  | error e =>
    cases staged' with
    | ok => cases hstaged
    | error e' =>
      obtain rfl : e = e' := Except.error.inj hstaged
      have hstep := (s.step_run (.submit table partition ops none) hdrawn).1
      have hstep' := (s'.step_run (.submit table partition ops' none) hdrawn').1
      refine ⟨P, Pairing.Within.refl P, ?_, h.after_submit hown hops hfits ?_ ?_⟩
      · rw [hanswer, hanswer']
        exact .error e
      · intro t p hplace row
        rw [(keeps_of_error h.sound hanswer).row, (keeps_of_error h.sound' hanswer').row]
        exact h.rows hplace row
      · exact fun hpair => ⟨hstep.issued (h.issued hpair).1, hstep'.issued (h.issued hpair).2⟩
  | ok writes =>
    cases staged' with
    | error => cases hstaged
    | ok writes' =>
      obtain ⟨Q, hPQ, htokens, hafter⟩ :=
        h.exists_pairing hown hops hfits hdrawn hdrawn' hanswer hanswer'
      refine ⟨Q, hPQ, ?_, hafter⟩
      rw [hanswer, hanswer']
      exact .ok htokens

end Own

/-- What the others submit changes nothing of what is not theirs. -/
theorem other (h : Beside P own s s') (hother : ¬ own table partition)
    (hfits : s.Fits table partition ops)
    (hdrawn : s.ledger.version.toNat + s.drawn (.submit table partition ops none) < 2 ^ 64) :
    Beside P own (TableStore.submit s table partition ops none).2 s' where
  isDurable := by rw [isDurable_submit, h.isDurable]
  limits := by rw [limits_submit, h.limits]
  access t := by rw [(frame_submit h.sound hfits).1, h.access]
  rows {t p} hplace row := by
    rw [(frame_submit h.sound hfits).2]
    · exact h.rows hplace row
    · rintro ⟨rfl, rfl⟩
      exact hother hplace
  issued hpair :=
    ⟨(s.step_run (.submit table partition ops none) hdrawn).1.issued (h.issued hpair).1,
      (h.issued hpair).2⟩
  sound := sound_submit h.sound hfits none
  sound' := h.sound'

end Beside

end AnyStore

end UnitOfWork
