import UnitOfWork.Proofs.Store.Places

/-!
The tokens that the rows of a store carry, entry by entry, and those that its answers show: whatever
an answer shows is carried by a row.
-/

namespace UnitOfWork

theorem Ledger.Sound.nodup_map {l : Ledger} (h : l.Sound) {places : List RowId}
    (hnodup : places.Nodup) (hsome : ∀ id ∈ places, ∃ t, l.token? id = some t) :
    (places.map l.token?).Nodup := by
  refine hnodup.map_on fun id hid id' _ he => ?_
  obtain ⟨t, ht⟩ := hsome id hid
  exact h.unique ht (he ▸ ht)

/-- The tokens that a batch answers with stand at its rows. -/
theorem Ledger.exists_token?_of_tokens {l l' : Ledger} {table partition : String}
    {ops : List BatchOp} {writes : Batch.Writes} {rows : String → Except StorageError (Option Row)}
    {version : UInt64} (hstages : Batch.Stages rows version ops writes)
    (hnodup : (writes.map (·.1)).Nodup)
    (htoken : ∀ id, l'.token? id =
      if id.table = table ∧ id.partition = partition then
        match writes.lookup id.row with
        | some written => written.map Row.token
        | none => l.token? id
      else l.token? id)
    {t : Token} (ht : some t ∈ Batch.tokens writes) :
    ∃ e ∈ effectsOf table partition ops, l'.token? e.id = some t := by
  obtain ⟨w, hw, hwritten⟩ := List.mem_map.1 ht
  have hrow : w.1 ∈ ops.map BatchOp.row := hstages.map_fst ▸ List.mem_map_of_mem hw
  obtain ⟨op, hop, he⟩ := List.mem_map.1 hrow
  refine ⟨⟨⟨table, partition, op.row⟩, op⟩, List.mem_map_of_mem hop, ?_⟩
  rw [htoken, if_pos ⟨rfl, rfl⟩, he, Batch.lookup_of_mem hnodup hw]
  exact hwritten

namespace MemoryStore

/-- The token of every row, table by table. -/
def tokens (s : MemoryStore) : List (Option Token) :=
  s.tables.entries.flatMap fun t => t.2.entries.map fun e => some e.2.token

theorem tokens_eq (s : MemoryStore) : s.tokens = s.places.map s.ledger.token? := by
  rw [tokens, places, List.map_flatMap]
  refine List.flatMap_congr fun t ht => ?_
  rw [List.map_map]
  refine List.map_congr_left fun e he => ?_
  have hrow : s.row? ⟨t.1, e.1.partition, e.1.row⟩ = some e.2 :=
    Option.bind_eq_some_iff.2
      ⟨t.2, SortedMap.get?_eq_some_iff.2 ht, SortedMap.get?_eq_some_iff.2 he⟩
  exact (congrArg (Option.map Row.token) hrow).symm

theorem token?_of_query {s : MemoryStore} {table partition : String} {es : List Entity}
    (h : s.query table partition = .ok es) {e : Entity} (he : e ∈ es) :
    ∃ id, s.ledger.token? id = some e.token := by
  cases hrows : s.rowsOf table with
  | error f =>
    rw [query, hrows] at h
    cases h
  | ok rows =>
    obtain ⟨es', hquery, hlists⟩ := query_of_rowsOf hrows partition
    obtain rfl := Except.ok.inj (hquery.symm.trans h)
    obtain ⟨row, r, hr, rfl⟩ := (hlists.mem_iff e).1 he
    exact ⟨_, congrArg (Option.map Row.token) hr⟩

end MemoryStore

namespace Database

variable {d : Database}

/-- The token in front of every entry. -/
def tokens (d : Database) : List (Option Token) :=
  d.rows.entries.map fun e => Row.storedToken? e.2

/-- Every entry stands under the key of a place and shows a token. -/
def Keyed (d : Database) : Prop :=
  ∀ key bytes, d.rows.get? key = some bytes →
    ∃ id : RowId, key = PhysicalKey.encode id.table id.partition id.row ∧
      ∃ t, Row.storedToken? bytes = some t

namespace Keyed

theorem register (h : d.Keyed) (table : String) : (d.register table).Keyed := by
  intro key bytes hbytes
  rw [rows_register] at hbytes
  exact h key bytes hbytes

theorem commit (h : d.Keyed) {table partition : String} {writes : Batch.Writes}
    (hnodup : (writes.map (·.1)).Nodup)
    (hwritten : ∀ row r, writes.lookup row = some (some r) → ∃ v, r.token = Token.ofVersion v)
    (version : UInt64) : (d.commit table partition writes version).Keyed := by
  intro key bytes hbytes
  rcases d.get?_rows_commit hnodup hbytes with hold | ⟨w, _, r, hlookup, rfl, rfl⟩
  · exact h key bytes hold
  · obtain ⟨v, hv⟩ := hwritten w.1 r hlookup
    refine ⟨⟨table, partition, w.1⟩, rfl, r.token, Row.storedToken?_encode ?_⟩
    rw [hv, Token.utf8ByteSize_ofVersion]
    decide

end Keyed

end Database

namespace DurableStore

theorem exists_tokens_eq {s : DurableStore} (h : s.database.Keyed) :
    ∃ places : List RowId, places.Nodup ∧ s.database.tokens = places.map s.ledger.token? ∧
      ∀ id ∈ places, ∃ t, s.ledger.token? id = some t := by
  have hkey : ∀ key ∈ s.database.rows.entries.map Prod.fst,
      ∃ id, (∃ t, s.ledger.token? id = some t) ∧
        PhysicalKey.encode id.table id.partition id.row = key := by
    intro key hmem
    obtain ⟨⟨_, bytes⟩, he, rfl⟩ := List.mem_map.1 hmem
    have hget := SortedMap.get?_eq_some_iff.2 he
    obtain ⟨id, rfl, t, ht⟩ := h _ bytes hget
    exact ⟨id, ⟨t, Option.bind_eq_some_iff.2 ⟨bytes, hget, ht⟩⟩, rfl⟩
  obtain ⟨places, hsome, hkeys⟩ := exists_map_eq hkey
  refine ⟨places, ?_, ?_, hsome⟩
  · apply List.Nodup.of_map fun id => PhysicalKey.encode id.table id.partition id.row
    rw [hkeys]
    exact s.database.rows.nodup_keys
  · have hentries : s.database.tokens = (s.database.rows.entries.map Prod.fst).map
        fun key => (s.database.rows.get? key).bind Row.storedToken? := by
      rw [Database.tokens, List.map_map]
      refine List.map_congr_left fun e he => ?_
      rw [Function.comp_apply, SortedMap.get?_eq_some_iff.2 he]
      rfl
    rw [hentries, ← hkeys, List.map_map]
    rfl

/-- Every entity that is made of some entries shows the token of one of them. -/
theorem storedToken?_of_entitiesOf {entries : List (List UInt8 × List UInt8)} {es : List Entity}
    (h : entitiesOf entries = .ok es) {e : Entity} (he : e ∈ es) :
    ∃ p ∈ entries, Row.storedToken? p.2 = some e.token := by
  induction entries generalizing es with
  | nil =>
    cases h
    cases he
  | cons p entries ih =>
    obtain ⟨key, bytes⟩ := p
    unfold entitiesOf at h
    split at h
    · obtain ⟨p, hp, ht⟩ := ih h he
      exact ⟨p, List.mem_cons_of_mem _ hp, ht⟩
    · split at h
      · cases h
      · rename_i r hr
        cases hrest : entitiesOf entries with
        | error f =>
          rw [hrest] at h
          cases h
        | ok rest =>
          rw [hrest] at h
          cases h
          rcases List.mem_cons.1 he with rfl | he
          · exact ⟨_, List.mem_cons_self,
              Row.storedToken?_of_decode? (Database.decodeRow_eq_ok_iff.1 hr)⟩
          · obtain ⟨p, hp, ht⟩ := ih hrest he
            exact ⟨p, List.mem_cons_of_mem _ hp, ht⟩

theorem token?_of_query {s : DurableStore} (h : s.database.Keyed) {table partition : String}
    {es : List Entity} (hquery : s.query table partition = .ok es) {e : Entity} (he : e ∈ es) :
    ∃ id, s.ledger.token? id = some e.token := by
  unfold query at hquery
  split at hquery
  · cases hquery
  · cases hquery
    cases he
  · obtain ⟨⟨key, bytes⟩, hp, ht⟩ := storedToken?_of_entitiesOf hquery he
    have hget := SortedMap.get?_eq_some_iff.2 (List.mem_filter.1 hp).1
    obtain ⟨id, rfl, _⟩ := h key bytes hget
    exact ⟨id, Option.bind_eq_some_iff.2 ⟨bytes, hget, ht⟩⟩

theorem keyed_submit {s : DurableStore} (h : s.database.Keyed) (table partition : String)
    (ops : List BatchOp) (timeLeft : Option Duration) :
    (s.submit table partition ops timeLeft).2.database.Keyed := by
  have hcases := s.submitted table partition ops timeLeft
  generalize s.submit table partition ops timeLeft = submitted at hcases ⊢
  obtain ⟨answer, s'⟩ := submitted
  dsimp only at hcases ⊢
  cases hcases with
  | refused | missing | rejected | expired => exact h
  | applied haccept _ hstages =>
    obtain ⟨_, hwrites⟩ := hstages.valid_of_accept haccept
    exact h.commit hwrites (fun _ _ => hstages.stamped) _

end DurableStore

/-- The tokens that an answer shows. -/
def StoreReply.shown : StoreReply → List Token
  | .entity (.ok found) => found.toList.map Entity.token
  | .entities (.ok es) => es.map Entity.token
  | .tokens (.ok ts) => ts.filterMap id
  | _ => []

namespace AnyStore

/-- The token of every row that the store keeps. -/
def tokens : AnyStore → List (Option Token)
  | .memory s => s.tokens
  | .durable s => s.database.tokens

def Keyed : AnyStore → Prop
  | .memory _ => True
  | .durable s => s.database.Keyed

/-- The tokens that rows carry because of what takes effect in a call. -/
def stamps (s : AnyStore) (c : StoreCall) : List Token :=
  (s.effects c).filterMap fun e => (c.run s).2.ledger.token? e.id

theorem exists_tokens_eq {s : AnyStore} (h : s.Keyed) :
    ∃ places : List RowId, places.Nodup ∧ s.tokens = places.map s.ledger.token? ∧
      ∀ id ∈ places, ∃ t, s.ledger.token? id = some t := by
  cases s with
  | memory s =>
    refine ⟨s.places, s.nodup_places, s.tokens_eq, fun id hid => ?_⟩
    obtain ⟨r, hr⟩ := MemoryStore.mem_places.1 hid
    exact ⟨r.token, congrArg (Option.map Row.token) hr⟩
  | durable s => exact DurableStore.exists_tokens_eq h

theorem keyed_run {s : AnyStore} (h : s.Keyed) (c : StoreCall) : (c.run s).2.Keyed := by
  cases s with
  | memory s => cases c <;> trivial
  | durable s =>
    cases c with
    | read | query => exact h
    | ensureTable table =>
      show (s.ensureTable table).2.database.Keyed
      unfold DurableStore.ensureTable
      split
      · exact h
      · exact Database.Keyed.register h table
    | submit table partition ops timeLeft =>
      exact DurableStore.keyed_submit h table partition ops timeLeft

theorem IsEmpty.keyed {s : AnyStore} (h : s.IsEmpty) : s.Keyed := by
  cases s with
  | memory s => trivial
  | durable s =>
    intro key bytes hbytes
    rw [show s.database = {} from h] at hbytes
    cases hbytes

/-- The tokens that a submission answers with are those that its batch has stamped. -/
theorem mem_stamps_of_submit {s : AnyStore} {table partition : String} {ops : List BatchOp}
    {timeLeft : Option Duration} {ts : List (Option Token)}
    (h : (TableStore.submit s table partition ops timeLeft).1 = .ok ts) {t : Token}
    (ht : some t ∈ ts) : t ∈ s.stamps (.submit table partition ops timeLeft) := by
  suffices hcarried : ∃ e ∈ s.effects (.submit table partition ops timeLeft),
      (TableStore.submit s table partition ops timeLeft).2.ledger.token? e.id = some t by
    exact List.mem_filterMap.2 hcarried
  cases s with
  | memory s =>
    change (s.submit table partition ops timeLeft).1 = .ok ts at h
    show ∃ e ∈ s.submitEffects table partition ops timeLeft,
      (s.submit table partition ops timeLeft).2.ledger.token? e.id = some t
    have hcases := s.submitted table partition ops timeLeft
    rw [MemoryStore.submitEffects, h, MemoryStore.hasApplied, if_pos rfl]
    rw [h] at hcases
    generalize (s.submit table partition ops timeLeft).2 = s' at hcases ⊢
    generalize hanswer : (Except.ok ts : Except StorageError (List (Option Token))) = answer
      at hcases
    cases hcases with
    | refused | missing | rejected => cases hanswer
    | applied haccept hrows hstages =>
      obtain ⟨_, hwrites⟩ := hstages.valid_of_accept haccept
      split at hanswer
      · cases hanswer
      · cases hanswer
        exact Ledger.exists_token?_of_tokens hstages hwrites (s.token?_write hrows hwrites _) ht
  | durable s =>
    change (s.submit table partition ops timeLeft).1 = .ok ts at h
    show ∃ e ∈ s.submitEffects table partition ops timeLeft,
      (s.submit table partition ops timeLeft).2.ledger.token? e.id = some t
    have hcases := s.submitted table partition ops timeLeft
    rw [DurableStore.submitEffects, h, DurableStore.hasApplied, if_pos rfl]
    rw [h] at hcases
    generalize (s.submit table partition ops timeLeft).2 = s' at hcases ⊢
    generalize hanswer : (Except.ok ts : Except StorageError (List (Option Token))) = answer
      at hcases
    cases hcases with
    | refused | missing | rejected | expired => cases hanswer
    | applied haccept hreadable hstages =>
      obtain ⟨_, hwrites⟩ := hstages.valid_of_accept haccept
      cases hanswer
      exact Ledger.exists_token?_of_tokens hstages hwrites (s.token?_commit haccept hstages _) ht

theorem mem_stamps_of_run {s : AnyStore} {c : StoreCall} {ts : List (Option Token)}
    (h : (c.run s).1 = .tokens (.ok ts)) {t : Token} (ht : some t ∈ ts) : t ∈ s.stamps c := by
  cases c with
  | read | query | ensureTable => cases h
  | submit => exact mem_stamps_of_submit (StoreReply.tokens.inj h) ht

/-- What an answer shows is carried by a row, or has just been stamped. -/
theorem token?_of_shown {s : AnyStore} (h : s.Keyed) {c : StoreCall} {t : Token}
    (ht : t ∈ (c.run s).1.shown) :
    (∃ id, s.ledger.token? id = some t) ∨ t ∈ s.stamps c := by
  cases c with
  | read table partition row =>
    change t ∈ (StoreReply.entity (TableStore.read s table partition row)).shown at ht
    cases hread : TableStore.read s table partition row with
    | error e => simp [hread, StoreReply.shown] at ht
    | ok found =>
      rw [hread] at ht
      obtain ⟨e, he, rfl⟩ := List.mem_map.1 ht
      have hcarries : s.Carries ⟨table, partition, row⟩ e.token :=
        ⟨e, by rw [hread, Option.mem_toList.1 he], rfl⟩
      exact .inl ⟨_, token?_of_carries hcarries⟩
  | query table partition =>
    change t ∈ (StoreReply.entities (TableStore.query s table partition)).shown at ht
    cases hquery : TableStore.query s table partition with
    | error e => simp [hquery, StoreReply.shown] at ht
    | ok es =>
      rw [hquery] at ht
      obtain ⟨e, he, rfl⟩ := List.mem_map.1 ht
      left
      cases s with
      | memory s => exact MemoryStore.token?_of_query hquery he
      | durable s => exact DurableStore.token?_of_query h hquery he
  | ensureTable table => cases ht
  | submit table partition ops timeLeft =>
    change t ∈ (StoreReply.tokens (TableStore.submit s table partition ops timeLeft).1).shown at ht
    cases hsubmit : (TableStore.submit s table partition ops timeLeft).1 with
    | error e => simp [hsubmit, StoreReply.shown] at ht
    | ok ts =>
      rw [hsubmit] at ht
      obtain ⟨o, ho, rfl⟩ := List.mem_filterMap.1 ht
      exact .inr (mem_stamps_of_submit hsubmit ho)

end AnyStore

end UnitOfWork
