import Mathlib.Data.List.Infix
import UnitOfWork.Proofs.Batch.Intent
import UnitOfWork.Proofs.Store.WellFormed

/-!
The two stores agree: asked the same, they answer the same but for the tokens that they stamp, as
long as no token is guessed.
-/

namespace UnitOfWork

/-- What a caller may ask of any store without knowing which tokens it stamps. -/
inductive Request
  | read (table partition row : String)
  | query (table partition : String)
  | ensureTable (table : String)
  | submit (table partition : String) (intents : List Intent)

namespace Request

section Run

variable {σ : Type} [TableStore σ]

/-- A row as a store shows it to readers. -/
def shown? (s : σ) (table partition row : String) : Option Row :=
  match TableStore.read s table partition row with
  | .ok found => found.map fun e => ⟨e.token, e.properties⟩
  | .error _ => none

/-- The call that is meant for a store, with the tokens that its rows carry at the time. -/
def call (s : σ) : Request → StoreCall
  | .read table partition row => .read table partition row
  | .query table partition => .query table partition
  | .ensureTable table => .ensureTable table
  | .submit table partition intents =>
    .submit table partition (intents.map fun i => i.against (shown? s table partition i.op.row)) none

def run (s : σ) (r : Request) : StoreReply × σ := (r.call s).run s

/-- The store after some requests. -/
def after (s : σ) (requests : List Request) : σ := requests.foldl (fun s r => (r.run s).2) s

/-- The answers to some requests. -/
def replies (s : σ) : List Request → List StoreReply
  | [] => []
  | r :: requests => (r.run s).1 :: replies (r.run s).2 requests

end Run

/-- All tokens that the operations name are ones that no store stamps. -/
def Foreign : Request → Prop
  | .submit _ _ intents => ∀ i ∈ intents, i.Foreign
  | .read .. | .query .. | .ensureTable .. => True

end Request

def Entity.unstamped (e : Entity) : Entity := { e with token := Token.none }

theorem Row.map_unstamped_at (found : Option Row) (key : EntityKey) :
    (found.map (·.at key)).map Entity.unstamped =
      (found.map Row.properties).map fun p => ⟨key, Token.none, p⟩ := by
  cases found <;> rfl

/-- Rows with the same properties are listed as the same entities but for their tokens. -/
theorem Lists.unstamped_eq {row? row'? : RowId → Option Row} {table partition : String}
    {es es' : List Entity} (h : Lists row? table partition es) (h' : Lists row'? table partition es')
    (hrows : ∀ row, (row? ⟨table, partition, row⟩).map Row.properties =
      (row'? ⟨table, partition, row⟩).map Row.properties) :
    es.map Entity.unstamped = es'.map Entity.unstamped := by
  have hunstamped : ∀ {row? es}, Lists row? table partition es → es.map Entity.unstamped =
      (es.map fun e => (e.key.row, e.properties)).map fun x =>
        ⟨⟨partition, x.1⟩, Token.none, x.2⟩ := by
    intro row? es hlists
    rw [List.map_map]
    refine List.map_congr_left fun e he => ?_
    have hpartition := hlists.partition_eq he
    obtain ⟨⟨p, row⟩, token, properties⟩ := e
    obtain rfl : p = partition := hpartition
    rfl
  rw [hunstamped h, hunstamped h', h.properties_eq h' hrows]

/-- An answer with its tokens erased. -/
def StoreReply.unstamped : StoreReply → StoreReply
  | .entity found => .entity (found.map (Option.map Entity.unstamped))
  | .entities found => .entities (found.map (List.map Entity.unstamped))
  | .done answer => .done answer
  | .tokens answer => .tokens (answer.map (List.map (Option.map fun _ => Token.none)))

theorem Request.config_after (m : MemoryStore) (requests : List Request) :
    (Request.after m requests).config = m.config := by
  induction requests generalizing m with
  | nil => rfl
  | cons r requests ih =>
    refine (ih (r.run m).2).trans ?_
    cases r with
    | read | query => rfl
    | ensureTable table => exact m.config_ensureTable table
    | submit table partition intents => exact m.config_submit table partition _ none

/-- The lengths in all rows are those of an actual machine, whose words have 64 bits. -/
def MemoryStore.Fits (s : MemoryStore) : Prop := ∀ id r, s.row? id = some r → r.properties.Fits

theorem MemoryStore.fits_iff {s : MemoryStore} :
    s.Fits ↔ ∀ t ∈ s.tables.entries, ∀ e ∈ t.2.entries, e.2.properties.Fits := by
  constructor
  · rintro h ⟨table, rows⟩ ht ⟨⟨partition, row⟩, r⟩ he
    apply h ⟨table, partition, row⟩ r
    rw [row?, SortedMap.get?_eq_some_iff.2 ht]
    exact SortedMap.get?_eq_some_iff.2 he
  · intro h id r hr
    obtain ⟨rows, hrows, hrow⟩ := Option.bind_eq_some_iff.1 hr
    exact h _ (SortedMap.get?_eq_some_iff.1 hrows) _ (SortedMap.get?_eq_some_iff.1 hrow)

instance (s : MemoryStore) : Decidable s.Fits := decidable_of_iff _ MemoryStore.fits_iff.symm

/-- Stores of the same tables and rows, but for tokens and for empty tables that one of them would
create. -/
structure Agree (m : MemoryStore) (d : DurableStore) : Prop where
  limits : m.config.limits = d.config.limits
  creates : m.config.createTableIfMissing = d.config.createTableIfMissing
  wellFormed : d.database.WellFormed
  rows : ∀ id, SameButStamps (m.row? id) (d.database.row? id)
  registered : ∀ table, d.database.isRegistered table = true → m.tables.contains table = true
  exists_eq : m.config.createTableIfMissing = false →
    ∀ table, m.tables.contains table = d.database.isRegistered table

namespace Agree

variable {m : MemoryStore} {d : DurableStore}

/-- Both have a table, or would create it, or neither. -/
theorem readable (h : Agree m d) (table : String) :
    (∃ rows readable, m.rowsOf table = .ok rows ∧ d.isReadable table = .ok readable) ∨
      m.rowsOf table = .error (.tableNotFound table) ∧
        d.isReadable table = .error (.tableNotFound table) ∧ ∀ partition row,
          m.row? ⟨table, partition, row⟩ = none ∧ d.database.row? ⟨table, partition, row⟩ = none := by
  unfold MemoryStore.rowsOf DurableStore.isReadable
  cases hcreate : m.config.createTableIfMissing with
  | true =>
    left
    rw [← h.creates, hcreate, if_pos rfl, if_pos rfl]
    have hregistered : (if d.database.isRegistered table = true then
        (.ok true : Except StorageError Bool) else .ok false) =
          .ok (d.database.isRegistered table) := by
      cases d.database.isRegistered table <;> rfl
    cases m.tables.get? table with
    | none => exact ⟨_, _, rfl, hregistered⟩
    | some rows => exact ⟨_, _, rfl, hregistered⟩
  | false =>
    have hexists := h.exists_eq hcreate table
    rw [SortedMap.contains] at hexists
    rw [← h.creates, hcreate, ← hexists]
    cases hrows : m.tables.get? table with
    | some rows => exact .inl ⟨_, _, rfl, rfl⟩
    | none =>
      right
      refine ⟨rfl, rfl, fun partition row => ⟨?_, ?_⟩⟩
      · rw [MemoryStore.row?, hrows]
        rfl
      · apply h.wellFormed.row?_eq_none
        rw [← hexists, hrows]
        rfl

/-- Rows are shown with the tokens that they carry. -/
theorem shown?_eq (h : Agree m d) (table partition row : String) :
    Request.shown? m table partition row = m.row? ⟨table, partition, row⟩ ∧
      Request.shown? d table partition row = d.database.row? ⟨table, partition, row⟩ := by
  have hm : TableStore.read m table partition row = _ := m.read_eq table partition row
  have hd : TableStore.read d table partition row = _ :=
    d.read_eq h.wellFormed table partition row
  have hat : ∀ found : Option Row, (found.map (·.at ⟨partition, row⟩)).map
      (fun e => (⟨e.token, e.properties⟩ : Row)) = found := fun found => by
    cases found <;> rfl
  unfold Request.shown?
  rw [hm, hd]
  rcases h.readable table with ⟨rows, readable, hrows, hreadable⟩ | ⟨hrows, hreadable, hnone⟩
  · rw [hrows, hreadable]
    exact ⟨hat _, hat _⟩
  · obtain ⟨hrow, hrow'⟩ := hnone partition row
    rw [hrows, hreadable, hrow, hrow']
    exact ⟨rfl, rfl⟩

theorem read (h : Agree m d) (table partition row : String) :
    (m.read table partition row).map (Option.map Entity.unstamped) =
      (d.read table partition row).map (Option.map Entity.unstamped) := by
  rw [m.read_eq, d.read_eq h.wellFormed]
  rcases h.readable table with ⟨rows, readable, hrows, hreadable⟩ | ⟨hrows, hreadable, _⟩
  · rw [hrows, hreadable]
    show Except.ok _ = Except.ok _
    rw [Row.map_unstamped_at, Row.map_unstamped_at, (h.rows _).properties]
  · rw [hrows, hreadable]
    rfl

theorem query (h : Agree m d) (table partition : String) :
    (m.query table partition).map (List.map Entity.unstamped) =
      (d.query table partition).map (List.map Entity.unstamped) := by
  rcases h.readable table with ⟨rows, readable, hrows, hreadable⟩ | ⟨hrows, hreadable, _⟩
  · obtain ⟨es, hquery, hlists⟩ := MemoryStore.query_of_rowsOf hrows partition
    obtain ⟨es', hquery', hlists'⟩ :=
      DurableStore.query_of_isReadable h.wellFormed hreadable partition
    rw [hquery, hquery']
    exact congrArg Except.ok (hlists.unstamped_eq hlists' fun row => (h.rows _).properties)
  · rw [MemoryStore.query, DurableStore.query, hrows, hreadable]
    rfl

theorem ensureTable (h : Agree m d) (table : String) :
    (m.ensureTable table).1 = (d.ensureTable table).1 ∧
      Agree (m.ensureTable table).2 (d.ensureTable table).2 := by
  cases hname : checkTableName table with
  | error fault =>
    rw [MemoryStore.ensureTable, DurableStore.ensureTable, hname]
    exact ⟨rfl, h⟩
  | ok _ =>
    have hcontains := m.contains_ensureTable (checkTableName_eq_ok_iff.1 hname)
    have hconfig := m.config_ensureTable table
    have hregister : (d.ensureTable table).2 =
        { d with database := d.database.register table } := by
      rw [DurableStore.ensureTable, hname]
    have hanswer : (m.ensureTable table).1 = (d.ensureTable table).1 := by
      rw [MemoryStore.ensureTable, DurableStore.ensureTable, hname]
      dsimp only
      split <;> rfl
    refine ⟨hanswer, ?_⟩
    rw [hregister]
    refine ⟨hconfig ▸ h.limits, hconfig ▸ h.creates, h.wellFormed.register table, fun id => ?_,
      fun other hother => ?_, fun hcreate other => ?_⟩
    · rw [m.row?_ensureTable, Database.row?_register]
      exact h.rows id
    · rw [Database.isRegistered_register, Bool.or_eq_true] at hother
      rw [hcontains, Bool.or_eq_true]
      exact hother.imp_right (h.registered other)
    · rw [hconfig] at hcreate
      rw [hcontains, Database.isRegistered_register, h.exists_eq hcreate]

/-- A rejected batch leaves at most an empty table behind. -/
theorem reject (h : Agree m d) {table : String} {rows : TableRows} (hrows : m.rowsOf table = .ok rows)
    (version : UInt64) : Agree { m with tables := m.tables.insert table rows, version } d where
  limits := h.limits
  creates := h.creates
  wellFormed := h.wellFormed
  rows id := by
    rw [MemoryStore.row?_insert_rowsOf hrows]
    exact h.rows id
  registered other hother := by
    show (m.tables.insert table rows).contains other = true
    rw [SortedMap.contains_insert, h.registered other hother, Bool.or_true]
  exists_eq hcreate other := by
    show (m.tables.insert table rows).contains other = _
    rw [SortedMap.contains_insert, ← h.exists_eq hcreate]
    by_cases hother : other = table
    · rw [hother, MemoryStore.contains_of_rowsOf hrows hcreate, Bool.or_true]
    · rw [decide_eq_false hother, Bool.false_or]

section Apply

variable {table partition : String} {rows : TableRows} {writes writes' : Batch.Writes}
  {ops ops' : List BatchOp} {version version' : UInt64}

/-- What the durable store writes has the lengths of what the memory store writes. -/
theorem fits_of_effects {look : String → Except StorageError (Option Row)}
    (hstages' : Batch.Stages look version ops' writes')
    (heffects : Batch.effects writes = Batch.effects writes')
    (hfits : ∀ row r, writes.lookup row = some (some r) → r.properties.Fits) {row : String} {r : Row}
    (hr : writes'.lookup row = some (some r)) : r.Fits ∧ ∃ v, r.token = Token.ofVersion v := by
  obtain ⟨v, hv⟩ := hstages'.stamped hr
  have htoken : r.token.text.utf8ByteSize < 2 ^ 64 := by
    rw [hv, Token.utf8ByteSize_ofVersion]
    decide
  have hlookup := Batch.lookup_effects writes row
  rw [heffects, Batch.lookup_effects, hr, Option.map_some, Option.map_some] at hlookup
  obtain ⟨written, hwritten, hsame⟩ := Option.map_eq_some_iff.1 hlookup.symm
  obtain ⟨r', rfl, hproperties⟩ := Option.map_eq_some_iff.1 hsame
  have hr' := hfits row r' hwritten
  rw [hproperties] at hr'
  exact ⟨⟨htoken, hr'⟩, v, hv⟩

/-- A batch that is applied leaves the same rows in both. -/
theorem apply (h : Agree m d) (hrows : m.rowsOf table = .ok rows)
    (haccept' : Batch.accept d.config.limits table partition ops' = .ok ())
    (hstages : Batch.Stages (m.rowIn table partition) m.version ops writes)
    (hstages' : Batch.Stages (d.database.rowIn table partition) d.database.version ops' writes')
    (heffects : Batch.effects writes = Batch.effects writes')
    (hfits : ({ m with
      tables := m.tables.insert table (rows.write partition writes)
      version } : MemoryStore).Fits) :
    Agree
      { m with
        tables := m.tables.insert table (rows.write partition writes)
        version }
      { d with database := d.database.commit table partition writes' version' } := by
  obtain ⟨htable, hcheck⟩ := Batch.accept_eq_ok_iff.1 haccept'
  obtain ⟨hpartition, _⟩ := Batch.check_eq_ok_iff.1 hcheck
  obtain ⟨hvalid, hwrites'⟩ := hstages'.valid_of_accept haccept'
  have hwrites : (writes.map (·.1)).Nodup := by
    rw [← Batch.map_fst_effects, heffects, Batch.map_fst_effects]
    exact hwrites'
  have hrow : ∀ id, _ := fun id => @MemoryStore.row?_write m table partition rows hrows writes
    hwrites version id
  have hwritten : ∀ row r, writes'.lookup row = some (some r) →
      r.Fits ∧ ∃ v, r.token = Token.ofVersion v := by
    refine fun row r => fits_of_effects hstages' heffects fun row r hr => ?_
    apply hfits ⟨table, partition, row⟩
    rw [hrow, if_pos ⟨rfl, rfl⟩, hr]
    rfl
  refine ⟨h.limits, h.creates, h.wellFormed.commit htable hpartition hvalid hwrites' hwritten _,
    fun id => ?_, fun other hother => ?_, fun hcreate other => ?_⟩
  · rw [hrow, Database.row?_commit htable hpartition hvalid hwrites' hwritten]
    split
    · have hlookup := Batch.lookup_effects writes id.row
      rw [heffects, Batch.lookup_effects] at hlookup
      cases hfound : writes.lookup id.row with
      | none =>
        cases hfound' : writes'.lookup id.row with
        | none => exact h.rows id
        | some written' => simp [hfound, hfound'] at hlookup
      | some written =>
        cases hfound' : writes'.lookup id.row with
        | none => simp [hfound, hfound'] at hlookup
        | some written' =>
          rw [hfound, hfound'] at hlookup
          refine ⟨(Option.some.inj hlookup).symm, ?_, ?_⟩
          · rintro r rfl
            exact hstages.stamped hfound
          · rintro r rfl
            exact hstages'.stamped hfound'
    · exact h.rows id
  · show (m.tables.insert table _).contains other = true
    change (d.database.register table).isRegistered other = true at hother
    rw [Database.isRegistered_register, Bool.or_eq_true] at hother
    rw [SortedMap.contains_insert, Bool.or_eq_true]
    exact hother.imp_right (h.registered other)
  · show (m.tables.insert table _).contains other = (d.database.register table).isRegistered other
    rw [SortedMap.contains_insert, Database.isRegistered_register, h.exists_eq hcreate]

end Apply

/-- A batch is answered alike and leaves the stores in agreement. -/
theorem submit (h : Agree m d) (table partition : String) {intents : List Intent}
    (hforeign : ∀ i ∈ intents, i.Foreign) {ops ops' : List BatchOp}
    (hops : ops = intents.map fun i => i.against (m.row? ⟨table, partition, i.op.row⟩))
    (hops' : ops' = intents.map fun i => i.against (d.database.row? ⟨table, partition, i.op.row⟩))
    (hfits : (m.submit table partition ops none).2.Fits) :
    (m.submit table partition ops none).1.map (List.map (Option.map fun _ => Token.none)) =
        (d.submit table partition ops' none).1.map (List.map (Option.map fun _ => Token.none)) ∧
      Agree (m.submit table partition ops none).2 (d.submit table partition ops' none).2 := by
  have hsame : ∀ row, SameButStamps (m.row? ⟨table, partition, row⟩)
      (d.database.row? ⟨table, partition, row⟩) := fun row => h.rows _
  have haccept := Batch.accept_against hsame m.config.limits table partition intents
  have hstage := Batch.stage_against hsame hforeign 0 m.version d.database.version
  have hlook : d.database.rowIn table partition =
      fun row => .ok (d.database.row? ⟨table, partition, row⟩) :=
    funext (h.wellFormed.rowIn table partition)
  rw [← hops, ← hops'] at haccept hstage
  rw [← hlook] at hstage
  change (Batch.stage (m.rowIn table partition) 0 m.version ops).1.map _ = _ at hstage
  cases haccepted : Batch.accept m.config.limits table partition ops with
  | error e =>
    rw [haccepted, h.limits] at haccept
    rw [MemoryStore.submit_of_refused haccepted, DurableStore.submit_of_refused haccept.symm]
    exact ⟨rfl, h⟩
  | ok _ =>
    rw [haccepted, h.limits] at haccept
    rcases h.readable table with ⟨rows, readable, hrows, hreadable⟩ | ⟨hrows, hreadable, _⟩
    · cases hstaged : Batch.stage (m.rowIn table partition) 0 m.version ops with
      | mk staged version =>
        cases hstaged' : Batch.stage (d.database.rowIn table partition) 0 d.database.version ops'
          with
        | mk staged' version' =>
          rw [hstaged, hstaged'] at hstage
          cases staged with
          | error e =>
            cases staged' with
            | ok writes' => cases hstage
            | error e' =>
              cases hstage
              rw [MemoryStore.submit_of_rejected haccepted hrows hstaged,
                DurableStore.submit_of_rejected haccept.symm hreadable hstaged']
              exact ⟨rfl, h.reject hrows version⟩
          | ok writes =>
            cases staged' with
            | error e' => cases hstage
            | ok writes' =>
              have heffects : Batch.effects writes = Batch.effects writes' := Except.ok.inj hstage
              have hstages := Batch.stage_fst_eq_ok_iff.1 (congrArg Prod.fst hstaged)
              have hstages' := Batch.stage_fst_eq_ok_iff.1 (congrArg Prod.fst hstaged')
              rw [MemoryStore.submit_of_stages haccepted hrows hstages] at hfits ⊢
              rw [DurableStore.submit_of_stages haccept.symm hreadable hstages']
              refine ⟨?_, h.apply hrows haccept.symm hstages hstages' heffects hfits⟩
              show Except.ok _ = Except.ok _
              rw [Batch.map_tokens, Batch.map_tokens, heffects]
    · rw [MemoryStore.submit_of_missing haccepted hrows,
        DurableStore.submit_of_missing haccept.symm hreadable]
      exact ⟨rfl, h⟩

/-- Whatever is requested, both answer alike and agree again. -/
theorem run (h : Agree m d) {r : Request} (hforeign : r.Foreign) (hfits : (r.run m).2.Fits) :
    (r.run m).1.unstamped = (r.run d).1.unstamped ∧ Agree (r.run m).2 (r.run d).2 := by
  cases r with
  | read table partition row =>
    exact ⟨congrArg StoreReply.entity (h.read table partition row), h⟩
  | query table partition =>
    exact ⟨congrArg StoreReply.entities (h.query table partition), h⟩
  | ensureTable table =>
    obtain ⟨hanswer, hagree⟩ := h.ensureTable table
    exact ⟨congrArg StoreReply.done hanswer, hagree⟩
  | submit table partition intents =>
    have hops : ∀ i ∈ intents, i.against (Request.shown? m table partition i.op.row) =
        i.against (m.row? ⟨table, partition, i.op.row⟩) := fun i _ => by
      rw [(h.shown?_eq table partition i.op.row).1]
    have hops' : ∀ i ∈ intents, i.against (Request.shown? d table partition i.op.row) =
        i.against (d.database.row? ⟨table, partition, i.op.row⟩) := fun i _ => by
      rw [(h.shown?_eq table partition i.op.row).2]
    obtain ⟨hanswer, hagree⟩ := h.submit table partition hforeign (List.map_congr_left hops)
      (List.map_congr_left hops') hfits
    exact ⟨congrArg StoreReply.tokens hanswer, hagree⟩

theorem after (h : Agree m d) {requests : List Request} (hforeign : ∀ r ∈ requests, r.Foreign)
    (hfits : ∀ done, done <+: requests → (Request.after m done).Fits) :
    (Request.replies m requests).map StoreReply.unstamped =
        (Request.replies d requests).map StoreReply.unstamped ∧
      Agree (Request.after m requests) (Request.after d requests) := by
  induction requests generalizing m d with
  | nil => exact ⟨rfl, h⟩
  | cons r requests ih =>
    obtain ⟨hhead, htail⟩ := List.forall_mem_cons.1 hforeign
    obtain ⟨hreply, hnext⟩ := h.run hhead (hfits [r] (List.prefix_append [r] requests))
    obtain ⟨hreplies, hlast⟩ := ih hnext htail fun done hdone =>
      hfits (r :: done) (List.cons_prefix_cons.2 ⟨rfl, hdone⟩)
    refine ⟨?_, hlast⟩
    rw [Request.replies, Request.replies, List.map_cons, List.map_cons, hreply, hreplies]

end Agree

/--
Asked the same from the beginning, the memory store and the durable store give the same answers but
for tokens, and they have the same tables unless rejected batches may create some.
-/
theorem stores_agree {m : MemoryStore} {d : DurableStore} (hm : m.tables = ∅)
    (hd : d.database = {}) (hlimits : m.config.limits = d.config.limits)
    (hcreates : m.config.createTableIfMissing = d.config.createTableIfMissing)
    (requests : List Request) (hforeign : ∀ r ∈ requests, r.Foreign)
    (hfits : ∀ done, done <+: requests → (Request.after m done).Fits) :
    (Request.replies m requests).map StoreReply.unstamped =
        (Request.replies d requests).map StoreReply.unstamped ∧
      (m.config.createTableIfMissing = false → ∀ done, done <+: requests → ∀ table,
        TableStore.tableExists (Request.after m done) table =
          TableStore.tableExists (Request.after d done) table) := by
  have hrow : ∀ id, m.row? id = none := by
    intro id
    rw [MemoryStore.row?, hm]
    rfl
  have hrow' : ∀ id, d.database.row? id = none := by
    intro id
    rw [hd]
    rfl
  have hagree : Agree m d := by
    refine ⟨hlimits, hcreates, hd ▸ Database.wellFormed_empty, fun id => ?_, fun table htable => ?_,
      fun _ table => ?_⟩
    · rw [hrow, hrow']
      exact ⟨rfl, by simp, by simp⟩
    · rw [hd] at htable
      cases htable
    · rw [hm, hd]
      rfl
  refine ⟨(hagree.after hforeign hfits).1, fun hcreate done hdone table => ?_⟩
  obtain ⟨_, hthen⟩ := hagree.after (fun r hr => hforeign r (hdone.subset hr))
    fun earlier hearlier => hfits earlier (hearlier.trans hdone)
  exact hthen.exists_eq (by rw [Request.config_after, hcreate]) table

/-- A row is inserted and replaced, whatever its token is; a guessed token does not do. -/
private def errands : List Request :=
  [.read "Orders" "p" "r", .ensureTable "Orders",
    .submit "Orders" "p" [⟨.insert "r" ∅, false⟩, ⟨.insert "s" ∅, false⟩],
    .submit "Orders" "p" [⟨.replace "r" (SortedMap.ofList [("n", .bool true)]) ⟨"none"⟩, true⟩,
      ⟨.delete "s" ⟨"guess"⟩, false⟩],
    .submit "Orders" "p" [⟨.replace "r" (SortedMap.ofList [("n", .bool true)]) ⟨"none"⟩, true⟩,
      ⟨.delete "s" ⟨"none"⟩, true⟩],
    .read "Orders" "p\x00" "r", .query "Orders" "p"]

private def strictLimits : Limits := ⟨2, 1024⟩

theorem stores_agree_errands :
    (∀ r ∈ errands, r.Foreign) ∧
      (∀ done, done <+: errands →
        (Request.after ({ config := ⟨strictLimits, false, none⟩ } : MemoryStore) done).Fits) ∧
      (Request.replies ({ config := ⟨strictLimits, false, none⟩ } : MemoryStore) errands).map
          StoreReply.unstamped =
        [.entity (.error (.tableNotFound "Orders")), .done (.ok ()),
          .tokens (.ok [some Token.none, some Token.none]),
          .tokens (.error (.batchRejected 1 "s" .preconditionFailed)),
          .tokens (.ok [some Token.none, none]), .entity (.ok none),
          .entities (.ok [⟨⟨"p", "r"⟩, Token.none, SortedMap.ofList [("n", .bool true)]⟩])] := by
  have hforeign : ∀ r ∈ errands, r.Foreign := by
    simp only [errands, List.forall_mem_cons, Request.Foreign]
    refine ⟨trivial, trivial, ⟨?_, ?_, nofun⟩, ⟨?_, ?_, nofun⟩, ⟨?_, ?_, nofun⟩, trivial, trivial,
      nofun⟩ <;> exact Intent.foreign_of_size _ (by decide +kernel)
  have hfits : ∀ done ∈ errands.inits,
      (Request.after ({ config := ⟨strictLimits, false, none⟩ } : MemoryStore) done).Fits := by
    decide +kernel
  have hfits' := fun done hdone => hfits done ((List.mem_inits _ _).2 hdone)
  refine ⟨hforeign, hfits', ?_⟩
  rw [(@stores_agree _ { config := { limits := strictLimits, createTableIfMissing := false } } rfl
    rfl rfl rfl errands hforeign hfits').1]
  decide +kernel

end UnitOfWork
