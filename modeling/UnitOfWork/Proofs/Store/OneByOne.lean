import UnitOfWork.Proofs.Store.Success

/-!
A batch does what its operations do when each is submitted as a batch of its own: it leaves the same
store and tells the same tokens.
-/

namespace UnitOfWork

/-- Submits operations one after the other, each as a batch of its own, until one is refused. The
answer tells the tokens of each of these batches. -/
def submitEach {σ : Type} [TableStore σ] (s : σ) (table partition : String) :
    List BatchOp → Except StorageError (List (List (Option Token))) × σ
  | [] => (.ok [], s)
  | op :: ops =>
    match TableStore.submit s table partition [op] none with
    | (.error e, s') => (.error e, s')
    | (.ok tokens, s') =>
      let (later, s'') := submitEach s' table partition ops
      (later.map (tokens :: ·), s'')

theorem submitEach_cons_eq_ok_iff {σ : Type} [TableStore σ] {s s' : σ} {table partition : String}
    {op : BatchOp} {ops : List BatchOp} {answers : List (List (Option Token))} :
    submitEach s table partition (op :: ops) = (.ok answers, s') ↔ ∃ tokens later middle,
      TableStore.submit s table partition [op] none = (.ok tokens, middle) ∧
        submitEach middle table partition ops = (.ok later, s') ∧ answers = tokens :: later := by
  rw [submitEach]
  rcases TableStore.submit s table partition [op] none with ⟨_ | tokens, middle⟩
  · simp
  · rcases hrest : submitEach middle table partition ops with ⟨_ | later, last⟩
    · simp [hrest, Except.map]
    · simp [hrest, Except.map, and_comm, eq_comm]

namespace AnyStore

section Submit

variable {s s' : AnyStore} {table partition : String} {op : BatchOp} {ops : List BatchOp}
  {tokens : List (Option Token)}

theorem submit_singleton_eq_ok_iff :
    TableStore.submit s table partition [op] none = (.ok tokens, s') ↔
      Batch.accept (TableStore.limits s) table partition [op] = .ok () ∧
        s.access table = .ok () ∧
        ∃ existing, s.rowFound table partition op.row = .ok existing ∧
          op.rejection? existing = none ∧
          tokens = [(op.result existing (s.ledger.version + 1)).map Row.token] ∧
          s' = s.carryOut table partition [(op.row, op.result existing (s.ledger.version + 1))]
            (s.ledger.version + 1) := by
  rw [submit_eq_ok_iff]
  constructor
  · intro ⟨haccept, hfound, writes, hstages, htokens, hstore⟩
    obtain ⟨existing, later, hrow, happlies, hnil, rfl⟩ := Batch.stages_cons_iff.1 hstages
    cases hnil
    exact ⟨haccept, hfound, existing, hrow, happlies, htokens, hstore⟩
  · intro ⟨haccept, hfound, existing, hrow, happlies, htokens, hstore⟩
    exact ⟨haccept, hfound, _, .cons hrow happlies (.nil _), htokens, hstore⟩

theorem exists_token_of_submit_singleton
    (h : TableStore.submit s table partition [op] none = (.ok tokens, s')) :
    ∃ token, tokens = [token] := by
  obtain ⟨_, _, _, _, _, htokens, _⟩ := submit_singleton_eq_ok_iff.1 h
  exact ⟨_, htokens⟩

/-- An accepted batch may as well be submitted in two: its first operation, and then the others. -/
theorem submit_cons_eq_ok_iff
    (haccept : Batch.accept (TableStore.limits s) table partition (op :: ops) = .ok ()) :
    TableStore.submit s table partition (op :: ops) none = (.ok tokens, s') ↔
      ∃ token later middle,
        TableStore.submit s table partition [op] none = (.ok [token], middle) ∧
          TableStore.submit middle table partition ops none = (.ok later, s') ∧
          tokens = token :: later := by
  have hfirst : Batch.accept (TableStore.limits s) table partition [op] = .ok () :=
    Batch.accept_of_sublist haccept (by simp)
  have hothers : Batch.accept (TableStore.limits s) table partition ops = .ok () :=
    Batch.accept_of_sublist haccept (by simp)
  obtain ⟨_, _, hnodup, _⟩ := Batch.check_eq_ok_iff.1 (Batch.accept_eq_ok_iff.1 haccept).2
  rw [List.map_cons, List.nodup_cons] at hnodup
  have hrows : ∀ written : Option Row, ∀ o ∈ ops, o.row ∉ [(op.row, written)].map (·.1) := by
    intro written o ho
    rw [List.map_singleton, List.mem_singleton]
    exact fun he => hnodup.1 (List.mem_map.2 ⟨o, ho, he⟩)
  constructor
  · intro h
    obtain ⟨_, hfound, writes, hstages, htokens, hstore⟩ := submit_eq_ok_iff.1 h
    obtain ⟨existing, later, hrow, happlies, hrest, rfl⟩ := Batch.stages_cons_iff.1 hstages
    refine ⟨_, Batch.tokens later, _, submit_singleton_eq_ok_iff.2
      ⟨hfirst, hfound, existing, hrow, happlies, rfl, rfl⟩, ?_, htokens⟩
    rw [submit_eq_ok_iff, limits_carryOut, version_carryOut]
    refine ⟨hothers, s.access_carryOut .., later, ?_, rfl, ?_⟩
    · exact (s.stages_carryOut_iff _ _ _ _ (hrows _)).2 hrest
    · rw [carryOut_carryOut, hstore, List.length_cons, Batch.add_ofNat_succ]
      rfl
  · intro ⟨token, later, middle, hone, hrest, htokens⟩
    obtain ⟨_, hfound, existing, hrow, happlies, htoken, rfl⟩ :=
      submit_singleton_eq_ok_iff.1 hone
    obtain ⟨_, _, writes, hstages, rfl, hstore⟩ := submit_eq_ok_iff.1 hrest
    rw [version_carryOut] at hstages hstore
    have hlater := (s.stages_carryOut_iff _ _ _ _ (hrows _)).1 hstages
    refine submit_eq_ok_iff.2 ⟨haccept, hfound, _, .cons hrow happlies hlater, ?_, ?_⟩
    · rw [htokens, List.singleton_inj.1 htoken]
      rfl
    · rw [hstore, carryOut_carryOut, List.length_cons, Batch.add_ofNat_succ]
      rfl

theorem exists_tokens_of_submitEach {answers : List (List (Option Token))}
    (h : submitEach s table partition ops = (.ok answers, s')) :
    ∃ tokens : List (Option Token), answers = tokens.map fun token => [token] := by
  induction ops generalizing s answers with
  | nil =>
    cases h
    exact ⟨[], rfl⟩
  | cons op ops ih =>
    obtain ⟨first, later, middle, hone, hrest, rfl⟩ := submitEach_cons_eq_ok_iff.1 h
    obtain ⟨token, rfl⟩ := exists_token_of_submit_singleton hone
    obtain ⟨tokens, rfl⟩ := ih hrest
    exact ⟨token :: tokens, rfl⟩

/-- The first batch tells one token, and the others tell the rest. -/
theorem submitEach_cons_eq_ok_tokens_iff :
    submitEach s table partition (op :: ops) = (.ok (tokens.map fun token => [token]), s') ↔
      ∃ token later middle,
        TableStore.submit s table partition [op] none = (.ok [token], middle) ∧
          submitEach middle table partition ops = (.ok (later.map fun token => [token]), s') ∧
          tokens = token :: later := by
  have hinjective : Function.Injective (List.map fun token : Option Token => [token]) :=
    List.map_injective_iff.2 fun _ _ => List.singleton_inj.1
  constructor
  · intro h
    obtain ⟨first, answers, middle, hone, hrest, htokens⟩ := submitEach_cons_eq_ok_iff.1 h
    obtain ⟨token, rfl⟩ := exists_token_of_submit_singleton hone
    obtain ⟨later, rfl⟩ := exists_tokens_of_submitEach hrest
    exact ⟨token, later, middle, hone, hrest, hinjective htokens⟩
  · intro ⟨token, later, middle, hone, hrest, htokens⟩
    rw [htokens]
    exact submitEach_cons_eq_ok_iff.2 ⟨[token], _, middle, hone, hrest, rfl⟩

theorem submitEach_eq_ok_iff (hops : ops ≠ [])
    (haccept : Batch.accept (TableStore.limits s) table partition ops = .ok ()) :
    submitEach s table partition ops = (.ok (tokens.map fun token => [token]), s') ↔
      TableStore.submit s table partition ops none = (.ok tokens, s') := by
  induction ops generalizing s tokens with
  | nil => contradiction
  | cons op ops ih =>
    rw [submitEach_cons_eq_ok_tokens_iff]
    cases ops with
    | nil =>
      constructor
      · intro ⟨token, later, middle, hone, hnone, htokens⟩
        obtain ⟨hlater, rfl⟩ := Prod.mk.inj hnone
        obtain rfl := List.map_eq_nil_iff.1 (Except.ok.inj hlater).symm
        rw [htokens]
        exact hone
      · intro h
        obtain ⟨token, rfl⟩ := exists_token_of_submit_singleton h
        exact ⟨token, [], s', h, rfl, rfl⟩
    | cons next others =>
      rw [submit_cons_eq_ok_iff haccept]
      -- after the first operation the limits are still the same
      have hrest : ∀ {token middle later},
          TableStore.submit s table partition [op] none = (.ok [token], middle) →
            (submitEach middle table partition (next :: others) =
                (.ok (later.map fun token => [token]), s') ↔
              TableStore.submit middle table partition (next :: others) none =
                (.ok later, s')) := by
        intro token middle later hone
        obtain rfl : (TableStore.submit s table partition [op] none).2 = middle :=
          congrArg Prod.snd hone
        apply ih (List.cons_ne_nil next others)
        rw [limits_submit]
        exact Batch.accept_of_sublist haccept (List.sublist_cons_self op _)
      constructor
      · intro ⟨token, later, middle, hone, heach, htokens⟩
        exact ⟨token, later, middle, hone, (hrest hone).1 heach, htokens⟩
      · intro ⟨token, later, middle, hone, hbatch, htokens⟩
        exact ⟨token, later, middle, hone, (hrest hone).2 hbatch, htokens⟩

end Submit

/--
Operations that are submitted as one batch, and each as a batch of its own in the same order, leave
the same store and are told the same tokens. So one batch may be taken apart; and batches may be put
together if the acceptance test admits all of their operations as one.
-/
theorem submit_eq_submitEach (s : AnyStore) (table partition : String) (ops : List BatchOp)
    (hops : ops ≠ []) (s' : AnyStore) :
    (∀ tokens, TableStore.submit s table partition ops none = (.ok tokens, s') →
      submitEach s table partition ops = (.ok (tokens.map fun token => [token]), s')) ∧
      ∀ answers, submitEach s table partition ops = (.ok answers, s') →
        Batch.check (TableStore.limits s) partition ops = .ok () →
          ∃ tokens, answers = tokens.map (fun token => [token]) ∧
            TableStore.submit s table partition ops none = (.ok tokens, s') := by
  constructor
  · intro tokens h
    obtain ⟨haccept, _⟩ := submit_eq_ok_iff.1 h
    exact (submitEach_eq_ok_iff hops haccept).2 h
  · intro answers h hcheck
    obtain ⟨tokens, rfl⟩ := exists_tokens_of_submitEach h
    have htable : ValidTableName table := by
      obtain ⟨op, others, rfl⟩ := List.exists_cons_of_ne_nil hops
      obtain ⟨first, _, middle, hone, _⟩ := submitEach_cons_eq_ok_iff.1 h
      obtain ⟨haccept, _⟩ := submit_eq_ok_iff.1 hone
      exact (Batch.accept_eq_ok_iff.1 haccept).1
    have haccept := Batch.accept_eq_ok_iff.2 ⟨htable, hcheck⟩
    exact ⟨tokens, rfl, (submitEach_eq_ok_iff hops haccept).1 h⟩

private def shelves : AnyStore :=
  (TableStore.submit (AnyStore.durable { config := {} }) "Shelves" "p"
    [.insert "a" ∅, .insert "b" ∅] none).2

private def shelvesSorted : List BatchOp :=
  [.merge "a" ∅ (Token.ofVersion 1), .delete "b" (Token.ofVersion 2), .insert "c" ∅]

theorem submit_eq_submitEach_shelves :
    shelvesSorted ≠ [] ∧ ∃ s',
      TableStore.submit shelves "Shelves" "p" shelvesSorted none =
          (.ok [some (Token.ofVersion 3), none, some (Token.ofVersion 5)], s') ∧
        submitEach shelves "Shelves" "p" shelvesSorted =
          (.ok [[some (Token.ofVersion 3)], [none], [some (Token.ofVersion 5)]], s') := by
  have hops : shelvesSorted ≠ [] := by decide
  have hanswer : (TableStore.submit shelves "Shelves" "p" shelvesSorted none).1 =
      .ok [some (Token.ofVersion 3), none, some (Token.ofVersion 5)] := by
    decide +kernel
  have hbatch := Prod.ext hanswer (Eq.refl (TableStore.submit shelves "Shelves" "p" shelvesSorted
    none).2)
  exact ⟨hops, _, hbatch, (submit_eq_submitEach shelves "Shelves" "p" shelvesSorted hops _).1 _
    hbatch⟩

end AnyStore

end UnitOfWork
