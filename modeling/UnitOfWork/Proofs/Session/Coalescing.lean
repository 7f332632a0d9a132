import UnitOfWork.Proofs.Session.Bookkeeping
import UnitOfWork.Proofs.Session.Resubmission

/-!
What is pending is told by the operations that were accepted, whichever were refused between them:
those for one row stand as one, where the first of them came.
-/

namespace UnitOfWork

theorem HeldToken.eq_of_token {held other : HeldToken} (h : held.token = other.token) :
    held = other := by
  obtain ⟨token, _⟩ := held
  obtain ⟨token', _⟩ := other
  obtain rfl : token = token' := h
  rfl

namespace Operation

/-- The value that an operation gives a property. -/
def value? (op : Operation) (name : String) : Option Value :=
  op.properties?.bind fun properties => properties.get? name

/-- The value that a property is given last. -/
def lastValue? (ops : List Operation) (name : String) : Option Value :=
  (ops.filterMap fun op => op.value? name).getLast?

@[simp] theorem lastValue?_singleton (op : Operation) (name : String) :
    lastValue? [op] name = op.value? name := by
  unfold lastValue?
  cases hvalue : op.value? name <;> simp [hvalue]

theorem lastValue?_append (ops later : List Operation) (name : String) :
    lastValue? (ops ++ later) name = (lastValue? later name).or (lastValue? ops name) := by
  unfold lastValue?
  rw [List.filterMap_append, List.getLast?_append]

/-- An operation is known by its key, kind and token and by the values that it gives. -/
theorem ext_value? {op other : Operation} (hkey : op.key = other.key)
    (hkind : op.kind = other.kind) (htoken : op.token? = other.token?)
    (hvalue : ∀ name, op.value? name = other.value? name) : op = other := by
  obtain ⟨key, change⟩ := op
  obtain ⟨key', change'⟩ := other
  obtain rfl : key = key' := hkey
  congr 1
  cases change <;> cases change' <;> cases hkind
  case insert.insert.refl p q =>
    exact congrArg Change.insert (SortedMap.ext_get? hvalue)
  case update.update.refl p held q held' =>
    exact congrArg₂ Change.update (SortedMap.ext_get? hvalue)
      (HeldToken.eq_of_token (Option.some.inj htoken))
  case delete.delete.refl held held' =>
    exact congrArg Change.delete (HeldToken.eq_of_token (Option.some.inj htoken))
  case replace.replace.refl p held q held' =>
    exact congrArg₂ Change.replace (SortedMap.ext_get? hvalue)
      (HeldToken.eq_of_token (Option.some.inj htoken))

section Merge

variable {pending op : Operation} {group : List Operation}

@[simp] theorem kind_mergedWith (pending next : Operation) :
    (pending.mergedWith next).kind = pending.kind := by
  unfold mergedWith
  split
  · rename_i hchange _
    simp [kind, hchange]
  · rfl

@[simp] theorem token?_mergedWith (pending next : Operation) :
    (pending.mergedWith next).token? = pending.token? := by
  unfold mergedWith
  split
  · rename_i hchange _
    simp [token?, hchange]
  · rfl

/-- An update takes over the values that the later operation gives and keeps the others. -/
theorem value?_mergedWith (hkind : pending.kind = .update) (next : Operation) (name : String) :
    (pending.mergedWith next).value? name = (next.value? name).or (pending.value? name) := by
  obtain ⟨key, change⟩ := pending
  cases change with
  | update properties held =>
    unfold mergedWith value?
    cases hnext : next.properties? with
    | none => simp
    | some later => simp [properties?, SortedMap.get?_override]
  | insert | delete | replace => cases hkind

/-- One operation has taken the place of a group: it is the only one, or all are updates that show
one token. It is the first of them but for the properties, each of which has its last value. -/
structure StandsFor (op : Operation) (group : List Operation) : Prop where
  first : ∃ first, group.head? = some first ∧ op.key = first.key ∧ op.kind = first.kind ∧
    op.token? = first.token?
  values : ∀ name, op.value? name = lastValue? group name
  alike : group.length = 1 ∨
    ∃ token, ∀ member ∈ group, member.kind = .update ∧ member.token? = some token

theorem StandsFor.single (op : Operation) : op.StandsFor [op] := by
  constructor
  case first => exact ⟨op, rfl, rfl, rfl, rfl⟩
  case values =>
    intro name
    exact (lastValue?_singleton op name).symm
  case alike => exact .inl rfl

/-- An update stands for updates that show its own token. -/
theorem StandsFor.updates (h : pending.StandsFor group) (hkind : pending.kind = .update) :
    ∀ member ∈ group, member.kind = .update ∧ member.token? = pending.token? := by
  obtain ⟨first, hhead, -, hfirst, htoken⟩ := h.first
  have hmem : first ∈ group := List.mem_of_head? hhead
  intro member hmember
  rcases h.alike with hone | ⟨token, hall⟩
  · obtain ⟨only, rfl⟩ := List.length_eq_one_iff.1 hone
    obtain rfl := List.mem_singleton.1 hmem
    obtain rfl := List.mem_singleton.1 hmember
    exact ⟨hfirst.symm.trans hkind, htoken.symm⟩
  · obtain ⟨hupdate, hsame⟩ := hall member hmember
    exact ⟨hupdate, by rw [hsame, htoken, (hall first hmem).2]⟩

/-- What stands for two groups is merged into what stands for both. -/
theorem StandsFor.append {later : List Operation} (h : pending.StandsFor group)
    (hlater : op.StandsFor later) (hfolds : pending.Folds op) :
    (pending.mergedWith op).StandsFor (group ++ later) := by
  obtain ⟨hpending, hupdate, hsame⟩ := hfolds
  constructor
  case first =>
    obtain ⟨first, hhead, hkey, hkind, htoken⟩ := h.first
    refine ⟨first, ?_, ?_, ?_, ?_⟩
    · rw [List.head?_append, hhead, Option.some_or]
    · rw [key_mergedWith, hkey]
    · rw [kind_mergedWith, hkind]
    · rw [token?_mergedWith, htoken]
  case values =>
    intro name
    rw [value?_mergedWith hpending, lastValue?_append, h.values, hlater.values]
  case alike =>
    have hne : pending.kind ≠ .insert := by simp [hpending]
    obtain ⟨token, htoken, -⟩ := pending.exists_token hne
    right
    refine ⟨token, ?_⟩
    intro member hmember
    rw [← htoken]
    rcases List.mem_append.1 hmember with hold | hnew
    · exact h.updates hpending member hold
    · rw [hsame]
      exact hlater.updates hupdate member hnew

/-- At most one operation can stand for a group. -/
theorem StandsFor.unique {other : Operation} (h : op.StandsFor group)
    (hother : other.StandsFor group) : op = other := by
  obtain ⟨first, hhead, hkey, hkind, htoken⟩ := h.first
  obtain ⟨first', hhead', hkey', hkind', htoken'⟩ := hother.first
  obtain rfl : first = first' := Option.some.inj (hhead.symm.trans hhead')
  apply ext_value?
  · rw [hkey, hkey']
  · rw [hkind, hkind']
  · rw [htoken, htoken']
  · intro name
    rw [h.values, hother.values]

end Merge

/-- The operations for one row. -/
def forRow (ops : List Operation) (row : String) : List Operation :=
  ops.filter fun op => op.row = row

theorem forRow_concat_self (ops : List Operation) (op : Operation) :
    forRow (ops ++ [op]) op.row = forRow ops op.row ++ [op] := by
  simp [forRow]

theorem forRow_concat_of_ne (ops : List Operation) {op : Operation} {row : String}
    (h : op.row ≠ row) : forRow (ops ++ [op]) row = forRow ops row := by
  simp [forRow, h]

theorem forRow_of_not_mem {ops : List Operation} {row : String} (h : row ∉ ops.map Operation.row) :
    forRow ops row = [] := by
  apply List.filter_eq_nil_iff.2
  intro op hop hrow
  exact h (List.mem_map.2 ⟨op, hop, of_decide_eq_true hrow⟩)

private theorem eraseDups_concat (rows : List String) (row : String) :
    (rows ++ [row]).eraseDups =
      if row ∈ rows then rows.eraseDups else rows.eraseDups ++ [row] := by
  rw [List.eraseDups_append]
  by_cases hrow : row ∈ rows
  · simp [List.removeAll, hrow]
  · simp [List.removeAll, hrow, List.eraseDups_cons]

/-- Each row of the accepted operations has one that stands for them, and these are in the order in
which the rows came first. -/
structure CoalesceTo (accepted pending : List Operation) : Prop where
  rows : pending.map row = (accepted.map row).eraseDups
  groups : ∀ op ∈ pending, op.StandsFor (forRow accepted op.row)

namespace CoalesceTo

variable {accepted pending other : List Operation}

theorem nil : CoalesceTo [] [] := ⟨rfl, nofun⟩

theorem mem_rows (h : CoalesceTo accepted pending) {row : String} :
    row ∈ pending.map Operation.row ↔ row ∈ accepted.map Operation.row := by
  rw [h.rows, List.mem_eraseDups]

/-- Operations coalesce in one way only. -/
theorem unique (h : CoalesceTo accepted pending) (hother : CoalesceTo accepted other) :
    pending = other := by
  have hrows : pending.map row = other.map row := h.rows.trans hother.rows.symm
  apply List.ext_getElem?
  intro i
  have hrow : pending[i]?.map row = other[i]?.map row := by
    rw [← List.getElem?_map, ← List.getElem?_map, hrows]
  cases hop : pending[i]? with
  | none =>
    rw [hop, Option.map_none] at hrow
    exact (Option.map_eq_none_iff.1 hrow.symm).symm
  | some op =>
    rw [hop] at hrow
    obtain ⟨op', hop', hsame⟩ := Option.map_eq_some_iff.1 hrow.symm
    have hgroup := h.groups op (List.mem_of_getElem? hop)
    have hgroup' := hother.groups op' (List.mem_of_getElem? hop')
    rw [hsame] at hgroup'
    rw [hop', hgroup.unique hgroup']

end CoalesceTo

end Operation

namespace Accumulator

open Operation

/-- Registers operations one after the other. -/
def registerAll (a : Accumulator) (ops : List Operation) : Accumulator :=
  ops.foldl (fun a op => (a.register op).2) a

/-- An operation and the accumulator that it comes to. -/
structure Trial where
  before : Accumulator
  op : Operation

namespace Trial

def accepted (t : Trial) : Bool := (t.before.register t.op).1.isOk

/-- An operation for the row is pending already. -/
def again (t : Trial) : Bool := decide (t.op.row ∈ t.before.ops.map Operation.row)

end Trial

def trials (a : Accumulator) : List Operation → List Trial
  | [] => []
  | op :: ops => ⟨a, op⟩ :: trials (a.register op).2 ops

/-- The operations that are accepted when they come. -/
def accepted (a : Accumulator) (ops : List Operation) : List Operation :=
  ((a.trials ops).filter Trial.accepted).map Trial.op

/-- How many are accepted for a row that has one pending when they come. -/
def merges (a : Accumulator) (ops : List Operation) : Nat :=
  (a.trials ops).countP fun t => t.accepted && t.again

section Register

variable {a : Accumulator} {op : Operation} {ops : List Operation}

theorem registerAll_cons :
    a.registerAll (op :: ops) = (a.register op).2.registerAll ops := rfl

theorem trial_of_ok (h : (a.register op).1 = .ok ()) : Trial.accepted ⟨a, op⟩ = true := by
  unfold Trial.accepted
  rw [h]
  rfl

theorem trial_of_error {e : SessionError} (h : (a.register op).1 = .error e) :
    Trial.accepted ⟨a, op⟩ = false := by
  unfold Trial.accepted
  rw [h]
  rfl

theorem accepted_cons_of_ok (h : (a.register op).1 = .ok ()) :
    a.accepted (op :: ops) = op :: (a.register op).2.accepted ops := by
  simp [accepted, trials, trial_of_ok h]

theorem accepted_cons_of_error {e : SessionError} (h : (a.register op).1 = .error e) :
    a.accepted (op :: ops) = a.accepted ops := by
  simp [accepted, trials, trial_of_error h, register_of_error h]

theorem merges_cons_of_ok (h : (a.register op).1 = .ok ()) :
    a.merges (op :: ops) =
      (a.register op).2.merges ops +
        if op.row ∈ a.ops.map Operation.row then 1 else 0 := by
  simp only [merges, trials, List.countP_cons, trial_of_ok h, Trial.again, Bool.true_and,
    decide_eq_true_eq]

theorem merges_cons_of_error {e : SessionError} (h : (a.register op).1 = .error e) :
    a.merges (op :: ops) = a.merges ops := by
  simp [merges, trials, trial_of_error h, register_of_error h]

/-- Enlisting the accepted operations alone comes to the same. -/
theorem registerAll_accepted (a : Accumulator) (ops : List Operation) :
    a.registerAll (a.accepted ops) = a.registerAll ops := by
  induction ops generalizing a with
  | nil => rfl
  | cons op ops ih =>
    cases hanswer : (a.register op).1 with
    | error e =>
      rw [accepted_cons_of_error hanswer, registerAll_cons, register_of_error hanswer]
      exact ih a
    | ok _ =>
      rw [accepted_cons_of_ok hanswer, registerAll_cons, registerAll_cons]
      exact ih (a.register op).2

namespace Sound

theorem register_of_ok (h : a.Sound) (hok : (a.register op).1 = .ok ()) :
    a.Admissible op ∧ (a.register op).2.ops = a.opsWith op := by
  have hcases := h.enlisted op
  generalize (a.register op).2 = a' at hcases ⊢
  rw [hok] at hcases
  cases hcases with
  | accepted hop _ hops => exact ⟨hop, hops⟩

/-- One more operation is taken up by the one that stands for its row, or begins a row. -/
theorem coalesceTo_opsWith (h : a.Sound) (hop : a.Admissible op) {history : List Operation}
    (hpending : CoalesceTo history a.ops) : CoalesceTo (history ++ [op]) (a.opsWith op) := by
  have hmem : op.row ∈ a.ops.map Operation.row ↔ op.row ∈ history.map Operation.row :=
    hpending.mem_rows
  constructor
  case rows =>
    rw [h.rows_opsWith, List.map_append, List.map_singleton, eraseDups_concat, ← hpending.rows]
    by_cases hrow : op.row ∈ a.ops.map Operation.row
    · rw [if_pos hrow, if_pos (hmem.1 hrow)]
    · rw [if_neg hrow, if_neg fun hrow' => hrow (hmem.2 hrow')]
  case groups =>
    intro later hlater
    unfold opsWith at hlater
    split at hlater
    · obtain ⟨pending, hmember, rfl⟩ := List.mem_map.1 hlater
      have hgroup := hpending.groups pending hmember
      by_cases hrow : pending.row = op.row
      · rw [if_pos hrow, row_mergedWith, hrow, forRow_concat_self, ← hrow]
        exact hgroup.append (.single op) (hop.unopposed pending hmember hrow)
      · rw [if_neg hrow, forRow_concat_of_ne history (Ne.symm hrow)]
        exact hgroup
    · rename_i hnone
      have hnew : op.row ∉ a.ops.map Operation.row := by simpa using hnone
      rcases List.mem_append.1 hlater with hold | hlast
      · have hne : op.row ≠ later.row := by
          intro hrow
          exact hnew (hrow ▸ List.mem_map_of_mem hold)
        rw [forRow_concat_of_ne history hne]
        exact hpending.groups later hold
      · obtain rfl := List.mem_singleton.1 hlast
        have hfirst : forRow history later.row = [] :=
          forRow_of_not_mem fun hrow => hnew (hmem.2 hrow)
        rw [forRow_concat_self, hfirst]
        exact .single later

theorem coalesceTo_registerAll (h : a.Sound) (ops : List Operation) {history : List Operation}
    (hpending : CoalesceTo history a.ops) :
    CoalesceTo (history ++ a.accepted ops) (a.registerAll ops).ops := by
  -- what was accepted before moves on with each step, so the induction is over every history
  induction ops generalizing a history with
  | nil =>
    have hnone : history ++ a.accepted [] = history := List.append_nil history
    rw [hnone]
    exact hpending
  | cons op ops ih =>
    rw [registerAll_cons]
    cases hanswer : (a.register op).1 with
    | error e =>
      rw [accepted_cons_of_error hanswer, register_of_error hanswer]
      exact ih h hpending
    | ok _ =>
      obtain ⟨hop, hops⟩ := h.register_of_ok hanswer
      have hnext : CoalesceTo (history ++ [op]) (a.register op).2.ops := by
        rw [hops]
        exact h.coalesceTo_opsWith hop hpending
      rw [accepted_cons_of_ok hanswer, List.append_cons]
      exact ih (sound_register h op) hnext

/-- One more is pending, unless an operation was pending for the row already. -/
theorem length_opsWith (h : a.Sound) (op : Operation) :
    (a.opsWith op).length + (if op.row ∈ a.ops.map Operation.row then 1 else 0) =
      a.ops.length + 1 := by
  have hlength : ((a.opsWith op).map Operation.row).length = (a.opsWith op).length :=
    List.length_map ..
  rw [← hlength, h.rows_opsWith]
  by_cases hrow : op.row ∈ a.ops.map Operation.row
  · rw [if_pos hrow, if_pos hrow, List.length_map]
  · rw [if_neg hrow, if_neg hrow, List.length_append, List.length_map, List.length_singleton]

theorem length_registerAll (h : a.Sound) (ops : List Operation) :
    (a.registerAll ops).length + a.merges ops = a.length + (a.accepted ops).length := by
  induction ops generalizing a with
  | nil => rfl
  | cons op ops ih =>
    rw [registerAll_cons]
    cases hanswer : (a.register op).1 with
    | error e =>
      rw [accepted_cons_of_error hanswer, merges_cons_of_error hanswer, register_of_error hanswer]
      exact ih h
    | ok _ =>
      have hrest := ih (sound_register h op)
      have hlength : (a.register op).2.length = (a.opsWith op).length :=
        congrArg List.length (h.register_of_ok hanswer).2
      have hstep := h.length_opsWith op
      have hbefore : a.length = a.ops.length := rfl
      rw [accepted_cons_of_ok hanswer, merges_cons_of_ok hanswer, List.length_cons]
      omega

end Sound

end Register

/-- Of the operations that have come the accepted ones are pending, coalesced, and the others have
left no trace. -/
structure Coalesces (a : Accumulator) (ops : List Operation) : Prop where
  /-- There is one way for the accepted operations to coalesce. -/
  pending_iff : ∀ pending,
    CoalesceTo (a.accepted ops) pending ↔ pending = (a.registerAll ops).ops
  refused : a.registerAll (a.accepted ops) = a.registerAll ops
  length : (a.registerAll ops).length + a.merges ops = (a.accepted ops).length

/-- What is pending is a function of the accepted operations, in an accumulator that had nothing
pending before: each row's have become one, which stands where the first of them came. -/
theorem registerAll_coalesces (a : Accumulator) (ha : a.Reachable) (hempty : a.isEmpty = true)
    (ops : List Operation) : a.Coalesces ops := by
  have hsound : a.Sound := ha.sound
  have hops : a.ops = [] := List.isEmpty_iff.1 hempty
  have hpending : CoalesceTo (a.accepted ops) (a.registerAll ops).ops := by
    have hnil : CoalesceTo [] a.ops := by
      rw [hops]
      exact .nil
    exact hsound.coalesceTo_registerAll ops hnil
  constructor
  case pending_iff =>
    intro pending
    constructor
    · intro hother
      exact hother.unique hpending
    · rintro rfl
      exact hpending
  case refused => exact a.registerAll_accepted ops
  case length =>
    have hlength := hsound.length_registerAll ops
    have hnone : a.length = 0 := by
      unfold length
      rw [hops, List.length_nil]
    rwa [hnone, Nat.zero_add] at hlength

private def jetty : Partition := ⟨"Jetties", "j", by decide, by decide⟩

private def jettyUpdate (row name : String) (value : Bool) : Operation :=
  ⟨⟨"j", row⟩, .update (SortedMap.empty.insert name (.bool value)) ⟨⟨"seal"⟩, by decide⟩⟩

/-- A jetty with room for two operations, one of which was pending before all were dropped. -/
private def clearedJetty : Accumulator :=
  ((create jetty ⟨2, 100⟩).register (jettyUpdate "crate" "tag" true)).2.clear

/-- The crate is updated three times, a second row takes the room that is left, an insert of the
crate conflicts, and there is no room for a third row. -/
private def jettyOps : List Operation :=
  [jettyUpdate "crate" "tag" true, jettyUpdate "pallet" "tag" true,
    Operation.insert ⟨"j", "crate"⟩ ∅, jettyUpdate "crate" "sealed" true,
    Operation.insert ⟨"j", "drum"⟩ ∅, jettyUpdate "crate" "tag" false]

theorem registerAll_coalesces_refused :
    clearedJetty.Reachable ∧ clearedJetty.isEmpty = true ∧ clearedJetty.Coalesces jettyOps ∧
      clearedJetty.accepted jettyOps = [jettyUpdate "crate" "tag" true,
        jettyUpdate "pallet" "tag" true, jettyUpdate "crate" "sealed" true,
        jettyUpdate "crate" "tag" false] ∧
      (clearedJetty.registerAll jettyOps).length = 2 ∧ clearedJetty.merges jettyOps = 2 := by
  have hreachable : clearedJetty.Reachable := .abort (.register (.create jetty ⟨2, 100⟩) _)
  have hempty : clearedJetty.isEmpty = true := by decide +kernel
  have hcoalesces := registerAll_coalesces clearedJetty hreachable hempty jettyOps
  refine ⟨hreachable, hempty, hcoalesces, ?_, ?_, ?_⟩
  all_goals decide +kernel

end Accumulator

end UnitOfWork
