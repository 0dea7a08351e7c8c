import Tabula.Proofs.Engine.Answering
import Tabula.Proofs.Engine.Depth
import Tabula.Proofs.Engine.Order
import Tabula.Proofs.Model.Binding
import Tabula.Proofs.Session.RowKey
import Tabula.Proofs.Session.Storing

/-! # Selections that are answered

A selection built by any calls is answered the rows of its table that meet all conditions, sorted by
the terms of the calls, of which the last offset leaves rows out at the beginning and the last limit
at the end. The count of the same selection is answered their number without any of this. All of it
holds whatever plan the engine has for rows that the terms leave together, and as long as the engine
takes so much of a statement (`Tabula.Selection.answers_ofCalls`). The whole numbers of the engine
have a sign and the bounds have none, so that a greater bound is refused though the rows are there
(`Tabula.Selection.answers_ofCalls_beyond`).
-/

namespace Tabula

open Sql

/-! ## Windows -/

/-- The rows without the first ones, and at most so many of them. -/
def page {α : Type} (limit offset : Option UInt64) (rows : List α) : List α :=
  let rest := rows.drop (offset.elim 0 (·.toNat))
  limit.elim rest fun n => rest.take n.toNat

/-- No bound is beyond the whole numbers of the engine, or no row is to be taken at all. -/
def IsWindow (limit offset : Option UInt64) : Prop :=
  limit = some 0 ∨ (∀ n ∈ limit, n.toNat < twoTo 63) ∧ ∀ n ∈ offset, n.toNat < twoTo 63

private theorem all_isCount_iff (bound : Option UInt64) :
    bound.all isCount = true ↔ ∀ n ∈ bound, n.toNat < twoTo 63 := by
  cases bound with
  | none => exact iff_of_true rfl fun n isBound => nomatch isBound
  | some n =>
      refine decide_eq_true_iff.trans ⟨fun small k isBound => ?_, fun small => small n rfl⟩
      exact Option.some.inj isBound ▸ small

private theorem window?_of_isWindow {α : Type} {limit offset : Option UInt64}
    (isWindow : IsWindow limit offset) (rows : List α) :
    window? limit offset rows = some (page limit offset rows) := by
  unfold window?
  by_cases isZero : limit = some 0
  · rw [if_pos isZero, isZero]
    rfl
  · obtain ⟨limits, offsets⟩ := isWindow.resolve_left isZero
    rw [if_neg isZero, (all_isCount_iff limit).mpr limits, (all_isCount_iff offset).mpr offsets,
      if_neg (by decide)]
    cases limit <;> cases offset <;> rfl

private theorem window?_of_not_isWindow {α : Type} {limit offset : Option UInt64}
    (beyond : ¬IsWindow limit offset) (rows : List α) : window? limit offset rows = none := by
  obtain ⟨notZero, notBoth⟩ := not_or.mp beyond
  have refused : (!limit.all isCount || !offset.all isCount) = true := by
    by_contra accepted
    rw [Bool.not_eq_true, Bool.or_eq_false_iff, Bool.not_eq_false', Bool.not_eq_false'] at accepted
    exact notBoth ⟨(all_isCount_iff limit).mp accepted.1, (all_isCount_iff offset).mp accepted.2⟩
  unfold window?
  rw [if_neg notZero, if_pos refused]

private theorem window?_map {α β : Type} (f : α → β) (limit offset : Option UInt64)
    (rows : List α) :
    window? limit offset (rows.map f) = (window? limit offset rows).map (·.map f) := by
  unfold window?
  split
  · rfl
  · split
    · rfl
    · cases limit <;> cases offset <;> simp only [Option.map_some, List.map_drop, List.map_take]

/-! ## Rows of a table -/

/-- What a row has in the columns of the table, in their order. -/
def Table.row (t : Table) (r : StoredRow) : Row :=
  t.columns.mapIdx fun place _ => r.values.getD place .null

private theorem Table.map_cell_eq_row (t : Table) (r : StoredRow) :
    (t.columns.zipIdx.map fun p => Table.Cell.column p.2 p.1).map r.cell = t.row r := by
  rw [List.map_map, row, List.mapIdx_eq_zipIdx_map]
  rfl

/-- A selection of all columns is answered a window of the rows that the plan has arranged, if the
engine takes so much of it. -/
theorem Contents.select_eq_window? {c : Contents} {t : StoredTable} {s : SelectStatement}
    {order : List (Table.Cell × Direction)} (found : c.table? s.table = some t)
    (faultless : t.definition.faults = []) (columns : s.columns = t.definition.columnNames)
    (known : t.knows s.conditions = true)
    (ordered : OrderTerm.cells? t.definition s.orders = some order) (plan : Plan) :
    c.select s plan =
      if s.isTaken then
        (window? s.limit s.offset (plan.arrange c s.statement order (t.filter s.conditions))).map
          (·.map t.definition.row)
      else none := by
  have inColumns : (fun r : StoredRow =>
      (t.definition.columns.zipIdx.map fun p => Table.Cell.column p.2 p.1).map r.cell) =
      t.definition.row := funext t.definition.map_cell_eq_row
  unfold select readAll
  rw [found]
  dsimp only
  rw [columns, Table.mapM_cell? faultless, ordered]
  dsimp only
  rw [known, inColumns]
  cases s.isTaken with
  | false => rfl
  | true => exact window?_map _ s.limit s.offset _

/-- No database has NaN in it. -/
theorem Engine.Arises.proper {e : Engine} (arises : e.Arises) : Throughout Contents.IsProper e :=
  arises.throughout (fun _ isTable => absurd isTable List.not_mem_nil)
    (fun proper done => proper.define done) fun proper left => proper.effect left

namespace Records

variable {m : Model} {s : Selection m} {e : Engine} {plan : Plan}

/-- Rows that are answered are read as records, and the first of them as the first record. -/
theorem read_of_answered {rows : List Row}
    (answered : e.contents.select s.select plan = some rows) :
    select s e plan = (rows.mapM fun row => m.read row 0).mapError .row ∧
      first s e plan = (rows.head?.mapM fun row => m.read row 0).mapError .row := by
  constructor
  · rw [select, answered]
  · rw [first, answered]
    cases rows with
    | nil => rfl
    | cons row rows => rfl

private theorem read_of_refused (refused : e.contents.select s.select plan = none) :
    select s e plan = .error .database ∧ first s e plan = .error .database := by
  constructor
  · rw [select, refused]
  · rw [first, refused]

end Records

/-! ## Calls -/

namespace Selection

variable {m : Model}

namespace Call

/-- The term of an order that the call adds. -/
def term? : Call m → Option OrderTerm
  | orderBy o => some o.term
  | _ => none

/-- The number of records to take that the call sets. -/
def limit? : Call m → Option UInt64
  | take count => some count
  | _ => none

/-- The number of records to leave out that the call sets. -/
def offset? : Call m → Option UInt64
  | drop count => some count
  | _ => none

end Call

private theorem orders_foldl (calls : List (Call m)) (s : Selection m) :
    (calls.foldl Call.apply s).orders.map (·.term) =
      s.orders.map (·.term) ++ calls.filterMap (·.term?) := by
  refine added_foldl (p := fun s : Selection m => s.orders.map (·.term)) (fun s call => ?_) calls s
  cases call with
  | orderBy o => exact List.map_append
  | restrict f | take count | drop count => exact (List.append_nil _).symm

/-- The statement of a selection is made of what the calls say. -/
theorem select_ofCalls (calls : List (Call m)) :
    (ofCalls calls).select =
      ⟨m.table.name, m.table.columnNames, calls.filterMap (·.condition?),
        calls.filterMap (·.term?), (calls.filterMap (·.limit?)).getLast?,
        (calls.filterMap (·.offset?)).getLast?⟩ := by
  have orders : (ofCalls calls).orders.map (·.term) = [] ++ _ := orders_foldl calls all
  have setsLimit (s : Selection m) (call : Call m) :
      (Call.apply s call).limit = call.limit?.or s.limit := by
    cases call <;> rfl
  have setsOffset (s : Selection m) (call : Call m) :
      (Call.apply s call).offset = call.offset?.or s.offset := by
    cases call <;> rfl
  have limit : (ofCalls calls).limit = _ := latest_foldl setsLimit calls all
  have offset : (ofCalls calls).offset = _ := latest_foldl setsOffset calls all
  rw [select, conditions_ofCalls, orders, limit, offset, List.nil_append]
  exact congrArg₂ _ Option.or_none Option.or_none

private theorem count_ofCalls (calls : List (Call m)) :
    (ofCalls calls).count = ⟨m.table.name, calls.filterMap (·.condition?)⟩ := by
  rw [count, conditions_ofCalls]

private theorem counted_calls (calls : List (Call m)) :
    ∀ c ∈ calls.filterMap (·.condition?), c.Counted := by
  rw [← conditions_ofCalls]
  exact counted_conditions _

private theorem knows_calls {t : StoredTable} (isTable : t.definition = m.table)
    (calls : List (Call m)) : t.knows (calls.filterMap (·.condition?)) = true := by
  rw [← conditions_ofCalls]
  refine List.all_eq_true.mpr fun condition member => ?_
  obtain ⟨f, -, rfl⟩ := List.mem_map.mp member
  rw [isTable]
  exact f.isKnown

private theorem exists_cells_calls (calls : List (Call m)) :
    ∃ order, OrderTerm.cells? m.table (calls.filterMap (·.term?)) = some order := by
  have cells := ModelOrder.exists_cells (ofCalls calls).orders
  have terms : (ofCalls calls).orders.map (·.term) = [] ++ _ := orders_foldl calls all
  rwa [terms] at cells

/-- What the database answers to a selection that is built by calls. -/
theorem contents_select_ofCalls (faultless : m.table.faults = []) {c : Contents} {t : StoredTable}
    (found : c.table? m.table.name = some t) (isTable : t.definition = m.table)
    {calls : List (Call m)} {order : List (Table.Cell × Direction)}
    (ordered : OrderTerm.cells? m.table (calls.filterMap (·.term?)) = some order) (plan : Plan) :
    c.select (ofCalls calls).select plan =
      if (ofCalls calls).select.isTaken then
        (window? (calls.filterMap (·.limit?)).getLast? (calls.filterMap (·.offset?)).getLast?
          (plan.arrange c (ofCalls calls).select.statement order
            (t.filter (calls.filterMap (·.condition?))))).map (·.map m.table.row)
      else none := by
  have known := knows_calls isTable calls
  rw [select_ofCalls]
  rw [← isTable] at faultless found ordered ⊢
  exact Contents.select_eq_window? found faultless rfl known ordered plan

/-- What the database answers to the count of a selection that is built by calls. -/
theorem contents_count_ofCalls {c : Contents} {t : StoredTable}
    (found : c.table? m.table.name = some t) (isTable : t.definition = m.table)
    (calls : List (Call m)) :
    c.count (ofCalls calls).count =
      if (ofCalls calls).count.isTaken then
        some (t.filter (calls.filterMap (·.condition?))).length
      else none := by
  rw [Contents.count, count_ofCalls]
  dsimp only
  rw [found]
  dsimp only
  rw [knows_calls isTable, Bool.and_true]

/-- A selection of few comparisons and operands, columns and terms is not too much for the engine,
nor is its count. -/
theorem isTaken_ofCalls (faultless : m.table.faults = []) {calls : List (Call m)}
    (few : Conditions.comparisons (calls.filterMap (·.condition?)) + 3 ≤ Limit.depth)
    (operands : (Conditions.operands (calls.filterMap (·.condition?))).length ≤ Limit.values)
    (columns : m.table.columns.length ≤ Limit.terms)
    (terms : (calls.filterMap (·.term?)).length ≤ Limit.terms) :
    (ofCalls calls).select.isTaken = true ∧ (ofCalls calls).count.isTaken = true := by
  have shallow := Conditions.isShallow_of_comparisons few
  have names : m.table.columnNames.length ≤ Limit.terms := by rwa [Table.columnNames, List.length_map]
  have named : m.table.columnNames.isEmpty = false := by
    rw [Table.columnNames, List.isEmpty_map]
    exact List.isEmpty_eq_false_iff.mpr (Table.columns_ne_nil faultless)
  rw [select_ofCalls, count_ofCalls, SelectStatement.isTaken, CountStatement.isTaken, shallow,
    decide_eq_true operands, decide_eq_true names, decide_eq_true terms, named]
  exact ⟨rfl, rfl⟩

/-- **Selections are answered in full.** Let a selection be built by any calls on a model without
faults, in any database with its table, and let the engine have any plan. The text of its statement is
read as the columns of the model, the table, the conjunction of all conditions, the terms in the order
of the calls, and the last limit and offset, and the text of its count as the same table and the same
clause. The engine takes this much if there are few enough comparisons, operands, columns and terms.
The answer to the query that was read, and so the records, are then the rows that meet all conditions,
sorted by the terms, without the first ones and no more than the limit, unless a bound is beyond the
whole numbers of the engine: then the engine refuses, as it does where it does not take so much. The
count is the number of the rows that meet all conditions, whatever the order and the bounds are. -/
theorem answers_ofCalls (faultless : m.table.faults = []) (calls : List (Call m)) {e : Engine}
    {t : StoredTable} (found : e.contents.table? m.table.name = some t)
    (isTable : t.definition = m.table) (plan : Plan) :
    let s := ofCalls calls
    let conditions := calls.filterMap (·.condition?)
    let terms := calls.filterMap (·.term?)
    let limit := (calls.filterMap (·.limit?)).getLast?
    let offset := (calls.filterMap (·.offset?)).getLast?
    let clause := (Conditions.together conditions).map (·.expr)
    let reading : Query (Option Expr) :=
      ⟨some m.table.columnNames, m.table.name, clause, terms, SelectStatement.bounds limit offset⟩
    let counting : Query (Option Expr) := ⟨none, m.table.name, clause, [], none⟩
    let matching := t.rows.filter (t.meets conditions)
    (∀ q, ReadsQuery s.select.statement.text s.select.statement.params q ↔ q = reading) ∧
    (∀ q, ReadsQuery s.count.statement.text s.count.statement.params q ↔ q = counting) ∧
    (Conditions.comparisons conditions + 3 ≤ Limit.depth →
      (Conditions.operands conditions).length ≤ Limit.values →
      m.table.columns.length ≤ Limit.terms → terms.length ≤ Limit.terms →
      s.select.isTaken = true ∧ s.count.isTaken = true) ∧
    (∃ order, OrderTerm.cells? m.table terms = some order ∧
      let sorted := plan.arrange e.contents s.select.statement order matching
      let answer := (page limit offset sorted).map m.table.row
      sorted.Perm matching ∧
      ((e.Arises ∨ ∀ r ∈ t.rows, r.values.IsProper) →
        sorted.Pairwise fun r q => (compareRows order r q).isLE = true) ∧
      (s.select.isTaken = true ∧ IsWindow limit offset →
        reading.rows? e.contents plan s.select.statement = some answer ∧
        Records.select s e plan = (answer.mapM fun row => m.read row 0).mapError .row ∧
        Records.first s e plan = (answer.head?.mapM fun row => m.read row 0).mapError .row) ∧
      (¬(s.select.isTaken = true ∧ IsWindow limit offset) →
        reading.rows? e.contents plan s.select.statement = none ∧
        Records.select s e plan = .error .database ∧ Records.first s e plan = .error .database)) ∧
    (s.count.isTaken = true →
      counting.count? e.contents = some matching.length ∧ Records.count s e = .ok matching.length) ∧
    (s.count.isTaken = false →
      counting.count? e.contents = none ∧ Records.count s e = .error .database) := by
  intro s conditions terms limit offset clause reading counting matching
  have isSelect : s.select = ⟨m.table.name, m.table.columnNames, conditions, terms, limit, offset⟩ :=
    select_ofCalls calls
  have isCount : s.count = ⟨m.table.name, conditions⟩ := count_ofCalls calls
  have counted : ∀ c ∈ conditions, c.Counted := counted_calls calls
  have columns : m.table.columnNames ≠ [] := fun none =>
    Table.columns_ne_nil faultless (List.map_eq_nil_iff.mp none)
  have isReading (q : Query (Option Expr)) :
      ReadsQuery s.select.statement.text s.select.statement.params q ↔ q = reading := by
    rw [isSelect]
    exact SelectStatement.readsQuery_text_iff columns counted q
  have isCounting (q : Query (Option Expr)) :
      ReadsQuery s.count.statement.text s.count.statement.params q ↔ q = counting := by
    rw [isCount]
    exact CountStatement.readsQuery_text_iff counted q
  -- the database answers to the texts what it answers to the statements
  have answered : reading.rows? e.contents plan s.select.statement =
      e.contents.select s.select plan := by
    have reads := (isReading reading).mpr rfl
    rw [isSelect] at reads ⊢
    exact Contents.rows?_of_reads columns counted reads
  have answeredCount : counting.count? e.contents = e.contents.count s.count := by
    have reads := (isCounting counting).mpr rfl
    rw [isCount] at reads ⊢
    exact Contents.count?_of_reads counted reads
  have number : e.contents.count s.count = if s.count.isTaken then some matching.length else none :=
    contents_count_ofCalls found isTable calls
  refine ⟨isReading, isCounting, fun few operands names ordered =>
    isTaken_ofCalls faultless few operands names ordered, ?_, fun taken => ?_, fun refused => ?_⟩
  · obtain ⟨order, ordered⟩ := exists_cells_calls calls
    have windowed := contents_select_ofCalls faultless found isTable ordered plan
    refine ⟨order, ordered, plan.perm _ _ _ _, fun either => ?_, fun ⟨taken, isWindow⟩ => ?_,
      fun refused => ?_⟩
    · have proper : ∀ r ∈ t.rows, r.values.IsProper := by
        rcases either with arises | proper
        · exact fun r member => arises.proper.1.of_table? found member
        · exact proper
      exact plan.sorted _ _ (StoredRow.arranges_of_isProper
        (fun r member => proper r (List.mem_filter.mp member).1) order)
    · rw [if_pos taken, window?_of_isWindow isWindow] at windowed
      exact ⟨answered.trans windowed, Records.read_of_answered windowed⟩
    · have none : e.contents.select s.select plan = none := by
        rw [windowed]
        split
        · rename_i taken
          rw [window?_of_not_isWindow fun isWindow => refused ⟨taken, isWindow⟩]
          rfl
        · rfl
      exact ⟨answered.trans none, Records.read_of_refused none⟩
  · rw [if_pos taken] at number
    refine ⟨answeredCount.trans number, ?_⟩
    rw [Records.count, number]
  · rw [if_neg (Bool.eq_false_iff.mp refused)] at number
    refine ⟨answeredCount.trans number, ?_⟩
    rw [Records.count, number]

/-- Asks for the records of the number seven in the order of their entries, the last entry first, and
of them for the second one alone. -/
def journalCalls : List (Call (.journal "number")) :=
  [.restrict (.compare ⟨.plain "number" .integer, ⟨.int .i64, false⟩⟩ (.head _) .eq (by decide)
      [⟨7, by decide⟩] (by decide)),
    .take 9,
    .orderBy ⟨⟨.plain "entry" .text, ⟨.text, false⟩⟩, .tail _ (.head _), .desc, by decide⟩,
    .drop 1, .take 1]

/-- The record of the number seven. -/
def journalRecord (entry : String) : (Model.journal "number").Entry :=
  (⟨7, by decide⟩, entry, ())

private theorem arises_journal : (Model.journaling "number" ["first", "second"]).Arises :=
  Model.arises_journaling (by decide +kernel) (by decide +kernel) (by decide +kernel)

/-- Both records are of the number, and the entry of the first comes second, by any plan. -/
theorem answers_ofCalls_journal :
    let m := Model.journal "number"
    let e := Model.journaling "number" ["first", "second"]
    m.table.faults = [] ∧ e.Arises ∧
      (e.contents.table? m.table.name).map (·.definition) = some m.table ∧
      (∀ plan, Records.select (ofCalls journalCalls) e plan = .ok [journalRecord "first"]) ∧
      Records.count (ofCalls journalCalls) e = .ok 2 := by
  intro m e
  have faultless : m.table.faults = [] := by decide +kernel
  have arises : e.Arises := arises_journal
  have there : (e.contents.table? m.table.name).map (·.definition) = some m.table := by
    decide +kernel
  obtain ⟨t, found, isTable⟩ := Option.map_eq_some_iff.mp there
  have answers := answers_ofCalls faultless journalCalls found isTable
  let first : StoredRow := ⟨1, [.integer 7, .text "first"]⟩
  let second : StoredRow := ⟨2, [.integer 7, .text "second"]⟩
  have stored : e.contents.table? m.table.name =
      some { StoredTable.new m.table with rows := [first, second] } := by decide +kernel
  obtain rfl := Option.some.inj (found.symm.trans stored)
  have bothMeet : [first, second].filter (StoredTable.meets
      { StoredTable.new m.table with rows := [first, second] }
      (journalCalls.filterMap (·.condition?))) = [first, second] := by
    decide +kernel
  have taken := (answers .byPosition).2.2.1 (by decide +kernel) (by decide +kernel)
    (by decide +kernel) (by decide +kernel)
  refine ⟨faultless, arises, there, fun plan => ?_, ?_⟩
  · obtain ⟨-, -, -, ⟨order, ordered, isPerm, isOrdered, within, -⟩, -⟩ := answers plan
    obtain rfl : order = [(.column 1 (.plain "entry" .text), .desc)] :=
      Option.some.inj (ordered.symm.trans (by decide +kernel))
    rw [bothMeet] at isPerm isOrdered within
    have noTie : ∀ a ∈ [first, second], ∀ b ∈ [second, first],
        (compareRows [(.column 1 (.plain "entry" .text), .desc)] a b).isLE = true →
        (compareRows [(.column 1 (.plain "entry" .text), .desc)] b a).isLE = true → a = b := by
      decide +kernel
    -- the row that was stored last is sorted before the other one
    have inOrder := List.Perm.eq_of_pairwise
      (fun a b isA isB => noTie a (isPerm.mem_iff.mp isA) b isB) (isOrdered (Or.inl arises))
      (by decide +kernel) (isPerm.trans (.swap second first []))
    have isWindow : IsWindow (journalCalls.filterMap (·.limit?)).getLast?
        (journalCalls.filterMap (·.offset?)).getLast? :=
      Or.inr ⟨(all_isCount_iff _).mp (by decide +kernel), (all_isCount_iff _).mp (by decide +kernel)⟩
    rw [inOrder] at within
    rw [(within ⟨taken.1, isWindow⟩).2.1]
    rfl
  · obtain ⟨-, -, -, -, number, -⟩ := answers .byPosition
    rw [bothMeet] at number
    exact (number taken.2).2

/-- The engine is asked for no more records than a number greater than all of its own, and refuses,
though it counts two. -/
theorem answers_ofCalls_beyond :
    let m := Model.journal "number"
    let e := Model.journaling "number" ["first", "second"]
    let s : Selection m := ofCalls [.take 9223372036854775808]
    m.table.faults = [] ∧ e.Arises ∧
      (e.contents.table? m.table.name).map (·.definition) = some m.table ∧
      s.select.statement.text =
        "SELECT \"number\", \"entry\" FROM \"Journal\" LIMIT 9223372036854775808" ∧
      s.select.isTaken = true ∧ (∀ plan, Records.select s e plan = .error .database) ∧
      Records.count s e = .ok 2 := by
  intro m e s
  have faultless : m.table.faults = [] := by decide +kernel
  have arises : e.Arises := arises_journal
  have there : (e.contents.table? m.table.name).map (·.definition) = some m.table := by
    decide +kernel
  have beyond : ¬IsWindow (some 9223372036854775808) none := by
    rintro (isZero | ⟨small, -⟩)
    · exact absurd isZero (by decide)
    · exact absurd (small _ rfl) (by decide +kernel)
  have refused (plan : Plan) : e.contents.select s.select plan = none := by
    rw [Contents.select]
    have noWindow (rows : List Row) : window? s.select.limit s.select.offset rows = none :=
      window?_of_not_isWindow beyond rows
    rw [funext noWindow]
    cases e.contents.readAll plan s.select.statement s.select <;> rfl
  have number : e.contents.count s.count = some 2 := by decide +kernel
  refine ⟨faultless, arises, there, by decide +kernel, by decide +kernel,
    fun plan => (Records.read_of_refused (refused plan)).1, ?_⟩
  rw [Records.count, number]

end Selection

end Tabula
