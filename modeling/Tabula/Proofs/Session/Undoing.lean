import Tabula.Proofs.Schema.DigestText
import Tabula.Session.Migration

/-! # Migrations that come to nothing

A migration is done as a whole or not at all. Its statements run one after the other until one is
refused (`Tabula.Migration.runAll_eq_error_iff`), and what the database held when the transaction
began is set aside until its end, so a refusal at any place finds it again
(`Tabula.Migration.migrate_cases`). A migration that answers an error, that only reports, or that
finds the database at its schema leaves the contents as they were
(`Tabula.Migration.contents_of_migrate`).
-/

namespace Tabula

/-- An answer leaves the connection as the change does. -/
theorem Answer.snd_ofChange {α : Type} (f : Nat × Option Int64 → α)
    (change : Option (Nat × Option Int64) × Engine) : (Answer.ofChange f change).2 = change.2 := by
  obtain ⟨_ | n, e⟩ := change <;> rfl

namespace Engine

variable {e e' : Engine}

/-- The setting of references is no part of the contents. -/
theorem contents_enforce (e : Engine) (on : Bool) : (e.enforce on).contents = e.contents := by
  unfold enforce
  split <;> rfl

/-- The setting of references leaves an open transaction as it is. -/
theorem saved_enforce (e : Engine) (on : Bool) : (e.enforce on).saved = e.saved := by
  unfold enforce
  split <;> rfl

private theorem saved_define {s : SchemaStatement} (done : e.define s = some e') :
    e'.saved = e.saved := by
  obtain ⟨c, -, rfl⟩ := Option.map_eq_some_iff.mp done
  rfl

/-- An open transaction goes back to where it began. -/
theorem rollback_of_saved {c : Contents} (isOpen : e.saved = some c) :
    e.rollback.contents = c := by
  rw [rollback, isOpen, Option.getD_some]

/-- After a statement on rows, done or refused, the open transaction can be undone. -/
theorem rollback_change {c : Contents} (isOpen : e.saved = some c)
    (f : Bool → Contents → Effect) : (e.change f).2.rollback.contents = c := by
  have undone : e.rollback.rollback.contents = e.rollback.contents := rfl
  unfold change
  split
  · exact rollback_of_saved isOpen
  · exact rollback_of_saved isOpen
  · exact undone.trans (rollback_of_saved isOpen)

private theorem saved_change {n : Nat × Option Int64} {f : Bool → Contents → Effect}
    (done : e.change f = (some n, e')) : e'.saved = e.saved := by
  unfold change at done
  split at done <;> cases done
  rfl

end Engine

namespace DigestRecord

variable {e : Engine}

/-- What is stored depends on the contents only. -/
theorem load_eq_of_contents {e' : Engine} (same : e'.contents = e.contents) : load e' = load e := by
  unfold load isThere
  rw [same]

private theorem load_eq_error {x : SessionError} (refused : load e = .error x) : x = .database := by
  unfold load at refused
  split at refused
  · cases refused
  · split at refused <;> cases refused
    rfl

private theorem ofChange_eq_ok {e' : Engine} {change : Option (Nat × Option Int64) × Engine}
    (done : Answer.ofChange (fun _ => ()) change = (.ok (), e')) :
    ∃ n, change = (some n, e') := by
  obtain ⟨_ | n, after⟩ := change
  · cases done
  · cases done
    exact ⟨n, rfl⟩

private theorem ofChange_eq_error {e' : Engine} {x : SessionError}
    {change : Option (Nat × Option Int64) × Engine}
    (refused : Answer.ofChange (fun _ => ()) change = (.error x, e')) :
    x = .database ∧ change.2 = e' := by
  obtain ⟨_ | n, after⟩ := change
  · cases refused
    exact ⟨rfl, rfl⟩
  · cases refused

/-- A digest that cannot be stored leaves the open transaction to be undone. -/
theorem rollback_of_save_eq_error {c : Contents} {stamp digest : String} {e' : Engine}
    {x : SessionError} (isOpen : e.saved = some c)
    (refused : save stamp digest e = (.error x, e')) :
    x = .database ∧ e'.rollback.contents = c := by
  unfold save ensure at refused
  cases created : e.define (.createTable table) with
  | none =>
      rw [created] at refused
      cases refused
      exact ⟨rfl, Engine.rollback_of_saved isOpen⟩
  | some next =>
      rw [created] at refused
      obtain ⟨isDatabase, rfl⟩ := ofChange_eq_error refused
      refine ⟨isDatabase, Engine.rollback_change ?_ _⟩
      rw [Engine.saved_define created, isOpen]

/-- A digest is stored by creating the table of the record and replacing its row. -/
theorem save_eq_ok {stamp digest : String} {e' : Engine}
    (stored : save stamp digest e = (.ok (), e')) :
    ∃ created n, e.define (.createTable table) = some created ∧
      created.insert ⟨.replace, tableName, table.columnNames,
        [[.text key, .text digest, .text stamp]]⟩ = (some n, e') := by
  unfold save ensure at stored
  cases created : e.define (.createTable table) with
  | none =>
      rw [created] at stored
      cases stored
  | some next =>
      rw [created] at stored
      obtain ⟨n, inserted⟩ := ofChange_eq_ok stored
      exact ⟨next, n, rfl, inserted⟩

private theorem saved_save {stamp digest : String} {e' : Engine}
    (stored : save stamp digest e = (.ok (), e')) : e'.saved = e.saved := by
  obtain ⟨created, n, isCreated, inserted⟩ := save_eq_ok stored
  rw [Engine.saved_change inserted, Engine.saved_define isCreated]

end DigestRecord

namespace Migration

variable {m : Migration} {stamp : String} {e e' : Engine} {x : SessionError}
  {statements : List SchemaStatement} {s : SchemaStatement}

/-! ## Runs of statements -/

/-- The statement is the first of the list that is refused. -/
def FailsAt (statements : List SchemaStatement) (e : Engine) (s : SchemaStatement) : Prop :=
  ∃ before rest reached, statements = before ++ s :: rest ∧ runAll before e = .ok reached ∧
    reached.define s = none

/-- A statement that is done is followed by the others. -/
theorem runAll_cons_of_define (rest : List SchemaStatement) (done : e.define s = some e') :
    runAll (s :: rest) e = runAll rest e' := by
  rw [runAll, done]

/-- Statements are all done if the first one is and the others are after it. -/
theorem runAll_cons_eq_ok (ran : runAll (s :: statements) e = .ok e') :
    ∃ c, e.contents.define s = some c ∧ runAll statements { e with contents := c } = .ok e' := by
  cases done : e.define s with
  | none =>
      rw [runAll, done] at ran
      cases ran
  | some next =>
      obtain ⟨c, defined, rfl⟩ := Option.map_eq_some_iff.mp done
      rw [runAll_cons_of_define statements done] at ran
      exact ⟨c, defined, ran⟩

/-- Statements fail at the first one that is refused, and the error is its text. -/
theorem runAll_eq_error_iff :
    runAll statements e = .error x ↔
      ∃ s, FailsAt statements e s ∧ x = .statement (Dialect.sqlite.render s) := by
  constructor
  · intro refused
    induction statements generalizing e with
    | nil => cases refused
    | cons s rest ih =>
        cases done : e.define s with
        | none =>
            rw [runAll, done] at refused
            exact ⟨s, ⟨[], rest, e, rfl, rfl, done⟩, (Except.error.inj refused).symm⟩
        | some next =>
            rw [runAll_cons_of_define rest done] at refused
            obtain ⟨t, ⟨before, later, reached, split, ran, isRefused⟩, isText⟩ := ih refused
            refine ⟨t, ⟨s :: before, later, reached, ?_, ?_, isRefused⟩, isText⟩
            · rw [split, List.cons_append]
            · rw [runAll_cons_of_define before done, ran]
  · rintro ⟨s, ⟨before, rest, reached, rfl, ran, isRefused⟩, rfl⟩
    induction before generalizing e with
    | nil =>
        obtain rfl := Except.ok.inj ran
        rw [List.nil_append, runAll, isRefused]
    | cons t before ih =>
        obtain ⟨c, defined, ranRest⟩ := runAll_cons_eq_ok ran
        have done : e.define t = some { e with contents := c } := congrArg (Option.map _) defined
        rw [List.cons_append, runAll_cons_of_define _ done, ih ranRest]

/-- What every statement keeps of the contents is kept by a run of them, which changes nothing but
the contents. -/
theorem runAll_induct {P : Contents → Prop}
    (each : ∀ s ∈ statements, ∀ c c', P c → c.define s = some c' → P c')
    (ran : runAll statements e = .ok e') (before : P e.contents) :
    P e'.contents ∧ e' = { e with contents := e'.contents } := by
  induction statements generalizing e with
  | nil =>
      obtain rfl := Except.ok.inj ran
      exact ⟨before, rfl⟩
  | cons s rest ih =>
      obtain ⟨c, defined, ranRest⟩ := runAll_cons_eq_ok ran
      have here := each s List.mem_cons_self _ c before defined
      have later := ih (fun t member => each t (List.mem_cons_of_mem s member)) ranRest here
      exact later

/-- Schema statements change nothing but the contents. -/
theorem eq_of_runAll (ran : runAll statements e = .ok e') :
    e' = { e with contents := e'.contents } :=
  (runAll_induct (P := fun _ => True) (fun _ _ _ _ _ _ => trivial) ran trivial).2

/-! ## The transaction around them -/

/-- The connection when the transaction of a migration has begun. -/
def begun (e : Engine) : Engine :=
  { e with saved := some e.contents, enforced := false }

private theorem begin?_enforce (e : Engine) :
    (e.enforce false).begin? = if e.saved = none then some (begun e) else none := by
  cases isSaved : e.saved with
  | none => simp [Engine.enforce, Engine.begin?, begun, isSaved]
  | some c => simp [Engine.enforce, Engine.begin?, isSaved]

/-- What the transaction of a migration answers: its statements are run and the digest is stored, or
it ends with the contents as they were, at the first of these steps that is refused. -/
theorem apply_cases (m : Migration) (stamp : String) (statements : List SchemaStatement)
    (idle : e.saved = none) :
    (∃ defined stored, runAll statements (begun e) = .ok defined ∧
      DigestRecord.save stamp m.schema.digest defined = (.ok (), stored) ∧
      m.apply stamp statements (e.enforce false) = (.ok (), { stored with saved := none })) ∨
    (∃ x after, m.apply stamp statements (e.enforce false) = (.error x, after) ∧
      (after.contents = e.contents ∧ after.saved = e.saved) ∧
      (runAll statements (begun e) = .error x ∨
        x = .database ∧ ∃ defined failed, runAll statements (begun e) = .ok defined ∧
          DigestRecord.save stamp m.schema.digest defined = (.error x, failed))) := by
  have begins : (e.enforce false).begin? = some (begun e) := by rw [begin?_enforce, if_pos idle]
  cases ran : runAll statements (begun e) with
  | error x =>
      have refused : m.apply stamp statements (e.enforce false) =
          (.error x, (begun e).rollback) := by
        simp only [apply, begins, ran]
      exact Or.inr ⟨x, _, refused, ⟨rfl, idle.symm⟩, Or.inl rfl⟩
  | ok defined =>
      have isOpen : defined.saved = some e.contents := by rw [eq_of_runAll ran, begun]
      cases saved : DigestRecord.save stamp m.schema.digest defined with
      | mk result after =>
          cases result with
          | error x =>
              have refused : m.apply stamp statements (e.enforce false) =
                  (.error x, after.rollback) := by
                simp only [apply, begins, ran, saved]
              obtain ⟨isDatabase, undone⟩ := DigestRecord.rollback_of_save_eq_error isOpen saved
              exact Or.inr ⟨x, _, refused, ⟨undone, idle.symm⟩,
                Or.inr ⟨isDatabase, defined, after, rfl, saved⟩⟩
          | ok u =>
              have stillOpen : after.saved = some e.contents := by
                rw [DigestRecord.saved_save saved, isOpen]
              have commits : after.commit? = some { after with saved := none } := by
                rw [Engine.commit?, stillOpen]
                rfl
              have done : m.apply stamp statements (e.enforce false) =
                  (.ok (), { after with saved := none }) := by
                simp only [apply, begins, ran, saved, commits]
              exact Or.inl ⟨defined, after, rfl, saved, done⟩

/-! ## Migrations -/

private theorem plan_eq_error (refused : m.plan e = .error x) : x = .database := by
  unfold plan at refused
  cases loaded : DigestRecord.load e with
  | ok stored =>
      rw [loaded] at refused
      cases refused
  | error y =>
      rw [loaded] at refused
      obtain rfl := Except.error.inj refused
      exact DigestRecord.load_eq_error loaded

/-- A database at its schema is kept; otherwise its tables are dropped, then those of the schema are
created. -/
theorem plan_eq_ok {report : MigrationReport} (planned : m.plan e = .ok report) :
    ∃ stored, DigestRecord.load e = .ok stored ∧
      (stored = some m.schema.digest ∧
          report = ⟨.keep, stored, m.schema.digest, [], [], m.dryRun⟩ ∨
        stored ≠ some m.schema.digest ∧
          report = ⟨.rebuild, stored, m.schema.digest, userTables e.contents,
            (userTables e.contents).map .dropTable ++ m.schema.schemaStatements, m.dryRun⟩) := by
  unfold plan at planned
  cases loaded : DigestRecord.load e with
  | error y =>
      rw [loaded] at planned
      cases planned
  | ok stored =>
      rw [loaded] at planned
      obtain rfl := Except.ok.inj planned
      refine ⟨stored, rfl, ?_⟩
      by_cases same : stored = some m.schema.digest
      · exact Or.inl ⟨same, by simp only [MigrationDecision.ofDigests, if_pos same]⟩
      · exact Or.inr ⟨same, by simp only [MigrationDecision.ofDigests, if_neg same]⟩

/-- The plan of a dry run is not applied. -/
theorem not_applied_of_dryRun {report : MigrationReport} (planned : m.plan e = .ok report)
    (isDryRun : m.dryRun = true) : ¬report.applied = true := by
  obtain ⟨stored, -, ⟨-, rfl⟩ | ⟨-, rfl⟩⟩ := plan_eq_ok planned <;>
    simp [MigrationReport.applied, isDryRun]

private theorem not_applied_of_keep {report : MigrationReport} (isKeep : report.decision = .keep) :
    ¬report.applied = true := by
  simp [MigrationReport.applied, isKeep]

/-- A migration that is not applied leaves the connection as it is. -/
theorem migrate_of_not_applied {report : MigrationReport} (planned : m.plan e = .ok report)
    (idle : report.applied = false) : m.migrate stamp e = (.ok report, e) := by
  rw [migrate, planned]
  simp only [idle, Bool.false_eq_true, if_false]

/-- What a migration that is applied answers: its statements are run and the digest is stored, or it
ends with the contents as they were, at the first of these steps that is refused. -/
theorem migrate_cases {report : MigrationReport} (stamp : String) (planned : m.plan e = .ok report)
    (applied : report.applied = true) :
    (∃ defined stored, e.saved = none ∧ runAll report.statements (begun e) = .ok defined ∧
      DigestRecord.save stamp m.schema.digest defined = (.ok (), stored) ∧
      m.migrate stamp e =
        (.ok report, Engine.enforce { stored with saved := none } m.foreignKeys)) ∨
    (∃ x after, m.migrate stamp e = (.error x, after) ∧
      (after.contents = e.contents ∧ after.saved = e.saved) ∧
      (e.saved = none ∧ runAll report.statements (begun e) = .error x ∨
        x = .database ∧ (e.saved = none → ∃ defined failed,
          runAll report.statements (begun e) = .ok defined ∧
            DigestRecord.save stamp m.schema.digest defined = (.error x, failed)))) := by
  have unfolded : m.migrate stamp e =
      (((m.apply stamp report.statements (e.enforce false)).1.map fun _ => report),
        (m.apply stamp report.statements (e.enforce false)).2.enforce m.foreignKeys) := by
    rw [migrate, planned]
    simp only [applied, if_true]
  by_cases idle : e.saved = none
  · rcases apply_cases m stamp report.statements idle with
      ⟨defined, stored, ran, saved, done⟩ | ⟨x, after, refused, same, reason⟩
    · exact Or.inl ⟨defined, stored, idle, ran, saved, by rw [unfolded, done]; rfl⟩
    · refine Or.inr ⟨x, after.enforce m.foreignKeys, by rw [unfolded, refused]; rfl, ?_, ?_⟩
      · rwa [Engine.contents_enforce, Engine.saved_enforce]
      · rcases reason with ran | ⟨isDatabase, unsaved⟩
        · exact Or.inl ⟨idle, ran⟩
        · exact Or.inr ⟨isDatabase, fun _ => unsaved⟩
  · have begins : (e.enforce false).begin? = none := by rw [begin?_enforce, if_neg idle]
    have refused : m.apply stamp report.statements (e.enforce false) =
        (.error .database, e.enforce false) := by
      rw [apply, begins]
    refine Or.inr ⟨.database, (e.enforce false).enforce m.foreignKeys,
      by rw [unfolded, refused]; rfl, ?_, Or.inr ⟨rfl, fun isIdle => absurd isIdle idle⟩⟩
    simp only [Engine.contents_enforce, Engine.saved_enforce, and_self]

/-- A migration whose statements are run and whose digest is stored is done. -/
theorem migrate_of_saved {report : MigrationReport} {defined stored : Engine}
    (planned : m.plan e = .ok report) (applied : report.applied = true) (idle : e.saved = none)
    (ran : runAll report.statements (begun e) = .ok defined)
    (saved : DigestRecord.save stamp m.schema.digest defined = (.ok (), stored)) :
    m.migrate stamp e =
      (.ok report, Engine.enforce { stored with saved := none } m.foreignKeys) := by
  rcases migrate_cases stamp planned applied with
    ⟨defined', stored', -, ran', saved', done⟩ | ⟨x, after, -, -, reason⟩
  · obtain rfl := Except.ok.inj (ran.symm.trans ran')
    rw [saved] at saved'
    cases saved'
    exact done
  · rcases reason with ⟨-, refused⟩ | ⟨-, unsaved⟩
    · rw [ran] at refused
      cases refused
    · obtain ⟨defined', failed, ran', refused⟩ := unsaved idle
      obtain rfl := Except.ok.inj (ran.symm.trans ran')
      rw [saved] at refused
      cases refused

/-- A migration that is done is done as it was planned. -/
theorem migrate_eq_ok {report : MigrationReport} {after : Engine}
    (done : m.migrate stamp e = (.ok report, after)) : m.plan e = .ok report := by
  cases planned : m.plan e with
  | error x =>
      rw [migrate, planned] at done
      cases done
  | ok other =>
      cases applied : other.applied with
      | false =>
          rw [migrate_of_not_applied planned applied] at done
          obtain ⟨isReport, -⟩ := Prod.mk.inj done
          rw [Except.ok.inj isReport]
      | true =>
          rcases migrate_cases stamp planned applied with
            ⟨_, _, _, _, _, answer⟩ | ⟨_, _, answer, _⟩
          · rw [answer] at done
            obtain ⟨isReport, -⟩ := Prod.mk.inj done
            rw [Except.ok.inj isReport]
          · rw [answer] at done
            cases done

/-- Nothing is changed where a migration answers an error, only reports, or finds nothing to do. -/
theorem contents_of_not_done
    (nothing : (∃ x, (m.migrate stamp e).1 = .error x) ∨ m.dryRun = true ∨
      ∃ report, (m.migrate stamp e).1 = .ok report ∧ report.decision = .keep) :
    (m.migrate stamp e).2.contents = e.contents := by
  cases planned : m.plan e with
  | error x => rw [migrate, planned]
  | ok report =>
      by_cases applied : report.applied = true
      · rcases migrate_cases stamp planned applied with
          ⟨_, _, _, _, _, done⟩ | ⟨_, _, refused, same, _⟩
        · rw [done] at nothing
          rcases nothing with ⟨x, refused⟩ | isDryRun | ⟨other, isReport, isKeep⟩
          · cases refused
          · exact absurd applied (not_applied_of_dryRun planned isDryRun)
          · obtain rfl := Except.ok.inj isReport
            exact absurd applied (not_applied_of_keep isKeep)
        · rw [refused, same.1]
      · rw [migrate_of_not_applied planned (Bool.eq_false_iff.mpr applied)]

/-- A migration answers that a statement failed exactly where, after the planned statements before
it are run, that statement is refused. -/
theorem migrate_eq_statement_iff {text : String} :
    (m.migrate stamp e).1 = .error (.statement text) ↔
      ∃ report s, m.plan e = .ok report ∧ report.applied = true ∧ e.saved = none ∧
        FailsAt report.statements (begun e) s ∧ text = Dialect.sqlite.render s := by
  constructor
  · intro failed
    cases planned : m.plan e with
    | error x =>
        rw [migrate, planned] at failed
        obtain rfl := Except.error.inj failed
        cases plan_eq_error planned
    | ok report =>
        by_cases applied : report.applied = true
        · rcases migrate_cases stamp planned applied with
            ⟨_, _, _, _, _, done⟩ | ⟨x, _, refused, -, reason⟩
          · rw [done] at failed
            cases failed
          · rw [refused] at failed
            obtain rfl := Except.error.inj failed
            rcases reason with ⟨idle, ran⟩ | ⟨isDatabase, -⟩
            · obtain ⟨s, fails, isText⟩ := runAll_eq_error_iff.mp ran
              exact ⟨report, s, rfl, applied, idle, fails, SessionError.statement.inj isText⟩
            · cases isDatabase
        · rw [migrate_of_not_applied planned (Bool.eq_false_iff.mpr applied)] at failed
          cases failed
  · rintro ⟨report, s, planned, applied, idle, fails, rfl⟩
    have ran := runAll_eq_error_iff.mpr ⟨s, fails, rfl⟩
    rcases migrate_cases stamp planned applied with
      ⟨defined, _, _, done, _, _⟩ | ⟨x, _, refused, -, reason⟩
    · rw [ran] at done
      cases done
    · rcases reason with ⟨-, ranSo⟩ | ⟨-, unsaved⟩
      · obtain rfl := Except.error.inj (ranSo.symm.trans ran)
        rw [refused]
      · obtain ⟨defined, _, done, -⟩ := unsaved idle
        rw [ran] at done
        cases done

/-- **All or nothing.** A migration that answers an error, only reports, or finds nothing to do leaves
the tables, the indexes, the rows and the stored digest as they were; and it answers that a statement
failed exactly where, after the planned statements before it are run, that statement is refused. -/
theorem contents_of_migrate (m : Migration) (stamp : String) (e : Engine) :
    ((∃ x, (m.migrate stamp e).1 = .error x) ∨ m.dryRun = true ∨
        (∃ report, (m.migrate stamp e).1 = .ok report ∧ report.decision = .keep) →
      (m.migrate stamp e).2.contents = e.contents ∧
        DigestRecord.load (m.migrate stamp e).2 = DigestRecord.load e) ∧
    ∀ text, (m.migrate stamp e).1 = .error (.statement text) ↔
      ∃ report s, m.plan e = .ok report ∧ report.applied = true ∧ e.saved = none ∧
        FailsAt report.statements (begun e) s ∧ text = Dialect.sqlite.render s := by
  refine ⟨fun nothing => ?_, fun text => migrate_eq_statement_iff⟩
  have same := contents_of_not_done nothing
  exact ⟨same, DigestRecord.load_eq_of_contents same⟩

/-- The migration to a schema of one table. -/
def toTable (t : Table) : Migration where
  schema := ⟨[t], [t.ddl .sqlite]⟩

private theorem schemaStatements_toTable {t : Table}
    (noIndex : t.columns.filter (·.needsIndex) = []) :
    (toTable t).schema.schemaStatements = [.createTable t] := by
  simp [toTable, Schema.schemaStatements, Table.schemaStatements, noIndex]

/-- A database without a record of a digest is brought to the table. -/
theorem plan_toTable {t : Table} (noIndex : t.columns.filter (·.needsIndex) = [])
    (unrecorded : DigestRecord.isThere e = false) :
    (toTable t).plan e = .ok ⟨.rebuild, none, (toTable t).schema.digest, userTables e.contents,
      (userTables e.contents).map .dropTable ++ [.createTable t], false⟩ := by
  have loaded : DigestRecord.load e = .ok none := by
    rw [DigestRecord.load, unrecorded]
    rfl
  rw [plan, loaded, schemaStatements_toTable noIndex]
  rfl

/-- A database with a table that is dropped before a statement is refused. -/
theorem contents_of_migrate_refused :
    let e : Engine := { Engine.new true with contents := ⟨[.new (.keyed "author")]⟩ }
    let m := toTable (.keyed "sqlite_book")
    (SchemaPlan.mk [.keyed "sqlite_book"] []).build .sqlite = .ok m.schema ∧
      (m.migrate "now" e).1 =
        .error (.statement (Dialect.sqlite.createTable (.keyed "sqlite_book"))) ∧
      (m.migrate "now" e).2.contents = e.contents := by
  intro e m
  have names : e.contents.tableNames = ["author"] := List.mergeSort_singleton "author"
  have dropped : userTables e.contents = ["author"] := by
    rw [userTables, names]
    decide +kernel
  have planned := plan_toTable (e := e) (t := .keyed "sqlite_book") (by decide +kernel)
    (by decide +kernel)
  rw [dropped] at planned
  have refused := ((contents_of_migrate m "now" e).2 _).mpr
    ⟨_, .createTable (.keyed "sqlite_book"), planned, rfl, rfl,
      ⟨[.dropTable "author"], [], _, rfl, rfl, by decide +kernel⟩, rfl⟩
  refine ⟨SchemaPlan.build_singleton (by decide +kernel) rfl (by decide +kernel), refused, ?_⟩
  exact ((contents_of_migrate m "now" e).1 (Or.inl ⟨_, refused⟩)).1

end Migration

end Tabula
