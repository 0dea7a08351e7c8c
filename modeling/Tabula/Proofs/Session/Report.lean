import Tabula.Proofs.Session.Rebuild
import Tabula.Proofs.Session.Reopening

/-! # What a migration reports

A migration is asked for its plan or for the migration itself, and both answer a report. The report
says what was decided, which tables are dropped, and which statements are meant: a drop for every
table and then the statements of the schema, or none (`Tabula.Migration.lists_of_plan`). Whether it
is marked as applied follows from the decision and the setting alone. So the mark on the report of a
migration says that the statements were executed, and on that of a plan that a migration would
execute them (`Tabula.Migration.report_of_answer`).
-/

namespace Tabula

namespace Migration

open DigestRecord

variable {m : Migration} {stamp : String} {e after : Engine} {report : MigrationReport}
  {statements : List SchemaStatement}

/-- What a migration is asked for. -/
inductive Request where
  /-- The report only. -/
  | plan
  /-- The database at the schema. -/
  | migrate
deriving DecidableEq

/-- What a migration answers to a request. -/
def answer (m : Migration) (stamp : String) (e : Engine) : Request → Answer MigrationReport
  | .plan => (m.plan e, e)
  | .migrate => m.migrate stamp e

/-- The statements are executed, all of them in their order, in a transaction that ends with the
digest of the schema stored. -/
def Executes (m : Migration) (stamp : String) (statements : List SchemaStatement)
    (e after : Engine) : Prop :=
  ∃ defined stored, e.saved = none ∧ runAll statements (begun e) = .ok defined ∧
    save stamp m.schema.digest defined = (.ok (), stored) ∧
    after = Engine.enforce { stored with saved := none } m.foreignKeys

/-- Every report is that of the plan. -/
theorem plan_of_answer {request : Request}
    (answered : m.answer stamp e request = (.ok report, after)) : m.plan e = .ok report := by
  cases request with
  | plan => exact congrArg Prod.fst answered
  | migrate => exact migrate_eq_ok answered

/-- The plan drops the tables of the database and creates those of the schema where another digest
is stored, and does nothing otherwise. -/
theorem lists_of_plan (planned : m.plan e = .ok report) :
    load e = .ok report.storedDigest ∧
    (report.decision = .rebuild ↔ report.storedDigest ≠ some m.schema.digest) ∧
    (report.decision = .rebuild → report.dropped = userTables e.contents ∧
      report.statements = report.dropped.map .dropTable ++ m.schema.schemaStatements) ∧
    (report.decision = .keep → report.dropped = [] ∧ report.statements = []) := by
  obtain ⟨stored, loaded, ⟨same, rfl⟩ | ⟨other, rfl⟩⟩ := plan_eq_ok planned
  · exact ⟨loaded, by simp [same], nofun, fun _ => ⟨rfl, rfl⟩⟩
  · exact ⟨loaded, by simp [other], fun _ => ⟨rfl, rfl⟩, nofun⟩

/-- The texts of the plan are the drops and the texts of the schema. -/
theorem texts_of_plan {p : SchemaPlan} (built : p.build .sqlite = .ok m.schema)
    (planned : m.plan e = .ok report) :
    (report.decision = .rebuild →
      report.texts = report.dropped.map Dialect.sqlite.dropTable ++ m.schema.statements) ∧
    (report.decision = .keep → report.texts = []) := by
  obtain ⟨-, -, rebuilds, keeps⟩ := lists_of_plan planned
  constructor
  · intro isRebuild
    rw [MigrationReport.texts, (rebuilds isRebuild).2, List.map_append, List.map_map,
      SchemaPlan.statements_eq_map_render built]
    rfl
  · intro isKeep
    rw [MigrationReport.texts, (keeps isKeep).2]
    rfl

/-- The mark follows from the decision and the setting. -/
theorem applied_iff (planned : m.plan e = .ok report) :
    report.applied = true ↔ report.decision = .rebuild ∧ m.dryRun = false := by
  obtain ⟨stored, -, ⟨-, rfl⟩ | ⟨-, rfl⟩⟩ := plan_eq_ok planned <;>
    simp [MigrationReport.applied]

/-- A migration executes its statements where its report is marked, and otherwise leaves the
connection as it is. -/
theorem executes_of_migrate (done : m.migrate stamp e = (.ok report, after)) :
    (report.applied = true → m.Executes stamp report.statements e after) ∧
      (report.applied = false → after = e) := by
  have planned := migrate_eq_ok done
  constructor
  · intro applied
    rcases migrate_cases stamp planned applied with
      ⟨defined, stored, idle, ran, saved, answer⟩ | ⟨x, _, answer, -⟩
    · rw [answer] at done
      exact ⟨defined, stored, idle, ran, saved, (Prod.mk.inj done).2.symm⟩
    · rw [answer] at done
      cases done
  · intro unmarked
    rw [migrate_of_not_applied planned unmarked] at done
    exact (Prod.mk.inj done).2.symm

/-- Where the statements are executed, the digest of the schema is stored. -/
theorem Executes.load (executed : m.Executes stamp statements e after)
    (apart : m.schema.IsApart) (sound : Sound e.contents) {dropped : List String}
    (ofSchema : statements = dropped.map .dropTable ++ m.schema.schemaStatements) :
    load after = .ok (some m.schema.digest) := by
  obtain ⟨defined, stored, -, ran, saved, rfl⟩ := executed
  have soundBegun : Sound (begun e).contents := sound
  have soundDefined : Sound defined.contents := sound_runAll apart soundBegun (ofSchema ▸ ran)
  have free : defined.enforced = false := by rw [eq_of_runAll ran, begun]
  obtain ⟨found, -, -⟩ := load_of_save soundDefined free saved
  rw [← found]
  exact load_eq_of_contents (Engine.contents_enforce _ _)

/-- Statements that were to store another digest were not executed where nothing has changed. -/
theorem not_executes_self (planned : m.plan e = .ok report) (isRebuild : report.decision = .rebuild)
    (apart : m.schema.IsApart) (sound : Sound e.contents) :
    ¬m.Executes stamp report.statements e e := by
  intro executed
  obtain ⟨loaded, differs, rebuilds, -⟩ := lists_of_plan planned
  have stored := executed.load apart sound (rebuilds isRebuild).2
  rw [loaded] at stored
  exact differs.mp isRebuild (Except.ok.inj stored)

/-- **What the report says.** The report of a plan and of a migration says which digest was stored,
and that the database is rebuilt just where this is another than that of the schema. The statements
are then a drop for every table to drop, in order, and those of the schema; both lists are empty
where nothing is to be done. The report is marked as applied where the database is rebuilt and the
setting is not to report only. A migration that is marked has executed the statements, and nothing
is changed by a migration that is not marked or by a plan, marked or not. So where the record of the
digest is made as it should be, the statements of a rebuild were executed just if the request was to
migrate and not to report only. -/
theorem report_of_answer {p : SchemaPlan} {request : Request}
    (built : p.build .sqlite = .ok m.schema)
    (answered : m.answer stamp e request = (.ok report, after)) :
    (load e = .ok report.storedDigest ∧
      (report.decision = .rebuild ↔ report.storedDigest ≠ some m.schema.digest)) ∧
    (report.decision = .rebuild → report.dropped = userTables e.contents ∧
      report.statements = report.dropped.map .dropTable ++ m.schema.schemaStatements ∧
      report.texts = report.dropped.map Dialect.sqlite.dropTable ++ m.schema.statements) ∧
    (report.decision = .keep →
      report.dropped = [] ∧ report.statements = [] ∧ report.texts = []) ∧
    (report.applied = true ↔ report.decision = .rebuild ∧ m.dryRun = false) ∧
    (request = .migrate ∧ report.applied = true →
      m.Executes stamp report.statements e after) ∧
    (request = .plan ∨ report.applied = false → after = e) ∧
    (m.schema.IsApart → Sound e.contents → report.decision = .rebuild →
      (m.Executes stamp report.statements e after ↔ request = .migrate ∧ m.dryRun = false)) := by
  have planned := plan_of_answer answered
  obtain ⟨loaded, differs, rebuilds, keeps⟩ := lists_of_plan planned
  obtain ⟨rebuildTexts, keepTexts⟩ := texts_of_plan built planned
  have marked := applied_iff planned
  have executes : request = .migrate ∧ report.applied = true →
      m.Executes stamp report.statements e after := by
    rintro ⟨rfl, applied⟩
    exact (executes_of_migrate answered).1 applied
  have idle : request = .plan ∨ report.applied = false → after = e := by
    rintro (rfl | unmarked)
    · exact (congrArg Prod.snd answered).symm
    · cases request with
      | plan => exact (congrArg Prod.snd answered).symm
      | migrate => exact (executes_of_migrate answered).2 unmarked
  refine ⟨⟨loaded, differs⟩, fun isRebuild => ?_, fun isKeep => ?_, marked, executes, idle, ?_⟩
  · exact ⟨(rebuilds isRebuild).1, (rebuilds isRebuild).2, rebuildTexts isRebuild⟩
  · exact ⟨(keeps isKeep).1, (keeps isKeep).2, keepTexts isKeep⟩
  · intro apart sound isRebuild
    constructor
    · intro executed
      -- what leaves the database as it was cannot have stored another digest
      have changed : ¬(request = .plan ∨ report.applied = false) := fun nothing =>
        not_executes_self planned isRebuild apart sound (idle nothing ▸ executed)
      obtain ⟨notPlan, notUnmarked⟩ := not_or.mp changed
      have applied := Bool.eq_true_of_not_eq_false notUnmarked
      refine ⟨?_, (marked.mp applied).2⟩
      cases request with
      | plan => exact absurd rfl notPlan
      | migrate => rfl
    · rintro ⟨isMigrate, notDry⟩
      exact executes ⟨isMigrate, marked.mpr ⟨isRebuild, notDry⟩⟩

/-- A new database is brought to a table, and the one statement of the report is executed. -/
theorem report_of_answer_book :
    let m := toTable (.keyed "book")
    ∃ report after, m.answer "now" (.new true) .migrate = (.ok report, after) ∧
      report.texts = [Dialect.sqlite.createTable (.keyed "book")] ∧
      m.Executes "now" report.statements (.new true) after := by
  intro m
  have ran : runAll ((userTables Contents.empty).map .dropTable ++ [.createTable (.keyed "book")])
      (begun (.new true)) = .ok { begun (.new true) with contents := ⟨[.new (.keyed "book")]⟩ } := by
    rw [userTables_empty]
    exact runAll_createTable (by decide +kernel)
  obtain ⟨report, filled, done, rebuilds, -⟩ := exists_migrate_of_free (e := .new true)
    (t := .keyed "book") (by decide +kernel) rfl rfl ran (by decide +kernel) "now"
  have built : (SchemaPlan.mk [.keyed "book"] []).build .sqlite = .ok m.schema :=
    SchemaPlan.build_singleton (by decide +kernel) rfl (by decide +kernel)
  have answered : m.answer "now" (.new true) .migrate =
      (.ok report, Engine.enforce { filled with saved := none } true) := done
  obtain ⟨-, lists, -, marked, executes, -⟩ := report_of_answer built answered
  obtain ⟨noDrop, -, texts⟩ := lists rebuilds
  refine ⟨report, _, answered, ?_, executes ⟨rfl, marked.mpr ⟨rebuilds, rfl⟩⟩⟩
  have isEmpty : report.dropped = [] := noDrop.trans userTables_empty
  rw [texts, isEmpty]
  decide +kernel

/-- The plan for a new database is marked as applied, though the database is as new and has not
executed the statement. -/
theorem plan_applied_author :
    let m := toTable (.keyed "author")
    (SchemaPlan.mk [.keyed "author"] []).build .sqlite = .ok m.schema ∧
      ∃ report, m.answer "now" (.new true) .plan = (.ok report, .new true) ∧
        report.applied = true ∧
        report.texts = [Dialect.sqlite.createTable (.keyed "author")] ∧
        ¬m.Executes "now" report.statements (.new true) (.new true) := by
  intro m
  have planned := plan_toTable (e := .new true) (t := .keyed "author") (by decide +kernel) rfl
  have noTable : userTables (Engine.new true).contents = [] := userTables_empty
  rw [noTable] at planned
  have apart : m.schema.IsApart := by
    intro t member
    obtain rfl := List.mem_singleton.mp member
    decide +kernel
  have sound : Sound (Engine.new true).contents := fun t member => absurd member List.not_mem_nil
  exact ⟨SchemaPlan.build_singleton (by decide +kernel) rfl (by decide +kernel), _,
    congrArg (·, Engine.new true) planned, rfl, rfl,
    not_executes_self planned rfl apart sound⟩

end Migration

end Tabula
