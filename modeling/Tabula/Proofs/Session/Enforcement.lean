import Tabula.Proofs.Session.Undoing
import Tabula.Session.Session

/-! # Enforcement of references across a migration

A migration turns the enforcement of references off while its statements run, and puts it to its own
setting at the end, whichever way it ends. Where it does not come to statements, it does not touch the
enforcement (`Tabula.Migration.enforced_migrate`). A session that is opened with settings has the
migration put the enforcement to that of the settings, which is that of the connection. A session that
is brought to another schema leaves the setting to the migration, so the enforcement of a connection
is turned on by it (`Tabula.Session.enforced_of_opening`).
-/

namespace Tabula

private theorem Engine.enforced_enforce_of_saved {e : Engine} (idle : e.saved = none) (on : Bool) :
    (e.enforce on).enforced = on := by
  rw [enforce, idle]
  rfl

private theorem Engine.enforce_of_saved {e : Engine} {c : Contents} (isOpen : e.saved = some c)
    (on : Bool) : e.enforce on = e := by
  rw [enforce, isOpen]
  rfl

namespace Migration

/-- Whether the migration comes to its statements on the connection, be they run or refused. -/
def runs (m : Migration) (e : Engine) : Bool :=
  e.saved.isNone && (m.plan e).toOption.any (·.applied)

/-- The transaction of a migration has an end on every way out. -/
theorem saved_apply {e : Engine} (m : Migration) (stamp : String)
    (statements : List SchemaStatement) (idle : e.saved = none) :
    (m.apply stamp statements (e.enforce false)).2.saved = none := by
  rcases apply_cases m stamp statements idle with ⟨_, _, -, -, done⟩ | ⟨_, _, refused, same, -⟩
  · rw [done]
  · rw [refused, same.2, idle]

/-- A migration that comes to its statements leaves the enforcement as it is told to, and any other
leaves it as it was. -/
theorem enforced_migrate (m : Migration) (stamp : String) (e : Engine) :
    (m.migrate stamp e).2.enforced = if m.runs e then m.foreignKeys else e.enforced := by
  unfold runs
  cases planned : m.plan e with
  | error x =>
      rw [migrate, planned]
      simp [Except.toOption]
  | ok report =>
      cases applied : report.applied with
      | false =>
          rw [migrate_of_not_applied planned applied]
          simp [Except.toOption, applied]
      | true =>
          have after : (m.migrate stamp e).2 =
              (m.apply stamp report.statements (e.enforce false)).2.enforce m.foreignKeys := by
            rw [migrate, planned]
            simp only [applied, if_true]
          rw [after]
          cases isSaved : e.saved with
          | none =>
              rw [Engine.enforced_enforce_of_saved (saved_apply m stamp _ isSaved)]
              simp [Except.toOption, applied]
          | some c =>
              -- within a transaction, no other begins and the enforcement cannot be changed
              have refused : m.apply stamp report.statements e = (.error .database, e) := by
                rw [apply, Engine.begin?, isSaved]
              rw [Engine.enforce_of_saved isSaved, refused, Engine.enforce_of_saved isSaved]
              rfl

end Migration

/-- The migration with which a session is opened. -/
def Settings.migration (settings : Settings) (schema : Schema) : Migration where
  schema := schema
  dryRun := settings.dryRun
  foreignKeys := settings.foreignKeys

namespace Session

/-- A session that was opened has the connection that the migration left. -/
theorem openWith_eq_ok {settings : Settings} {schema : Schema} {stamp : String}
    {report : MigrationReport} {s : Session}
    (opened : openWith settings schema stamp = .ok (report, s)) :
    (settings.migration schema).migrate stamp (.new settings.foreignKeys) =
      (.ok report, s.engine) := by
  have connects : ∀ e, settings.connect = .ok e → e = .new settings.foreignKeys := by
    intro e connected
    unfold Settings.connect Settings.checked at connected
    split at connected
    · cases connected
    · exact (Except.ok.inj connected).symm
  unfold openWith at opened
  split at opened
  · cases opened
  · rename_i e connected
    obtain rfl := connects e connected
    dsimp only at opened
    split at opened
    · cases opened
    · rename_i other after migrated
      cases opened
      exact migrated

/-- **Enforcement across opening.** On a connection whose enforcement of references is that of the
settings, whatever the database holds, the migration of the settings leaves it so, done or refused;
and so it is in every session that is opened with settings. Bringing a session to another schema
leaves the enforcement as it is, but for a migration that comes to its statements on a connection
without enforcement, and this turns it on. -/
theorem enforced_of_opening (schema : Schema) (stamp : String) :
    (∀ (settings : Settings) (e : Engine), e.enforced = settings.foreignKeys →
      ((settings.migration schema).migrate stamp e).2.enforced = settings.foreignKeys) ∧
    (∀ (settings : Settings) (report : MigrationReport) (s : Session),
      openWith settings schema stamp = .ok (report, s) →
      s.engine.enforced = settings.foreignKeys) ∧
    ∀ s : Session, (s.reopen schema stamp).2.engine.enforced =
      (s.engine.enforced ||
        !s.inTransaction && !s.isClosed && Migration.runs { schema } s.engine) := by
  have ofSettings : ∀ (settings : Settings) (e : Engine), e.enforced = settings.foreignKeys →
      ((settings.migration schema).migrate stamp e).2.enforced = settings.foreignKeys := by
    intro settings e same
    rw [Migration.enforced_migrate]
    split
    · rfl
    · exact same
  refine ⟨ofSettings, fun settings report s opened => ?_, fun s => ?_⟩
  · have migrated := ofSettings settings (.new settings.foreignKeys) rfl
    rwa [openWith_eq_ok opened] at migrated
  · unfold reopen perform
    cases s.inTransaction with
    | true => simp
    | false =>
        cases s.isClosed with
        | true => simp
        | false =>
            have migrated := Migration.enforced_migrate { schema } stamp s.engine
            simp only [Bool.false_eq_true, if_false, Bool.not_false, Bool.true_and, migrated]
            cases Migration.runs { schema } s.engine <;> simp

/-- A refused statement on a connection without enforcement, and a session without it. -/
theorem enforced_of_opening_refused :
    let settings : Settings := { foreignKeys := false }
    let e : Engine := { Engine.new false with contents := ⟨[.new (.keyed "author")]⟩ }
    let schema := (Migration.toTable (.keyed "sqlite_book")).schema
    e.enforced = settings.foreignKeys ∧
      ((settings.migration schema).migrate "now" e).2.enforced = false ∧
      ∃ report s, openWith { settings with dryRun := true } schema "now" = .ok (report, s) ∧
        s.engine.enforced = false := by
  intro settings e schema
  obtain ⟨migrated, opened, -⟩ := enforced_of_opening schema "now"
  have isOpened : openWith { settings with dryRun := true } schema "now" =
      .ok (⟨.rebuild, none, schema.digest, Migration.userTables Contents.empty, _, true⟩, _) := rfl
  exact ⟨rfl, migrated settings e rfl, _, _, isOpened, opened _ _ _ isOpened⟩

/-- A session without enforcement that is brought to another schema has it afterwards. -/
theorem enforced_of_opening_turned :
    let schema := (Migration.toTable (.keyed "book")).schema
    let s : Session := .ofEngine (.new false)
    (SchemaPlan.mk [.keyed "book"] []).build .sqlite = .ok schema ∧
      s.engine.enforced = false ∧ (s.reopen schema "now").2.engine.enforced = true := by
  intro schema s
  refine ⟨SchemaPlan.build_singleton (by decide +kernel) rfl (by decide +kernel), rfl, ?_⟩
  exact (Migration.enforced_migrate { schema } "now" (.new false)).trans rfl

end Session

end Tabula
