import Tabula.Proofs.Session.StoredDigest

/-! # Bringing a database to its schema again

After a migration that is done, the database stores the digest of the schema, and statements on the
rows of the schema's tables leave it alone, so that the next migration with the schema finds nothing
to do (`Tabula.Migration.keep_of_used`). This takes that no table of a schema goes by the name of the
record: the engine takes `Keel_Metadata` for it, the search for the digest does not, and the digest
is stored where it is never found (`Tabula.Migration.rebuild_of_lookalike`).
-/

namespace Tabula

/-! ## Connections -/

namespace Engine

variable {P : Contents → Prop} {e e' : Engine}

/-- The property holds of what the database holds, and of what it goes back to when the open
transaction is undone. -/
def Throughout (P : Contents → Prop) (e : Engine) : Prop :=
  P e.contents ∧ ∀ c, e.saved = some c → P c

namespace Throughout

/-- Outside of a transaction it is enough that it holds now. -/
theorem idle (holds : P e.contents) (isIdle : e.saved = none) : Throughout P e := by
  refine ⟨holds, fun c isOpen => ?_⟩
  rw [isIdle] at isOpen
  cases isOpen

/-- It is enough that the contents are the same, and those to go back to. -/
theorem congr (before : Throughout P e) (sameContents : e'.contents = e.contents)
    (sameSaved : e'.saved = e.saved) : Throughout P e' := by
  unfold Throughout
  rwa [sameContents, sameSaved]

/-- The setting of references is no part of the contents. -/
theorem enforce (before : Throughout P e) (on : Bool) : Throughout P (e.enforce on) :=
  before.congr (contents_enforce e on) (saved_enforce e on)

/-- A transaction that begins goes back to what is there now. -/
theorem begin? (before : Throughout P e) (begins : e.begin? = some e') : Throughout P e' := by
  unfold Engine.begin? at begins
  split at begins
  · obtain rfl := Option.some.inj begins
    exact ⟨before.1, fun c isOpen => Option.some.inj isOpen ▸ before.1⟩
  · cases begins

/-- A transaction that is committed stays. -/
theorem commit? (before : Throughout P e) (commits : e.commit? = some e') : Throughout P e' := by
  obtain ⟨c, -, rfl⟩ := Option.map_eq_some_iff.mp commits
  exact idle before.1 rfl

/-- A transaction that is undone goes back to where it began. -/
theorem rollback (before : Throughout P e) : Throughout P e.rollback := by
  refine idle ?_ rfl
  cases isSaved : e.saved with
  | none =>
      rw [Engine.rollback, isSaved]
      exact before.1
  | some c =>
      rw [rollback_of_saved isSaved]
      exact before.2 c isSaved

/-- A row statement, done or not, keeps what its alterations keep. -/
theorem perform (kept : String → Prop) {s : RowStatement} (before : Throughout P e)
    (unreferring : Contents.Unreferring kept e.contents) (spares : Contents.Spares kept s.table)
    (each : ∀ c c', P c → Contents.Alters kept c c' → P c') : Throughout P (e.perform s).2 := by
  rcases alters_perform unreferring spares with undone | ⟨sameSaved, alters⟩
  · rw [undone]
    exact before.rollback
  · refine ⟨each _ _ before.1 alters, fun c isOpen => before.2 c ?_⟩
    rw [← sameSaved, isOpen]

end Throughout

end Engine

namespace Migration

open DigestRecord Engine

variable {m m' : Migration} {stamp : String} {e e' after later : Engine}

/-! ## Migrations and the table of the record -/

/-- Other tables than that of the record may be created and dropped. -/
theorem sound_define {s : SchemaStatement} {c c' : Contents} (sound : Sound c)
    (apart : ∀ t, s = .createTable t → Text.sameName t.name tableName = false)
    (done : c.define s = some c') : Sound c' := by
  cases s with
  | createTable t =>
      rcases Contents.createTable_eq_some done with ⟨-, rfl⟩ | rfl
      · exact sound
      · intro u member named
        rcases List.mem_append.mp member with before | isNew
        · exact sound u before named
        · rw [List.mem_singleton.mp isNew] at named
          exact absurd ((apart t rfl).symm.trans named) Bool.false_ne_true
  | createIndex table column =>
      rcases Contents.createIndex_eq_some done with ⟨-, rfl⟩ | ⟨-, rfl⟩
      · exact sound
      · refine sound.of_defined fun u member => ?_
        obtain ⟨t, before, rfl⟩ := List.mem_map.mp member
        refine ⟨t, before, ?_⟩
        split <;> rfl
  | dropTable table =>
      obtain rfl := Option.some.inj done
      exact sound.of_defined fun u member => ⟨u, (List.mem_filter.mp member).1, rfl⟩

/-- Where no table of the schema goes by the name of the record, the statements of a migration leave
its table as it is made. -/
theorem sound_runAll (apart : m.schema.IsApart) {dropped : List String} (sound : Sound e.contents)
    (ran : runAll (dropped.map .dropTable ++ m.schema.schemaStatements) e = .ok e') :
    Sound e'.contents := by
  refine (runAll_induct (fun s member c c' soundC defined => ?_) ran sound).1
  refine sound_define soundC (fun t isCreation => ?_) defined
  subst isCreation
  rcases List.mem_append.mp member with drops | creates
  · obtain ⟨name, -, isDrop⟩ := List.mem_map.mp drops
    cases isDrop
  · obtain ⟨other, isTable, ofTable⟩ := List.mem_flatMap.mp creates
    rcases List.mem_cons.mp ofTable with same | ofIndexes
    · obtain rfl := SchemaStatement.createTable.inj same
      exact apart t isTable
    · obtain ⟨c, -, isIndex⟩ := List.mem_map.mp ofIndexes
      cases isIndex

/-- A migration that is done leaves the digest of its schema. -/
theorem load_of_migrate {report : MigrationReport} (apart : m.schema.IsApart)
    (sound : Sound e.contents) (notDry : m.dryRun = false)
    (done : m.migrate stamp e = (.ok report, after)) :
    load after = .ok (some m.schema.digest) ∧ Sound after.contents ∧
      (after = e ∨ after.saved = none) := by
  have planned := migrate_eq_ok done
  obtain ⟨stored, loaded, ⟨isDigest, isReport⟩ | ⟨-, isReport⟩⟩ := plan_eq_ok planned
  · have idle : report.applied = false := by
      rw [isReport]
      rfl
    rw [migrate_of_not_applied planned idle] at done
    obtain ⟨-, rfl⟩ := Prod.mk.inj done
    exact ⟨isDigest ▸ loaded, sound, Or.inl rfl⟩
  · have applied : report.applied = true := by
      rw [isReport, MigrationReport.applied, notDry]
      rfl
    rcases migrate_cases stamp planned applied with
      ⟨defined, filled, -, ran, saved, answer⟩ | ⟨x, _, answer, -⟩
    · rw [answer] at done
      obtain ⟨-, rfl⟩ := Prod.mk.inj done
      rw [isReport] at ran
      have soundBegun : Sound (begun e).contents := sound
      have soundDefined : Sound defined.contents := sound_runAll apart soundBegun ran
      have free : defined.enforced = false := by rw [eq_of_runAll ran, begun]
      obtain ⟨found, soundFilled, -⟩ := load_of_save soundDefined free saved
      refine ⟨?_, ?_, Or.inr ?_⟩
      · rw [← found]
        exact load_eq_of_contents (contents_enforce _ _)
      · rw [contents_enforce]
        exact soundFilled
      · rw [saved_enforce]
    · rw [answer] at done
      cases done

/-! ## Databases that were only migrated and written to -/

/-- The connection comes from a new database by migrations, statements on rows and transactions. No
schema of the migrations has a table by the name of the record. -/
inductive Reached : Engine → Prop where
  | new (enforced : Bool) : Reached (.new enforced)
  | migrated {e : Engine} (m : Migration) (stamp : String) (apart : m.schema.IsApart)
    (before : Reached e) : Reached (m.migrate stamp e).2
  | changed {e : Engine} (s : RowStatement) (before : Reached e) : Reached (e.perform s).2
  | began {e e' : Engine} (begins : e.begin? = some e') (before : Reached e) : Reached e'
  | committed {e e' : Engine} (commits : e.commit? = some e') (before : Reached e) : Reached e'
  | undone {e : Engine} (before : Reached e) : Reached e.rollback
  | enforcing {e : Engine} (on : Bool) (before : Reached e) : Reached (e.enforce on)

/-- A migration leaves the table of the record as it must be, whether it is done or not. -/
theorem throughout_migrate (apart : m.schema.IsApart) (before : Throughout Sound e) :
    Throughout Sound (m.migrate stamp e).2 := by
  cases planned : m.plan e with
  | error x => rwa [migrate, planned]
  | ok report =>
      by_cases applied : report.applied = true
      · rcases migrate_cases stamp planned applied with
          ⟨defined, filled, idle, ran, saved, answer⟩ | ⟨x, after, answer, same, -⟩
        · have notDry : m.dryRun = false := by
            by_contra isDryRun
            exact not_applied_of_dryRun planned (Bool.eq_true_of_not_eq_false isDryRun) applied
          obtain ⟨-, sound, isIdle⟩ := load_of_migrate apart before.1 notDry answer
          rw [answer]
          refine .idle sound ?_
          rcases isIdle with same | isIdle
          · rw [same, idle]
          · exact isIdle
        · rw [answer]
          exact before.congr same.1 same.2
      · rwa [migrate_of_not_applied planned (Bool.eq_false_iff.mpr applied)]

/-- However a connection was reached, the table of the record is as it must be. -/
theorem Reached.throughout (reached : Reached e) : Throughout Sound e := by
  induction reached with
  | new enforced => exact .idle (fun t member => absurd member List.not_mem_nil) rfl
  | migrated m stamp apart before ih => exact throughout_migrate apart ih
  | changed s before ih =>
      exact ih.perform (fun _ => False) (fun _ _ _ absurd => absurd.elim)
        (fun _ absurd => absurd.elim) fun c c' sound alters => sound.of_defined alters.defined
  | began begins before ih => exact ih.begin? begins
  | committed commits before ih => exact ih.commit? commits
  | undone before ih => exact ih.rollback
  | enforcing on before ih => exact ih.enforce on

/-! ## What may happen until the next migration -/

/-- What comes of a database by statements on rows of the schema's tables, by transactions, and by
other migrations with the schema. -/
inductive Used (schema : Schema) (e : Engine) : Engine → Prop where
  | unused : Used schema e e
  | changed {later : Engine} (s : RowStatement)
    (ofSchema : ∃ t ∈ schema.tables, Text.sameName s.table t.name = true)
    (before : Used schema e later) : Used schema e (later.perform s).2
  | migrated {later : Engine} (m : Migration) (stamp : String) (same : m.schema = schema)
    (before : Used schema e later) : Used schema e (m.migrate stamp later).2
  | began {later next : Engine} (begins : later.begin? = some next)
    (before : Used schema e later) : Used schema e next
  | committed {later next : Engine} (commits : later.commit? = some next)
    (before : Used schema e later) : Used schema e next
  | undone {later : Engine} (before : Used schema e later) : Used schema e later.rollback
  | enforcing {later : Engine} (on : Bool) (before : Used schema e later) :
    Used schema e (later.enforce on)

/-- The table of the record is as it was. -/
def KeepsRecord (e : Engine) (c : Contents) : Prop :=
  Sound c ∧ c.tables.filter (·.isNamed tableName) = e.contents.tables.filter (·.isNamed tableName)

/-- A migration finds nothing to do where the digest of its schema is stored. -/
theorem migrate_of_load (loaded : load e = .ok (some m.schema.digest)) (stamp : String) :
    m.plan e = .ok ⟨.keep, some m.schema.digest, m.schema.digest, [], [], m.dryRun⟩ ∧
      m.migrate stamp e =
        (.ok ⟨.keep, some m.schema.digest, m.schema.digest, [], [], m.dryRun⟩, e) := by
  have planned : m.plan e =
      .ok ⟨.keep, some m.schema.digest, m.schema.digest, [], [], m.dryRun⟩ := by
    rw [plan, loaded, Except.map]
    simp only [MigrationDecision.ofDigests, if_true]
  exact ⟨planned, migrate_of_not_applied planned rfl⟩

/-- Nothing that uses a migrated schema changes the record. -/
theorem Used.keepsRecord {schema : Schema} (apart : schema.IsApart)
    (loaded : load e = .ok (some schema.digest)) (before : Throughout (KeepsRecord e) e)
    (used : Used schema e later) : Throughout (KeepsRecord e) later := by
  induction used with
  | unused => exact before
  | changed s ofSchema before ih =>
      obtain ⟨t, isTable, named⟩ := ofSchema
      refine ih.perform (· = tableName) ?_ ?_ ?_
      · rintro u member _ rfl isNamed
        rw [ih.1.1 u member isNamed]
        rfl
      · rintro _ rfl
        rw [Text.sameName_congr named]
        exact apart t isTable
      · rintro c c' ⟨sound, same⟩ alters
        exact ⟨sound.of_defined alters.defined, (alters.same _ rfl).trans same⟩
  | migrated m stamp same before ih =>
      subst same
      have stillLoaded := (load_eq_of_same ih.1.2).trans loaded
      rw [(migrate_of_load stillLoaded stamp).2]
      exact ih
  | began begins before ih => exact ih.begin? begins
  | committed commits before ih => exact ih.commit? commits
  | undone before ih => exact ih.rollback
  | enforcing on before ih => exact ih.enforce on

/-- **Nothing to do the next time.** After a migration that is done, and whatever statements on the
rows of its schema's tables and transactions there are, a migration with the schema finds nothing to
do and leaves the database as it is. No schema so far may have a table by the name of the record of
the digest. -/
theorem keep_of_used {report : MigrationReport} (reached : Reached e) (idle : e.saved = none)
    (apart : m.schema.IsApart) (notDry : m.dryRun = false)
    (done : m.migrate stamp e = (.ok report, after)) (used : Used m.schema after later)
    (same : m'.schema = m.schema) (stamp' : String) :
    m'.plan later = .ok ⟨.keep, some m.schema.digest, m.schema.digest, [], [], m'.dryRun⟩ ∧
      m'.migrate stamp' later =
        (.ok ⟨.keep, some m.schema.digest, m.schema.digest, [], [], m'.dryRun⟩, later) := by
  obtain ⟨loaded, sound, isIdle⟩ := load_of_migrate apart reached.throughout.1 notDry done
  have idleAfter : after.saved = none := by
    rcases isIdle with same | isIdle
    · rw [same, idle]
    · exact isIdle
  have kept := used.keepsRecord apart loaded (.idle ⟨sound, rfl⟩ idleAfter)
  have stillLoaded : load later = .ok (some m'.schema.digest) := by
    rw [load_eq_of_same kept.1.2, loaded, same]
  rw [← same]
  exact migrate_of_load stillLoaded stamp'

/-- A row is written into the table of the schema between two migrations. -/
theorem keep_of_used_book :
    let m := toTable (.keyed "book")
    ∃ report after, m.migrate "now" (.new true) = (.ok report, after) ∧
      m.plan (after.perform (.insert ⟨.unset, "book", ["id"], [[.null]]⟩)).2 =
        .ok ⟨.keep, some m.schema.digest, m.schema.digest, [], [], false⟩ := by
  intro m
  have ran : runAll ((userTables Contents.empty).map .dropTable ++ [.createTable (.keyed "book")])
      (begun (.new true)) = .ok { begun (.new true) with contents := ⟨[.new (.keyed "book")]⟩ } := by
    rw [userTables_empty]
    exact runAll_createTable (by decide +kernel)
  obtain ⟨report, filled, done, -⟩ := exists_migrate_of_free (e := .new true) (t := .keyed "book")
    (by decide +kernel) rfl rfl ran (by decide +kernel) "now"
  have apart : m.schema.IsApart := by
    intro t member
    obtain rfl := List.mem_singleton.mp member
    decide +kernel
  refine ⟨report, _, done, (keep_of_used (.new true) rfl apart rfl done (.changed _ ⟨_,
    List.mem_cons_self, ?_⟩ .unused) rfl "now").1⟩
  exact Text.sameName_refl "book"

/-- The record of the digest under a name that the engine takes for the same. -/
def lookalike : Table := { DigestRecord.table with name := "Keel_Metadata" }

/-- The digest of a schema with a table by the name of the record is not found again, and everything is
dropped the next time. -/
theorem rebuild_of_lookalike :
    (SchemaPlan.mk [lookalike] []).build .sqlite = .ok (toTable lookalike).schema ∧
      ∃ report after again, (toTable lookalike).migrate "now" (.new true) = (.ok report, after) ∧
        (toTable lookalike).plan after = .ok again ∧ again.decision = .rebuild := by
  have named : Text.sameName "Keel_Metadata" tableName = true := by
    refine Text.sameName_iff.mpr ?_
    have small : Text.asciiLower tableName = tableName := by decide +kernel
    rw [small]
    decide +kernel
  have found : Contents.table? ⟨[.new lookalike]⟩ tableName = some (.new lookalike) :=
    List.find?_cons_of_pos (p := fun u : StoredTable => u.isNamed tableName) named
  have ensures : Contents.createTable ⟨[.new lookalike]⟩ table = some ⟨[.new lookalike]⟩ := by
    have allowed : ¬(Table.isReserved table.name || !table.isReadable) = true := by decide +kernel
    have isThere : (Contents.table? ⟨[.new lookalike]⟩ table.name).isSome = true :=
      congrArg Option.isSome found
    rw [Contents.createTable, if_neg allowed, if_pos isThere]
  have ran : runAll ((userTables Contents.empty).map .dropTable ++ [.createTable lookalike])
      (begun (.new true)) = .ok { begun (.new true) with contents := ⟨[.new lookalike]⟩ } := by
    rw [userTables_empty]
    exact runAll_createTable (by decide +kernel)
  obtain ⟨report, filled, done, -, -, same⟩ := exists_migrate_toTable (e := .new true)
    (t := lookalike) (by decide +kernel) rfl rfl ran ensures rfl found (by decide +kernel) "now"
  have unrecorded : isThere (Engine.enforce { filled with saved := none } true) = false := by
    rw [isThere, contents_enforce]
    refine List.any_eq_false.mpr fun u member => ?_
    obtain ⟨v, isLookalike, sameDefinition⟩ := same u member
    obtain rfl := List.mem_singleton.mp isLookalike
    rw [StoredTable.name, sameDefinition]
    decide +kernel
  refine ⟨SchemaPlan.build_singleton (by decide +kernel) rfl (by decide +kernel), report, _, _, done,
    plan_toTable (by decide +kernel) unrecorded, rfl⟩

end Migration

end Tabula
