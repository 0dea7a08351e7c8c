import Mathlib.Data.List.Forall2
import Tabula.Proofs.Schema.Coexistence

/-! # References to tables that are not there

The checks of tables together need every table of a database, but only see those that were
extracted. So an association is reported to reference no table in two cases: no model has the name of
its target, or every model that has it fails to be extracted. In the second case the report is wrong,
stands beside what extraction says of these models, and goes when they are repaired
(`Tabula.SchemaPlan.reports_unknownTarget`).
-/

namespace Tabula

/-! ## Reports -/

namespace Table

variable {ts : List Table} {table column target : String}

private theorem unknownTarget_not_mem_faults (t : Table) :
    .unknownTarget table column target ∉ t.faults := by
  simp [faults, duplicateColumns]

/-- A target is unknown just if no table has its name in small letters. -/
theorem targetFault?_eq_unknownTarget_iff {t : Table} {a : Association} :
    targetFault? (groups ts) t a = some (.unknownTarget table column target) ↔
      (∀ other ∈ ts, Text.lower other.name ≠ Text.lower a.target) ∧
        t.name = table ∧ a.column = column ∧ a.target = target := by
  unfold targetFault?
  cases found : group? (groups ts) (Text.lower a.target) with
  | none =>
      have unknown := group?_groups_isSome.not.mp (by rw [found]; exact Bool.false_ne_true)
      have apart : ∀ other ∈ ts, Text.lower other.name ≠ Text.lower a.target :=
        fun other member named => unknown ⟨other, member, named⟩
      simp only [Option.some.injEq, TableFault.unknownTarget.injEq]
      exact ⟨fun same => ⟨apart, same⟩, fun both => both.2⟩
  | some g =>
      obtain ⟨⟨other, member, named⟩, -⟩ := group?_groups.mp found
      refine iff_of_false (fun fault => ?_) fun both => both.1 other member named
      dsimp only at fault
      split at fault <;> cases fault

/-- Tables report that an association references none of them exactly if none has the name of its
target in lower case. -/
theorem unknownTarget_mem_faultsTogether_iff :
    .unknownTarget table column target ∈ faultsTogether ts ↔
      (∃ t ∈ ts, ∃ a ∈ t.associations,
        t.name = table ∧ a.column = column ∧ a.target = target) ∧
      ∀ other ∈ ts, Text.lower other.name ≠ Text.lower target := by
  have notDuplicate : .unknownTarget table column target ∉ duplicateTables (groups ts) := by
    simp [duplicateTables]
  have notIndex : .unknownTarget table column target ∉ duplicateIndexes (groups ts) := by
    simp [duplicateIndexes]
  have notCycle : .unknownTarget table column target ∉ associationCycles (groups ts) := by
    simp [associationCycles]
  simp only [faultsTogether, List.mem_append, notDuplicate, notIndex, notCycle, false_or, or_false,
    targetFaults, List.mem_flatMap, List.mem_filterMap, targetFault?_eq_unknownTarget_iff]
  constructor
  · rintro ⟨t, member, a, isAssociation, apart, named, ofColumn, rfl⟩
    exact ⟨⟨t, member, a, isAssociation, named, ofColumn, rfl⟩, apart⟩
  · rintro ⟨⟨t, member, a, isAssociation, named, ofColumn, rfl⟩, apart⟩
    exact ⟨t, member, a, isAssociation, apart, named, ofColumn, rfl⟩

end Table

namespace SchemaPlan

variable {d : Dialect} {p : SchemaPlan}

/-- Whether the plan is refused with the problem among others. -/
def Reports (d : Dialect) (p : SchemaPlan) (problem : Problem) : Prop :=
  ∃ problems, p.build d = .error problems ∧ problem ∈ problems

/-- Apart from those of compilation, the problems of a plan are reported and no others. -/
theorem reports_iff {problem : Problem} (early : ∀ e, problem ≠ .compilation e) :
    p.Reports d problem ↔ problem ∈ p.problems := by
  constructor
  · rintro ⟨problems, refused, member⟩
    by_cases clean : p.problems = []
    · unfold build at refused
      rw [clean] at refused
      dsimp only at refused
      split at refused
      · cases refused
      · obtain rfl := Except.error.inj refused
        exact absurd (List.mem_singleton.mp member) (early _)
    · rw [build_eq_error clean] at refused
      exact Except.error.inj refused ▸ member
  · intro member
    exact ⟨_, build_eq_error (List.ne_nil_of_mem member), member⟩

private theorem reports_extraction_iff {e : ExtractionError} :
    p.Reports d (.extraction e) ↔ e ∈ p.errors := by
  rw [reports_iff fun _ => Problem.noConfusion]
  simp [problems]

private theorem reports_unknownTarget_iff {table column target : String} :
    p.Reports d (.validation (.unknownTarget table column target)) ↔
      .unknownTarget table column target ∈ Table.faultsTogether p.tables := by
  rw [reports_iff fun _ => Problem.noConfusion, Table.unknownTarget_mem_faultsTogether_iff]
  simp only [← (inNameOrder_sorted p).perm.mem_iff, ← Table.unknownTarget_mem_faultsTogether_iff]
  simp [problems, Table.unknownTarget_not_mem_faults]

end SchemaPlan

/-! ## Models -/

/-- The report that an association of a table references no table. -/
def Problem.missingTarget (t : Table) (a : Association) : Problem :=
  .validation (.unknownTarget t.name a.column a.target)

namespace Declaration

/-- Whether the table of the model has the name, up to case. -/
def HasTable (m : Declaration) (name : String) : Prop :=
  Text.lower m.tableName = Text.lower name

/-- Models of which only those were changed that extraction reports: all are extracted then, and
their tables have the names that they had. -/
def Repairs (models repaired : List Declaration) : Prop :=
  List.Forall₂ (fun m m' => m'.tableName = m.tableName ∧ m'.reported = [] ∧
    (m.reported = [] → m' = m)) models repaired

variable {models repaired : List Declaration}

private theorem Repairs.mem_of_extracted (repairs : Repairs models repaired) {m : Declaration}
    (member : m ∈ models) (silent : m.reported = []) : m ∈ repaired := by
  induction repairs with
  | nil => cases member
  | cons first _ ih =>
      obtain ⟨-, -, unchanged⟩ := first
      rcases List.mem_cons.mp member with rfl | later
      · exact unchanged silent ▸ List.mem_cons_self
      · exact List.mem_cons_of_mem _ (ih later)

private theorem Repairs.reported_eq_nil (repairs : Repairs models repaired) :
    ∀ m ∈ repaired, m.reported = [] := by
  induction repairs with
  | nil => exact List.forall_mem_nil _
  | cons first _ ih => exact List.forall_mem_cons.mpr ⟨first.2.1, ih⟩

private theorem Repairs.hasTable_iff (repairs : Repairs models repaired) (name : String) :
    (∀ m ∈ repaired, ¬ m.HasTable name) ↔ ∀ m ∈ models, ¬ m.HasTable name := by
  induction repairs with
  | nil => exact Iff.rfl
  | cons first _ ih =>
      rw [List.forall_mem_cons, List.forall_mem_cons, ih, HasTable, HasTable, first.1]

end Declaration

namespace SchemaPlan

variable {d : Dialect} {models : List Declaration} {m : Declaration} {t : Table} {a : Association}

private theorem mem_tables_ofDeclarations :
    t ∈ (ofDeclarations models).tables ↔ ∃ m ∈ models, m.extract = .ok t := by
  rw [ofDeclarations_eq]
  simp only [List.mem_filterMap, Declaration.table?_eq_some_iff]

/-- What is reported of models is reported of their plan. -/
theorem reports_of_reported {e : ExtractionError} (member : m ∈ models)
    (reported : e ∈ m.reported) : (ofDeclarations models).Reports d (.extraction e) := by
  rw [reports_extraction_iff, ofDeclarations_eq]
  exact List.mem_flatMap.mpr ⟨m, member, reported⟩

/-- An association is reported to reference no table if every model of its target's name fails. -/
theorem reports_missingTarget_iff (member : m ∈ models) (extracted : m.extract = .ok t)
    (isAssociation : a ∈ t.associations) :
    (ofDeclarations models).Reports d (.missingTarget t a) ↔
      ∀ other ∈ models, other.HasTable a.target → other.reported ≠ [] := by
  have isTable : t ∈ (ofDeclarations models).tables :=
    mem_tables_ofDeclarations.mpr ⟨m, member, extracted⟩
  rw [Problem.missingTarget, reports_unknownTarget_iff, Table.unknownTarget_mem_faultsTogether_iff]
  constructor
  · rintro ⟨-, apart⟩ other isOther named silent
    obtain ⟨t', extracted'⟩ := Declaration.reported_eq_nil_iff.mp silent
    refine apart t' (mem_tables_ofDeclarations.mpr ⟨other, isOther, extracted'⟩) ?_
    rw [(Declaration.extract_eq_ok extracted').2.1]
    exact named
  · intro failing
    refine ⟨⟨t, isTable, a, isAssociation, rfl, rfl, rfl⟩, fun t' isTable' named => ?_⟩
    obtain ⟨other, isOther, extracted'⟩ := mem_tables_ofDeclarations.mp isTable'
    rw [(Declaration.extract_eq_ok extracted').2.1] at named
    exact failing other isOther named (Declaration.reported_eq_nil_iff.mpr ⟨t', extracted'⟩)

/-- Where all models of the target's name are extracted, a missing table is reported if there is no
such model. -/
theorem reports_missingTarget_iff_of_extracted (member : m ∈ models) (extracted : m.extract = .ok t)
    (isAssociation : a ∈ t.associations)
    (whole : ∀ other ∈ models, other.HasTable a.target → other.reported = []) :
    (ofDeclarations models).Reports d (.missingTarget t a) ↔
      ∀ other ∈ models, ¬ other.HasTable a.target := by
  rw [reports_missingTarget_iff member extracted isAssociation]
  constructor
  · intro failing other isOther named
    exact failing other isOther named (whole other isOther named)
  · intro apart other isOther named
    exact absurd named (apart other isOther)

/-- **When a missing table is reported.** An association of an extracted table is reported to
reference no table exactly if every model whose table has the name of its target, up to case, fails
to be extracted, and all errors of these models are reported as well. So the report says that no
model has the name if none of that name fails. Otherwise it can be wrong: once everything that
extraction reports is repaired, and nothing else changed, it is still there exactly if no model has
the name. -/
theorem reports_unknownTarget (d : Dialect) {models : List Declaration} {m : Declaration}
    (member : m ∈ models) {t : Table} (extracted : m.extract = .ok t) {a : Association}
    (isAssociation : a ∈ t.associations) :
    ((ofDeclarations models).Reports d (.missingTarget t a) ↔
      ∀ other ∈ models, other.HasTable a.target → other.reported ≠ []) ∧
    (∀ other ∈ models, ∀ e ∈ other.reported,
      (ofDeclarations models).Reports d (.extraction e)) ∧
    ((∀ other ∈ models, other.HasTable a.target → other.reported = []) →
      ((ofDeclarations models).Reports d (.missingTarget t a) ↔
        ∀ other ∈ models, ¬ other.HasTable a.target)) ∧
    ∀ repaired, Declaration.Repairs models repaired →
      ((ofDeclarations repaired).Reports d (.missingTarget t a) ↔
        ∀ other ∈ models, ¬ other.HasTable a.target) := by
  refine ⟨reports_missingTarget_iff member extracted isAssociation,
    fun _ isOther _ reported => reports_of_reported isOther reported,
    reports_missingTarget_iff_of_extracted member extracted isAssociation,
    fun repaired repairs => ?_⟩
  have unchanged := repairs.mem_of_extracted member
    (Declaration.reported_eq_nil_iff.mpr ⟨t, extracted⟩)
  have whole : ∀ other ∈ repaired, other.HasTable a.target → other.reported = [] :=
    fun other isOther _ => repairs.reported_eq_nil other isOther
  rw [← repairs.hasTable_iff]
  exact reports_missingTarget_iff_of_extracted unchanged extracted isAssociation whole

/-- A model of books, with a reference to the table of their authors. -/
def bookModel : Declaration :=
  ⟨"book", none,
    [⟨"author", "i64", some { ColumnNotes.empty with references := some "author" }, none⟩]⟩

/-- A model of authors with a field of a type. -/
def authorModel (type : String) : Declaration :=
  ⟨"author", none, [⟨"id", "i64", none, some KeyNotes.empty⟩,
    ⟨"outline", type, some ColumnNotes.empty, none⟩]⟩

private theorem extract_bookModel :
    ∃ t, bookModel.extract = .ok t ∧ ⟨"author", "author", none⟩ ∈ t.associations := by
  have silent : bookModel.reported = [] := by
    decide +kernel
  obtain ⟨t, extracted⟩ := Declaration.reported_eq_nil_iff.mp silent
  have associations : bookModel.mapped.filterMap (·.association?) =
      [⟨"author", "author", none⟩] := by
    decide +kernel
  refine ⟨t, extracted, ?_⟩
  rw [(Declaration.extract_eq_ok extracted).2.2.2.2, associations]
  exact List.mem_singleton.mpr rfl

/-- Where the authors have a table, the books are not reported to miss it. -/
theorem reports_unknownTarget_book :
    ∃ t, bookModel.extract = .ok t ∧ ⟨"author", "author", none⟩ ∈ t.associations ∧
      ¬ (ofDeclarations [authorModel "String", bookModel]).Reports .sqlite
        (.missingTarget t ⟨"author", "author", none⟩) := by
  obtain ⟨t, extracted, isAssociation⟩ := extract_bookModel
  refine ⟨t, extracted, isAssociation, fun reported => ?_⟩
  obtain ⟨failing, -⟩ := reports_unknownTarget .sqlite
    (List.mem_cons_of_mem (authorModel "String") List.mem_cons_self) extracted isAssociation
  exact failing.mp reported (authorModel "String") List.mem_cons_self rfl (by decide +kernel)

/-- Where the model of the authors fails, the books are reported to miss its table, until the model
is repaired. -/
theorem missingTarget_repaired :
    ∃ t, bookModel.extract = .ok t ∧ ⟨"author", "author", none⟩ ∈ t.associations ∧
      (authorModel "Outline").HasTable "author" ∧
      (ofDeclarations [authorModel "Outline", bookModel]).Reports .sqlite
        (.missingTarget t ⟨"author", "author", none⟩) ∧
      Declaration.Repairs [authorModel "Outline", bookModel] [authorModel "String", bookModel] ∧
      ¬ (ofDeclarations [authorModel "String", bookModel]).Reports .sqlite
        (.missingTarget t ⟨"author", "author", none⟩) := by
  obtain ⟨t, extracted, isAssociation⟩ := extract_bookModel
  have fails : (authorModel "Outline").reported ≠ [] := by
    decide +kernel
  have silent : (authorModel "String").reported = [] := by
    decide +kernel
  have bookSilent := Declaration.reported_eq_nil_iff.mpr ⟨t, extracted⟩
  have apart : ¬ bookModel.HasTable "author" := by
    have lowerBook : Text.lower bookModel.tableName = "book" :=
      Text.lower_eq_self (by decide +kernel) (by decide +kernel)
    have lowerAuthor : Text.lower "author" = "author" :=
      Text.lower_eq_self (by decide +kernel) (by decide +kernel)
    rw [Declaration.HasTable, lowerBook, lowerAuthor]
    decide
  refine ⟨t, extracted, isAssociation, rfl, ?_, ?_, ?_⟩
  · refine (reports_missingTarget_iff (List.mem_cons_of_mem _ List.mem_cons_self) extracted
      isAssociation).mpr fun other isOther named => ?_
    rcases List.mem_pair.mp isOther with rfl | rfl
    · exact fails
    · exact absurd named apart
  · exact .cons ⟨rfl, silent, fun none => absurd none fails⟩
      (.cons ⟨rfl, bookSilent, fun _ => rfl⟩ .nil)
  · intro reported
    exact (reports_missingTarget_iff (List.mem_cons_of_mem _ List.mem_cons_self) extracted
      isAssociation).mp reported (authorModel "String") List.mem_cons_self rfl silent

end SchemaPlan

end Tabula
