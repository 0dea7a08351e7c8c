import Tabula.Proofs.Schema.Coexistence

/-! # What validation knows about references

An association joins a column to a table, and validation looks at both ends in its own way. The
target is looked for in lower case, while a schema and an engine look tables up in any ASCII case
only: a validated reference is found exactly when the two names differ in the case of ASCII letters
at most (`Tabula.SchemaPlan.find?_target`). The column is not looked at before compilation, which
therefore fails for validated tables, and for no other reason than an association of a column that
its table has not (`Tabula.SchemaPlan.compilation_only_dangling`).
-/

namespace Tabula

/-! ## Targets -/

/-- A search finds the only member that can be meant, or nothing. -/
theorem find?_eq_of_unique {α : Type} {p : α → Bool} {members : List α} {x : α}
    (member : x ∈ members) (unique : ∀ y ∈ members, p y = true → y = x) :
    members.find? p = if p x then some x else none := by
  cases found : members.find? p with
  | none =>
      have unmet := List.find?_eq_none.mp found x member
      rw [if_neg unmet]
  | some y =>
      obtain rfl := unique y (List.mem_of_find?_eq_some found) (List.find?_some found)
      rw [if_pos (List.find?_some found)]

namespace SchemaPlan

variable {d : Dialect} {p : SchemaPlan} {s : Schema} {t : Table} {a : Association}

/-- **Targets of a built schema.** The target of an association is one table in lower case, and this
table has a key. A schema finds it by the name of the target if the two names are one name for the
engine, as they are in ASCII, and finds nothing otherwise. -/
theorem find?_target (built : p.build d = .ok s) (member : t ∈ s.tables)
    (ofTable : a ∈ t.associations) :
    ∃ target ∈ s.tables, target.hasKey = true ∧
      (∀ other ∈ s.tables, Text.lower other.name = Text.lower a.target ↔ other = target) ∧
      s.find? a.target = (if Text.sameName target.name a.target then some target else none) ∧
      (Text.IsAscii target.name → Text.IsAscii a.target → s.find? a.target = some target) := by
  have compatible := compatible_of_built built
  obtain ⟨⟨target, isTable, named⟩, keyed⟩ := compatible.targets t member a ofTable
  have unique : ∀ other ∈ s.tables,
      Text.lower other.name = Text.lower a.target ↔ other = target := by
    intro other isOther
    constructor
    · intro same
      exact Table.eq_of_lower_eq compatible.names isTable isOther (same.trans named.symm)
    · rintro rfl
      exact named
  have found : s.find? a.target =
      if Text.sameName target.name a.target then some target else none := by
    refine find?_eq_of_unique isTable fun other isOther same => ?_
    exact (unique other isOther).mp (Text.lower_eq_of_sameName same)
  refine ⟨target, isTable, keyed target isTable named, unique, found, ?_⟩
  intro asciiName asciiTarget
  rw [found, if_pos (Text.sameName_of_lower_eq asciiName asciiTarget named)]

/-- A target outside of ASCII is found where it is spelled as its table is. -/
theorem find?_target_library : ∃ s, (library "author" "É").build .sqlite = .ok s ∧
    ∃ target, s.find? "É" = some target ∧ target.hasKey = true := by
  have built := @build_library .sqlite "É" rfl
  have perm := (inNameOrder_sorted (library "author" "É")).perm
  have owner : Table.keyed "É" ∈ (library "author" "É").sorted := perm.mem_iff.mpr (by decide)
  have member : Table.linked "author" "É" ∈ (library "author" "É").sorted :=
    perm.mem_iff.mpr (by decide)
  obtain ⟨target, -, hasKey, unique, found, -⟩ := find?_target built member List.mem_cons_self
  obtain rfl := (unique _ owner).mp rfl
  exact ⟨_, built, _, found.trans (if_pos (Text.sameName_refl _)), hasKey⟩

/-- A reference to a table whose name differs in the case of another letter is validated and not
found. -/
theorem find?_target_missing : ∃ s, (library "author" "é").build .sqlite = .ok s ∧
    ∃ t ∈ s.tables, ∃ a ∈ t.associations, s.find? a.target = none := by
  have built := @build_library .sqlite "é" (by decide +kernel)
  have perm := (inNameOrder_sorted (library "author" "é")).perm
  refine ⟨_, built, Table.linked "author" "é", perm.mem_iff.mpr (by decide), _,
    List.mem_cons_self, List.find?_eq_none.mpr fun t member => ?_⟩
  rcases List.mem_pair.mp (perm.mem_iff.mp member) with rfl | rfl
  · decide +kernel
  · decide +kernel

end SchemaPlan

/-! ## Columns -/

namespace Table

variable {d : Dialect} {t : Table} {e : CompilationError}

private theorem dangling?_eq_none_iff :
    t.dangling? = none ↔ ∀ a ∈ t.associations, a.column ∈ t.columnNames := by
  simp only [dangling?, List.find?_eq_none, Bool.not_eq_true', Bool.not_eq_false, List.any_eq_true,
    beq_iff_eq, columnNames, List.mem_map]

/-- Compilation of a table without a fault fails with its first association of no column. -/
theorem compile_eq_error (faultless : t.faults = []) (failed : t.compile d = .error e) :
    ∃ a, t.dangling? = some a ∧ e = .danglingColumn t.name a.column := by
  unfold compile at failed
  rw [faultless] at failed
  cases dangling : t.dangling? with
  | none =>
      rw [dangling] at failed
      cases failed
  | some a =>
      rw [dangling] at failed
      exact ⟨a, rfl, (Except.error.inj failed).symm⟩

/-- Compilation of tables fails where the compilation of one of them does. -/
theorem mapM_compile_eq_error {ts : List Table} (failed : ts.mapM (·.compile d) = .error e) :
    ∃ t ∈ ts, t.compile d = .error e := by
  induction ts with
  | nil => cases failed
  | cons t ts ih =>
      rw [List.mapM_cons] at failed
      cases first : t.compile d with
      | error cause =>
          rw [first] at failed
          obtain rfl := Except.error.inj failed
          exact ⟨t, List.mem_cons_self, first⟩
      | ok ddl =>
          rw [first] at failed
          cases rest : ts.mapM (·.compile d) with
          | error cause =>
              rw [rest] at failed
              obtain rfl := Except.error.inj failed
              obtain ⟨other, member, isCause⟩ := ih rest
              exact ⟨other, List.mem_cons_of_mem t member, isCause⟩
          | ok ddls =>
              rw [rest] at failed
              cases failed

end Table

namespace SchemaPlan

variable {d : Dialect} {p : SchemaPlan} {problems : List Problem}

/-- The tables of a plan that is built leave no association dangling. -/
theorem dangling?_of_built {s : Schema} (built : p.build d = .ok s) {t : Table}
    (member : t ∈ p.tables) : t.dangling? = none := by
  obtain ⟨-, sortedAre, compiled⟩ := build_eq_ok built
  have isTable : t ∈ s.tables := sortedAre ▸ (inNameOrder_sorted p).perm.mem_iff.mpr member
  have isCompiled : t.compile d ∈ s.ddl.map .ok := compiled ▸ List.mem_map_of_mem isTable
  obtain ⟨ddl, -, ofTable⟩ := List.mem_map.mp isCompiled
  exact (Table.compile_eq_ok_iff.mp ofTable.symm).2.1

/-- A plan without problems is refused for an association of no column only. -/
theorem exists_dangling_of_refused (clean : p.problems = []) (refused : p.build d = .error problems) :
    ∃ t ∈ p.tables, ∃ a, t.dangling? = some a ∧
      problems = [.compilation (.danglingColumn t.name a.column)] := by
  unfold build at refused
  rw [clean] at refused
  cases compiled : p.sorted.mapM (·.compile d) with
  | ok ddl =>
      rw [compiled] at refused
      cases refused
  | error e =>
      rw [compiled] at refused
      obtain ⟨t, member, failed⟩ := Table.mapM_compile_eq_error compiled
      have planned := (inNameOrder_sorted p).perm.mem_iff.mp member
      have faultless := (problems_eq_nil_iff.mp clean).2.1 t planned
      obtain ⟨a, dangling, rfl⟩ := Table.compile_eq_error faultless failed
      exact ⟨t, planned, a, dangling, (Except.error.inj refused).symm⟩

/-- The problems that are found before compilation are none of compilation. -/
theorem compilation_not_mem_problems (e : CompilationError) : .compilation e ∉ p.problems := by
  intro member
  simp only [SchemaPlan.problems, List.mem_append, List.mem_map, reduceCtorEq, and_false,
    exists_false, or_false] at member

/-- **What validation leaves to compilation.** A table without a fault compiles exactly when each of
its associations is of a column that it has, under exactly its name, and a plan without problems is
built exactly when all its tables are so. A compilation error is reported of such a plan only, by
itself, and it names an association of a column that its table has not. -/
theorem compilation_only_dangling (d : Dialect) (p : SchemaPlan) :
    (∀ t : Table, t.faults = [] → ((∃ ddl, t.compile d = .ok ddl) ↔
      ∀ a ∈ t.associations, a.column ∈ t.columnNames)) ∧
    (p.problems = [] → ((∃ s, p.build d = .ok s) ↔
      ∀ t ∈ p.tables, ∀ a ∈ t.associations, a.column ∈ t.columnNames)) ∧
    ∀ problems, p.build d = .error problems → ∀ e, .compilation e ∈ problems →
      p.problems = [] ∧ problems = [.compilation e] ∧
        ∃ t ∈ p.tables, ∃ a ∈ t.associations, a.column ∉ t.columnNames ∧
          e = .danglingColumn t.name a.column := by
  refine ⟨fun t faultless => ?_, fun clean => ?_, fun problems refused e reported => ?_⟩
  · simp only [Table.compile_eq_ok_iff, faultless, true_and, Table.dangling?_eq_none_iff,
      exists_and_left, exists_eq', and_true]
  · constructor
    · rintro ⟨s, built⟩ t member
      exact Table.dangling?_eq_none_iff.mp (dangling?_of_built built member)
    · intro columns
      exact ⟨_, build_of_problems_eq_nil clean fun t member =>
        Table.dangling?_eq_none_iff.mpr (columns t member)⟩
  · have clean : p.problems = [] := by
      by_contra unclean
      obtain rfl := Except.error.inj ((build_eq_error unclean).symm.trans refused)
      exact compilation_not_mem_problems e reported
    obtain ⟨t, member, a, dangling, rfl⟩ := exists_dangling_of_refused clean refused
    obtain rfl := Problem.compilation.inj (List.mem_singleton.mp reported)
    have absent := List.find?_some dangling
    simp only [Bool.not_eq_true', List.any_eq_false, beq_iff_eq] at absent
    refine ⟨clean, rfl, t, member, a, List.mem_of_find?_eq_some dangling, fun named => ?_, rfl⟩
    obtain ⟨c, isColumn, same⟩ := List.mem_map.mp named
    exact absent c isColumn same

/-- Two tables in which validation finds nothing are refused by compilation. -/
theorem compilation_refuses_library :
    (library "writer" "É").problems = [] ∧
      (library "writer" "É").build .sqlite =
        .error [.compilation (.danglingColumn "book" "writer")] := by
  have clean := @problems_library "writer" "É" rfl
  refine ⟨clean, ?_⟩
  cases outcome : (library "writer" "É").build .sqlite with
  | ok s =>
      have member : Table.linked "writer" "É" ∈ (library "writer" "É").tables := by decide
      cases dangling?_of_built outcome member
  | error problems =>
      obtain ⟨t, member, a, dangling, rfl⟩ := exists_dangling_of_refused clean outcome
      rcases List.mem_pair.mp member with rfl | rfl
      · cases dangling
      · obtain rfl : Association.mk "writer" "É" none = a := Option.some.inj dangling
        rfl

end SchemaPlan

end Tabula
