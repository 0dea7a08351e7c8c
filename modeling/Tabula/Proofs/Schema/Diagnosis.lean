import Tabula.Proofs.Schema.Extraction
import Tabula.Proofs.Schema.Grouping

/-! # What building a schema reports

Four passes stand between models and a schema: extraction, the faults of each table, the faults of
the tables together, and compilation. The first three never wait for one another, so a refused plan
reports everything they find (`Tabula.SchemaPlan.build_eq_error`), and a plan without such problems
is compiled table by table (`Tabula.SchemaPlan.build_of_problems_eq_nil`). Compilation checks again
that a table has no fault and asks in addition that no association is left dangling; tables that
come from models never leave one (`Tabula.SchemaPlan.dangling?_of_mem_ofDeclarations`).
-/

namespace Tabula

/-! ## Compilation -/

namespace Table

variable {d : Dialect} {t : Table}

/-- Compilation succeeds exactly on tables without a fault and without a dangling association. -/
theorem compile_eq_ok_iff {ddl : TableDdl} :
    t.compile d = .ok ddl ↔ t.faults = [] ∧ t.dangling? = none ∧ t.ddl d = ddl := by
  unfold compile
  split
  · rename_i faulty
    simp only [faulty, reduceCtorEq, false_and]
  · rename_i dangling
    simp only [dangling, reduceCtorEq, false_and, and_false]
  · rename_i faultless noneDangling
    simp only [faultless, noneDangling, Except.ok.injEq, true_and]

private theorem mapM_compile_eq_ok {ts : List Table}
    (faultless : ∀ t ∈ ts, t.faults = [] ∧ t.dangling? = none) :
    ts.mapM (·.compile d) = .ok (ts.map (·.ddl d)) := by
  induction ts with
  | nil => rfl
  | cons t ts ih =>
      have first := faultless t List.mem_cons_self
      have compiled : t.compile d = .ok (t.ddl d) := compile_eq_ok_iff.mpr ⟨first.1, first.2, rfl⟩
      rw [List.mapM_cons, compiled, ih fun other member =>
        faultless other (List.mem_cons_of_mem _ member)]
      rfl

/-- Tables that compile together compile one by one. -/
theorem compile_of_mapM {ts : List Table} {ddls : List TableDdl}
    (compiled : ts.mapM (·.compile d) = .ok ddls) :
    ts.map (·.compile d) = ddls.map .ok := by
  induction ts generalizing ddls with
  | nil =>
      obtain rfl := Except.ok.inj compiled
      rfl
  | cons t ts ih =>
      rw [List.mapM_cons] at compiled
      cases first : t.compile d with
      | error e => simp [first, bind, Except.bind] at compiled
      | ok ddl =>
          cases rest : ts.mapM (·.compile d) with
          | error e => simp [first, rest, bind, Except.bind] at compiled
          | ok more =>
              simp only [first, rest, bind, Except.bind, pure, Except.pure, Except.ok.injEq]
                at compiled
              rw [← compiled, List.map_cons, List.map_cons, first, ih rest]

end Table

/-! ## Plans -/

namespace SchemaPlan

variable {d : Dialect} {p : SchemaPlan} {s : Schema}

/-- The tables of a plan are put in the order of their names. -/
theorem inNameOrder_sorted (p : SchemaPlan) : InNameOrder Table.name p.tables p.sorted :=
  inNameOrder_mergeSort Table.name p.tables

/-- A plan has no problem just if nothing was reported of a declaration, and no table has a fault,
neither alone nor together with the others. -/
theorem problems_eq_nil_iff :
    p.problems = [] ↔
      p.errors = [] ∧ (∀ t ∈ p.tables, t.faults = []) ∧ Table.faultsTogether p.tables = [] := by
  have perm := (inNameOrder_sorted p).perm
  have together : Table.faultsTogether p.sorted = [] ↔ Table.faultsTogether p.tables = [] :=
    ⟨Table.faultsTogether_eq_nil_of_perm perm, Table.faultsTogether_eq_nil_of_perm perm.symm⟩
  simp only [problems, List.append_eq_nil_iff, List.map_eq_nil_iff, List.flatMap_eq_nil_iff,
    and_assoc, together, perm.mem_iff]

/-- A plan without problems whose associations are all of columns is built. -/
theorem build_of_problems_eq_nil (clean : p.problems = [])
    (noneDangling : ∀ t ∈ p.tables, t.dangling? = none) :
    p.build d = .ok ⟨p.sorted, p.sorted.map (·.ddl d)⟩ := by
  have compiled : p.sorted.mapM (·.compile d) = .ok (p.sorted.map (·.ddl d)) := by
    refine Table.mapM_compile_eq_ok fun t member => ?_
    have planned := (inNameOrder_sorted p).perm.mem_iff.mp member
    exact ⟨(problems_eq_nil_iff.mp clean).2.1 t planned, noneDangling t planned⟩
  simp only [build, clean, compiled]

/-- A table by itself that references nothing and has no index is built if it has no fault. -/
theorem build_singleton {t : Table} (faultless : t.faults = [])
    (noAssociation : t.associations = []) (noIndex : t.columns.filter (·.needsIndex) = []) :
    build d ⟨[t], []⟩ = .ok ⟨[t], [t.ddl d]⟩ := by
  have single : sorted ⟨[t], []⟩ = [t] := List.mergeSort_singleton t
  have clean : problems ⟨[t], []⟩ = [] := by
    refine problems_eq_nil_iff.mpr ⟨rfl, fun other member => ?_, ?_⟩
    · exact List.mem_singleton.mp member ▸ faultless
    · exact Table.faultsTogether_singleton noAssociation noIndex
  have built := build_of_problems_eq_nil (d := d) clean fun other member => by
    rw [List.mem_singleton.mp member, Table.dangling?, noAssociation]
    rfl
  rw [single] at built
  exact built

/-- A built schema has the tables of the plan in the order of their names, and what each of them
compiles to. -/
theorem build_eq_ok (built : p.build d = .ok s) :
    p.problems = [] ∧ s.tables = p.sorted ∧ s.tables.map (·.compile d) = s.ddl.map .ok := by
  unfold build at built
  split at built
  · rename_i clean
    split at built
    · rename_i ddl compiled
      obtain rfl := Except.ok.inj built
      exact ⟨clean, rfl, Table.compile_of_mapM compiled⟩
    · cases built
  · cases built

/-- The tables of a built schema are tables of the plan and have no fault. -/
theorem faultless_of_built (built : p.build d = .ok s) {t : Table} (member : t ∈ s.tables) :
    t ∈ p.tables ∧ t.faults = [] := by
  obtain ⟨clean, sortedAre, -⟩ := build_eq_ok built
  rw [sortedAre, (inNameOrder_sorted p).perm.mem_iff] at member
  exact ⟨member, (problems_eq_nil_iff.mp clean).2.1 t member⟩

/-- A plan with problems is refused with all of them. -/
theorem build_eq_error (unclean : p.problems ≠ []) : p.build d = .error p.problems := by
  unfold build
  split
  · rename_i clean
    exact absurd clean unclean
  · rfl

/-- The texts of a built schema are those of its tables, in the same order. -/
theorem ddl_eq_map (built : p.build d = .ok s) : s.ddl = s.tables.map (·.ddl d) := by
  have compiled := (build_eq_ok built).2.2
  generalize s.tables = ts at compiled
  generalize s.ddl = ddls at compiled
  induction ts generalizing ddls with
  | nil => exact List.map_eq_nil_iff.mp compiled.symm
  | cons t ts ih =>
      cases ddls with
      | nil => cases compiled
      | cons ddl ddls =>
          obtain ⟨first, rest⟩ := List.cons.inj compiled
          obtain ⟨-, -, rfl⟩ := Table.compile_eq_ok_iff.mp first
          rw [List.map_cons, ih ddls rest]

private theorem map_table_ddl (built : p.build d = .ok s) :
    s.ddl.map TableDdl.table = s.tables.map Table.name := by
  rw [ddl_eq_map built, List.map_map]
  rfl

/-- The texts of a built schema are in the byte order of the tables' names. -/
theorem ddl_ascend (built : p.build d = .ok s) :
    s.ddl.Pairwise fun a b => Text.bytes a.table ≤ Text.bytes b.table := by
  have tables := (inNameOrder_sorted p).ascending
  rw [← (build_eq_ok built).2.1] at tables
  have names : (s.tables.map Table.name).Pairwise fun a b => Text.bytes a ≤ Text.bytes b :=
    List.pairwise_map.mpr tables
  rw [← map_table_ddl built, List.pairwise_map] at names
  exact names

end SchemaPlan

/-! ## Models -/

namespace Declaration

/-- The table of the model, if it can be extracted. -/
def table? (d : Declaration) : Option Table :=
  d.extract.toOption

/-- What extraction reports about the model. -/
def reported (d : Declaration) : List ExtractionError :=
  match d.extract with
  | .ok _ => []
  | .error errors => errors

/-- A declaration has the table that is extracted from it. -/
theorem table?_eq_some_iff {d : Declaration} {t : Table} :
    d.table? = some t ↔ d.extract = .ok t := by
  unfold table?
  cases d.extract <;> simp [Except.toOption]

/-- Nothing is reported of a declaration just if its table can be extracted. -/
theorem reported_eq_nil_iff {d : Declaration} : d.reported = [] ↔ ∃ t, d.extract = .ok t := by
  unfold reported
  cases outcome : d.extract with
  | ok t => exact ⟨fun _ => ⟨t, rfl⟩, fun _ => rfl⟩
  | error errors =>
      refine ⟨fun clean => absurd clean (extract_eq_error outcome).2, fun ⟨t, extracted⟩ => ?_⟩
      cases extracted

/-- Models that can all be extracted have their tables one by one. -/
theorem map_ok_table? {ds : List Declaration} (extracted : ∀ d ∈ ds, ∃ t, d.extract = .ok t) :
    (ds.filterMap table?).map Except.ok = ds.map extract := by
  induction ds with
  | nil => rfl
  | cons d ds ih =>
      obtain ⟨t, ofModel⟩ := extracted d List.mem_cons_self
      rw [List.filterMap_cons_some (table?_eq_some_iff.mpr ofModel), List.map_cons, List.map_cons,
        ofModel, ih fun other member => extracted other (List.mem_cons_of_mem _ member)]

end Declaration

namespace SchemaPlan

/-- Adding models one after the other adds their tables and what is reported of them. -/
theorem foldl_withDeclaration (ds : List Declaration) (p : SchemaPlan) :
    ds.foldl withDeclaration p =
      ⟨p.tables ++ ds.filterMap Declaration.table?,
        p.errors ++ ds.flatMap Declaration.reported⟩ := by
  induction ds generalizing p with
  | nil => simp
  | cons d ds ih =>
      rw [List.foldl_cons, ih]
      cases outcome : d.extract with
      | ok t =>
          simp [withDeclaration, withTable, Declaration.table?, Declaration.reported, outcome,
            Except.toOption]
      | error errors =>
          simp [withDeclaration, Declaration.table?, Declaration.reported, outcome,
            Except.toOption]

/-- The plan of declarations has their tables and all that is reported of them. -/
theorem ofDeclarations_eq (ds : List Declaration) :
    ofDeclarations ds = ⟨ds.filterMap Declaration.table?, ds.flatMap Declaration.reported⟩ := by
  simpa [ofDeclarations, empty] using foldl_withDeclaration ds empty

/-- A plan of models leaves no association dangling. -/
theorem dangling?_of_mem_ofDeclarations {ds : List Declaration} {t : Table}
    (member : t ∈ (ofDeclarations ds).tables) : t.dangling? = none := by
  rw [ofDeclarations_eq] at member
  obtain ⟨d, -, extracted⟩ := List.mem_filterMap.mp member
  exact Declaration.dangling?_of_extract (Declaration.table?_eq_some_iff.mp extracted)

end SchemaPlan

/-- A schema of exactly the given models: their tables and what these compile to, both in the byte
order of the tables' names. -/
structure Schema.IsOf (d : Dialect) (models : List Declaration) (s : Schema) : Prop where
  tables : (s.tables.map Except.ok).Perm (models.map Declaration.extract)
  compiled : s.tables.map (·.compile d) = s.ddl.map .ok
  tables_ascend : s.tables.Pairwise fun a b => Text.bytes a.name ≤ Text.bytes b.name
  ddl_ascend : s.ddl.Pairwise fun a b => Text.bytes a.table ≤ Text.bytes b.table

/-- **Building a schema of models.** A schema is built exactly when every model is extracted and no
table has a fault, alone or with the others; it is then of exactly these models. Otherwise the
extraction errors are reported in the order of the models, then the faults of the extracted tables
in the byte order of their names, then the faults of these tables together, and nothing else. -/
theorem SchemaPlan.build_ofDeclarations (d : Dialect) (models : List Declaration) :
    ∃ sorted, InNameOrder Table.name (models.filterMap Declaration.table?) sorted ∧
      ((∃ s, (ofDeclarations models).build d = .ok s) ↔
        (∀ m ∈ models, ∃ t, m.extract = .ok t) ∧
        (∀ t ∈ models.filterMap Declaration.table?, t.faults = []) ∧
        Table.faultsTogether (models.filterMap Declaration.table?) = []) ∧
      (∀ s, (ofDeclarations models).build d = .ok s → s.tables = sorted ∧ s.IsOf d models) ∧
      ∀ problems, (ofDeclarations models).build d = .error problems →
        problems = (models.flatMap Declaration.reported).map .extraction ++
            (sorted.flatMap Table.faults).map .validation ++
            (Table.faultsTogether sorted).map .validation ∧
          ∀ e, .compilation e ∉ problems := by
  have noneDangling : ∀ t ∈ (ofDeclarations models).tables, t.dangling? = none :=
    fun t => dangling?_of_mem_ofDeclarations
  have order := inNameOrder_sorted (ofDeclarations models)
  have clean := @problems_eq_nil_iff (ofDeclarations models)
  have report : (ofDeclarations models).problems =
      (ofDeclarations models).errors.map .extraction ++
        ((ofDeclarations models).sorted.flatMap Table.faults).map .validation ++
        (Table.faultsTogether (ofDeclarations models).sorted).map .validation := rfl
  have extractedIff : models.flatMap Declaration.reported = [] ↔
      ∀ m ∈ models, ∃ t, m.extract = .ok t := by
    simp only [List.flatMap_eq_nil_iff, Declaration.reported_eq_nil_iff]
  have errorsAre := congrArg SchemaPlan.errors (ofDeclarations_eq models)
  have tablesAre := congrArg SchemaPlan.tables (ofDeclarations_eq models)
  rw [errorsAre] at clean report
  rw [tablesAre] at clean order
  refine ⟨(ofDeclarations models).sorted, order, ?_, ?_, ?_⟩
  · rw [← extractedIff, ← clean]
    constructor
    · rintro ⟨s, built⟩
      exact (build_eq_ok built).1
    · intro none
      exact ⟨_, build_of_problems_eq_nil none noneDangling⟩
  · intro s built
    obtain ⟨none, sortedAre, compiled⟩ := build_eq_ok built
    have tables_ascend : s.tables.Pairwise fun a b => Text.bytes a.name ≤ Text.bytes b.name :=
      sortedAre ▸ order.ascending
    refine ⟨sortedAre, ?_, compiled, tables_ascend, ddl_ascend built⟩
    rw [← Declaration.map_ok_table? (extractedIff.mp (clean.mp none).1), sortedAre]
    exact order.perm.map _
  · intro problems failed
    have unclean : (ofDeclarations models).problems ≠ [] := by
      intro none
      rw [build_of_problems_eq_nil none noneDangling] at failed
      cases failed
    rw [build_eq_error unclean] at failed
    obtain rfl := Except.error.inj failed
    refine ⟨report, fun e member => ?_⟩
    rw [report] at member
    simp only [List.mem_append, List.mem_map, reduceCtorEq, and_false, exists_false, or_false]
      at member

end Tabula
