import Tabula.Proofs.Schema.DigestText

/-! # The order in which tables are added

A plan is filled with tables and models one after the other (`Tabula.SchemaPlan.ofAdditions`). What
is built of it sees the tables in the order of their names only, which is the same in whatever order
they came as long as no two have one name (`Tabula.mergeSort_eq_of_perm`). So two orders of adding
build the same schema or report the same problems in the same order, and what a model without a
table reports stands before all else, model by model as they came
(`Tabula.SchemaPlan.build_of_perm`).
-/

namespace Tabula

/-- A table or a model that is added to a plan. -/
inductive SchemaPlan.Addition where
  | table (t : Table)
  | declaration (m : Declaration)
deriving DecidableEq

namespace SchemaPlan.Addition

/-- The table that is added, none for a model that cannot be extracted. -/
def table? : Addition → Option Table
  | table t => some t
  | declaration m => m.table?

/-- What extraction reports about the addition. -/
def reported : Addition → List ExtractionError
  | table _ => []
  | declaration m => m.reported

/-- An addition without a table is one about which something is reported. -/
theorem table?_eq_none_iff (a : Addition) : a.table? = none ↔ a.reported ≠ [] := by
  cases a with
  | table t => simp only [table?, reported, reduceCtorEq, ne_eq, not_true_eq_false]
  | declaration m =>
      change m.table? = none ↔ m.reported ≠ []
      rw [Option.eq_none_iff_forall_ne_some, ne_eq, Declaration.reported_eq_nil_iff, not_exists]
      exact forall_congr' fun t => not_congr Declaration.table?_eq_some_iff

end SchemaPlan.Addition

namespace SchemaPlan

variable {d : Dialect} {p q : SchemaPlan}

/-- The plan with one addition more. -/
def add (p : SchemaPlan) : Addition → SchemaPlan
  | .table t => p.withTable t
  | .declaration m => p.withDeclaration m

/-- The plan of the additions, in this order. -/
def ofAdditions (as : List Addition) : SchemaPlan :=
  as.foldl add empty

private theorem foldl_add (as : List Addition) (p : SchemaPlan) :
    as.foldl add p =
      ⟨p.tables ++ as.filterMap Addition.table?, p.errors ++ as.flatMap Addition.reported⟩ := by
  induction as generalizing p with
  | nil => simp
  | cons a as ih =>
      rw [List.foldl_cons, ih]
      cases a with
      | table t => simp [add, withTable, Addition.table?, Addition.reported]
      | declaration m =>
          have one := foldl_withDeclaration [m] p
          rw [List.foldl_cons, List.foldl_nil] at one
          simp [add, one, List.filterMap_cons, Addition.table?, Addition.reported]
          cases m.table? <;> rfl

private theorem ofAdditions_eq (as : List Addition) :
    ofAdditions as = ⟨as.filterMap Addition.table?, as.flatMap Addition.reported⟩ := by
  simpa [ofAdditions, empty] using foldl_add as empty

/-- Of the tables, only their order by name counts. -/
theorem build_congr (sorted : p.sorted = q.sorted) (errors : p.errors = q.errors) :
    p.build d = q.build d := by
  simp only [build, problems, sorted, errors]

/-- A plan with extraction errors is refused with these first, then with the faults of its tables. -/
theorem build_of_errors (failed : p.errors ≠ []) :
    p.build d = .error (p.errors.map .extraction ++
      (p.sorted.flatMap (·.faults) ++ Table.faultsTogether p.sorted).map .validation) := by
  have unclean : p.problems ≠ [] := fun clean => failed (problems_eq_nil_iff.mp clean).1
  rw [build_eq_error unclean, problems, List.append_assoc, List.map_append]

/-- **The order of adding.** Where no two tables have one name, two orders of adding the same tables
and models build the same: the same schema, with its texts and its digest, or the same problems in
the same order. If there are models without a table, both orders are refused; what is reported of
these models comes first, block by block as they were added, and the rest is the same. The digest of
given texts does not depend on their order either. -/
theorem build_of_perm (d : Dialect) {first second : List Addition} (perm : first.Perm second)
    (distinct : ((first.filterMap Addition.table?).map Table.name).Nodup) :
    ((∀ a ∈ first, a.table?.isSome) →
      (ofAdditions first).build d = (ofAdditions second).build d) ∧
    ((∃ a ∈ first, a.table? = none) → ∃ rest,
      (ofAdditions first).build d =
        .error ((first.flatMap Addition.reported).map .extraction ++ rest) ∧
      (ofAdditions second).build d =
        .error ((second.flatMap Addition.reported).map .extraction ++ rest) ∧
      (first.flatMap Addition.reported).Perm (second.flatMap Addition.reported) ∧
      ∀ e, .extraction e ∉ rest) ∧
    ∀ texts texts' : List TableDdl, texts.Perm texts' → (texts.map TableDdl.table).Nodup →
      Ddl.digest texts = Ddl.digest texts' := by
  have sorted : (ofAdditions first).sorted = (ofAdditions second).sorted := by
    rw [ofAdditions_eq, ofAdditions_eq]
    exact mergeSort_eq_of_perm distinct (perm.filterMap _)
  have errors (as : List Addition) : (ofAdditions as).errors = as.flatMap Addition.reported :=
    congrArg SchemaPlan.errors (ofAdditions_eq as)
  have blocks : (first.flatMap Addition.reported).Perm (second.flatMap Addition.reported) :=
    perm.flatMap_right _
  refine ⟨fun extracted => build_congr sorted ?_, ?_, fun texts texts' permuted apart => ?_⟩
  · have silent : first.flatMap Addition.reported = [] := by
      refine List.flatMap_eq_nil_iff.mpr fun a member => ?_
      have isSome := Option.isSome_iff_ne_none.mp (extracted a member)
      rwa [ne_eq, Addition.table?_eq_none_iff, not_not] at isSome
    rw [silent] at blocks
    rw [errors, errors, silent, List.nil_perm.mp blocks]
  · rintro ⟨a, member, failed⟩
    have reports : first.flatMap Addition.reported ≠ [] := fun silent =>
      (Addition.table?_eq_none_iff a).mp failed (List.flatMap_eq_nil_iff.mp silent a member)
    have reports' : second.flatMap Addition.reported ≠ [] := by
      intro silent
      rw [silent] at blocks
      exact reports (List.perm_nil.mp blocks)
    rw [← errors] at reports reports'
    refine ⟨_, errors first ▸ build_of_errors reports, ?_, blocks, fun e isRest => ?_⟩
    · rw [build_of_errors reports', errors second, sorted]
    · obtain ⟨fault, -, same⟩ := List.mem_map.mp isRest
      cases same
  · simp only [Ddl.digest, Ddl.preimage, Ddl.ordered, mergeSort_eq_of_perm apart permuted]

/-- A model whose only field is of a type without a storage class. -/
def unstorable (name : String) : Declaration :=
  ⟨name, none, [⟨"outline", "Outline", some ColumnNotes.empty, none⟩]⟩

/-- Two tables of one name up to case among two models without a table. -/
def mixture : List Addition :=
  [.declaration (unstorable "Star"), .table (.keyed "b"), .declaration (unstorable "Disk"),
    .table (.keyed "B")]

/-- The two models change places in the report, and nothing else does. -/
theorem build_of_perm_mixture :
    ∃ rest,
      (ofAdditions mixture).build .sqlite =
        .error (.extraction ⟨"Star", "outline", .unsupportedType "Outline"⟩ ::
          .extraction ⟨"Disk", "outline", .unsupportedType "Outline"⟩ :: rest) ∧
      (ofAdditions mixture.reverse).build .sqlite =
        .error (.extraction ⟨"Disk", "outline", .unsupportedType "Outline"⟩ ::
          .extraction ⟨"Star", "outline", .unsupportedType "Outline"⟩ :: rest) := by
  have distinct : ((mixture.filterMap Addition.table?).map Table.name).Nodup := by
    decide +kernel
  have withoutTable : ∃ a ∈ mixture, a.table? = none :=
    ⟨.declaration (unstorable "Star"), List.mem_cons_self, by decide +kernel⟩
  obtain ⟨rest, forward, backward, -, -⟩ :=
    (build_of_perm .sqlite (List.reverse_perm mixture).symm distinct).2.1 withoutTable
  have starFirst : mixture.flatMap Addition.reported =
      [⟨"Star", "outline", .unsupportedType "Outline"⟩,
        ⟨"Disk", "outline", .unsupportedType "Outline"⟩] := by
    decide +kernel
  have diskFirst : mixture.reverse.flatMap Addition.reported =
      [⟨"Disk", "outline", .unsupportedType "Outline"⟩,
        ⟨"Star", "outline", .unsupportedType "Outline"⟩] := by
    decide +kernel
  rw [starFirst] at forward
  rw [diskFirst] at backward
  exact ⟨rest, forward, backward⟩

end SchemaPlan

end Tabula
