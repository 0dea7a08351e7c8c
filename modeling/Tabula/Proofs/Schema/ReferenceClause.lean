import Mathlib.Data.List.Dedup
import Tabula.Proofs.Schema.CreatedName
import Tabula.Proofs.Schema.Reference
import Tabula.Proofs.Schema.TableText

/-! # Which associations a table shows

The text of a table shows an association as a clause at the end of a column's definition. A column is
shown with the first association of its name (`Tabula.Table.references`), and these clauses can be
read off the text again (`Tabula.Table.referencesFrom_creation`). So of several associations of one
column all but the first are lost, and no association is lost just where they are of different
columns (`Tabula.Table.perm_references_iff`), as those of a model's table are
(`Tabula.Table.references_of_compile`).
-/

namespace Tabula

open Ddl

/-! ## Clauses among lexemes -/

namespace Ddl

/-- The references among the lexemes of a statement, each of the column whose line it stands in. -/
def referencesFrom (column : String) : List Lexeme → List Association
  | [] => []
  | .word .firstLine :: .name n :: rest => referencesFrom n rest
  | .word .nextLine :: .name n :: rest => referencesFrom n rest
  | .word .references :: .name target :: .word .on :: .word (.delete action) :: rest =>
    ⟨column, target, some action⟩ :: referencesFrom column rest
  | .word .references :: .name target :: rest =>
    ⟨column, target, none⟩ :: referencesFrom column rest
  | _ :: rest => referencesFrom column rest

variable {column : String} {xs rest : List Lexeme}

/-- A lexeme that neither starts a line nor references a table is passed over. -/
theorem referencesFrom_cons {x : Lexeme} (notLine : x.startsLine = false)
    (notClause : x ≠ .word .references) :
    referencesFrom column (x :: rest) = referencesFrom column rest := by
  rw [referencesFrom.eq_def]
  split
  · contradiction
  · rename_i same
    obtain ⟨rfl, -⟩ := List.cons.inj same
    cases notLine
  · rename_i same
    obtain ⟨rfl, -⟩ := List.cons.inj same
    cases notLine
  · rename_i same
    exact absurd (List.cons.inj same).1 notClause
  · rename_i same
    exact absurd (List.cons.inj same).1 notClause
  · rename_i same
    rw [(List.cons.inj same).2]

/-- Lexemes of neither a line nor a clause show nothing. -/
theorem referencesFrom_append (notLine : ∀ x ∈ xs, x.startsLine = false)
    (notClause : .word .references ∉ xs) :
    referencesFrom column (xs ++ rest) = referencesFrom column rest := by
  induction xs with
  | nil => rfl
  | cons x xs ih =>
      have isOther : x ≠ .word .references := fun same => notClause (same ▸ List.mem_cons_self)
      rw [List.cons_append, referencesFrom_cons (notLine x List.mem_cons_self) isOther,
        ih (fun y member => notLine y (List.mem_cons_of_mem x member))
          (fun member => notClause (List.mem_cons_of_mem x member))]

/-- A clause shows its association. -/
theorem referencesFrom_referenceLexemes {a : Option Association}
    (ofColumn : ∀ r ∈ a, r.column = column) (apart : ∀ x ∈ rest.head?, x ≠ .word .on) :
    referencesFrom column (referenceLexemes a ++ rest) =
      a.toList ++ referencesFrom column rest := by
  cases a with
  | none => rfl
  | some r =>
      obtain ⟨named, target, action⟩ := r
      obtain rfl : named = column := ofColumn _ rfl
      cases action with
      | some action => rfl
      | none =>
          match rest with
          | [] => rfl
          | x :: rest =>
              have notOn := apart x rfl
              simp only [referenceLexemes, List.cons_append, List.nil_append, Option.toList_some]
              rw [referencesFrom.eq_5]
              rintro action others same
              exact notOn (List.cons.inj same).1

end Ddl

private theorem Column.notClause_lexemes {c : Column} {x : Lexeme}
    (member : x ∈ c.constraintLexemes ++ c.defaultLexemes ++ c.collationLexemes) :
    x.startsLine = false ∧ x ≠ .word .references := by
  have inside : x ∈ c.lexemes none :=
    List.mem_cons_of_mem _ (List.mem_cons_of_mem _ (List.mem_append_left _ member))
  refine ⟨(starts_of_mem_lexemes inside).1, ?_⟩
  rintro rfl
  exact Bool.false_ne_true (word_mem_lexemes.mp inside)

namespace Table

variable {d : Dialect} {t : Table} {a : Association} {ddl : TableDdl}

/-- The associations that the text of the table shows, in the order of the columns. -/
def references (t : Table) : List Association :=
  t.columns.filterMap fun c => t.associationOf? c.name

private theorem column_of_associationOf? {name : String} (found : t.associationOf? name = some a) :
    a.column = name := by
  unfold associationOf? at found
  have named := List.find?_some found
  exact eq_of_beq named

private theorem mem_references_iff :
    a ∈ t.references ↔ a.column ∈ t.columnNames ∧ t.associationOf? a.column = some a := by
  constructor
  · intro shown
    obtain ⟨c, member, found⟩ := List.mem_filterMap.mp shown
    have named := column_of_associationOf? found
    exact ⟨named ▸ List.mem_map_of_mem member, named ▸ found⟩
  · rintro ⟨present, found⟩
    obtain ⟨c, member, named⟩ := List.mem_map.mp present
    exact List.mem_filterMap.mpr ⟨c, member, named ▸ found⟩

/-- What is left of the columns' names where each is kept just if something is of its column. -/
theorem map_column_references (t : Table) :
    t.references.map (·.column) = t.columnNames.filter fun n => (t.associationOf? n).isSome := by
  unfold references columnNames
  induction t.columns with
  | nil => rfl
  | cons c columns ih =>
      rw [List.map_cons]
      cases found : t.associationOf? c.name with
      | none =>
          have dropped : ¬(t.associationOf? c.name).isSome = true := by simp [found]
          rw [List.filterMap_cons, found, List.filter_cons, if_neg dropped, ih]
      | some a =>
          have named := column_of_associationOf? found
          have kept : (t.associationOf? c.name).isSome = true := by simp [found]
          rw [List.filterMap_cons, found, List.filter_cons, if_pos kept, List.map_cons, named, ih]

private theorem isSome_associationOf?_iff {name : String} :
    (t.associationOf? name).isSome = true ↔ name ∈ t.associations.map (·.column) := by
  simp only [associationOf?, List.find?_isSome, beq_iff_eq, List.mem_map]

/-! ## Clauses in the text of a table -/

private theorem definition_eq (c : Column) (a : Option Association) :
    d.definition c a = d.definition c none ++ d.referenceClause a := by
  simp only [Dialect.definition, Dialect.referenceClause, String.append_empty]

/-- A line shows what its column references. -/
theorem referencesFrom_line {column : String} {w : Word} {rest : List Lexeme} (t : Table)
    (c : Column) (starts : (Lexeme.word w).startsLine = true)
    (apart : ∀ x ∈ rest.head?, x ≠ .word .on) :
    referencesFrom column (.word w :: (c.lexemes (t.associationOf? c.name) ++ rest)) =
      (t.associationOf? c.name).toList ++ referencesFrom c.name rest := by
  have isLine (others : List Lexeme) :
      referencesFrom column (.word w :: .name c.name :: others) = referencesFrom c.name others := by
    cases w <;> first | rfl | cases starts
  have ofColumn : ∀ r ∈ t.associationOf? c.name, r.column = c.name :=
    fun r found => column_of_associationOf? found
  have isType : Lexeme.word (.storage c.storage) ≠ .word .references := by simp
  rw [Column.lexemes, List.cons_append, List.cons_append, isLine, referencesFrom_cons rfl isType,
    List.append_assoc, referencesFrom_append (fun x member => (Column.notClause_lexemes member).1)
      fun member => (Column.notClause_lexemes member).2 rfl,
    referencesFrom_referenceLexemes ofColumn apart]

/-- The lines of a statement show what their columns reference. -/
theorem referencesFrom_nextLines (t : Table) (column : String) (cs : List Column) :
    referencesFrom column
        ((cs.map fun c => .word .nextLine :: c.lexemes (t.associationOf? c.name)).flatten ++
          [.word .closeTable, .word .endStatement]) =
      cs.filterMap fun c => t.associationOf? c.name := by
  induction cs generalizing column with
  | nil => rfl
  | cons c cs ih =>
      rw [List.map_cons, List.flatten_cons, List.append_assoc, List.cons_append,
        referencesFrom_line t c rfl ?_, ih, List.filterMap_cons]
      · cases t.associationOf? c.name <;> rfl
      · cases cs <;> simp

/-- The text of a table shows one association for every column that has one, the first of them. -/
theorem referencesFrom_creation (columns : t.columns ≠ []) :
    referencesFrom "" t.creation = t.references := by
  have heading (rest : List Lexeme) : referencesFrom ""
      (.word .createTable :: .name t.name :: .word .openList :: rest) =
        referencesFrom "" rest := rfl
  unfold creation definitions references
  rw [heading]
  match t.columns, columns with
  | c :: cs, _ =>
      have body : (lines ((c :: cs).map fun c => c.lexemes (t.associationOf? c.name))).flatten =
          .word .firstLine :: (c.lexemes (t.associationOf? c.name) ++
            (cs.map fun c => .word .nextLine :: c.lexemes (t.associationOf? c.name)).flatten) := by
        rw [List.map_cons, lines, List.flatten_cons, List.map_map, List.cons_append]
        rfl
      rw [body, List.cons_append, List.append_assoc, referencesFrom_line t c rfl ?_,
        referencesFrom_nextLines, List.filterMap_cons]
      · cases t.associationOf? c.name <;> rfl
      · cases cs <;> simp

/-! ## Which associations are lost -/

/-- Every association of an accepted table is of one of its columns. -/
theorem mem_columnNames_of_dangling? (noneDangling : t.dangling? = none)
    (member : a ∈ t.associations) : a.column ∈ t.columnNames := by
  have present := List.find?_eq_none.mp noneDangling a member
  simpa [columnNames] using present

/-- The text shows one association for each column that the associations name. -/
theorem length_references (faultless : t.faults = []) (noneDangling : t.dangling? = none) :
    t.references.length = (t.associations.map (·.column)).dedup.length := by
  have named : (t.references.map (·.column)).Perm (t.associations.map (·.column)).dedup := by
    rw [map_column_references]
    refine (List.perm_ext_iff_of_nodup ((nodup_columnNames faultless).filter _)
      (List.nodup_dedup _)).mpr fun name => ?_
    rw [List.mem_filter, isSome_associationOf?_iff, List.mem_dedup]
    refine ⟨And.right, fun isNamed => ⟨?_, isNamed⟩⟩
    obtain ⟨a, member, rfl⟩ := List.mem_map.mp isNamed
    exact mem_columnNames_of_dangling? noneDangling member
  rw [← named.length_eq, List.length_map]

/-- No association is lost just where no two of them are of one column. -/
theorem perm_references_iff (faultless : t.faults = []) (noneDangling : t.dangling? = none) :
    t.references.Perm t.associations ↔ (t.associations.map (·.column)).Nodup := by
  have shownApart : (t.references.map (·.column)).Nodup :=
    map_column_references t ▸ (nodup_columnNames faultless).filter _
  constructor
  · intro perm
    exact (perm.map _).nodup_iff.mp shownApart
  · intro apart
    refine (List.perm_ext_iff_of_nodup shownApart.of_map apart.of_map).mpr fun a => ?_
    rw [mem_references_iff]
    constructor
    · exact fun shown => List.mem_of_find?_eq_some shown.2
    · intro member
      refine ⟨mem_columnNames_of_dangling? noneDangling member, ?_⟩
      have same : (a.column == a.column) = true := beq_self_eq_true _
      refine (find?_eq_of_unique member fun b memberB named => ?_).trans (if_pos same)
      exact List.inj_on_of_nodup_map apart memberB member (eq_of_beq named)

end Table

namespace Declaration

variable {m : Declaration} {t : Table}

/-- The columns of a model's table have the names that its mapped fields give them. -/
theorem columnNames_of_extract (extracted : m.extract = .ok t) :
    t.columnNames = m.mapped.map (·.columnName) := by
  obtain ⟨-, -, -, columns, -⟩ := extract_eq_ok extracted
  have names := congrArg (List.map fun r => r.toOption.map Column.name) columns
  rw [List.map_map, List.map_map] at names
  have ofFields : m.mapped.map ((fun r => r.toOption.map Column.name) ∘ FieldDeclaration.extract) =
      m.mapped.map (some ∘ (·.columnName)) := by
    refine List.map_congr_left fun f mapped => ?_
    have present : f.extract ∈ t.columns.map Except.ok := columns ▸ List.mem_map_of_mem mapped
    obtain ⟨c, -, isColumn⟩ := List.mem_map.mp present
    have named := (FieldDeclaration.extract_eq_ok isColumn.symm).2
    rw [Function.comp_apply, ← isColumn, Function.comp_apply, ← named]
    rfl
  refine List.map_injective_iff.mpr (fun _ _ => Option.some.inj) ?_
  rw [Table.columnNames, List.map_map, List.map_map, ← ofFields, ← names]
  rfl

/-- A field makes one association at most, so those of a model's table are of different columns if
the columns are different. -/
theorem nodup_associations_of_extract (extracted : m.extract = .ok t) (faultless : t.faults = []) :
    (t.associations.map (·.column)).Nodup := by
  have ofFields (fs : List FieldDeclaration) :
      ((fs.filterMap (·.association?)).map (·.column)).Sublist (fs.map (·.columnName)) := by
    induction fs with
    | nil => exact List.Sublist.slnil
    | cons f fs ih =>
        cases found : f.association? with
        | none =>
            rw [List.filterMap_cons_none found]
            exact ih.cons _
        | some a =>
            obtain ⟨target, -, rfl⟩ := Option.map_eq_some_iff.mp found
            rw [List.filterMap_cons_some found]
            exact ih.cons_cons _
  have columns := Table.nodup_columnNames faultless
  rw [columnNames_of_extract extracted] at columns
  rw [(extract_eq_ok extracted).2.2.2.2]
  exact columns.sublist (ofFields m.mapped)

end Declaration

namespace Table

variable {d : Dialect} {t : Table} {ddl : TableDdl}

/-- **References in the text of a table.** In every dialect, each column of an accepted table is
defined on a line of its own, at the end of which stands the clause of the first association of that
name. So the text of the engine's dialect, read into lexemes in any way with the default values at
hand, shows one association for each column that the associations name, the first of each. An
association is shown just if it is the first of its column; all are shown, and as many clauses as
there are associations, just if no two are of one column. This holds of the table of a model. -/
theorem references_of_compile (compiled : t.compile d = .ok ddl) :
    (ddl.createTable = "CREATE TABLE IF NOT EXISTS " ++ d.quote t.name ++
      (" (\n" ++ (",\n".intercalate (t.columns.map fun c =>
        "    " ++ (d.definition c none ++ d.referenceClause (t.associationOf? c.name))) ++ "\n)"))) ∧
    (d = .sqlite →
      (∃ xs, Spaced xs ∧ defaults xs = t.columns.filterMap (·.defaultExpr) ∧
        spelling xs = (ddl.createTable ++ ";\n").toList) ∧
      ∀ xs, Spaced xs → defaults xs = t.columns.filterMap (·.defaultExpr) →
        spelling xs = (ddl.createTable ++ ";\n").toList →
          referencesFrom "" xs = t.references) ∧
    (∀ a ∈ t.associations, ∃ c ∈ t.columns, c.name = a.column ∧
      (∀ other ∈ t.columns, other.name = a.column → other = c) ∧
      (a ∈ t.references ↔ t.associationOf? c.name = some a)) ∧
    t.references.length = (t.associations.map (·.column)).dedup.length ∧
    (t.references.length = t.associations.length ↔ (t.associations.map (·.column)).Nodup) ∧
    (t.references.Perm t.associations ↔ (t.associations.map (·.column)).Nodup) ∧
    ∀ m : Declaration, m.extract = .ok t → t.references.Perm t.associations := by
  obtain ⟨faultless, noneDangling, rfl⟩ := compile_eq_ok_iff.mp compiled
  have columns := columns_ne_nil faultless
  have count := length_references faultless noneDangling
  have allShown := perm_references_iff faultless noneDangling
  refine ⟨?_, ?_, fun a member => ?_, count, ?_, allShown, fun m extracted => ?_⟩
  · refine (Dialect.createTable_eq t).trans ?_
    simp only [← definition_eq]
  · rintro rfl
    have creation : spelling t.creation = ((t.ddl .sqlite).createTable ++ ";\n").toList :=
      spelling_creation columns
    refine ⟨⟨t.creation, phrase_creation.spaced, defaults_creation t, creation⟩, ?_⟩
    intro xs spaced sameDefaults same
    rw [spelling_injective spaced phrase_creation.spaced (sameDefaults.trans
      (defaults_creation t).symm) (same.trans creation.symm), referencesFrom_creation columns]
  · obtain ⟨c, isColumn, named⟩ :=
      List.mem_map.mp (mem_columnNames_of_dangling? noneDangling member)
    refine ⟨c, isColumn, named, fun other isOther same => ?_, ?_⟩
    · exact List.inj_on_of_nodup_map (nodup_columnNames faultless) isOther isColumn
        (same.trans named.symm)
    · rw [mem_references_iff, named]
      exact and_iff_right (named ▸ List.mem_map_of_mem isColumn)
  · have asMany : (t.associations.map (·.column)).length = t.associations.length :=
      List.length_map _
    rw [count, ← asMany]
    exact ⟨fun same => List.dedup_eq_self.mp ((List.dedup_sublist _).eq_of_length same),
      fun apart => by rw [apart.dedup]⟩
  · exact allShown.mpr (Declaration.nodup_associations_of_extract extracted faultless)

/-- A table of a key and a column that makes the references. -/
def referring (column : String) (associations : List Association) : Table where
  name := "book"
  model := "book"
  columns := [(Column.plain "id" .integer).asKey true, .plain column .integer]
  associations := associations

/-- A reference with an action is shown, at the end of its column's line. -/
theorem references_of_compile_author :
    let a : Association := ⟨"author", "Author", some .cascade⟩
    ((referring "author" [a]).ddl .sqlite).createTable =
        "CREATE TABLE IF NOT EXISTS \"book\" (\n    \"id\" INTEGER PRIMARY KEY,\n    " ++
          "\"author\" INTEGER NOT NULL REFERENCES \"Author\" ON DELETE CASCADE\n)" ∧
      (referring "author" [a]).references.Perm [a] := by
  intro a
  have compiled : (referring "author" [a]).compile .sqlite =
      .ok ((referring "author" [a]).ddl .sqlite) :=
    compile_eq_ok_iff.mpr ⟨by decide +kernel, by decide +kernel, rfl⟩
  obtain ⟨-, -, -, -, -, allShown, -⟩ := references_of_compile compiled
  exact ⟨by decide +kernel, allShown.mpr (by decide +kernel)⟩

/-- Of two references of one column, the second is lost. -/
theorem references_lost_author :
    let t := referring "author" [⟨"author", "Author", none⟩, ⟨"author", "Person", none⟩]
    t.compile .sqlite = .ok (t.ddl .sqlite) ∧
      (t.ddl .sqlite).createTable =
        "CREATE TABLE IF NOT EXISTS \"book\" (\n    \"id\" INTEGER PRIMARY KEY,\n    " ++
          "\"author\" INTEGER NOT NULL REFERENCES \"Author\"\n)" ∧
      t.associations.length = 2 ∧ t.references = [⟨"author", "Author", none⟩] := by
  refine ⟨compile_eq_ok_iff.mpr ⟨?_, ?_, rfl⟩, ?_, rfl, ?_⟩ <;> decide +kernel

end Table

end Tabula
