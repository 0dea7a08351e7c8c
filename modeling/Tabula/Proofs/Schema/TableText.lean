import Mathlib.Data.List.Forall2
import Mathlib.Data.List.Nodup
import Tabula.Proofs.Schema.ColumnText
import Tabula.Proofs.Schema.Diagnosis

/-! # What the statements of a table say

The statements that create a table and its indexes are cut into lexemes, statement by statement
(`Tabula.Table.script`). Statements with the same texts have the same lexemes
(`Tabula.Table.script_of_ddl_eq`), and these are the same only if the tables agree in everything that
the statements show (`Tabula.Table.alike_of_script_eq`).
-/

namespace Tabula

open Ddl

/-! ## Tables -/

namespace Ddl

/-- The lexemes of the lines of a list, each with what stands between it and the line before. -/
def lines : List (List Lexeme) → List (List Lexeme)
  | [] => []
  | first :: others => (.word .firstLine :: first) :: others.map (.word .nextLine :: ·)

private theorem lines_injective {xss yss : List (List Lexeme)} (same : lines xss = lines yss) :
    xss = yss := by
  match xss, yss with
  | [], [] => rfl
  | [], _ :: _ => cases same
  | _ :: _, [] => cases same
  | xs :: xss, ys :: yss =>
      obtain ⟨first, others⟩ := List.cons.inj same
      have sameOthers := List.map_injective_iff.mpr (List.cons_injective) others
      rw [(List.cons.inj first).2, sameOthers]

private theorem intercalate_cons (separator first : String) (others : List String) :
    separator.intercalate (first :: others) =
      first ++ String.join (others.map (separator ++ ·)) := by
  induction others generalizing first with
  | nil => simp
  | cons second others ih =>
      rw [String.intercalate_cons_cons, ih, List.map_cons, String.join_cons]
      simp only [String.append_assoc]

/-- Each line after the first one is written after a comma, and indented. -/
theorem spelling_nextLines {xss : List (List Lexeme)} {texts : List String}
    (written : xss.map spelling = texts.map String.toList) :
    (xss.map (.word .nextLine :: ·)).flatMap spelling =
      (String.join ((texts.map ("    " ++ ·)).map (",\n" ++ ·))).toList := by
  have nextWords : ",\n    ".toList = ",\n".toList ++ "    ".toList := by decide +kernel
  induction xss generalizing texts with
  | nil =>
      obtain rfl := List.map_eq_nil_iff.mp written.symm
      simp
  | cons xs xss ih =>
      match texts with
      | text :: texts =>
          obtain ⟨first, others⟩ := List.cons.inj written
          simp only [List.map_cons, List.flatMap_cons, String.join_cons, ih others, first,
            spelling_cons, Lexeme.chars_word, Word.text, nextWords, String.toList_append,
            List.append_assoc]

/-- The lines of a list are indented and separated by commas. -/
theorem spelling_lines {xss : List (List Lexeme)} {texts : List String} (nonempty : xss ≠ [])
    (written : xss.map spelling = texts.map String.toList) :
    spelling (lines xss).flatten =
      "\n".toList ++ (",\n".intercalate (texts.map ("    " ++ ·))).toList := by
  have firstWords : "\n    ".toList = "\n".toList ++ "    ".toList := by decide +kernel
  match xss, texts with
  | xs :: xss, text :: texts =>
      obtain ⟨first, others⟩ := List.cons.inj written
      simp only [lines, spelling_flatten, List.flatMap_cons, spelling_nextLines others,
        List.map_cons, intercalate_cons, spelling_cons, Lexeme.chars_word, Word.text, firstWords,
        first, String.toList_append, List.append_assoc]

end Ddl

namespace Table

variable {t t' : Table}

/-- The lexemes of the definitions of the columns. -/
def definitions (t : Table) : List (List Lexeme) :=
  t.columns.map fun c => c.lexemes (t.associationOf? c.name)

/-- The lexemes of the statement that creates a table, with its end. -/
def creation (t : Table) : List Lexeme :=
  .word .createTable :: .name t.name :: .word .openList ::
    ((lines t.definitions).flatten ++ [.word .closeTable, .word .endStatement])

/-- The lexemes of the statements that create a table and its indexes. -/
def script (t : Table) : List (List Lexeme) :=
  t.creation :: (t.columns.filter (·.needsIndex)).map (·.indexCreation t.name)

/-- The statement that creates a table is spelled by its lexemes. -/
theorem spelling_creation (columns : t.columns ≠ []) :
    spelling t.creation = (Dialect.sqlite.createTable t ++ ";\n").toList := by
  have openWords : " (\n".toList = " (".toList ++ "\n".toList := by decide +kernel
  have written : t.definitions.map spelling =
      (t.columns.map fun c => Dialect.sqlite.definition c (t.associationOf? c.name)).map
        String.toList := by
    rw [definitions, List.map_map, List.map_map]
    exact List.map_congr_left fun c _ => Column.spelling_lexemes
  have nonempty : t.definitions ≠ [] := by simpa [definitions] using columns
  have rows := spelling_lines nonempty written
  rw [List.map_map, Function.comp_def] at rows
  unfold creation Dialect.createTable
  simp only [spelling_cons, spelling_append, spelling_nil, rows, Lexeme.chars_word,
    Lexeme.chars_name, Word.text, String.toList_append, toList_quote, openWords,
    List.append_assoc, List.append_nil]

/-- The statements of a table are spelled by their lexemes. -/
theorem spelling_script (columns : t.columns ≠ []) :
    t.script.map spelling =
      ((t.ddl .sqlite).statements.map fun s => (s ++ ";\n").toList) := by
  simp only [script, ddl, TableDdl.statements, List.map_cons, List.map_map,
    spelling_creation columns, List.cons.injEq, true_and]
  exact List.map_congr_left fun c _ => Column.spelling_indexCreation t.name

private theorem phrase_lines {xss : List (List Lexeme)} (each : ∀ xs ∈ xss, Spaced xs) :
    Phrase (lines xss).flatten := by
  refine Phrase.flatten fun line member => ?_
  match xss with
  | xs :: xss =>
      rcases List.mem_cons.mp member with rfl | later
      · exact Phrase.word (each xs List.mem_cons_self)
      · obtain ⟨ys, memberYs, rfl⟩ := List.mem_map.mp later
        exact Phrase.word (each ys (List.mem_cons_of_mem _ memberYs))

/-- The lexemes that create a table may stand after any others. -/
theorem phrase_creation : Phrase t.creation := by
  have ofLines : Phrase (lines t.definitions).flatten := by
    refine phrase_lines fun xs member => ?_
    obtain ⟨c, -, rfl⟩ := List.mem_map.mp member
    exact Column.spaced_lexemes
  have ofEnd : Phrase [.word .closeTable, .word .endStatement] :=
    Phrase.word (Phrase.word Phrase.nil.spaced).spaced
  exact Phrase.word (Spaced.name (Phrase.word (ofLines.append ofEnd).spaced))

/-- The lexemes of all statements of a table may stand after any others. -/
theorem phrase_script : Phrase t.script.flatten := by
  refine Phrase.flatten fun statement member => ?_
  rcases List.mem_cons.mp member with rfl | ofIndex
  · exact phrase_creation
  · obtain ⟨c, -, rfl⟩ := List.mem_map.mp ofIndex
    exact Column.phrase_indexCreation t.name c

private theorem defaults_lines (xss : List (List Lexeme)) :
    defaults (lines xss).flatten = xss.flatMap defaults := by
  match xss with
  | [] => rfl
  | xs :: xss =>
      rw [lines, defaults_flatten, List.flatMap_cons, List.flatMap_cons, List.flatMap_map]
      rfl

/-- The defaults in the statement that creates a table are those of its columns. -/
theorem defaults_creation (t : Table) :
    defaults t.creation = t.columns.filterMap (·.defaultExpr) := by
  have ofLines := defaults_lines t.definitions
  have skip (n : String) (v w : Word) (xs : List Lexeme) :
      defaults (.word v :: .name n :: .word w :: xs) = defaults xs := rfl
  rw [creation, skip, defaults_append, ofLines, definitions, List.flatMap_map,
    List.filterMap_eq_flatMap_toList]
  simp only [Column.defaults_lexemes]
  exact List.append_nil _

/-- The defaults in the statements of a table are those of its columns. -/
theorem defaults_script : defaults t.script.flatten = t.columns.filterMap (·.defaultExpr) := by
  have ofIndexes : ((t.columns.filter (·.needsIndex)).map (·.indexCreation t.name)).flatMap
      defaults = [] := by
    refine List.flatMap_eq_nil_iff.mpr fun statement member => ?_
    obtain ⟨c, -, rfl⟩ := List.mem_map.mp member
    rfl
  rw [defaults_flatten, script, List.flatMap_cons, defaults_creation, ofIndexes, List.append_nil]

private theorem block_line {xss : List (List Lexeme)}
    (inside : ∀ xs ∈ xss, ∀ x ∈ xs, x.startsLine = false) :
    ∀ line ∈ lines xss, Block Lexeme.startsLine line := by
  intro line member
  match xss with
  | xs :: xss =>
      rcases List.mem_cons.mp member with rfl | later
      · exact ⟨_, xs, rfl, rfl, inside xs List.mem_cons_self⟩
      · obtain ⟨ys, memberYs, rfl⟩ := List.mem_map.mp later
        exact ⟨_, ys, rfl, rfl, inside ys (List.mem_cons_of_mem _ memberYs)⟩

private theorem mem_lines {xss : List (List Lexeme)} {x : Lexeme}
    (member : x ∈ (lines xss).flatten) :
    x = .word .firstLine ∨ x = .word .nextLine ∨ ∃ xs ∈ xss, x ∈ xs := by
  obtain ⟨line, ofLines, inside⟩ := List.mem_flatten.mp member
  match xss with
  | xs :: xss =>
      rcases List.mem_cons.mp ofLines with rfl | later
      · rcases List.mem_cons.mp inside with rfl | rest
        · exact Or.inl rfl
        · exact Or.inr (Or.inr ⟨xs, List.mem_cons_self, rest⟩)
      · obtain ⟨ys, memberYs, rfl⟩ := List.mem_map.mp later
        rcases List.mem_cons.mp inside with rfl | rest
        · exact Or.inr (Or.inl rfl)
        · exact Or.inr (Or.inr ⟨ys, List.mem_cons_of_mem _ memberYs, rest⟩)

private theorem starts_of_mem_definitions {xs : List Lexeme} (member : xs ∈ t.definitions) :
    ∀ x ∈ xs, x.startsLine = false ∧ x.startsStatement = false := by
  obtain ⟨c, -, rfl⟩ := List.mem_map.mp member
  exact fun x inside => Column.starts_of_mem_lexemes inside

/-- The lexemes that create a table are one statement. -/
theorem block_creation (t : Table) : Block Lexeme.startsStatement t.creation := by
  refine ⟨_, _, rfl, rfl, fun x member => ?_⟩
  simp only [List.mem_cons, List.mem_append, List.not_mem_nil, or_false] at member
  rcases member with rfl | rfl | ofLines | rfl | rfl
  · rfl
  · rfl
  · rcases mem_lines ofLines with rfl | rfl | ⟨xs, ofTable, inside⟩
    · rfl
    · rfl
    · exact (starts_of_mem_definitions ofTable x inside).2
  · rfl
  · rfl

/-- The lexemes of each statement of a table are one statement. -/
theorem block_script {statement : List Lexeme} (member : statement ∈ t.script) :
    Block Lexeme.startsStatement statement := by
  rcases List.mem_cons.mp member with rfl | ofIndex
  · exact block_creation t
  · obtain ⟨c, -, rfl⟩ := List.mem_map.mp ofIndex
    exact Column.block_indexCreation t.name c

/-- The name and the definitions can be read off the statement that creates a table. -/
theorem definitions_of_creation_eq (same : t.creation = t'.creation) :
    t.name = t'.name ∧ t.definitions = t'.definitions := by
  simp only [creation, List.cons.injEq, Lexeme.name.injEq, true_and] at same
  refine ⟨same.1, lines_injective (flatten_blocks_injective (block_line ?_) (block_line ?_)
    (List.append_cancel_right same.2))⟩
  · exact fun xs member x inside => (starts_of_mem_definitions member x inside).1
  · exact fun xs member x inside => (starts_of_mem_definitions member x inside).1

/-- No two columns of an accepted table share their name, not even up to case. -/
theorem nodup_lowerNames (faultless : t.faults = []) :
    (t.columns.map fun c => Text.lower c.name).Nodup := by
  simp only [faults, List.append_eq_nil_iff, duplicateColumns, List.map_eq_nil_iff,
    List.filter_eq_nil_iff, decide_eq_true_eq, not_lt] at faultless
  refine List.nodup_iff_count_le_one.mpr fun name => ?_
  by_cases present : name ∈ t.columns.map fun c => Text.lower c.name
  · obtain ⟨c, member, rfl⟩ := List.mem_map.mp present
    refine le_trans (le_of_eq ?_) (faultless.1.1 c member)
    rw [List.count, List.countP_map, countNamed]
    rfl
  · rw [List.count_eq_zero.mpr present]
    exact Nat.zero_le 1

/-- A table without faults has no column name twice. -/
theorem nodup_columnNames (faultless : t.faults = []) : t.columnNames.Nodup := by
  refine List.Nodup.of_map Text.lower ?_
  rw [columnNames, List.map_map]
  exact nodup_lowerNames faultless

/-- A table without faults has a column. -/
theorem columns_ne_nil (faultless : t.faults = []) : t.columns ≠ [] := by
  intro empty
  simp [faults, empty] at faultless

/-- Whether a column has an index can be read off the names of the columns that have one. -/
theorem needsIndex_iff (faultless : t.faults = []) {c : Column} (member : c ∈ t.columns) :
    c.needsIndex ↔ c.name ∈ (t.columns.filter (·.needsIndex)).map (·.name) := by
  constructor
  · intro indexed
    exact List.mem_map_of_mem (List.mem_filter.mpr ⟨member, indexed⟩)
  · intro named
    obtain ⟨other, filtered, sameName⟩ := List.mem_map.mp named
    obtain ⟨memberOther, indexed⟩ := List.mem_filter.mp filtered
    have same := List.inj_on_of_nodup_map (nodup_columnNames faultless) memberOther member sameName
    exact same ▸ indexed

/-- The names of the indexed columns can be read off the statements that create the indexes. -/
theorem indexed_of_script_eq (same : t.script = t'.script) :
    (t.columns.filter (·.needsIndex)).map (·.name) =
      (t'.columns.filter (·.needsIndex)).map (·.name) := by
  have indexes := (List.cons.inj same).2
  have names := congrArg (List.map fun xs => xs.filterMap Lexeme.name? |>.getLastD "") indexes
  rw [List.map_map, List.map_map] at names
  exact names

/-! ## Reading a table off its statements -/

/-- The lexemes of a table with the same default values can be read off its statements. -/
theorem script_of_ddl_eq (columns : t.columns ≠ []) (columns' : t'.columns ≠ [])
    (sameDefaults : t.columns.filterMap (·.defaultExpr) = t'.columns.filterMap (·.defaultExpr))
    (same : t.ddl .sqlite = t'.ddl .sqlite) : t.script = t'.script := by
  have spelled : spelling t.script.flatten = spelling t'.script.flatten := by
    rw [spelling_flatten, spelling_flatten, List.flatMap_def, List.flatMap_def,
      spelling_script columns, spelling_script columns', same]
  rw [← defaults_script, ← defaults_script] at sameDefaults
  have sameLexemes := spelling_injective phrase_script.spaced phrase_script.spaced sameDefaults
    spelled
  exact flatten_blocks_injective (fun _ => block_script) (fun _ => block_script) sameLexemes

/-- Two tables that agree in everything that their statements say besides the default values. -/
structure Alike (t t' : Table) : Prop where
  name : t.name = t'.name
  columns : List.Forall₂ (fun c c' =>
    c.Alike c' (t.associationOf? c.name) (t'.associationOf? c'.name) ∧
      c.needsIndex = c'.needsIndex) t.columns t'.columns

/-- Tables of the same lexemes are alike. -/
theorem alike_of_script_eq (faultless : t.faults = []) (faultless' : t'.faults = [])
    (same : t.script = t'.script) : t.Alike t' := by
  obtain ⟨sameName, sameDefinitions⟩ := definitions_of_creation_eq (List.cons.inj same).1
  have sameIndexed := indexed_of_script_eq same
  have pairs : List.Forall₂ (fun c c' =>
      c.lexemes (t.associationOf? c.name) = c'.lexemes (t'.associationOf? c'.name))
      t.columns t'.columns := by
    rw [definitions, definitions, ← List.forall₂_eq_eq_eq, List.forall₂_map_left_iff,
      List.forall₂_map_right_iff] at sameDefinitions
    exact sameDefinitions
  refine ⟨sameName, List.forall₂_iff_zip.mpr ⟨pairs.length_eq, fun {c c'} paired => ?_⟩⟩
  have alike := Column.alike_of_lexemes_eq (List.forall₂_zip pairs paired)
  obtain ⟨member, member'⟩ := List.of_mem_zip paired
  refine ⟨alike, Bool.eq_iff_iff.mpr ?_⟩
  rw [needsIndex_iff faultless member, needsIndex_iff faultless' member', sameIndexed, alike.name]

/-- **Reading a table off its statements.** Two tables that compile to the same statements and have
the same default values, in the order of their columns, are alike. -/
theorem alike_of_compile_eq {ddl : TableDdl} (compiled : t.compile .sqlite = .ok ddl)
    (compiled' : t'.compile .sqlite = .ok ddl)
    (sameDefaults : t.columns.filterMap (·.defaultExpr) = t'.columns.filterMap (·.defaultExpr)) :
    t.Alike t' := by
  obtain ⟨faultless, -, isDdl⟩ := compile_eq_ok_iff.mp compiled
  obtain ⟨faultless', -, isDdl'⟩ := compile_eq_ok_iff.mp compiled'
  exact alike_of_script_eq faultless faultless' (script_of_ddl_eq (columns_ne_nil faultless)
    (columns_ne_nil faultless') sameDefaults (isDdl.trans isDdl'.symm))

/-- A table with a unique column. -/
def withUnique (policy : ConflictPolicy) (indexed : Bool) : Table where
  name := "book"
  model := "Book"
  columns := [(Column.plain "id" .integer).asKey true,
    { Column.plain "isbn" .text with unique := true, onConflict := policy, indexed := indexed }]
  associations := []

/-- A unique column aborts unless told otherwise, and has an index unasked. -/
theorem alike_withUnique : (withUnique .unset false).Alike (withUnique .abort true) :=
  alike_of_compile_eq (compile_eq_ok_iff.mpr ⟨by decide +kernel, by decide +kernel, rfl⟩)
    (compile_eq_ok_iff.mpr ⟨by decide +kernel, by decide +kernel, by decide +kernel⟩) rfl

end Table

end Tabula
