import Tabula.Proofs.Schema.TableText

/-! # What the digest of a schema says

The text that a digest is taken of is the statements of all tables one after the other, with nothing
that tells how long they are. It can still be cut into statements in one way only, since a name
cannot leave its quotes: schemas without default values whose texts are the same have the same
statements (`Tabula.SchemaPlan.ddl_eq_of_bytes_eq`). Equal digests mean the same statements as far
as the hash tells the two texts apart (`Tabula.Ddl.preimage_eq_of_digest_eq`).
-/

namespace Tabula

open Ddl

/-! ## Digests -/

/-- The digits of a byte tell the byte. -/
theorem Text.hexUpper_injective {xs ys : List UInt8} (same : hexUpper xs = hexUpper ys) :
    xs = ys := by
  have digits : ∀ m < 16, ∀ n < 16,
      (hexDigit m).toUpper = (hexDigit n).toUpper → m = n := by decide
  induction xs generalizing ys with
  | nil =>
      cases ys with
      | nil => rfl
      | cons y ys => cases same
  | cons x xs ih =>
      cases ys with
      | nil => cases same
      | cons y ys =>
          obtain ⟨high, rest⟩ := List.cons.inj same
          obtain ⟨low, later⟩ := List.cons.inj rest
          have sameHigh := digits _ (by have := x.toNat_lt; omega) _
            (by have := y.toNat_lt; omega) high
          have sameLow := digits _ (Nat.mod_lt _ (by decide)) _ (Nat.mod_lt _ (by decide)) low
          have sameByte : x = y := UInt8.toNat_inj.mp (by omega)
          rw [sameByte, ih later]

/-- Two different byte strings that the hash does not tell apart. -/
def Sha256.Collision (x y : List UInt8) : Prop :=
  x ≠ y ∧ hash x = hash y

private theorem Ddl.preimage_eq_of_digest_eq {ds ds' : List TableDdl}
    (apart : ¬ Sha256.Collision (Text.bytes (preimage ds)) (Text.bytes (preimage ds')))
    (same : digest ds = digest ds') : Text.bytes (preimage ds) = Text.bytes (preimage ds') := by
  by_contra different
  exact apart ⟨different, Text.hexUpper_injective (String.ofList_injective same)⟩

/-! ## Tables -/

namespace Table

variable {t t' : Table} {ts ts' : List Table}

private theorem block_script_flatten (t : Table) : Block Lexeme.startsTable t.script.flatten := by
  obtain ⟨x, rest, isCreation, -, inside⟩ := block_creation t
  obtain rfl : x = .word .createTable := (List.cons.inj isCreation).1.symm
  refine ⟨.word .createTable,
    rest ++ ((t.columns.filter (·.needsIndex)).map (·.indexCreation t.name)).flatten, ?_, rfl,
    fun y member => ?_⟩
  · rw [script, List.flatten_cons, isCreation, List.cons_append]
  · rcases List.mem_append.mp member with ofCreation | ofIndexes
    · exact Lexeme.startsTable_of_startsStatement (inside y ofCreation)
    · obtain ⟨statement, ofTable, within⟩ := List.mem_flatten.mp ofIndexes
      obtain ⟨c, -, rfl⟩ := List.mem_map.mp ofTable
      simp only [Column.indexCreation, List.mem_cons, List.not_mem_nil, or_false] at within
      rcases within with rfl | rfl | rfl | rfl | rfl | rfl | rfl | rfl <;> rfl

/-- The statements of a table are the text of its lexemes. -/
theorem ddl_of_script_eq (columns : t.columns ≠ []) (columns' : t'.columns ≠ [])
    (same : t.script = t'.script) : t.ddl .sqlite = t'.ddl .sqlite := by
  have sameName := (definitions_of_creation_eq (List.cons.inj same).1).1
  have texts := spelling_script columns
  rw [same, spelling_script columns'] at texts
  have statements : (t'.ddl .sqlite).statements = (t.ddl .sqlite).statements := by
    refine List.map_injective_iff.mpr (fun first second equal => ?_) texts
    simp only [String.toList_append] at equal
    exact String.toList_injective (List.append_cancel_right equal)
  obtain ⟨sameTable, sameIndexes⟩ := List.cons.inj statements
  exact TableDdl.mk.injEq .. ▸ ⟨sameName, sameTable.symm, sameIndexes.symm⟩

/-- Tables are told by the lexemes of their statements, one table after the other. -/
theorem map_ddl_of_scripts_eq (columns : ∀ t ∈ ts, t.columns ≠ [])
    (columns' : ∀ t ∈ ts', t.columns ≠ [])
    (same : ts.flatMap (·.script.flatten) = ts'.flatMap (·.script.flatten)) :
    ts.map (·.ddl .sqlite) = ts'.map (·.ddl .sqlite) := by
  rw [List.flatMap_def, List.flatMap_def] at same
  have blocks (tables : List Table) :
      ∀ xs ∈ tables.map (·.script.flatten), Block Lexeme.startsTable xs := by
    intro xs member
    obtain ⟨t, -, rfl⟩ := List.mem_map.mp member
    exact block_script_flatten t
  have scripts := flatten_blocks_injective (blocks ts) (blocks ts') same
  rw [← List.forall₂_eq_eq_eq, List.forall₂_map_left_iff, List.forall₂_map_right_iff] at scripts ⊢
  refine List.forall₂_iff_zip.mpr ⟨scripts.length_eq, fun {t t'} paired => ?_⟩
  obtain ⟨member, member'⟩ := List.of_mem_zip paired
  have sameScript := flatten_blocks_injective (fun _ => block_script) (fun _ => block_script)
    (List.forall₂_zip scripts paired)
  exact ddl_of_script_eq (columns t member) (columns' t' member') sameScript

/-- A table of nothing but a key. -/
def keyed (name : String) : Table where
  name := name
  model := name
  columns := [(Column.plain "id" .integer).asKey true]
  associations := []

end Table

/-! ## Schemas -/

namespace SchemaPlan

variable {p q : SchemaPlan} {s s' : Schema}

/-- The text that is hashed is the text of the lexemes of all tables. -/
theorem toList_preimage (built : p.build .sqlite = .ok s) :
    (Ddl.preimage s.ddl).toList = spelling (s.tables.flatMap (·.script.flatten)) := by
  have inOrder : Ddl.ordered s.ddl = s.ddl := mergeSort_of_ascending (ddl_ascend built)
  rw [Ddl.preimage, inOrder, ddl_eq_map built, String.toList_join, List.flatMap_map,
    List.flatMap_assoc, spelling, List.flatMap_assoc]
  refine List.flatMap_congr fun t member => ?_
  have faultless := (faultless_of_built built member).2
  have written := Table.spelling_script (Table.columns_ne_nil faultless)
  calc ((t.ddl .sqlite).statements.map (· ++ ";\n")).flatMap String.toList
      = ((t.ddl .sqlite).statements.map fun s => (s ++ ";\n").toList).flatten := by
        rw [List.flatMap_def, List.map_map, Function.comp_def]
    _ = spelling t.script.flatten := by
        rw [← written, ← List.flatMap_def, spelling_flatten]

private theorem defaults_of_bare (built : p.build .sqlite = .ok s)
    (bare : ∀ t ∈ p.tables, ∀ c ∈ t.columns, c.defaultExpr = none) :
    defaults (s.tables.flatMap (·.script.flatten)) = [] := by
  rw [defaults, List.filterMap_flatMap, List.flatMap_eq_nil_iff]
  intro t member
  have none := bare t (faultless_of_built built member).1
  exact Table.defaults_script.trans (List.filterMap_eq_nil_iff.mpr none)

private theorem phrase_scripts (ts : List Table) : Phrase (ts.flatMap (·.script.flatten)) := by
  rw [List.flatMap_def]
  refine Phrase.flatten fun xs member => ?_
  obtain ⟨t, -, rfl⟩ := List.mem_map.mp member
  exact Table.phrase_script

/-- Schemas without default values whose hashed texts are the same have the same statements. -/
theorem ddl_eq_of_bytes_eq (built : p.build .sqlite = .ok s) (built' : q.build .sqlite = .ok s')
    (bare : ∀ t ∈ p.tables, ∀ c ∈ t.columns, c.defaultExpr = none)
    (bare' : ∀ t ∈ q.tables, ∀ c ∈ t.columns, c.defaultExpr = none)
    (same : Text.bytes (Ddl.preimage s.ddl) = Text.bytes (Ddl.preimage s'.ddl)) :
    s.ddl = s'.ddl := by
  have texts := congrArg String.toList (Text.bytes_injective same)
  rw [toList_preimage built, toList_preimage built'] at texts
  have scripts := spelling_injective (phrase_scripts s.tables).spaced
    (phrase_scripts s'.tables).spaced
    ((defaults_of_bare built bare).trans (defaults_of_bare built' bare').symm) texts
  rw [ddl_eq_map built, ddl_eq_map built']
  refine Table.map_ddl_of_scripts_eq (fun t member => ?_) (fun t member => ?_) scripts
  · exact Table.columns_ne_nil (faultless_of_built built member).2
  · exact Table.columns_ne_nil (faultless_of_built built' member).2

/-- **What equal digests mean.** Two schemas without default values whose statements are hashed from
the same bytes have the same statements, table by table. So their digests are the same, and a
database is kept, for the same statements only, unless the hash fails to tell these two byte strings
apart. -/
theorem ddl_eq_of_preimage_eq (built : p.build .sqlite = .ok s)
    (built' : q.build .sqlite = .ok s')
    (bare : ∀ t ∈ p.tables, ∀ c ∈ t.columns, c.defaultExpr = none)
    (bare' : ∀ t ∈ q.tables, ∀ c ∈ t.columns, c.defaultExpr = none) :
    (Text.bytes (Ddl.preimage s.ddl) = Text.bytes (Ddl.preimage s'.ddl) → s.ddl = s'.ddl) ∧
    (¬ Sha256.Collision (Text.bytes (Ddl.preimage s.ddl)) (Text.bytes (Ddl.preimage s'.ddl)) →
      (s.digest = s'.digest → s.ddl = s'.ddl) ∧
      (MigrationDecision.ofDigests (some s.digest) s'.digest = .keep → s.ddl = s'.ddl)) := by
  have ofBytes := ddl_eq_of_bytes_eq built built' bare bare'
  refine ⟨ofBytes, fun apart => ?_⟩
  have ofDigest : s.digest = s'.digest → s.ddl = s'.ddl :=
    fun same => ofBytes (Ddl.preimage_eq_of_digest_eq apart same)
  refine ⟨ofDigest, fun kept => ofDigest ?_⟩
  unfold MigrationDecision.ofDigests at kept
  split at kept
  · rename_i stored
    exact Option.some.inj stored
  · cases kept

/-- A name that ends a statement inside its quotes is not taken for the end of the statement. -/
theorem preimage_ne_of_quoted_end :
    Text.bytes (Ddl.preimage [(Table.keyed "a").ddl .sqlite]) ≠
      Text.bytes (Ddl.preimage [(Table.keyed "a\";\n").ddl .sqlite]) := by
  intro same
  have sameDdl := (ddl_eq_of_preimage_eq
    (build_singleton (by decide +kernel) rfl (by decide +kernel))
    (build_singleton (by decide +kernel) rfl (by decide +kernel))
    (by decide +kernel) (by decide +kernel)).1 same
  exact absurd sameDdl (by decide +kernel)

end SchemaPlan

end Tabula
