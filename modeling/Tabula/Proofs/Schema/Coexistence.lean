import Tabula.Proofs.Schema.AssociationCycle
import Tabula.Proofs.Schema.DigestText
import Tabula.Proofs.Text.LetterCase

/-! # Tables that can live together

What it means that tables have no fault together, check by check: every table has a name of its own,
every association finds tables of its target's name and all of them have a key, no index has the
name of a table or of another index, and no name leads back to itself along associations
(`Tabula.Table.faultsTogether_eq_nil_iff`). Names are those in lower case throughout.
-/

namespace Tabula.Table

variable {ts : List Table} {t : Table} {c : Column}

/-! ## Names -/

/-- No name is taken twice exactly when no two tables have the same name in lower case. -/
theorem duplicateTables_eq_nil_iff_nodup :
    duplicateTables (groups ts) = [] ↔ (ts.map fun t => Text.lower t.name).Nodup := by
  rw [duplicateTables_eq_nil_iff, List.nodup_iff_count_le_one]
  refine forall_congr' fun name => ?_
  rw [List.count, List.countP_map, ofName, ← List.countP_eq_length_filter]
  rfl

/-- A table is found by its name if no other table has it. -/
theorem eq_of_lower_eq (names : (ts.map fun t => Text.lower t.name).Nodup) {other : Table}
    (member : t ∈ ts) (memberOther : other ∈ ts)
    (same : Text.lower other.name = Text.lower t.name) : other = t :=
  List.inj_on_of_nodup_map names memberOther member same

private theorem mem_singles_groups (names : (ts.map fun t => Text.lower t.name).Nodup) :
    t ∈ singles (groups ts) ↔ t ∈ ts := by
  simp only [singles, List.mem_flatMap, List.mem_filter, groups_eq_map, List.mem_map,
    mem_groupNames, beq_iff_eq]
  constructor
  · rintro ⟨_, ⟨⟨name, -, rfl⟩, -⟩, inGroup⟩
    exact (mem_ofName.mp inGroup).1
  · intro member
    have inGroup : t ∈ ofName ts (Text.lower t.name) := mem_ofName.mpr ⟨member, rfl⟩
    refine ⟨_, ⟨⟨_, ⟨t, member, rfl⟩, rfl⟩, ?_⟩, inGroup⟩
    have atMost := duplicateTables_eq_nil_iff.mp (duplicateTables_eq_nil_iff_nodup.mpr names)
      (Text.lower t.name)
    have atLeast := List.length_pos_of_mem inGroup
    exact Nat.le_antisymm atMost atLeast

/-- The columns that need an index, with their tables. -/
theorem mem_indexOwners {owner : Table × Column} :
    owner ∈ indexOwners ts ↔
      owner.1 ∈ ts ∧ owner.2 ∈ owner.1.columns ∧ owner.2.needsIndex = true := by
  obtain ⟨t, c⟩ := owner
  simp only [indexOwners, List.mem_flatMap, List.mem_map, List.mem_filter, Prod.mk.injEq]
  constructor
  · rintro ⟨_, member, _, indexed, rfl, rfl⟩
    exact ⟨member, indexed⟩
  · rintro ⟨member, indexed⟩
    exact ⟨t, member, c, indexed, rfl, rfl⟩

/-! ## Targets -/

/-- An association has no fault exactly when tables of its target's name are there, all with a
key. -/
theorem targetFault?_eq_none_iff {a : Association} :
    targetFault? (groups ts) t a = none ↔
      (∃ target ∈ ts, Text.lower target.name = Text.lower a.target) ∧
        ∀ target ∈ ts, Text.lower target.name = Text.lower a.target → target.hasKey = true := by
  unfold targetFault?
  cases found : group? (groups ts) (Text.lower a.target) with
  | none =>
      have unknown := group?_groups_isSome.not.mp (by rw [found]; exact Bool.false_ne_true)
      simp only [reduceCtorEq, unknown, false_and]
  | some g =>
      obtain ⟨known, rfl⟩ := group?_groups.mp found
      simp only [known, true_and, ite_eq_right_iff, reduceCtorEq, imp_false, Bool.not_eq_true,
        List.any_eq_false, Bool.not_eq_true', Bool.not_eq_false, mem_ofName, and_imp]

/-! ## Indexes -/

/-- The name of a column's index in lower case. -/
def lowerIndexName (owner : Table × Column) : String :=
  Text.lower (owner.2.indexName owner.1.name)

/-- A column's index clashes with nothing exactly when no table has its name, and no index of a
column of another name or of a table of another name has it. -/
theorem indexClash?_eq_none_iff {owners : List (Table × Column)} :
    indexClash? (groups ts) owners t c = none ↔
      (∀ other ∈ ts, Text.lower other.name ≠ lowerIndexName (t, c)) ∧
        ∀ owner ∈ owners, lowerIndexName owner = lowerIndexName (t, c) →
          owner.1.name = t.name ∧ owner.2.name = c.name := by
  unfold indexClash?
  cases found : group? (groups ts) (Text.lower (c.indexName t.name)) with
  | none =>
      have unknown := group?_groups_isSome.not.mp (by rw [found]; exact Bool.false_ne_true)
      have apart : ∀ other ∈ ts, Text.lower other.name ≠ lowerIndexName (t, c) :=
        fun other member named => unknown ⟨other, member, named⟩
      simp only [found, Option.bind_none, Option.map_eq_none_iff, List.find?_eq_none,
        Bool.and_eq_true, beq_iff_eq, bne_iff_ne, ne_eq, Prod.mk.injEq, not_and_not_right]
      exact ⟨fun none => ⟨apart, none⟩, fun clear => clear.2⟩
  | some g =>
      obtain ⟨⟨other, member, named⟩, rfl⟩ := group?_groups.mp found
      have inGroup : other ∈ ofName ts (Text.lower (c.indexName t.name)) :=
        mem_ofName.mpr ⟨member, named⟩
      obtain ⟨first, rest, split⟩ := List.exists_cons_of_ne_nil (List.ne_nil_of_mem inGroup)
      simp only [found, split, Option.bind_some, List.head?_cons, reduceCtorEq, false_iff, not_and]
      exact fun apart => absurd named (apart other member)

/-- No index name is taken exactly when no index clashes with anything. -/
theorem duplicateIndexes_eq_nil_iff (names : (ts.map fun t => Text.lower t.name).Nodup) :
    duplicateIndexes (groups ts) = [] ↔ ∀ owner ∈ indexOwners ts,
      (∀ other ∈ ts, Text.lower other.name ≠ lowerIndexName owner) ∧
        ∀ other ∈ indexOwners ts, lowerIndexName other = lowerIndexName owner →
          other.1.name = owner.1.name ∧ other.2.name = owner.2.name := by
  have sameOwners : ∀ owner, owner ∈ indexOwners (singles (groups ts)) ↔
      owner ∈ indexOwners ts := by
    intro owner
    rw [mem_indexOwners, mem_indexOwners, mem_singles_groups names]
  simp only [duplicateIndexes, List.filterMap_eq_nil_iff, Option.map_eq_none_iff,
    indexClash?_eq_none_iff, sameOwners]

/-! ## Circles -/

/-- No cycle is reported just if no name leads back to itself. -/
theorem associationCycles_eq_nil_iff :
    associationCycles (groups ts) = [] ↔ ∀ name, ¬ Relation.TransGen (Joined ts) name name := by
  have reported : associationCycles (groups ts) = [] ↔
      ∀ path, .cycle path ∉ faultsTogether ts := by
    rw [associationCycles, List.map_eq_nil_iff, List.eq_nil_iff_forall_not_mem]
    simp only [cycle_mem_iff, not_exists, not_and]
    constructor
    · intro none path circuit isReport
      exact absurd isReport (none circuit)
    · intro none circuit isReport
      exact none _ circuit isReport rfl
  rw [reported]
  constructor
  · intro none name returns
    obtain ⟨path, isReport, -⟩ := exists_cycle_mem returns
    exact none path isReport
  · intro none path isReport
    obtain ⟨name, returns⟩ := (isCircle_of_mem isReport).returns
    exact none name returns

/-- Where no association leads to a table that has associations itself, no name leads back to
itself. -/
theorem not_returns_of_flat
    (flat : ∀ t ∈ ts, ∀ a ∈ t.associations, ∀ target ∈ ts,
      Text.lower target.name = Text.lower a.target → target.associations = []) (name : String) :
    ¬ Relation.TransGen (Joined ts) name name := by
  intro returns
  obtain ⟨next, ⟨⟨t, member, named, a, ofTable, -⟩, -⟩, -⟩ :=
    Relation.TransGen.head'_iff.mp returns
  obtain ⟨last, -, ⟨other, memberOther, -, b, ofOther, isTarget⟩, -⟩ :=
    Relation.TransGen.tail'_iff.mp returns
  have none := flat other memberOther b ofOther t member (named.trans isTarget.symm)
  rw [none] at ofTable
  exact List.not_mem_nil ofTable

/-! ## All checks -/

/-- Tables that can live in one database. -/
structure Compatible (ts : List Table) : Prop where
  names : (ts.map fun t => Text.lower t.name).Nodup
  targets : ∀ t ∈ ts, ∀ a ∈ t.associations,
    (∃ target ∈ ts, Text.lower target.name = Text.lower a.target) ∧
      ∀ target ∈ ts, Text.lower target.name = Text.lower a.target → target.hasKey = true
  indexes : ∀ owner ∈ indexOwners ts,
    (∀ other ∈ ts, Text.lower other.name ≠ lowerIndexName owner) ∧
      ∀ other ∈ indexOwners ts, lowerIndexName other = lowerIndexName owner →
        other.1.name = owner.1.name ∧ other.2.name = owner.2.name
  acyclic : ∀ name, ¬ Relation.TransGen (Joined ts) name name

/-- Tables have no fault together exactly when they can live together. -/
theorem faultsTogether_eq_nil_iff : faultsTogether ts = [] ↔ Compatible ts := by
  simp only [faultsTogether, List.append_eq_nil_iff, duplicateTables_eq_nil_iff_nodup,
    targetFaults_eq_nil_iff, targetFault?_eq_none_iff, associationCycles_eq_nil_iff]
  constructor
  · rintro ⟨⟨⟨names, targets⟩, indexes⟩, acyclic⟩
    exact ⟨names, targets, (duplicateIndexes_eq_nil_iff names).mp indexes, acyclic⟩
  · rintro ⟨names, targets, indexes, acyclic⟩
    exact ⟨⟨⟨names, targets⟩, (duplicateIndexes_eq_nil_iff names).mpr indexes⟩, acyclic⟩

/-- A table with an index and a reference. -/
def linked (column target : String) : Table where
  name := "book"
  model := "Book"
  columns := [(Column.plain "id" .integer).asKey true,
    { Column.plain "author" .integer with indexed := true }]
  associations := [⟨column, target, none⟩]

/-- A table can live with another one that it references in any case. -/
theorem compatible_linked {column target : String} (named : Text.lower "É" = Text.lower target) :
    Compatible [keyed "É", linked column target] := by
  have lowerOwner : Text.lower "É" = "é" := by decide +kernel
  have lowerTable : Text.lower "book" = "book" :=
    Text.lower_eq_self (by decide +kernel) (by decide +kernel)
  have lowerIndex : Text.lower "index_author_on_book" = "index_author_on_book" :=
    Text.lower_eq_self (by decide +kernel) (by decide +kernel)
  have apart : Text.lower "É" ≠ Text.lower "book" := by
    rw [lowerOwner, lowerTable]
    decide
  have index : Text.lower "É" ≠ Text.lower "index_author_on_book" ∧
      Text.lower "book" ≠ Text.lower "index_author_on_book" := by
    rw [lowerOwner, lowerTable, lowerIndex]
    decide
  have targetIsKeyed : ∀ t ∈ [keyed "É", linked column target],
      Text.lower t.name = Text.lower target → t = keyed "É" := by
    intro t member same
    rcases List.mem_pair.mp member with rfl | rfl
    · rfl
    · exact absurd (named.trans same.symm) apart
  have owners : indexOwners [keyed "É", linked column target] = [(linked column target,
      { Column.plain "author" .integer with indexed := true })] := rfl
  refine ⟨?_, fun t member a ofTable => ?_, ?_, not_returns_of_flat fun t member a ofTable => ?_⟩
  · simpa [keyed, linked] using apart
  · rcases List.mem_pair.mp member with rfl | rfl
    · cases ofTable
    · obtain rfl := List.mem_singleton.mp ofTable
      refine ⟨⟨keyed "É", List.mem_cons_self, named⟩, fun t member same => ?_⟩
      rw [targetIsKeyed t member same]
      rfl
  · rw [owners]
    intro owner member
    obtain rfl := List.mem_singleton.mp member
    refine ⟨fun t isTable => ?_, fun other isOwner _ => ?_⟩
    · rcases List.mem_pair.mp isTable with rfl | rfl
      · exact index.1
      · exact index.2
    · rw [List.mem_singleton.mp isOwner]
      exact ⟨rfl, rfl⟩
  · rcases List.mem_pair.mp member with rfl | rfl
    · cases ofTable
    · obtain rfl := List.mem_singleton.mp ofTable
      intro t member same
      rw [targetIsKeyed t member same]
      rfl

end Tabula.Table

namespace Tabula.SchemaPlan

variable {d : Dialect} {p : SchemaPlan} {s : Schema}

/-- The tables of a built schema can live together. -/
theorem compatible_of_built (built : p.build d = .ok s) : Table.Compatible s.tables := by
  obtain ⟨clean, sortedAre, -⟩ := build_eq_ok built
  have together := (problems_eq_nil_iff.mp clean).2.2
  rw [sortedAre]
  exact Table.faultsTogether_eq_nil_iff.mp
    (Table.faultsTogether_eq_nil_of_perm (inNameOrder_sorted p).perm.symm together)

/-- A table and another one that references it through a column. -/
def library (column target : String) : SchemaPlan :=
  ⟨[.keyed "É", .linked column target], []⟩

/-- A library whose reference is found by its name in small letters has no problem. -/
theorem problems_library {column target : String} (named : Text.lower "É" = Text.lower target) :
    (library column target).problems = [] := by
  refine problems_eq_nil_iff.mpr ⟨rfl, fun t member => ?_,
    Table.faultsTogether_eq_nil_iff.mpr (Table.compatible_linked named)⟩
  rcases List.mem_pair.mp member with rfl | rfl
  · simp [Table.faults, Table.duplicateColumns, Table.countNamed, Table.keyNames, Table.keyed,
      Column.plain, Column.asKey]
  · have apart : Text.lower "id" ≠ Text.lower "author" := by
      have lowerKey : Text.lower "id" = "id" :=
        Text.lower_eq_self (by decide +kernel) (by decide +kernel)
      have lowerColumn : Text.lower "author" = "author" :=
        Text.lower_eq_self (by decide +kernel) (by decide +kernel)
      rw [lowerKey, lowerColumn]
      decide
    simp [Table.faults, Table.duplicateColumns, Table.countNamed, Table.keyNames, Table.linked,
      Column.plain, Column.asKey, apart, apart.symm]

/-- The plan is built where the reference is of a column. -/
theorem build_library {target : String} (named : Text.lower "É" = Text.lower target) :
    (library "author" target).build d =
      .ok ⟨(library "author" target).sorted, (library "author" target).sorted.map (·.ddl d)⟩ := by
  refine build_of_problems_eq_nil (problems_library named) fun t member => ?_
  rcases List.mem_pair.mp member with rfl | rfl
  · rfl
  · rfl

end Tabula.SchemaPlan
