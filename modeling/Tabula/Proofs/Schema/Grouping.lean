import Tabula.Proofs.Schema.NameOrder
import Tabula.Schema.Validation

/-! # Tables grouped by name

A group is looked up by a name in lower case and holds every table of that name
(`Tabula.Table.group?_groups`); it has a member whenever it is found. The groups of tables none of
which shares its name do not depend on the order of the tables (`Tabula.Table.groups_perm`), and so
whether tables have a fault together does not either (`Tabula.Table.faultsTogether_eq_nil_of_perm`).
-/

namespace Tabula

/-- A list without its repetitions has none. -/
theorem nodup_eraseDups (names : List String) : names.eraseDups.Nodup := by
  match names with
  | [] => exact List.nodup_nil
  | name :: names =>
      rw [List.eraseDups_cons, List.nodup_cons]
      refine ⟨fun repeated => ?_, nodup_eraseDups _⟩
      simpa using List.mem_eraseDups.mp repeated
termination_by names.length
decreasing_by exact Nat.lt_succ_of_le (List.length_filter_le _ _)

namespace Table

variable {ts ts' : List Table} {name : String} {g : Group}

/-- The lower-case names of tables, each once and in ascending order. -/
def groupNames (ts : List Table) : List String :=
  (ts.map fun t => Text.lower t.name).eraseDups.mergeSort fun a b => decide (a ≤ b)

/-- The tables of a name in small letters. -/
def ofName (ts : List Table) (lowerName : String) : List Table :=
  ts.filter fun t => Text.lower t.name == lowerName

/-- There is one group for each name in small letters, with the tables of that name. -/
theorem groups_eq_map (ts : List Table) :
    groups ts = (groupNames ts).map fun name => ⟨name, ofName ts name⟩ :=
  rfl

/-- The names of the groups are those of the tables in small letters. -/
theorem mem_groupNames : name ∈ groupNames ts ↔ ∃ t ∈ ts, Text.lower t.name = name := by
  simp only [groupNames, List.mem_mergeSort, List.mem_eraseDups, List.mem_map]

/-- The tables of a name are those with the name in small letters. -/
theorem mem_ofName {t : Table} : t ∈ ofName ts name ↔ t ∈ ts ∧ Text.lower t.name = name := by
  simp only [ofName, List.mem_filter, beq_iff_eq]

private theorem nodup_groupNames (ts : List Table) : (groupNames ts).Nodup :=
  (List.mergeSort_perm _ _).nodup_iff.mpr (nodup_eraseDups _)

private theorem groupNames_perm (perm : ts.Perm ts') : groupNames ts = groupNames ts' := by
  refine List.Perm.eq_of_pairwise ?_
    (List.pairwise_mergeSort (@nameLe_trans _ id) nameLe_total _)
    (List.pairwise_mergeSort (@nameLe_trans _ id) nameLe_total _) ?_
  · intro a b _ _ first second
    exact le_antisymm (of_decide_eq_true first) (of_decide_eq_true second)
  · refine (List.perm_ext_iff_of_nodup (nodup_groupNames ts) (nodup_groupNames ts')).mpr ?_
    intro name
    simp only [mem_groupNames, perm.mem_iff]

/-- Looking up a name finds all tables of the name, if there are any. -/
theorem group?_groups :
    group? (groups ts) name = some g ↔
      (∃ t ∈ ts, Text.lower t.name = name) ∧ g = ⟨name, ofName ts name⟩ := by
  rw [groups_eq_map, group?, List.find?_map, Option.map_eq_some_iff, ← mem_groupNames]
  constructor
  · rintro ⟨found, isFound, rfl⟩
    have same : found = name := eq_of_beq (List.find?_some (p := (· == name)) isFound)
    subst same
    exact ⟨List.mem_of_find?_eq_some isFound, rfl⟩
  · rintro ⟨known, rfl⟩
    refine ⟨name, ?_, rfl⟩
    obtain ⟨found, isFound⟩ := Option.isSome_iff_exists.mp
      (List.find?_isSome (p := (· == name)).mpr ⟨name, known, beq_self_eq_true name⟩)
    have same : found = name := eq_of_beq (List.find?_some (p := (· == name)) isFound)
    exact same ▸ isFound

/-- A group is found just if there is a table of the name. -/
theorem group?_groups_isSome :
    (group? (groups ts) name).isSome ↔ ∃ t ∈ ts, Text.lower t.name = name := by
  rw [Option.isSome_iff_exists]
  constructor
  · rintro ⟨g, found⟩
    exact (group?_groups.mp found).1
  · intro known
    exact ⟨_, group?_groups.mpr ⟨known, rfl⟩⟩

/-! ## Tables in another order -/

/-- No name is reported as taken exactly when every table has a name of its own. -/
theorem duplicateTables_eq_nil_iff :
    duplicateTables (groups ts) = [] ↔ ∀ name, (ofName ts name).length ≤ 1 := by
  simp only [duplicateTables, List.flatMap_eq_nil_iff, List.mem_filter, decide_eq_true_eq,
    List.map_eq_nil_iff, groups_eq_map, List.mem_map]
  constructor
  · intro none name
    by_contra several
    have member := List.length_pos_iff_exists_mem.mp (Nat.lt_trans Nat.one_pos (not_le.mp several))
    obtain ⟨t, ofGroup⟩ := member
    have known := mem_groupNames.mpr ⟨t, mem_ofName.mp ofGroup⟩
    have empty : ofName ts name = [] :=
      none ⟨name, ofName ts name⟩ ⟨⟨name, known, rfl⟩, not_le.mp several⟩
    exact List.not_mem_nil (empty ▸ ofGroup)
  · rintro single _ ⟨⟨name, -, rfl⟩, several⟩
    exact absurd (single name) (not_le.mpr several)

/-- The groups of tables with names of their own are the same in every order of the tables. -/
theorem groups_perm (perm : ts.Perm ts') (single : ∀ name, (ofName ts name).length ≤ 1) :
    groups ts = groups ts' := by
  rw [groups_eq_map, groups_eq_map, groupNames_perm perm]
  refine List.map_congr_left fun name _ => ?_
  have alike : (ofName ts name).Perm (ofName ts' name) := perm.filter _
  have same : ofName ts name = ofName ts' name := by
    match ofName ts name, single name, alike with
    | [], _, alike => exact (List.nil_perm.mp alike).symm
    | [t], _, alike => exact List.singleton_perm.mp alike
  rw [same]

/-- The targets have no fault just if that of no association has one. -/
theorem targetFaults_eq_nil_iff {gs : List Group} :
    targetFaults gs ts = [] ↔ ∀ t ∈ ts, ∀ a ∈ t.associations, targetFault? gs t a = none := by
  simp only [targetFaults, List.flatMap_eq_nil_iff, List.filterMap_eq_nil_iff]

/-- Whether tables have a fault together does not depend on their order. -/
theorem faultsTogether_eq_nil_of_perm (perm : ts.Perm ts') (faultless : faultsTogether ts = []) :
    faultsTogether ts' = [] := by
  simp only [faultsTogether, List.append_eq_nil_iff] at faultless ⊢
  obtain ⟨⟨⟨noDuplicate, noTarget⟩, noIndex⟩, noCycle⟩ := faultless
  rw [← groups_perm perm (duplicateTables_eq_nil_iff.mp noDuplicate)]
  refine ⟨⟨⟨noDuplicate, ?_⟩, noIndex⟩, noCycle⟩
  rw [targetFaults_eq_nil_iff] at noTarget ⊢
  exact fun t member => noTarget t (perm.mem_iff.mpr member)

/-- A table by itself that references nothing and has no index has no fault together. -/
theorem faultsTogether_singleton {t : Table} (noAssociation : t.associations = [])
    (noIndex : t.columns.filter (·.needsIndex) = []) : faultsTogether [t] = [] := by
  have single : groups [t] = [⟨Text.lower t.name, [t]⟩] := by
    simp [groups, List.eraseDups_cons]
  have nodes : (associationGraph [⟨Text.lower t.name, [t]⟩]).nodes = [Text.lower t.name] := rfl
  have noEdge : (associationGraph [⟨Text.lower t.name, [t]⟩]).targets (Text.lower t.name) = [] := by
    simp [associationGraph, group?, noAssociation]
  have noCycle : (associationGraph [⟨Text.lower t.name, [t]⟩]).cycles = [] := by
    simp [Graph.cycles, nodes, Graph.cyclesFrom, noEdge, Graph.walk]
  simp [faultsTogether, single, duplicateTables, targetFaults, noAssociation, duplicateIndexes,
    indexOwners, singles, noIndex, associationCycles, noCycle]

end Table

end Tabula
