import Tabula.Proofs.Schema.Grouping
import Tabula.Proofs.Schema.Walk

/-! # Circles of associations

Associations join names in lower case (`Tabula.Table.Joined`); tables of one name count as one. The
walk that looks for circles follows exactly these joints (`Tabula.Table.leads_associationGraph`),
and shows each name by a table that has it (`Tabula.Table.lower_displayName`). Its reports are
therefore true (`Tabula.Table.isCircle_of_mem`), and there is one wherever names lead back to
themselves (`Tabula.Table.exists_cycle_mem`).
-/

namespace Tabula.Table

variable {ts : List Table} {a b name : String}

/-- A table of one name has an association whose target is a table of another name. -/
def Joined (ts : List Table) (a b : String) : Prop :=
  (∃ t ∈ ts, Text.lower t.name = a ∧ ∃ r ∈ t.associations, Text.lower r.target = b) ∧
    ∃ t ∈ ts, Text.lower t.name = b

/-- The walk follows the associations of all tables of a name, as far as their targets are known. -/
theorem leads_associationGraph :
    (associationGraph (groups ts)).Leads a b ↔ Joined ts a b := by
  unfold Graph.Leads associationGraph Joined
  rw [← group?_groups_isSome]
  cases found : group? (groups ts) a with
  | none =>
      have unknown : ¬ ∃ t ∈ ts, Text.lower t.name = a := by
        rw [← group?_groups_isSome, found]
        exact Bool.false_ne_true
      simp only [found, List.not_mem_nil, false_iff]
      rintro ⟨⟨t, member, named, -⟩, -⟩
      exact unknown ⟨t, member, named⟩
  | some g =>
      obtain ⟨-, rfl⟩ := group?_groups.mp found
      simp only [found, List.mem_mergeSort, List.mem_eraseDups, List.mem_filter, List.mem_flatMap,
        mem_ofName, List.mem_map, and_assoc]

private theorem nodes_associationGraph : (associationGraph (groups ts)).nodes = groupNames ts := by
  simp only [associationGraph, groups_eq_map, List.map_map, Function.comp_def, List.map_id']

private theorem closed_associationGraph (ts : List Table) :
    (associationGraph (groups ts)).Closed := by
  intro node target edge
  rw [nodes_associationGraph, mem_groupNames]
  exact (leads_associationGraph.mp edge).2

/-- A known name is shown by the first table that has it. -/
theorem exists_displayName (known : ∃ t ∈ ts, Text.lower t.name = name) :
    ∃ t ∈ ts, t.name = displayName (groups ts) name ∧ Text.lower t.name = name := by
  have found := group?_groups.mpr ⟨known, rfl⟩
  obtain ⟨t, member, named⟩ := known
  obtain ⟨first, rest, split⟩ :=
    List.exists_cons_of_ne_nil (List.ne_nil_of_mem (mem_ofName.mpr ⟨member, named⟩))
  obtain ⟨present, firstNamed⟩ := mem_ofName.mp (split ▸ List.mem_cons_self)
  refine ⟨first, present, ?_, firstNamed⟩
  simp only [displayName, found, split, Option.bind_some, List.head?_cons, Option.map_some,
    Option.getD_some]

/-- The name that is shown is the name itself in lower case. -/
theorem lower_displayName (known : ∃ t ∈ ts, Text.lower t.name = name) :
    Text.lower (displayName (groups ts) name) = name := by
  obtain ⟨t, -, shown, named⟩ := exists_displayName known
  rw [← shown, named]

/-- The circles among the faults of tables are the circuits that the walk reports. -/
theorem cycle_mem_iff {path : List String} :
    .cycle path ∈ faultsTogether ts ↔
      ∃ circuit ∈ (associationGraph (groups ts)).cycles,
        circuit.map (displayName (groups ts)) = path := by
  have notDuplicate : .cycle path ∉ duplicateTables (groups ts) := by
    simp [duplicateTables]
  have notTarget : .cycle path ∉ targetFaults (groups ts) ts := by
    simp only [targetFaults, List.mem_flatMap, List.mem_filterMap]
    rintro ⟨t, -, r, -, fault⟩
    unfold targetFault? at fault
    split at fault
    · cases fault
    · split at fault <;> cases fault
  have notIndex : .cycle path ∉ duplicateIndexes (groups ts) := by
    simp [duplicateIndexes]
  simp only [faultsTogether, List.mem_append, notDuplicate, notTarget, notIndex, false_or,
    associationCycles, List.mem_map, TableFault.cycle.injEq]

private theorem known_of_mem_circuit {circuit : List String}
    (isReport : circuit ∈ (associationGraph (groups ts)).cycles) (present : name ∈ circuit) :
    ∃ t ∈ ts, Text.lower t.name = name := by
  have round := Graph.isCircuit_of_mem_cycles circuit isReport
  rw [← mem_groupNames, ← nodes_associationGraph]
  exact (closed_associationGraph ts).mem_nodes (round.reaches present present)

/-- A closed way along associations: it ends with the table it begins with, shows no other name
twice, and each table of it has an association with the next. -/
structure IsCircle (ts : List Table) (path : List String) : Prop where
  closed : ∃ first inner, path = first :: inner ++ [first] ∧ ((first :: inner).map Text.lower).Nodup
  shown : ∀ name ∈ path, ∃ t ∈ ts, t.name = name
  joined : path.IsChain fun a b => Joined ts (Text.lower a) (Text.lower b)

/-- A path that is reported is a circle. -/
theorem isCircle_of_mem {path : List String} (reported : .cycle path ∈ faultsTogether ts) :
    IsCircle ts path := by
  obtain ⟨circuit, isReport, rfl⟩ := cycle_mem_iff.mp reported
  obtain ⟨node, inner, split, distinct, chain⟩ := Graph.isCircuit_of_mem_cycles circuit isReport
  have lowered : ∀ names : List String, (∀ name ∈ names, name ∈ circuit) →
      (names.map (displayName (groups ts))).map Text.lower = names := by
    intro names inside
    rw [List.map_map]
    refine (List.map_congr_left fun name member => ?_).trans (List.map_id names)
    exact lower_displayName (known_of_mem_circuit isReport (inside name member))
  refine ⟨⟨displayName (groups ts) node, inner.map (displayName (groups ts)), ?_, ?_⟩,
    fun name member => ?_, ?_⟩
  · rw [split, List.map_append, List.map_cons, List.map_singleton]
  · rw [← List.map_cons, lowered _ fun name member => split ▸ List.mem_append_left _ member]
    exact distinct
  · obtain ⟨other, present, rfl⟩ := List.mem_map.mp member
    obtain ⟨t, isTable, named, -⟩ := exists_displayName (known_of_mem_circuit isReport present)
    exact ⟨t, isTable, named⟩
  · refine (List.isChain_map _).mpr (chain.imp fun a b edge => ?_)
    have joint := leads_associationGraph.mp edge
    obtain ⟨t, member, named, -⟩ := joint.1
    rw [lower_displayName ⟨t, member, named⟩, lower_displayName joint.2]
    exact joint

/-- A name that leads back to itself has a report of names that it reaches and that reach it. -/
theorem exists_cycle_mem (returns : Relation.TransGen (Joined ts) name name) :
    ∃ path, .cycle path ∈ faultsTogether ts ∧ ∀ shown ∈ path,
      Relation.TransGen (Joined ts) name (Text.lower shown) ∧
        Relation.TransGen (Joined ts) (Text.lower shown) name := by
  have leads : (associationGraph (groups ts)).Leads = Joined ts := by
    funext a b
    exact propext leads_associationGraph
  obtain ⟨circuit, isReport, around⟩ :=
    Graph.exists_report (closed_associationGraph ts) (leads ▸ returns)
  refine ⟨_, cycle_mem_iff.mpr ⟨circuit, isReport, rfl⟩, fun shown member => ?_⟩
  obtain ⟨other, present, rfl⟩ := List.mem_map.mp member
  rw [lower_displayName (known_of_mem_circuit isReport present), ← leads]
  exact around other present

/-- The tables of a circle reference themselves through others. -/
theorem IsCircle.returns {path : List String} (circle : IsCircle ts path) :
    ∃ name, Relation.TransGen (Joined ts) name name := by
  obtain ⟨first, inner, rfl, -⟩ := circle.closed
  have chain := (List.isChain_map Text.lower).mpr circle.joined
  have ordered := (chain.imp fun _ _ => Relation.TransGen.single).pairwise
  refine ⟨Text.lower first, List.rel_of_pairwise_cons ordered ?_⟩
  simp

/-- **Circles of associations.** A circle is reported exactly when some name leads back to itself
along associations. Every such name has a report of names that it reaches and that reach it, so that
no part of the tables whose names reach each other in a circle goes without one; and every report is
a circle. -/
theorem cycle_mem_faultsTogether (ts : List Table) :
    ((∃ path, .cycle path ∈ faultsTogether ts) ↔
      ∃ name, Relation.TransGen (Joined ts) name name) ∧
    (∀ name, Relation.TransGen (Joined ts) name name →
      ∃ path, .cycle path ∈ faultsTogether ts ∧ ∀ shown ∈ path,
        Relation.TransGen (Joined ts) name (Text.lower shown) ∧
          Relation.TransGen (Joined ts) (Text.lower shown) name) ∧
    ∀ path, .cycle path ∈ faultsTogether ts → IsCircle ts path := by
  refine ⟨⟨?_, ?_⟩, fun name => exists_cycle_mem, fun path => isCircle_of_mem⟩
  · rintro ⟨path, reported⟩
    exact (isCircle_of_mem reported).returns
  · rintro ⟨name, returns⟩
    obtain ⟨path, reported, -⟩ := exists_cycle_mem returns
    exact ⟨path, reported⟩

end Tabula.Table
