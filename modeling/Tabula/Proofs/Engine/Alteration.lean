import Mathlib.Data.List.Forall2
import Tabula.Engine.Connection
import Tabula.Proofs.Outcome
import Tabula.Proofs.Text.LetterCase

/-! # What statements on rows leave alone

A statement on the rows of a table, done or refused, defines no table anew, and it does not touch a
table of another name that references none (`Tabula.Engine.alters_perform`). Rows of other tables go
along with their parents or let go of them, but only where these tables reference one
(`Tabula.Contents.alters_remove`).
-/

namespace Tabula

namespace Contents

variable {kept : String → Prop} {c c' c'' : Contents} {n : String} {enforced : Bool}

/-- The tables of the kept names are as they were, and every table is defined as one was. -/
structure Alters (kept : String → Prop) (c c' : Contents) : Prop where
  same : ∀ name, kept name → c'.tables.filter (·.isNamed name) = c.tables.filter (·.isNamed name)
  defined : ∀ t' ∈ c'.tables, ∃ t ∈ c.tables, t'.definition = t.definition

/-- The name is none of the kept ones. -/
def Spares (kept : String → Prop) (n : String) : Prop :=
  ∀ name, kept name → Text.sameName n name = false

/-- The tables of the kept names reference none. -/
def Unreferring (kept : String → Prop) (c : Contents) : Prop :=
  ∀ t ∈ c.tables, ∀ name, kept name → t.isNamed name = true → t.definition.associations = []

/-- A table that is found has the name that was looked for. -/
theorem isNamed_of_table? {t : StoredTable} (found : c.table? n = some t) :
    t.isNamed n = true := by
  have search : c.tables.find? (·.isNamed n) = some t := found
  have meets := List.find?_some search
  exact meets

/-- A table that is found is there. -/
theorem mem_of_table? {t : StoredTable} (found : c.table? n = some t) : t ∈ c.tables :=
  List.mem_of_find?_eq_some found

/-- A name that spares the kept tables does so as its table spells it. -/
theorem Spares.of_table? {t : StoredTable} (spares : Spares kept n) (found : c.table? n = some t) :
    Spares kept t.name :=
  fun name isKept => (Text.sameName_congr (isNamed_of_table? found) name).trans (spares name isKept)

/-- No table of a spared name is one of those kept. -/
theorem Spares.isNamed {t : StoredTable} (spares : Spares kept n) (named : t.isNamed n = true)
    {name : String} (isKept : kept name) : t.isNamed name = false :=
  (Text.sameName_congr named name).trans (spares name isKept)

/-- A map leaves the elements of a property as they are if it does so with each one of them. -/
theorem filter_map_eq {p : StoredTable → Bool} {f : StoredTable → StoredTable}
    {ts : List StoredTable} (untouched : ∀ t ∈ ts, p (f t) = p t ∧ (p t = true → f t = t)) :
    (ts.map f).filter p = ts.filter p := by
  have sameChoice : ∀ t ∈ ts, (p ∘ f) t = p t := fun t member => (untouched t member).1
  have unchanged : ∀ t ∈ ts.filter p, f t = id t := by
    intro t isFiltered
    obtain ⟨member, chosen⟩ := List.mem_filter.mp isFiltered
    exact (untouched t member).2 chosen
  rw [List.filter_map, List.filter_congr sameChoice, List.map_congr_left unchanged, List.map_id]

namespace Alters

/-- Nothing is altered by doing nothing. -/
theorem refl (c : Contents) : Alters kept c c :=
  ⟨fun _ _ => rfl, fun t member => ⟨t, member, rfl⟩⟩

/-- One alteration after the other is one. -/
theorem trans (first : Alters kept c c') (second : Alters kept c' c'') : Alters kept c c'' := by
  refine ⟨fun name isKept => (second.same name isKept).trans (first.same name isKept), ?_⟩
  intro t'' member''
  obtain ⟨t', member', asBetween⟩ := second.defined t'' member''
  obtain ⟨t, member, asBefore⟩ := first.defined t' member'
  exact ⟨t, member, asBetween.trans asBefore⟩

/-- The kept tables still refer to nothing. -/
theorem unreferring (alters : Alters kept c c') (before : Unreferring kept c) :
    Unreferring kept c' := by
  intro t' member' name isKept named
  obtain ⟨t, member, sameDefinition⟩ := alters.defined t' member'
  rw [StoredTable.isNamed, StoredTable.name, sameDefinition] at named
  rw [sameDefinition]
  exact before t member name isKept named

/-- A change table by table that leaves the kept ones alone. -/
theorem of_map {f : StoredTable → StoredTable}
    (untouched : ∀ t ∈ c.tables, ∀ name, kept name →
      (f t).isNamed name = t.isNamed name ∧ (t.isNamed name = true → f t = t))
    (defined : ∀ t ∈ c.tables, ∃ u ∈ c.tables, (f t).definition = u.definition) :
    Alters kept c ⟨c.tables.map f⟩ := by
  constructor
  · intro name isKept
    exact filter_map_eq fun t member => untouched t member name isKept
  · intro t' member'
    obtain ⟨t, member, rfl⟩ := List.mem_map.mp member'
    exact defined t member

end Alters

/-! ## Rows of one table -/

/-- The tables of a name are replaced by such as there were of that name. -/
theorem alters_modify {f : StoredTable → StoredTable} (spares : Spares kept n)
    (defined : ∀ t ∈ c.tables, t.isNamed n = true →
      ∃ u ∈ c.tables, u.isNamed n = true ∧ (f t).definition = u.definition) :
    Alters kept c (c.modify n f) := by
  refine Alters.of_map (fun t member name isKept => ?_) fun t member => ?_
  · by_cases named : t.isNamed n = true
    · obtain ⟨u, -, namedU, sameDefinition⟩ := defined t member named
      have notKept : (f t).isNamed name = false := by
        rw [StoredTable.isNamed, StoredTable.name, sameDefinition]
        exact spares.isNamed namedU isKept
      rw [if_pos named, notKept, spares.isNamed named isKept]
      exact ⟨rfl, fun absurd => by cases absurd⟩
    · rw [if_neg named]
      exact ⟨rfl, fun _ => rfl⟩
  · by_cases named : t.isNamed n = true
    · obtain ⟨u, memberU, -, sameDefinition⟩ := defined t member named
      exact ⟨u, memberU, by rw [if_pos named, sameDefinition]⟩
    · exact ⟨t, member, by rw [if_neg named]⟩

/-- Where the definitions stay, only the rows are others. -/
theorem alters_modify_rows {f : StoredTable → StoredTable} (spares : Spares kept n)
    (sameDefinition : ∀ t : StoredTable, (f t).definition = t.definition) :
    Alters kept c (c.modify n f) :=
  alters_modify spares fun t member named => ⟨t, member, named, sameDefinition t⟩

/-- Without positions nothing is erased. -/
theorem erase_nil (t : StoredTable) : t.erase [] = t := by
  simp [StoredTable.erase]

private theorem alters_erase {gone : List RowPlace} (spares : ∀ p ∈ gone, Spares kept p.table) :
    Alters kept c (c.erase gone) := by
  refine Alters.of_map (fun t member name isKept => ⟨rfl, fun named => ?_⟩)
    fun t member => ⟨t, member, rfl⟩
  have noRows : gone.filter (·.table == t.name) = [] := by
    refine List.filter_eq_nil_iff.mpr fun p isGone inTable => ?_
    have notNamed := spares p isGone name isKept
    rw [eq_of_beq inTable] at notNamed
    exact Bool.false_ne_true (notNamed.symm.trans named)
  rw [noRows]
  exact erase_nil t

/-! ## Rows that reference others -/

private theorem references_eq_nil {t : StoredTable}
    (noAssociations : t.definition.associations = []) : t.references = [] := by
  refine List.filterMap_eq_nil_iff.mpr fun (column, place) _ => ?_
  have notAssociated : t.definition.associationOf? column.name = none := by
    rw [Table.associationOf?, noAssociations, List.find?_nil]
  exact congrArg (Option.map _) notAssociated

/-- No row of a kept table depends on rows that go, as the table refers to nothing. -/
theorem spares_of_dependent {gone : List RowPlace} {d : Dependent} (before : Unreferring kept c)
    (depends : d ∈ c.dependents gone) : Spares kept d.row.table := by
  obtain ⟨t, member, ofTable⟩ := List.mem_flatMap.mp depends
  obtain ⟨ref, isReference, ofReference⟩ := List.mem_flatMap.mp ofTable
  have inTable : d.row.table = t.name := by
    cases found : c.table? ref.target with
    | none =>
        rw [found] at ofReference
        cases ofReference
    | some p =>
        rw [found] at ofReference
        obtain ⟨r, -, rfl⟩ := List.mem_map.mp ofReference
        rfl
  intro name isKept
  rw [inTable]
  by_contra named
  have none := references_eq_nil (before t member name isKept (Bool.eq_true_of_not_eq_false named))
  rw [none] at isReference
  cases isReference

/-- The rows that go along with others are outside of the kept tables, round by round. -/
theorem spares_of_cascade (before : Unreferring kept c) (rounds : Nat) {gone : List RowPlace}
    (spares : ∀ p ∈ gone, Spares kept p.table) :
    ∀ p ∈ c.cascade rounds gone, Spares kept p.table := by
  induction rounds generalizing gone with
  | zero => exact spares
  | succ rounds ih =>
      rw [cascade]
      split
      · exact spares
      · refine ih fun p member => ?_
        rcases List.mem_append.mp member with isGone | isMore
        · exact spares p isGone
        · obtain ⟨along, -⟩ := List.mem_filter.mp isMore
          obtain ⟨d, isAlong, rfl⟩ := List.mem_map.mp along
          exact spares_of_dependent before (List.mem_filter.mp isAlong).1

/-- A row that takes another value stays a row of its table that breaks no constraint. -/
theorem reassign_eq_some {d : Dependent} {v : Value} (done : c.reassign d v = some c') :
    ∃ t r rowid a, c.table? d.row.table = some t ∧ t.row? d.row.rowid = some r ∧
      t.movedTo? r.rowid (r.values.set d.reference.place v) = some rowid ∧
      t.accept .abort (some r.rowid) [d.reference.column.name]
        ⟨rowid, r.values.set d.reference.place v⟩ = .ok a ∧
      c' = c.modify t.name fun t => (t.erase [r.rowid]).put ⟨rowid, a.values⟩ := by
  unfold reassign at done
  obtain ⟨t, found, ofTable⟩ := Option.bind_eq_some_iff.mp done
  obtain ⟨r, isRow, ofRow⟩ := Option.bind_eq_some_iff.mp ofTable
  obtain ⟨rowid, moved, ofRowid⟩ := Option.bind_eq_some_iff.mp ofRow
  split at ofRowid
  · rename_i a accepted
    exact ⟨t, r, rowid, a, found, isRow, moved, accepted, (Option.some.inj ofRowid).symm⟩
  · cases ofRowid

private theorem alters_reassign {d : Dependent} {v : Value} (spares : Spares kept d.row.table)
    (done : c.reassign d v = some c') : Alters kept c c' := by
  obtain ⟨t, r, rowid, a, found, -, -, -, rfl⟩ := reassign_eq_some done
  exact alters_modify_rows (spares.of_table? found) fun _ => rfl

private theorem alters_release {d : Dependent} (spares : Spares kept d.row.table)
    (done : c.release d = some c') : Alters kept c c' := by
  unfold release at done
  split at done
  · exact alters_reassign spares done
  · obtain ⟨v, -, reassigned⟩ := Option.bind_eq_some_iff.mp done
    exact alters_reassign spares reassigned
  · cases done
  · obtain rfl := Option.some.inj done
    exact .refl c
  · obtain rfl := Option.some.inj done
    exact .refl c

/-- What every row that is released keeps all of them keep. -/
theorem holds_releases {P : Contents → Prop} {ds : List Dependent}
    (each : ∀ {c c' : Contents} {d : Dependent}, d ∈ ds → P c → c.release d = some c' → P c')
    (before : P c) (done : ds.foldlM release c = some c') : P c' := by
  induction ds generalizing c with
  | nil =>
      obtain rfl := Option.some.inj done
      exact before
  | cons d ds ih =>
      rw [List.foldlM_cons] at done
      obtain ⟨next, released, later⟩ := Option.bind_eq_some_iff.mp done
      exact ih (fun member => each (List.mem_cons_of_mem d member))
        (each List.mem_cons_self before released) later

private theorem alters_releases {ds : List Dependent} (spares : ∀ d ∈ ds, Spares kept d.row.table)
    (done : ds.foldlM release c = some c') : Alters kept c c' :=
  holds_releases (P := Alters kept c)
    (fun member before released => before.trans (alters_release (spares _ member) released))
    (.refl c) done

/-- Rows go, and only rows of tables that reference one go along or are changed. -/
theorem alters_remove {gone : List RowPlace} (before : Unreferring kept c)
    (spares : ∀ p ∈ gone, Spares kept p.table) (done : c.remove enforced gone = some c') :
    Alters kept c c' := by
  unfold remove at done
  split at done
  · obtain rfl := Option.some.inj done
    exact alters_erase spares
  · have erased := alters_erase (c := c) (spares_of_cascade before c.rowCount spares)
    refine erased.trans (alters_releases (fun d member => ?_) done)
    exact spares_of_dependent before (List.mem_filter.mp member).1

/-- A row is written where it clashes with none that is left. -/
theorem write_eq_ok {t : StoredTable} {self : Option Int64} {rowid : Int64} {a : Accepted}
    (done : c.write enforced t self rowid a = .ok c') :
    ∃ next, c.remove enforced (a.displaced.map fun r => ⟨t.name, r⟩) = some next ∧
      (∀ u, next.table? t.name = some u → u.admits self ⟨rowid, a.values⟩ = true) ∧
      c' = next.modify t.name fun u => (u.erase self.toList).put ⟨rowid, a.values⟩ := by
  unfold write at done
  split at done
  · rename_i next removed
    split at done
    · rename_i admitted
      refine ⟨next, removed, fun u found => ?_, (Except.ok.inj done).symm⟩
      rwa [found, Option.all_some] at admitted
    · cases done
  · cases done

private theorem alters_write {t : StoredTable} {self : Option Int64} {rowid : Int64} {a : Accepted}
    (before : Unreferring kept c) (spares : Spares kept t.name)
    (done : c.write enforced t self rowid a = .ok c') : Alters kept c c' := by
  obtain ⟨next, removed, -, rfl⟩ := write_eq_ok done
  have removes : Alters kept c next := by
    refine alters_remove before (fun p member => ?_) removed
    obtain ⟨r, -, rfl⟩ := List.mem_map.mp member
    exact spares
  exact removes.trans (alters_modify_rows spares fun _ => rfl)

/-! ## Statements row by row -/

/-- To keep account of a position is not to change the definition of the table. -/
theorem definition_counting (t : StoredTable) (rowid : Int64) :
    (t.counting rowid).definition = t.definition := by
  unfold StoredTable.counting
  split <;> rfl

/-- A row is left out, or it is written at its position, of which the table keeps account either
way. -/
theorem insertRow_eq_ok {policy : ConflictPolicy} {p next : Progress} {given : Row}
    (done : insertRow enforced policy n p given = .ok next) :
    ∃ t rowid, p.contents.table? n = some t ∧ t.rowidOf? given = some rowid ∧
      (next = { p with contents := p.contents.modify t.name fun _ => t.counting rowid } ∨
        ∃ a after,
          (t.counting rowid).accept policy none t.definition.columnNames
            ⟨rowid, t.withRowid rowid given⟩ = .ok a ∧
          (p.contents.modify t.name fun _ => t.counting rowid).write enforced (t.counting rowid)
            none rowid a = .ok after ∧
          next = ⟨after, p.changed + 1, some rowid, rowid :: p.written⟩) := by
  unfold insertRow at done
  split at done
  · cases done
  · rename_i t found
    split at done
    · cases done
    · rename_i rowid placed
      have sameDefinition := definition_counting t rowid
      have sameName : (t.counting rowid).name = t.name := congrArg Table.name sameDefinition
      have sameValues : (t.counting rowid).withRowid rowid given = t.withRowid rowid given := by
        rw [StoredTable.withRowid, StoredTable.withRowid, sameDefinition]
      dsimp only at done
      rw [sameName, sameDefinition, sameValues] at done
      refine ⟨t, rowid, found, placed, ?_⟩
      split at done
      · exact Or.inl (Except.ok.inj done).symm
      · cases done
      · rename_i a accepted
        obtain ⟨after, written, rfl⟩ := map_eq_ok done
        exact Or.inr ⟨a, after, accepted, written, rfl⟩

/-- One row of an insertion alters nothing that is kept. -/
theorem alters_insertRow {policy : ConflictPolicy} {p next : Progress} {row : Row}
    (before : Unreferring kept p.contents) (spares : Spares kept n)
    (done : insertRow enforced policy n p row = .ok next) :
    Alters kept p.contents next.contents := by
  obtain ⟨t, rowid, found, -, ofRow⟩ := insertRow_eq_ok done
  have counts : Alters kept p.contents
      (p.contents.modify t.name fun _ => t.counting rowid) :=
    alters_modify (spares.of_table? found) fun _ _ _ =>
      ⟨t, mem_of_table? found, Text.sameName_refl t.name, definition_counting t rowid⟩
  rcases ofRow with rfl | ⟨a, after, -, written, rfl⟩
  · exact counts
  · refine counts.trans (alters_write (counts.unreferring before) ?_ written)
    rw [StoredTable.name, definition_counting]
    exact spares.of_table? found

/-- A row of an update is gone or left out, or its new version is written in its place. -/
theorem updateRow_eq_ok {policy : ConflictPolicy} {assignments : List (String × Value)}
    {p next : Progress} {self : Int64}
    (done : updateRow enforced policy n assignments p self = .ok next) :
    next = p ∨ ∃ t r values rowid looked a after,
      p.contents.table? n = some t ∧ t.row? self = some r ∧
      assign? t.definition r.values assignments = some values ∧
      t.movedTo? self values = some rowid ∧
      t.accept policy (some self) looked ⟨rowid, values⟩ = .ok a ∧
      p.contents.write enforced t (some self) rowid a = .ok after ∧
      next = { p with contents := after, changed := p.changed + 1, written := rowid :: p.written } := by
  unfold updateRow at done
  split at done
  · cases done
  · rename_i t found
    split at done
    · exact Or.inl (Except.ok.inj done).symm
    · rename_i r isRow
      split at done
      · cases done
      · rename_i values assigned
        split at done
        · rename_i rowid moved
          unfold updateRow.place at done
          dsimp only at done
          split at done
          · exact Or.inl (Except.ok.inj done).symm
          · cases done
          · rename_i a accepted
            obtain ⟨after, written, rfl⟩ := map_eq_ok done
            exact Or.inr
              ⟨t, r, values, rowid, _, a, after, found, isRow, assigned, moved, accepted, written,
                rfl⟩
        · cases done

/-- One row of an update alters nothing that is kept. -/
theorem alters_updateRow {policy : ConflictPolicy} {assignments : List (String × Value)}
    {p next : Progress} {self : Int64} (before : Unreferring kept p.contents)
    (spares : Spares kept n) (done : updateRow enforced policy n assignments p self = .ok next) :
    Alters kept p.contents next.contents := by
  rcases updateRow_eq_ok done with
    rfl | ⟨t, r, values, rowid, looked, a, after, found, -, -, -, -, written, rfl⟩
  · exact .refl _
  · exact alters_write before (spares.of_table? found) written

/-- How far a statement has come when it ends. -/
def reached : Except (Refusal × Progress) Progress → Progress
  | .ok p => p
  | .error (_, p) => p

/-- What every row keeps a whole statement keeps, however it ends. -/
theorem holds_run {α : Type} {P : Contents → Prop} {step : Progress → α → Except Refusal Progress}
    {xs : List α}
    (each : ∀ {p next : Progress} {x : α}, x ∈ xs → P p.contents → step p x = .ok next →
      P next.contents) {p : Progress} (before : P p.contents) :
    P (reached (Progress.run step xs p)).contents := by
  induction xs generalizing p with
  | nil => exact before
  | cons x xs ih =>
      rw [Progress.run]
      cases done : step p x with
      | error refusal => exact before
      | ok next =>
          exact ih (fun member => each (List.mem_cons_of_mem x member))
            (each List.mem_cons_self before done)

private theorem alters_run {α : Type} {step : Progress → α → Except Refusal Progress}
    (each : ∀ {p next : Progress} {x : α}, Unreferring kept p.contents → step p x = .ok next →
      Alters kept p.contents next.contents) (xs : List α) {p : Progress}
    (before : Unreferring kept p.contents) :
    Alters kept p.contents (reached (Progress.run step xs p)).contents :=
  holds_run (P := Alters kept p.contents)
    (fun _ alters done => alters.trans (each (alters.unreferring before) done)) (.refl p.contents)

/-- What a statement leaves, unless the transaction around it is undone. -/
def left? : Effect → Option Contents
  | .done after _ _ => some after
  | .refused after => some after
  | .reverted => none

/-- A statement leaves the database as it was, as it had come to be, or what is kept of that. -/
theorem left_conclude {given : Orphan → Bool} {keep : Contents → Contents}
    {ran : Except (Refusal × Progress) Progress}
    (left : left? (conclude enforced c given keep ran) = some c') :
    c' = c ∨ c' = (reached ran).contents ∨ c' = keep (reached ran).contents := by
  unfold conclude at left
  split at left
  · split at left <;> obtain rfl := Option.some.inj left
    · exact Or.inl rfl
    · exact Or.inr (Or.inl rfl)
  · split at left <;> obtain rfl := Option.some.inj left
    · exact Or.inl rfl
    · exact Or.inr (Or.inr rfl)
  · cases left
  · exact Or.inl (Option.some.inj left).symm
  · exact Or.inl (Option.some.inj left).symm

/-- A list that comes of another element by element has an element for each. -/
theorem forall₂_of_mapM {α β : Type} {f : α → Option β} {xs : List α} {ys : List β}
    (done : xs.mapM f = some ys) : List.Forall₂ (fun x y => f x = some y) xs ys := by
  induction xs generalizing ys with
  | nil =>
      obtain rfl := Option.some.inj done
      exact .nil
  | cons x xs ih =>
      rw [List.mapM_cons] at done
      obtain ⟨y, here, ofRest⟩ := Option.bind_eq_some_iff.mp done
      obtain ⟨rest, later, isList⟩ := Option.bind_eq_some_iff.mp ofRest
      obtain rfl := Option.some.inj isList
      exact .cons here (ih later)

/-- What a mapping answers is the image of something. -/
theorem exists_of_mem_mapM {α β : Type} {f : α → Option β} {xs : List α} {ys : List β} {y : β}
    (done : xs.mapM f = some ys) (member : y ∈ ys) : ∃ x, f x = some y := by
  have listed := forall₂_of_mapM done
  clear done
  induction listed with
  | nil => cases member
  | cons here later ih =>
      rcases List.mem_cons.mp member with rfl | isLater
      · exact ⟨_, here⟩
      · exact ih isLater

/-- An insertion leaves what its rows have come to, or nothing of it. A failed one leaves no account
of positions. -/
theorem left_insert {s : InsertStatement} (left : left? (c.insert enforced s) = some c') :
    c' = c ∨ ∃ t rows after, c.table? s.table = some t ∧
      (∀ row ∈ rows, ∃ given,
        t.definition.columns.mapM (insertedValue? s.columns given) = some row) ∧
      after = (reached (Progress.run (insertRow enforced s.policy t.name) rows (.start c))).contents ∧
      (c' = after ∨ c' = after.modify t.name fun now => { now with sequence := t.sequence }) := by
  unfold insert at left
  split at left
  · exact Or.inl (Option.some.inj left).symm
  · rename_i t found
    dsimp only at left
    split at left
    · exact Or.inl (Option.some.inj left).symm
    · split at left
      · exact Or.inl (Option.some.inj left).symm
      · rename_i rows complete
        refine (left_conclude left).imp_right fun ended =>
          ⟨t, rows, _, found, fun row member => exists_of_mem_mapM complete member, rfl, ended⟩

/-- An update leaves what its rows have come to, or nothing of it. -/
theorem left_update {s : UpdateStatement} (left : left? (c.update enforced s) = some c') :
    c' = c ∨ ∃ t selves, c.table? s.table = some t ∧
      c' = (reached (Progress.run (updateRow enforced s.policy t.name s.assignments) selves
        (.start c))).contents := by
  unfold update at left
  split at left
  · exact Or.inl (Option.some.inj left).symm
  · rename_i t found
    split at left
    · exact Or.inl (Option.some.inj left).symm
    · rcases left_conclude left with same | ended | ended
      · exact Or.inl same
      · exact Or.inr ⟨t, _, found, ended⟩
      · exact Or.inr ⟨t, _, found, ended⟩

/-- A deletion leaves the database without rows of its table, or nothing of it. -/
theorem left_delete {s : DeleteStatement} (left : left? (c.delete enforced s) = some c') :
    c' = c ∨ ∃ t gone, c.table? s.table = some t ∧ (∀ p ∈ gone, p.table = t.name) ∧
      c.remove enforced gone = some c' := by
  unfold delete at left
  split at left
  · exact Or.inl (Option.some.inj left).symm
  · rename_i t found
    split at left
    · exact Or.inl (Option.some.inj left).symm
    · dsimp only at left
      split at left
      · exact Or.inl (Option.some.inj left).symm
      · rename_i after removed
        split at left <;> obtain rfl := Option.some.inj left
        · exact Or.inl rfl
        · refine Or.inr ⟨t, _, found, fun p member => ?_, removed⟩
          obtain ⟨r, -, rfl⟩ := List.mem_map.mp member
          rfl

private theorem alters_insert {s : InsertStatement} (before : Unreferring kept c)
    (spares : Spares kept s.table) (left : left? (c.insert enforced s) = some c') :
    Alters kept c c' := by
  rcases left_insert left with rfl | ⟨t, rows, after, found, -, rfl, ended⟩
  · exact .refl c'
  · have ofTable := spares.of_table? found
    have started : Unreferring kept (Progress.start c).contents := before
    have ran : Alters kept c
        (reached (Progress.run (insertRow enforced s.policy t.name) rows (.start c))).contents :=
      alters_run (fun before done => alters_insertRow before ofTable done) rows started
    rcases ended with rfl | rfl
    · exact ran
    · exact ran.trans (alters_modify_rows ofTable fun _ => rfl)

private theorem alters_update {s : UpdateStatement} (before : Unreferring kept c)
    (spares : Spares kept s.table) (left : left? (c.update enforced s) = some c') :
    Alters kept c c' := by
  rcases left_update left with rfl | ⟨t, selves, found, rfl⟩
  · exact .refl c'
  · have started : Unreferring kept (Progress.start c).contents := before
    exact alters_run
      (fun before done => alters_updateRow before (spares.of_table? found) done) selves started

private theorem alters_delete {s : DeleteStatement} (before : Unreferring kept c)
    (spares : Spares kept s.table) (left : left? (c.delete enforced s) = some c') :
    Alters kept c c' := by
  rcases left_delete left with rfl | ⟨t, gone, found, ofTable, removed⟩
  · exact .refl c'
  · refine alters_remove before (fun p member => ?_) removed
    rw [ofTable p member]
    exact spares.of_table? found

end Contents

/-- A statement on the rows of a table. -/
inductive RowStatement where
  | insert (s : InsertStatement)
  | update (s : UpdateStatement)
  | delete (s : DeleteStatement)

/-- The name of the table. -/
def RowStatement.table : RowStatement → String
  | insert s => s.table
  | update s => s.table
  | delete s => s.table

/-- What the statement makes of a database. -/
def RowStatement.effect (enforced : Bool) (c : Contents) : RowStatement → Effect
  | insert s => c.insert enforced s
  | update s => c.update enforced s
  | delete s => c.delete enforced s

namespace Engine

open Contents

variable {kept : String → Prop} {e : Engine} {s : RowStatement}

/-- Runs a statement on rows. -/
def perform (e : Engine) : RowStatement → Option (Nat × Option Int64) × Engine
  | .insert s => e.insert s
  | .update s => e.update s
  | .delete s => e.delete s

/-- A row statement is performed by its effect. -/
theorem perform_eq_change (e : Engine) (s : RowStatement) :
    e.perform s = e.change fun enforced c => s.effect enforced c := by
  cases s <;> rfl

/-- Whatever a row statement leaves, it has altered nothing but what is not kept. -/
theorem alters_effect {enforced : Bool} {c c' : Contents} (before : Unreferring kept c)
    (spares : Spares kept s.table) (left : left? (s.effect enforced c) = some c') :
    Alters kept c c' := by
  cases s with
  | insert s => exact alters_insert before spares left
  | update s => exact alters_update before spares left
  | delete s => exact alters_delete before spares left

/-- A statement on rows leaves the kept tables alone and defines none anew, or the transaction around
it is undone. -/
theorem alters_perform (before : Unreferring kept e.contents) (spares : Spares kept s.table) :
    (e.perform s).2 = e.rollback ∨
      (e.perform s).2.saved = e.saved ∧ Alters kept e.contents (e.perform s).2.contents := by
  rw [perform_eq_change, change]
  cases ended : s.effect e.enforced e.contents with
  | done after changed last =>
      exact Or.inr ⟨rfl, alters_effect before spares (congrArg left? ended)⟩
  | refused after =>
      exact Or.inr ⟨rfl, alters_effect before spares (congrArg left? ended)⟩
  | reverted => exact Or.inl rfl

end Engine

end Tabula
