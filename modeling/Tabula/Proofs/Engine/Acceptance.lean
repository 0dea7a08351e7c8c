import Tabula.Proofs.Engine.Alteration

/-! # Rows that are accepted

A row that is accepted clashes with no row but those that go for it, so it can be put among what
is left of its table (`Tabula.StoredTable.admits_erase`). A row that can be put among others has
another position than each of them and another key (`Tabula.StoredTable.apart_of_admits`).
-/

namespace Tabula

/-! ## Rows in their places -/

namespace StoredTable

variable {row r : StoredRow} {rows : List StoredRow}

/-- A row that is put in its place is the only new one. -/
theorem mem_place (member : r ∈ place row rows) : r = row ∨ r ∈ rows := by
  induction rows with
  | nil => exact Or.inl (List.mem_singleton.mp member)
  | cons q rest ih =>
      rw [place] at member
      split at member
      · rcases List.mem_cons.mp member with rfl | later
        · exact Or.inr List.mem_cons_self
        · exact (ih later).imp_right (List.mem_cons_of_mem q)
      · split at member
        · exact (List.mem_cons.mp member).imp_right (List.mem_cons_of_mem q)
        · exact List.mem_cons.mp member

/-- Where no row meets a condition, a row that meets it is the only one once it is there. -/
theorem filter_place {p : StoredRow → Bool} (meets : p row = true)
    (others : ∀ r ∈ rows, p r = false) : (place row rows).filter p = [row] := by
  have gone : ∀ rest : List StoredRow, (∀ r ∈ rest, p r = false) → rest.filter p = [] :=
    fun rest none => List.filter_eq_nil_iff.mpr fun r member => by simp [none r member]
  induction rows with
  | nil => simp [place, meets]
  | cons r rest ih =>
      have here := others r List.mem_cons_self
      have later : ∀ q ∈ rest, p q = false := fun q member => others q (List.mem_cons_of_mem r member)
      rw [place]
      split
      · rw [List.filter_cons_of_neg (by simp [here]), ih later]
      · split
        · rw [List.filter_cons_of_pos meets, gone rest later]
        · rw [List.filter_cons_of_pos meets, gone (r :: rest) others]

/-- Rows of which each two are related stay so with one more that is related to all of them. -/
theorem pairwise_place {R : StoredRow → StoredRow → Prop} (symm : ∀ {a b}, R a b → R b a)
    (pairwise : rows.Pairwise R) (related : ∀ r ∈ rows, R row r) : (place row rows).Pairwise R := by
  induction rows with
  | nil => exact List.pairwise_singleton R row
  | cons r rest ih =>
      obtain ⟨ofHead, ofRest⟩ := List.pairwise_cons.mp pairwise
      have relatedRest : ∀ q ∈ rest, R row q := fun q member =>
        related q (List.mem_cons_of_mem r member)
      rw [place]
      split
      · refine List.pairwise_cons.mpr ⟨fun q member => ?_, ih ofRest relatedRest⟩
        rcases mem_place member with rfl | later
        · exact symm (related r List.mem_cons_self)
        · exact ofHead q later
      · split
        · exact List.pairwise_cons.mpr ⟨relatedRest, ofRest⟩
        · exact List.pairwise_cons.mpr ⟨related, pairwise⟩

end StoredTable

/-! ## Values of columns -/

section Filling

variable {policy : ConflictPolicy} {looked : List String} {c d : Column} {cs : List Column} {v : Value}
  {vs ws : Row} {place : Nat}

/-- A row is filled column by column; a column that is not looked at keeps its value. -/
theorem fillRow_cons_eq_ok (filled : fillRow policy looked (c :: cs) (v :: vs) = .ok ws) :
    ∃ w rest, (if c.name ∈ looked then c.fill policy v = .ok w else w = v) ∧
      fillRow policy looked cs vs = .ok rest ∧ ws = w :: rest := by
  simp only [fillRow, List.contains_eq_mem, decide_eq_true_eq] at filled
  cases later : fillRow policy looked cs vs with
  | error refusal =>
      rw [later] at filled
      split at filled
      · cases ofColumn : c.fill policy v <;> rw [ofColumn] at filled <;> cases filled
      · cases filled
  | ok rest =>
      rw [later] at filled
      split at filled
      · rename_i isLooked
        cases ofColumn : c.fill policy v with
        | error refusal =>
            rw [ofColumn] at filled
            cases filled
        | ok w =>
            rw [ofColumn] at filled
            exact ⟨w, rest, by rw [if_pos isLooked], rfl, (Except.ok.inj filled).symm⟩
      · rename_i notLooked
        exact ⟨v, rest, by rw [if_neg notLooked], rfl, (Except.ok.inj filled).symm⟩

/-- Values are filled in column by column. -/
theorem forall₂_of_fillRow (filled : fillRow policy looked cs vs = .ok ws) :
    List.Forall₂
      (fun p w => if p.1.name ∈ looked then p.1.fill policy p.2 = .ok w else w = p.2)
      (cs.zip vs) ws := by
  induction cs generalizing vs ws with
  | nil =>
      obtain rfl := Except.ok.inj filled
      exact .nil
  | cons c cs ih =>
      cases vs with
      | nil =>
          obtain rfl := Except.ok.inj filled
          exact .nil
      | cons v vs =>
          obtain ⟨w, rest, here, later, rfl⟩ := fillRow_cons_eq_ok filled
          exact .cons here (ih later)

/-- A key is never filled from a default. -/
theorem fill_key (isKey : c.primaryKey = true) (policy : ConflictPolicy) (v : Value) :
    c.fill policy v = .ok v := by
  rw [Column.fill, isKey, Bool.true_or, Bool.true_or, if_pos rfl]

/-- A key keeps the value that it is given. -/
theorem getD_of_fillRow (filled : fillRow policy looked cs vs = .ok ws)
    (isColumn : cs[place]? = some c) (isKey : c.primaryKey = true) :
    ws.getD place .null = vs.getD place .null := by
  induction cs generalizing vs ws place with
  | nil => cases isColumn
  | cons d cs ih =>
      cases vs with
      | nil =>
          obtain rfl := Except.ok.inj filled
          rfl
      | cons v vs =>
          obtain ⟨w, rest, here, later, rfl⟩ := fillRow_cons_eq_ok filled
          cases place with
          | zero =>
              obtain rfl := Option.some.inj isColumn
              split at here
              · rw [fill_key isKey] at here
                exact (Except.ok.inj here).symm
              · exact here
          | succ place =>
              have others := ih later isColumn
              exact others

end Filling

/-! ## Acceptance -/

namespace StoredTable

variable {t : StoredTable} {policy : ConflictPolicy} {self : Option Int64} {looked : List String}
  {row r : StoredRow} {a : Accepted}

/-- A row that is accepted has what the columns make of its values, and the others that it clashes
with go for it. -/
theorem accept_eq_ok (accepted : t.accept policy self looked row = .ok a) :
    fillRow policy looked t.definition.columns row.values = .ok a.values ∧
      ∀ r ∈ t.rows, some r.rowid ≠ self → ∀ rule ∈ t.rules policy row.rowid a.values,
        rule.clashes r = true → rule.policy = .replace ∧ r.rowid ∈ a.displaced := by
  unfold accept at accepted
  cases filled : fillRow policy looked t.definition.columns row.values with
  | error e =>
      rw [filled] at accepted
      cases accepted
  | ok values =>
      rw [filled] at accepted
      simp only [bind, Except.bind, List.partition_eq_filter_filter] at accepted
      split at accepted
      · cases accepted
      · rename_i unbroken
        obtain rfl := Except.ok.inj accepted
        refine ⟨rfl, fun r member other rule isRule clashes => ?_⟩
        have isOther : r ∈ t.rows.filter fun r => some r.rowid != self :=
          List.mem_filter.mpr ⟨member, bne_iff_ne.mpr other⟩
        by_cases yields : rule.policy = .replace
        · refine ⟨yields, List.mem_map_of_mem (List.mem_filter.mpr ⟨isOther, ?_⟩)⟩
          refine List.any_eq_true.mpr ⟨rule, List.mem_filter.mpr ⟨isRule, ?_⟩, clashes⟩
          exact decide_eq_true yields
        · have firm : rule ∈ (t.rules policy row.rowid values).filter
              (not ∘ fun rule => decide (rule.policy = .replace)) := by
            refine List.mem_filter.mpr ⟨isRule, ?_⟩
            simp [yields]
          have broken := List.find?_eq_none.mp unbroken rule firm
          exact absurd (List.any_eq_true.mpr ⟨r, isOther, clashes⟩) broken

/-- The policy of a statement does not decide which rows clash. -/
theorem exists_rule {policy' : ConflictPolicy} {rowid : Int64} {values : Row} {rule : Rule}
    (isRule : rule ∈ t.rules policy rowid values) :
    ∃ rule' ∈ t.rules policy' rowid values, rule'.clashes = rule.clashes := by
  obtain ⟨own, isOwn, rfl⟩ := List.mem_map.mp isRule
  exact ⟨_, List.mem_map_of_mem isOwn, rfl⟩

private theorem admits_iff : t.admits self row = true ↔
    ∀ r ∈ t.rows, some r.rowid ≠ self → ∀ rule ∈ t.rules .abort row.rowid row.values,
      rule.clashes r = false := by
  simp only [admits, List.all_eq_true, List.mem_filter, bne_iff_ne, ne_eq, and_imp,
    Bool.not_eq_true']

/-- Once the rows are gone that go for it, an accepted row clashes with none. -/
theorem admits_erase (accepted : t.accept policy self looked row = .ok a) :
    (t.erase a.displaced).admits self ⟨row.rowid, a.values⟩ = true := by
  refine admits_iff.mpr fun r isLeft other rule isRule => ?_
  obtain ⟨member, stays⟩ := List.mem_filter.mp isLeft
  obtain ⟨rule', isRule', same⟩ := exists_rule (t := t) isRule
  by_contra clashes
  have displaced := ((accept_eq_ok accepted).2 r member other rule' isRule'
    (same ▸ Bool.eq_true_of_not_eq_false clashes)).2
  simp [displaced] at stays

/-- Where no row has to go, an accepted row clashes with none. -/
theorem admits_of_accept_abort (accepted : t.accept .abort self looked row = .ok a) :
    t.admits self ⟨row.rowid, a.values⟩ = true := by
  refine admits_iff.mpr fun r member other rule isRule => ?_
  by_contra clashes
  have yields := ((accept_eq_ok accepted).2 r member other rule isRule
    (Bool.eq_true_of_not_eq_false clashes)).1
  obtain ⟨own, -, rfl⟩ := List.mem_map.mp isRule
  cases yields

end StoredTable

/-! ## Rows apart -/

/-- Two rows have different positions, and no key with a value of its own is the same. -/
structure Table.Apart (t : Table) (r q : StoredRow) : Prop where
  rowid : r.rowid ≠ q.rowid
  key : ∀ place c, t.columns[place]? = some c → c.primaryKey = true → Table.isRowid c = false →
    ¬((r.values.getD place .null).same c.collation (q.values.getD place .null) = true ∧
      (q.values.getD place .null).same c.collation (r.values.getD place .null) = true)

/-- Two rows are apart either way. -/
theorem Table.Apart.symm {t : Table} {r q : StoredRow} (apart : t.Apart r q) : t.Apart q r :=
  ⟨apart.rowid.symm, fun place c isColumn isKey notRowid same =>
    apart.key place c isColumn isKey notRowid same.symm⟩

/-- The column that is the position of a row holds it. -/
def Table.Places (t : Table) (r : StoredRow) : Prop :=
  ∀ place, t.rowidPlace? = some place → r.values.getD place .null = .integer r.rowid

/-- The column of the position is a key. -/
theorem Table.exists_of_rowidPlace? {t : Table} {place : Nat}
    (isPlace : t.rowidPlace? = some place) :
    ∃ c, t.columns[place]? = some c ∧ c.primaryKey = true := by
  obtain ⟨inside, isRowid, -⟩ := List.findIdx?_eq_some_iff_getElem.mp isPlace
  exact ⟨_, List.getElem?_eq_getElem inside, (Bool.and_eq_true_iff.mp isRowid).1⟩

namespace StoredTable

variable {t : StoredTable} {policy : ConflictPolicy} {self : Option Int64} {looked : List String}
  {row r : StoredRow}

private theorem rowidRule_mem (t : StoredTable) (policy : ConflictPolicy) (rowid : Int64)
    (values : Row) :
    ⟨policy.orElse t.rowidPolicy, fun r => r.rowid == rowid⟩ ∈ t.rules policy rowid values := by
  rw [rules, List.map_cons]
  exact List.mem_cons_self

private theorem keyRule_mem (policy : ConflictPolicy) (rowid : Int64) (values : Row) {place : Nat}
    {c : Column} (isColumn : t.definition.columns[place]? = some c) (isKey : c.primaryKey = true)
    (notRowid : Table.isRowid c = false) :
    ∃ rule ∈ t.rules policy rowid values, rule.clashes = fun r =>
      (r.values.getD place .null).same c.collation (values.getD place .null) := by
  have isRule : unique place c c.effectivePolicy values ∈ t.columnRules values := by
    refine List.mem_filterMap.mpr ⟨(c, place), ?_, ?_⟩
    · exact List.mem_reverse.mpr (List.mem_zipIdx_iff_getElem?.mpr isColumn)
    · simp [notRowid, isKey]
  refine ⟨_, List.mem_map_of_mem (List.mem_cons_of_mem _ (List.mem_append_right _ isRule)), rfl⟩

/-- A row that clashes with none is apart from all others. -/
theorem apart_of_admits (admitted : t.admits self row = true) (member : r ∈ t.rows)
    (other : some r.rowid ≠ self) : t.definition.Apart row r := by
  have clean := admits_iff.mp admitted r member other
  constructor
  · have free := clean _ (t.rowidRule_mem .abort row.rowid row.values)
    exact (beq_eq_false_iff_ne.mp free).symm
  · rintro place c isColumn isKey notRowid ⟨-, same⟩
    obtain ⟨rule, isRule, clashes⟩ :=
      keyRule_mem .abort row.rowid row.values isColumn isKey notRowid
    have free := clean rule isRule
    rw [clashes] at free
    exact Bool.false_ne_true (free.symm.trans same)

/-- A row is accepted with its position where a column holds it. -/
theorem places_of_accept {rowid : Int64} {values : Row} {a : Accepted}
    (accepted : t.accept policy self looked ⟨rowid, values⟩ = .ok a)
    (placed : t.definition.Places ⟨rowid, values⟩) : t.definition.Places ⟨rowid, a.values⟩ := by
  intro place isPlace
  obtain ⟨c, isColumn, isKey⟩ := Table.exists_of_rowidPlace? isPlace
  exact (getD_of_fillRow (accept_eq_ok accepted).1 isColumn isKey).trans (placed place isPlace)

end StoredTable

end Tabula
