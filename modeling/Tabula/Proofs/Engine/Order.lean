import Mathlib.Data.List.Basic
import Mathlib.Order.Compare
import Mathlib.Order.Monotone.Basic
import Tabula.Engine.Reading
import Tabula.Proofs.Engine.Proper

/-! # The order of values and rows

Numbers of either class stand in the order of what they are worth, exactly, and so all values that
are not NaN stand in one order with no way around (`Tabula.Value.compare_eq_placed`). Rows are
therefore sorted by any columns, the first ones counting most
(`Tabula.StoredRow.arranges_of_isProper`).
-/

namespace Tabula

/-! ## Numbers -/

/-- The next pattern stands for a greater number. -/
theorem Format.units_lt_succ (f : Format) (code : Nat) : f.units code < f.units (code + 1) := by
  have leadsFirst : f.Leads (twoTo f.fraction) :=
    ⟨Nat.le_refl _, by rw [twoTo_succ]; have := twoTo_pos f.fraction; omega⟩
  by_cases subnormal : code < twoTo f.fraction
  · have isCode : f.units code = code := if_pos subnormal
    by_cases still : code + 1 < twoTo f.fraction
    · rw [isCode, units, if_pos still]
      exact Nat.lt_succ_self code
    · have first : code + 1 = 0 * twoTo f.fraction + twoTo f.fraction := by omega
      have one : twoTo 0 = 1 := rfl
      rw [isCode, first, units_of_leads leadsFirst, one]
      omega
  · obtain ⟨e, m, rfl, leads⟩ := exists_leads (Nat.le_of_not_lt subnormal)
    have scale := twoTo_pos e
    rw [units_of_leads leads]
    by_cases more : m + 1 < twoTo (f.fraction + 1)
    · have leadsMore : f.Leads (m + 1) := ⟨Nat.le_succ_of_le leads.1, more⟩
      rw [Nat.add_assoc, units_of_leads leadsMore]
      exact Nat.mul_lt_mul_of_pos_right (Nat.lt_succ_self m) scale
    · -- the digits are used up, so the exponent is the next one
      have last : m + 1 = twoTo f.fraction + twoTo f.fraction := by
        have most := leads.2
        rw [twoTo_succ] at more most
        omega
      have next : e * twoTo f.fraction + m + 1 =
          (e + 1) * twoTo f.fraction + twoTo f.fraction := by
        rw [Nat.add_assoc, last, Nat.add_mul, Nat.one_mul, Nat.add_assoc]
      calc m * twoTo e
        _ < (m + 1) * twoTo e := Nat.mul_lt_mul_of_pos_right (Nat.lt_succ_self m) scale
        _ = twoTo f.fraction * twoTo (e + 1) := by rw [last, twoTo_succ]; ring
        _ = f.units (e * twoTo f.fraction + m + 1) := by rw [next, units_of_leads leadsFirst]

private theorem Format.strictMono_units (f : Format) : StrictMono f.units :=
  strictMono_nat_of_lt_succ f.units_lt_succ

/-- On which side of the finite numbers something is. -/
def sideOf : Int ⊕ Bool → Int
  | .inl _ => 0
  | .inr true => -1
  | .inr false => 1

/-- The count of a finite number. -/
def countOf : Int ⊕ Bool → Int
  | .inl count => count
  | .inr _ => 0

/-- The order of what numbers are worth. -/
def compareWorth : Int ⊕ Bool → Int ⊕ Bool → Ordering :=
  compareLex (compareOn sideOf) (compareOn countOf)

instance : Std.TransCmp compareWorth :=
  inferInstanceAs (Std.TransCmp (compareLex (compareOn sideOf) (compareOn countOf)))

private theorem compareWorth_swap (v w : Int ⊕ Bool) : compareWorth v w = (compareWorth w v).swap :=
  Std.OrientedCmp.eq_swap

private theorem compareWorth_inl (a b : Int) : compareWorth (.inl a) (.inl b) = compare a b :=
  rfl

private theorem compareWorth_eq_lt (v w : Int ⊕ Bool) :
    compareWorth v w = .lt ↔
      sideOf v < sideOf w ∨ sideOf v = sideOf w ∧ countOf v < countOf w := by
  rw [compareWorth, compareLex, compareOn, compareOn, Ordering.then_eq_lt, compare_lt_iff_lt,
    compare_lt_iff_lt, compare_eq_iff_eq]

namespace Binary64

variable {x y : Binary64}

/-- The pattern of a number with its sign, by which numbers compare. -/
def signedCode (x : Binary64) : Int :=
  if x.isNegative then -(x.code : Int) else x.code

/-- Where a number stands, by its pattern and by what it is worth. -/
theorem signedCode_cases (number : x.isNaN = false) :
    (sideOf x.worth = 0 ∧ x.code < Format.double.infinity ∧
      (x.signedCode = x.code ∧ countOf x.worth = x.units ∨
        x.signedCode = -x.code ∧ countOf x.worth = -x.units)) ∨
    (countOf x.worth = 0 ∧
      (x.signedCode = Format.double.infinity ∧ sideOf x.worth = 1 ∨
        x.signedCode = -Format.double.infinity ∧ sideOf x.worth = -1)) := by
  cases finite : x.isFinite with
  | true =>
      left
      rw [worth, if_pos finite]
      refine ⟨rfl, of_decide_eq_true finite, ?_⟩
      rw [signedCode, countOf, scaled]
      cases x.isNegative with
      | false => exact Or.inl ⟨rfl, rfl⟩
      | true => exact Or.inr ⟨rfl, rfl⟩
  | false =>
      right
      rw [worth, finite, if_neg Bool.false_ne_true, signedCode, code_of_infinite number finite]
      cases x.isNegative with
      | false => exact ⟨rfl, Or.inl ⟨rfl, rfl⟩⟩
      | true => exact ⟨rfl, Or.inr ⟨rfl, rfl⟩⟩

private theorem signedCode_lt_iff (number : x.isNaN = false) (number' : y.isNaN = false) :
    x.signedCode < y.signedCode ↔ compareWorth x.worth y.worth = .lt := by
  have positive : 0 < Format.double.infinity := by decide +kernel
  have less : x.units < y.units ↔ x.code < y.code := Format.double.strictMono_units.lt_iff_lt
  have more : y.units < x.units ↔ y.code < x.code := Format.double.strictMono_units.lt_iff_lt
  have zero : x.units = 0 ↔ x.code = 0 :=
    ⟨fun none => eq_of_beq (isZero_of_units none), fun none => units_of_isZero (beq_iff_eq.mpr none)⟩
  have zero' : y.units = 0 ↔ y.code = 0 :=
    ⟨fun none => eq_of_beq (isZero_of_units none), fun none => units_of_isZero (beq_iff_eq.mpr none)⟩
  rw [compareWorth_eq_lt]
  rcases signedCode_cases number with ⟨_, _, _ | _⟩ | ⟨_, _ | _⟩ <;>
    rcases signedCode_cases number' with ⟨_, _, _ | _⟩ | ⟨_, _ | _⟩ <;> omega

/-- **Two numbers compare as what they are worth.** -/
theorem compare?_eq (number : x.isNaN = false) (number' : y.isNaN = false) :
    x.compare? y = some (compareWorth x.worth y.worth) := by
  have codes : x.compare? y = some (Ord.compare x.signedCode y.signedCode) := by
    rw [compare?, number, number', Bool.or_self, if_neg Bool.false_ne_true]
    rfl
  rw [codes]
  cases order : compareWorth x.worth y.worth with
  | lt => rw [compare_lt_iff_lt.mpr ((signedCode_lt_iff number number').mpr order)]
  | gt =>
      have order' : compareWorth y.worth x.worth = .lt := by
        rw [compareWorth_swap, order]
        rfl
      rw [compare_gt_iff_gt.mpr ((signedCode_lt_iff number' number).mpr order')]
  | eq =>
      have notLess : ¬x.signedCode < y.signedCode := fun less => by
        have order' := (signedCode_lt_iff number number').mp less
        rw [order] at order'
        cases order'
      have notMore : ¬y.signedCode < x.signedCode := fun more => by
        have order' := (signedCode_lt_iff number' number).mp more
        rw [compareWorth_swap, order] at order'
        cases order'
      rw [compare_eq_iff_eq.mpr (Int.le_antisymm (Int.not_lt.mp notMore) (Int.not_lt.mp notLess))]

private theorem compareInt?_eq (number : x.isNaN = false) (n : Int) :
    x.compareInt? n = some (compareWorth x.worth (.inl (n * twoTo 1074))) := by
  rw [compareInt?, number, if_neg Bool.false_ne_true, worth]
  split
  · rfl
  · cases x.isNegative <;> rfl

end Binary64

private theorem compareBytes_eq (as bs : List UInt8) : compareBytes as bs = compare as bs := by
  induction as generalizing bs with
  | nil => cases bs <;> rfl
  | cons a as ih =>
      cases bs with
      | nil => rfl
      | cons b bs =>
          rw [compareBytes, ih, List.compare_cons_cons]

namespace Value

/-! ## Values -/

/-- What a collation compares of a value. -/
def keyOf (c : Collation) : Value → String
  | text s => c.key s
  | _ => ""

/-- The bytes of a byte string. -/
def bytesOf : Value → List UInt8
  | blob bytes => bytes
  | _ => []

/-- The order of values by their classes, and within a class by what there is to compare. -/
def placed (c : Collation) : Value → Value → Ordering :=
  compareLex (compareOn rank) <|
    compareLex (fun v w => compareWorth v.worth w.worth) <|
      compareLex (compareOn (keyOf c)) (compareOn bytesOf)

instance (c : Collation) : Std.TransCmp (placed c) :=
  have : Std.TransCmp fun v w : Value => compareWorth v.worth w.worth :=
    { eq_swap := compareWorth_swap _ _, isLE_trans := Std.TransCmp.isLE_trans }
  inferInstanceAs (Std.TransCmp (compareLex (compareOn rank) <|
    compareLex (fun v w => compareWorth v.worth w.worth) <|
      compareLex (compareOn (keyOf c)) (compareOn bytesOf)))

open StorageType (IsNumeric)

variable {c : Collation} {v w : Value}

/-- **Numbers of either class compare as what they are worth.** -/
theorem compare_eq_compareWorth (numeric : IsNumeric v) (numeric' : IsNumeric w)
    (number : ¬v.IsNaN) (number' : ¬w.IsNaN) : v.compare c w = compareWorth v.worth w.worth := by
  rcases numeric with ⟨a, rfl⟩ | ⟨x, rfl⟩ <;> rcases numeric' with ⟨b, rfl⟩ | ⟨y, rfl⟩
  · have scale : (0 : Int) < twoTo 1074 := Int.natCast_pos.mpr (twoTo_pos 1074)
    rw [compare, worth, worth, compareWorth_inl]
    rcases lt_trichotomy a.toInt b.toInt with less | same | more
    · rw [compare_lt_iff_lt.mpr less, compare_lt_iff_lt.mpr (Int.mul_lt_mul_of_pos_right less scale)]
    · rw [same, compare_eq_iff_eq.mpr rfl, compare_eq_iff_eq.mpr rfl]
    · rw [compare_gt_iff_gt.mpr more, compare_gt_iff_gt.mpr (Int.mul_lt_mul_of_pos_right more scale)]
  · have number' : y.isNaN = false := Bool.eq_false_of_not_eq_true number'
    rw [compare, Binary64.compareInt?_eq number']
    exact (compareWorth_swap _ _).symm
  · have number : x.isNaN = false := Bool.eq_false_of_not_eq_true number
    rw [compare, Binary64.compareInt?_eq number]
    rfl
  · have number : x.isNaN = false := Bool.eq_false_of_not_eq_true number
    have number' : y.isNaN = false := Bool.eq_false_of_not_eq_true number'
    rw [compare, Binary64.compare?_eq number number']
    rfl

private theorem placed_of_isNumeric (numeric : IsNumeric v) (numeric' : IsNumeric w) :
    placed c v w = compareWorth v.worth w.worth := by
  rcases numeric with ⟨a, rfl⟩ | ⟨x, rfl⟩ <;> rcases numeric' with ⟨b, rfl⟩ | ⟨y, rfl⟩ <;>
    exact Ordering.then_eq

/-- **Values stand in one order**, those apart that are of the class of numbers and are none. -/
theorem compare_eq_placed (number : ¬v.IsNaN) (number' : ¬w.IsNaN) :
    v.compare c w = placed c v w := by
  have numbers (numeric : IsNumeric v) (numeric' : IsNumeric w) : v.compare c w = placed c v w := by
    rw [compare_eq_compareWorth numeric numeric' number number', placed_of_isNumeric numeric numeric']
  cases v with
  | null => cases w <;> rfl
  | integer n =>
      cases w with
      | integer m => exact numbers (Or.inl ⟨n, rfl⟩) (Or.inl ⟨m, rfl⟩)
      | real y => exact numbers (Or.inl ⟨n, rfl⟩) (Or.inr ⟨y, rfl⟩)
      | _ => rfl
  | real x =>
      cases w with
      | integer m => exact numbers (Or.inr ⟨x, rfl⟩) (Or.inl ⟨m, rfl⟩)
      | real y => exact numbers (Or.inr ⟨x, rfl⟩) (Or.inr ⟨y, rfl⟩)
      | _ => rfl
  | text s =>
      cases w with
      | text t => exact Ordering.then_eq.symm
      | _ => rfl
  | blob as =>
      cases w with
      | blob bs => exact compareBytes_eq as bs
      | _ => rfl

end Value

/-! ## Rows -/

namespace StoredRow

private theorem not_isNaN_cell {r : StoredRow} (proper : r.values.IsProper) (cell : Table.Cell) :
    ¬(r.cell cell).IsNaN := by
  cases cell with
  | rowid => exact id
  | column place c => exact proper.getD place

/-- The order of rows by a cell. -/
theorem transCmp_cell (cell : Table.Cell) :
    Std.TransCmp fun r q : {r : StoredRow // r.values.IsProper} =>
      (r.1.cell cell).compare cell.collation (q.1.cell cell) := by
  have inOrder : (fun r q : {r : StoredRow // r.values.IsProper} =>
      (r.1.cell cell).compare cell.collation (q.1.cell cell)) =
      fun r q => Value.placed cell.collation (r.1.cell cell) (q.1.cell cell) := by
    funext r q
    exact Value.compare_eq_placed (not_isNaN_cell r.2 cell) (not_isNaN_cell q.2 cell)
  rw [inOrder]
  exact { eq_swap := Std.OrientedCmp.eq_swap, isLE_trans := Std.TransCmp.isLE_trans }

/-- The order of rows by the terms of an order. -/
theorem transCmp_compareRows (order : List (Table.Cell × Direction)) :
    Std.TransCmp fun r q : {r : StoredRow // r.values.IsProper} => compareRows order r.1 q.1 := by
  induction order with
  | nil => exact { eq_swap := rfl, isLE_trans := fun _ _ => rfl }
  | cons term order ih =>
      obtain ⟨cell, direction⟩ := term
      have upward := transCmp_cell cell
      have downward : Std.TransCmp fun r q : {r : StoredRow // r.values.IsProper} =>
          ((r.1.cell cell).compare cell.collation (q.1.cell cell)).swap := by
        have turned : (fun r q : {r : StoredRow // r.values.IsProper} =>
            ((r.1.cell cell).compare cell.collation (q.1.cell cell)).swap) =
            fun r q => (q.1.cell cell).compare cell.collation (r.1.cell cell) := by
          funext r q
          exact (upward.eq_swap (a := q)).symm
        rw [turned]
        exact upward.opposite
      cases direction with
      | asc => exact inferInstanceAs (Std.TransCmp (compareLex _ _))
      | desc => exact inferInstanceAs (Std.TransCmp (compareLex _ _))

/-- **Rows without NaN can be sorted** by the terms of any order. -/
theorem arranges_of_isProper {rows : List StoredRow} (proper : ∀ r ∈ rows, r.values.IsProper)
    (order : List (Table.Cell × Direction)) : Arranges order rows := by
  have ordered := transCmp_compareRows order
  constructor
  · intro r isRow q isRow'
    have turned := ordered.eq_swap (a := ⟨q, proper q isRow'⟩) (b := ⟨r, proper r isRow⟩)
    dsimp only at turned
    rw [turned, Ordering.isLE_swap]
    cases compareRows order r q with
    | gt => exact Or.inr rfl
    | lt | eq => exact Or.inl rfl
  · intro r isRow q isRow' p isRow'' first second
    exact ordered.isLE_trans (a := ⟨r, proper r isRow⟩) (b := ⟨q, proper q isRow'⟩)
      (c := ⟨p, proper p isRow''⟩) first second

end StoredRow

end Tabula
