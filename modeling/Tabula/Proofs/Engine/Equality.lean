import Tabula.Engine.Compare
import Tabula.Proofs.Engine.Keeping

/-! # Values that are the same

Numbers of either class are the same where they are worth the same, exactly
(`Tabula.Value.compare_eq_iff`). So two values that are the same as a third one are the same, unless
that is not a number (`Tabula.Value.same_of_same`).
-/

namespace Tabula

namespace Binary64

variable {x y : Binary64}

/-- What a number is worth: a count of `2 ^ -1074`, or it is infinite and has a sign. -/
def worth (x : Binary64) : Int ⊕ Bool :=
  if x.isFinite then .inl x.scaled else .inr x.isNegative

/-- A finite number is given by its sign and its count. -/
theorem code_eq_of_units_eq (finite : x.isFinite = true) (finite' : y.isFinite = true)
    (same : x.units = y.units) : x.code = y.code := by
  have inRange : x.code < Format.double.infinity := of_decide_eq_true finite
  have inRange' : y.code < Format.double.infinity := of_decide_eq_true finite'
  have rounds : Format.double.round x.units (twoTo 1074) = x.code :=
    Format.round_of_units inRange.le (twoTo_pos 1074) rfl
  have rounds' : Format.double.round x.units (twoTo 1074) = y.code :=
    Format.round_of_units inRange'.le (twoTo_pos 1074) (congrArg (· * twoTo 1074) same)
  exact rounds.symm.trans rounds'

/-- What the order of the numbers looks at. -/
theorem compare?_eq_iff_key (number : x.isNaN = false) (number' : y.isNaN = false) :
    x.compare? y = some .eq ↔
      (if x.isNegative then -(x.code : Int) else x.code) =
        if y.isNegative then -(y.code : Int) else y.code := by
  rw [compare?, number, number', Bool.or_self, if_neg Bool.false_ne_true, Option.some.injEq,
    compare_eq_iff_eq]

/-- What is neither finite nor no number is coded as infinite. -/
theorem code_of_infinite (number : x.isNaN = false) (infinite : x.isFinite = false) :
    x.code = Format.double.infinity :=
  Nat.le_antisymm (Nat.le_of_not_lt (of_decide_eq_false number))
    (Nat.le_of_not_lt (of_decide_eq_false infinite))

private theorem eq_of_code_eq (sign : x.isNegative = y.isNegative) (same : x.code = y.code) :
    x = y := by
  rw [← ofCode_code x, ← ofCode_code y, sign, same]

/-- Zero is of no units. -/
theorem units_of_isZero (isZero : x.isZero = true) : x.units = 0 := by
  have noCode : x.code = 0 := eq_of_beq isZero
  rw [units, Format.units, noCode, if_pos (twoTo_pos _)]

/-- What is of no units is zero. -/
theorem isZero_of_units (noUnits : x.units = 0) : x.isZero = true := by
  by_contra nonzero
  have pos := units_pos (Bool.eq_false_of_not_eq_true nonzero)
  omega

private theorem isFinite_of_isZero (isZero : x.isZero = true) : x.isFinite = true := by
  have noCode : x.code = 0 := eq_of_beq isZero
  rw [isFinite, noCode]
  decide +kernel

private theorem worth_of_isZero (isZero : x.isZero = true) : x.worth = .inl 0 := by
  rw [worth, if_pos (isFinite_of_isZero isZero), scaled, units_of_isZero isZero]
  simp

/-- Numbers of one sign are worth the same only if they are one. -/
theorem worth_eq_iff_of_sign (number : x.isNaN = false) (number' : y.isNaN = false)
    (sign : x.isNegative = y.isNegative) : x.worth = y.worth ↔ x.code = y.code := by
  constructor
  · intro same
    unfold worth at same
    split at same
    · rename_i finite
      split at same
      · rename_i finite'
        refine code_eq_of_units_eq finite finite' ?_
        have counts := Sum.inl.inj same
        unfold scaled at counts
        rw [sign] at counts
        split at counts <;> omega
      · cases same
    · rename_i infinite
      split at same
      · cases same
      · rename_i infinite'
        rw [code_of_infinite number (Bool.eq_false_of_not_eq_true infinite),
          code_of_infinite number' (Bool.eq_false_of_not_eq_true infinite')]
  · intro same
    rw [eq_of_code_eq sign same]

/-- Numbers of different signs are worth the same only if they are zero. -/
theorem worth_eq_iff_of_signs (negative : x.isNegative = true) (positive : y.isNegative = false) :
    x.worth = y.worth ↔ x.isZero = true ∧ y.isZero = true := by
  constructor
  · intro same
    unfold worth at same
    split at same
    · split at same
      · have counts := Sum.inl.inj same
        unfold scaled at counts
        rw [if_pos negative, if_neg (Bool.eq_false_iff.mp positive)] at counts
        exact ⟨isZero_of_units (by omega), isZero_of_units (by omega)⟩
      · cases same
    · split at same
      · cases same
      · have signs := Sum.inr.inj same
        rw [negative, positive] at signs
        cases signs
  · rintro ⟨isZero, isZero'⟩
    rw [worth_of_isZero isZero, worth_of_isZero isZero']

/-- Two numbers agree where they are worth the same. -/
theorem compare?_eq_some_eq (number : x.isNaN = false) (number' : y.isNaN = false) :
    x.compare? y = some .eq ↔ x.worth = y.worth := by
  rw [compare?_eq_iff_key number number']
  cases signX : x.isNegative <;> cases signY : y.isNegative
  · rw [worth_eq_iff_of_sign number number' (signX.trans signY.symm)]
    simp only [Bool.false_eq_true, if_false, Nat.cast_inj]
  · rw [eq_comm (a := x.worth), worth_eq_iff_of_signs signY signX, isZero, isZero, beq_iff_eq,
      beq_iff_eq]
    simp only [Bool.false_eq_true, if_false, if_true]
    omega
  · rw [worth_eq_iff_of_signs signX signY, isZero, isZero, beq_iff_eq, beq_iff_eq]
    simp only [Bool.false_eq_true, if_false, if_true]
    omega
  · rw [worth_eq_iff_of_sign number number' (signX.trans signY.symm)]
    simp only [if_true]
    omega

private theorem compareInt?_eq_some_eq (number : x.isNaN = false) (n : Int) :
    x.compareInt? n = some .eq ↔ x.worth = .inl (n * twoTo 1074) := by
  rw [compareInt?, number, if_neg Bool.false_ne_true, worth]
  split
  · rw [Option.some.injEq, compare_eq_iff_eq, Sum.inl.injEq]
  · split <;> exact iff_of_false nofun nofun

end Binary64

private theorem eq_of_compareBytes {as bs : List UInt8} (same : compareBytes as bs = .eq) :
    as = bs := by
  induction as generalizing bs with
  | nil =>
      cases bs with
      | nil => rfl
      | cons b bs => cases same
  | cons a as ih =>
      cases bs with
      | nil => cases same
      | cons b bs =>
          obtain ⟨here, later⟩ := Ordering.then_eq_eq.mp same
          rw [Std.LawfulEqOrd.eq_of_compare here, ih later]

namespace Value

open StorageType (IsNumeric)

/-- The value is of the class of the reals although it is not a number. -/
def IsNaN : Value → Prop
  | .real x => x.isNaN = true
  | _ => False

/-- What a number of either class is worth; of no use for other values. -/
def worth : Value → Int ⊕ Bool
  | .integer n => .inl (n.toInt * twoTo 1074)
  | .real x => x.worth
  | _ => .inl 0

variable {c : Collation} {v w x : Value}

/-- What is not a number is no different from any number. -/
theorem compare_of_isNaN (numeric : IsNumeric v) (numeric' : IsNumeric w)
    (isNaN : v.IsNaN ∨ w.IsNaN) : v.compare c w = .eq := by
  rcases numeric with ⟨a, rfl⟩ | ⟨x, rfl⟩ <;> rcases numeric' with ⟨b, rfl⟩ | ⟨y, rfl⟩
  · rcases isNaN with absurd | absurd <;> cases absurd
  · have isNaN : y.isNaN = true := isNaN.resolve_left id
    rw [compare, Binary64.compareInt?, if_pos isNaN]
    rfl
  · have isNaN : x.isNaN = true := isNaN.resolve_right id
    rw [compare, Binary64.compareInt?, if_pos isNaN]
    rfl
  · have either : (x.isNaN || y.isNaN) = true := Bool.or_eq_true_iff.mpr isNaN
    rw [compare, Binary64.compare?, if_pos either]
    rfl

/-- **Numbers are the same where they are worth the same.** -/
theorem compare_eq_iff (numeric : IsNumeric v) (numeric' : IsNumeric w) (number : ¬v.IsNaN)
    (number' : ¬w.IsNaN) : v.compare c w = .eq ↔ v.worth = w.worth := by
  have getD {o : Option Ordering} (some' : o ≠ none) : o.getD .eq = .eq ↔ o = some .eq := by
    cases o with
    | none => exact absurd rfl some'
    | some o => exact Option.some_inj.symm
  have compares {y : Binary64} (number : y.isNaN = false) (n : Int) : y.compareInt? n ≠ none := by
    rw [Binary64.compareInt?, number, if_neg Bool.false_ne_true]
    split <;> exact Option.some_ne_none _
  rcases numeric with ⟨a, rfl⟩ | ⟨x, rfl⟩ <;> rcases numeric' with ⟨b, rfl⟩ | ⟨y, rfl⟩
  · rw [compare, worth, worth, compare_eq_iff_eq, Sum.inl.injEq,
      Int.mul_eq_mul_right_iff (Int.natCast_ne_zero.mpr (twoTo_pos 1074).ne')]
  · have number : y.isNaN = false := Bool.eq_false_of_not_eq_true number'
    rw [compare, Ordering.swap_eq_eq, getD (compares number _),
      Binary64.compareInt?_eq_some_eq number, eq_comm]
    rfl
  · have number : x.isNaN = false := Bool.eq_false_of_not_eq_true number
    rw [compare, getD (compares number _), Binary64.compareInt?_eq_some_eq number]
    rfl
  · have number : x.isNaN = false := Bool.eq_false_of_not_eq_true number
    have number' : y.isNaN = false := Bool.eq_false_of_not_eq_true number'
    have compares : x.compare? y ≠ none := by
      rw [Binary64.compare?, number, number', Bool.or_self, if_neg Bool.false_ne_true]
      exact Option.some_ne_none _
    rw [compare, getD compares, Binary64.compare?_eq_some_eq number number']
    rfl

/-- Two values are the same if neither is NULL and they compare as equal. -/
theorem same_eq_true_iff :
    v.same c w = true ↔ v.isNull = false ∧ w.isNull = false ∧ v.compare c w = .eq := by
  rw [same, compare?, beq_iff_eq]
  cases v.isNull <;> cases w.isNull <;> simp

/-- Only numbers compare to numbers as the same. -/
theorem isNumeric_of_compare (numeric : IsNumeric x) (full : v.isNull = false)
    (same : v.compare c x = .eq) : IsNumeric v := by
  cases v with
  | null => cases full
  | integer n => exact Or.inl ⟨n, rfl⟩
  | real y => exact Or.inr ⟨y, rfl⟩
  | text s => rcases numeric with ⟨n, rfl⟩ | ⟨y, rfl⟩ <;> cases same
  | blob bytes => rcases numeric with ⟨n, rfl⟩ | ⟨y, rfl⟩ <;> cases same

/-- **What is the same as a third value is the same**, if that is not a real that is no number. -/
theorem same_of_same (number : ¬x.IsNaN) (sameV : v.same c x = true) (sameW : w.same c x = true) :
    v.same c w = true := by
  obtain ⟨fullV, fullX, equalV⟩ := same_eq_true_iff.mp sameV
  obtain ⟨fullW, -, equalW⟩ := same_eq_true_iff.mp sameW
  refine same_eq_true_iff.mpr ⟨fullV, fullW, ?_⟩
  have ofNumber (numeric : IsNumeric x) : v.compare c w = .eq := by
    have numericV := isNumeric_of_compare numeric fullV equalV
    have numericW := isNumeric_of_compare numeric fullW equalW
    by_cases isNaN : v.IsNaN ∨ w.IsNaN
    · exact compare_of_isNaN numericV numericW isNaN
    · obtain ⟨numberV, numberW⟩ := not_or.mp isNaN
      rw [compare_eq_iff numericV numericW numberV numberW,
        (compare_eq_iff numericV numeric numberV number).mp equalV,
        (compare_eq_iff numericW numeric numberW number).mp equalW]
  cases x with
  | null => cases fullX
  | integer n => exact ofNumber (Or.inl ⟨n, rfl⟩)
  | real y => exact ofNumber (Or.inr ⟨y, rfl⟩)
  | text s =>
      cases v with
      | text a =>
          cases w with
          | text b =>
              have keyA : c.key a = c.key s := Std.LawfulEqOrd.eq_of_compare equalV
              have keyB : c.key b = c.key s := Std.LawfulEqOrd.eq_of_compare equalW
              rw [compare, keyA, keyB]
              exact Std.ReflOrd.compare_self
          | _ => cases equalW
      | _ => cases equalV
  | blob bytes =>
      cases v with
      | blob as =>
          cases w with
          | blob bs =>
              obtain rfl := eq_of_compareBytes equalV
              obtain rfl := eq_of_compareBytes equalW
              exact equalW
          | _ => cases equalW
      | _ => cases equalV

/-! ## Operands -/

/-- What is bound is never the real that is no number, since NULL is bound in its place. -/
theorem not_isNaN_bound (v : Value) : ¬v.bound.IsNaN := by
  cases v with
  | real x =>
      rw [bound]
      split
      · exact id
      · rename_i number
        exact number
  | _ => exact id

end Value

/-- The nearest number to a ratio is one. -/
theorem Binary64.isNaN_ofRatio (negative : Bool) (num den : Nat) :
    (ofRatio negative num den).isNaN = false := by
  have inRange : Format.double.round num den ≤ Format.double.infinity := Nat.min_le_right _ _
  have small : Format.double.round num den < twoTo 63 := by
    refine Nat.lt_of_le_of_lt inRange ?_
    decide +kernel
  rw [isNaN, ofRatio, code_ofCode negative small]
  exact decide_eq_false (Nat.not_lt_of_le inRange)

/-- No numeral is read as the real that is no number. -/
theorem Numeral.not_isNaN_value (n : Numeral) : ¬n.value.IsNaN := by
  rw [value]
  split
  · exact id
  · exact Bool.eq_false_iff.mp (Binary64.isNaN_ofRatio _ _ _)

/-- **An operand is a number or of no class of numbers**, whatever is given for it. -/
theorem StorageType.not_isNaN_operand (k : StorageType) (v : Value) :
    ¬(k.operand v.bound).IsNaN := by
  have bound := Value.not_isNaN_bound v
  have ofText (s : String) :
      ¬(((Numeral.ofText? s).map Numeral.value).getD (.text s)).IsNaN := by
    cases Numeral.ofText? s with
    | none => exact id
    | some n => exact n.not_isNaN_value
  generalize v.bound = w at bound
  cases w with
  | real x => cases k <;> first | exact id | exact bound
  | text s => cases k <;> first | exact id | exact ofText s
  | _ => cases k <;> exact id

end Tabula
