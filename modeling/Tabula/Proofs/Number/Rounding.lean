import Mathlib.Data.Nat.Basic
import Mathlib.Tactic.Ring
import Tabula.Number.Binary

/-! # Numbers that are rounded to themselves

A ratio that a finite pattern stands for is rounded to that pattern (`Tabula.Format.round_of_units`),
and what has no more digits than the format, and no greater a magnitude, is what a finite pattern
stands for (`Tabula.Format.exists_code`). So a number in single precision survives double precision
(`Tabula.Binary32.narrow_widen`), and a whole number in double precision survives as an integer
(`Tabula.Binary64.ofInt_of_toInt?`).
-/

namespace Tabula

private theorem twoTo_add (m n : Nat) : twoTo (m + n) = twoTo m * twoTo n :=
  Nat.pow_add 2 m n

private theorem twoTo_le_twoTo {m n : Nat} (le : m ≤ n) : twoTo m ≤ twoTo n :=
  Nat.pow_le_pow_right (by decide) le

private theorem log2_eq_of_le_of_lt {n k : Nat} (least : twoTo k ≤ n) (most : n < twoTo (k + 1)) :
    Nat.log2 n = k := by
  have nonzero : n ≠ 0 := (Nat.lt_of_lt_of_le (twoTo_pos k) least).ne'
  exact (Nat.log2_eq_iff nonzero).mpr ⟨least, most⟩

namespace Format

/-! ## Patterns -/

variable (f : Format)

/-- The leading digits of a number beyond the subnormal ones: as many as the format has. -/
def Leads (m : Nat) : Prop :=
  twoTo f.fraction ≤ m ∧ m < twoTo (f.fraction + 1)

variable {f}

/-- What a pattern with an exponent stands for. -/
theorem units_of_leads {m : Nat} (leads : f.Leads m) (e : Nat) :
    f.units (e * twoTo f.fraction + m) = m * twoTo e := by
  have pos := twoTo_pos f.fraction
  obtain ⟨d, rfl⟩ := Nat.exists_eq_add_of_le leads.1
  have small : d < twoTo f.fraction := by
    have most := leads.2
    rw [twoTo_succ] at most
    omega
  have shape : e * twoTo f.fraction + (twoTo f.fraction + d) = d + (e + 1) * twoTo f.fraction := by
    ring
  have quotient : (d + (e + 1) * twoTo f.fraction) / twoTo f.fraction = e + 1 := by
    rw [Nat.add_mul_div_right d _ pos, Nat.div_eq_of_lt small, Nat.zero_add]
  have remainder : (d + (e + 1) * twoTo f.fraction) % twoTo f.fraction = d := by
    rw [Nat.add_mul_mod_self_right, Nat.mod_eq_of_lt small]
  have normal : ¬d + (e + 1) * twoTo f.fraction < twoTo f.fraction := by
    rw [Nat.add_mul]
    omega
  rw [shape, units, if_neg normal, quotient, remainder, Nat.add_sub_cancel]

/-- A pattern that is not subnormal has an exponent and leading digits. -/
theorem exists_leads {code : Nat} (normal : twoTo f.fraction ≤ code) :
    ∃ e m, code = e * twoTo f.fraction + m ∧ f.Leads m := by
  have pos := twoTo_pos f.fraction
  have small := Nat.mod_lt code pos
  obtain ⟨e, isQuotient⟩ := Nat.exists_eq_succ_of_ne_zero (Nat.div_pos normal pos).ne'
  have split := Nat.div_add_mod code (twoTo f.fraction)
  refine ⟨e, twoTo f.fraction + code % twoTo f.fraction, ?_, ?_, ?_⟩
  · calc
      code = twoTo f.fraction * (e + 1) + code % twoTo f.fraction := by
        rw [← Nat.succ_eq_add_one, ← isQuotient, split]
      _ = e * twoTo f.fraction + (twoTo f.fraction + code % twoTo f.fraction) := by ring
  · omega
  · rw [twoTo_succ]
    omega

private theorem log2_of_leads {m : Nat} (leads : f.Leads m) (e : Nat) :
    Nat.log2 (m * twoTo e) = f.fraction + e := by
  apply log2_eq_of_le_of_lt
  · rw [twoTo_add]
    exact Nat.mul_le_mul_right _ leads.1
  · rw [Nat.add_right_comm, twoTo_add]
    exact Nat.mul_lt_mul_of_pos_right leads.2 (twoTo_pos e)

/-! ## Rounding -/

private theorem divToEven_mul (q : Nat) {b : Nat} (pos : 0 < b) : divToEven (q * b) b = q := by
  unfold divToEven
  rw [Nat.mul_div_cancel q pos, Nat.mul_mod_left]
  exact if_pos (by omega)

/-- A ratio that a pattern stands for is rounded to it. -/
theorem round_of_units {code num den : Nat} (inRange : code ≤ f.infinity) (pos : 0 < den)
    (stands : num * twoTo f.scale = f.units code * den) : f.round num den = code := by
  unfold round
  dsimp only
  rw [stands, Nat.mul_div_cancel _ pos]
  suffices digits : (Nat.log2 (f.units code) - f.fraction) * twoTo f.fraction +
      divToEven (f.units code * den) (den * twoTo (Nat.log2 (f.units code) - f.fraction)) =
        code by
    rw [digits, Nat.min_eq_left inRange]
  by_cases subnormal : code < twoTo f.fraction
  · have isCode : f.units code = code := if_pos subnormal
    have noShift : Nat.log2 code - f.fraction = 0 := by
      by_cases isZero : code = 0
      · rw [isZero, Nat.log2_zero, Nat.zero_sub]
      · have := (Nat.log2_lt isZero).mpr subnormal
        omega
    have one : twoTo 0 = 1 := rfl
    rw [isCode, noShift, Nat.zero_mul, Nat.zero_add, one, Nat.mul_one, divToEven_mul code pos]
  · obtain ⟨e, m, rfl, leads⟩ := exists_leads (Nat.le_of_not_lt subnormal)
    have shift : f.fraction + e - f.fraction = e := Nat.add_sub_cancel_left ..
    have scaled : m * twoTo e * den = m * (den * twoTo e) := by ring
    rw [units_of_leads leads, log2_of_leads leads, shift, scaled,
      divToEven_mul m (Nat.mul_pos pos (twoTo_pos e))]

private theorem exists_code_of_leads {m j : Nat} (leads : f.Leads m) (bound : j + 2 ≤ f.top) :
    ∃ code, code < f.infinity ∧ f.units code = m * twoTo j := by
  refine ⟨j * twoTo f.fraction + m, ?_, units_of_leads leads j⟩
  calc
    j * twoTo f.fraction + m < j * twoTo f.fraction + twoTo (f.fraction + 1) :=
      Nat.add_lt_add_left leads.2 _
    _ = (j + 2) * twoTo f.fraction := by rw [twoTo_succ]; ring
    _ ≤ f.infinity := Nat.mul_le_mul_right _ bound

/-- What has no more digits than the format and is no greater than its numbers is what a finite
pattern stands for. -/
theorem exists_code {m j : Nat} (digits : m < twoTo (f.fraction + 1)) (bound : j + 2 ≤ f.top) :
    ∃ code, code < f.infinity ∧ f.units code = m * twoTo j := by
  -- The digits move up by one place at a time, as far as the exponent allows.
  induction j generalizing m with
  | zero =>
      by_cases leads : twoTo f.fraction ≤ m
      · exact exists_code_of_leads ⟨leads, digits⟩ bound
      · have small := Nat.lt_of_not_le leads
        refine ⟨m, ?_, ?_⟩
        · calc
            m < twoTo f.fraction := small
            _ ≤ f.infinity := Nat.le_mul_of_pos_left _ (by omega)
        · rw [units, if_pos small]
          exact (Nat.mul_one m).symm
  | succ j ih =>
      by_cases leads : twoTo f.fraction ≤ m
      · exact exists_code_of_leads ⟨leads, digits⟩ bound
      · have moved : m * 2 < twoTo (f.fraction + 1) := by
          rw [twoTo_succ]
          omega
        obtain ⟨code, finite, stands⟩ := ih moved (by omega)
        refine ⟨code, finite, ?_⟩
        rw [stands, twoTo_succ]
        ring

/-- A finite pattern stands for a number with no more digits than the format. -/
theorem units_eq {code : Nat} (finite : code < f.infinity) :
    ∃ m j, f.units code = m * twoTo j ∧ m < twoTo (f.fraction + 1) ∧ (j = 0 ∨ j + 2 ≤ f.top) := by
  by_cases subnormal : code < twoTo f.fraction
  · refine ⟨code, 0, ?_, ?_, Or.inl rfl⟩
    · rw [units, if_pos subnormal]
      exact (Nat.mul_one code).symm
    · rw [twoTo_succ]
      omega
  · obtain ⟨e, m, rfl, leads⟩ := exists_leads (Nat.le_of_not_lt subnormal)
    refine ⟨m, e, units_of_leads leads e, leads.2, Or.inr ?_⟩
    by_contra tooLarge
    have atLeast : f.top ≤ e + 1 := by omega
    have beyond : f.infinity ≤ e * twoTo f.fraction + m := by
      calc
        f.infinity ≤ (e + 1) * twoTo f.fraction := Nat.mul_le_mul_right _ atLeast
        _ = e * twoTo f.fraction + twoTo f.fraction := by ring
        _ ≤ e * twoTo f.fraction + m := Nat.add_le_add_left leads.1 _
    omega

end Format

/-! ## Words -/

/-- The bound of the whole numbers in 64 bits. -/
theorem twoTo_63 : twoTo 63 = 9223372036854775808 := rfl

private theorem twoTo_31 : twoTo 31 = 2147483648 := rfl

namespace Binary64

variable {x : Binary64}

private theorem toNat_ofCode {c : Nat} (negative : Bool) (small : c < twoTo 63) :
    (ofCode negative c).bits.toNat = if negative then twoTo 63 + c else c := by
  have inWord : (if negative then twoTo 63 + c else c) < 2 ^ 64 := by
    rw [twoTo_63] at *
    split <;> omega
  exact UInt64.toNat_ofNat_of_lt' inWord

/-- The pattern of a number that was made of one, whatever its sign. -/
theorem code_ofCode {c : Nat} (negative : Bool) (small : c < twoTo 63) :
    (ofCode negative c).code = c := by
  rw [code, toNat_ofCode negative small]
  rw [twoTo_63] at *
  split <;> omega

private theorem isNegative_ofCode {c : Nat} (negative : Bool) (small : c < twoTo 63) :
    (ofCode negative c).isNegative = negative := by
  rw [isNegative, toNat_ofCode negative small]
  cases negative with
  | false => exact decide_eq_false (Nat.not_le_of_lt small)
  | true => exact decide_eq_true (Nat.le_add_right _ _)

/-- A number in double precision is made of its sign and its pattern. -/
theorem ofCode_code (x : Binary64) : ofCode x.isNegative x.code = x := by
  obtain ⟨bits⟩ := x
  have inWord : bits.toNat < 2 ^ 64 := bits.toNat_lt
  have whole : (if twoTo 63 ≤ bits.toNat then twoTo 63 + bits.toNat % twoTo 63
      else bits.toNat % twoTo 63) = bits.toNat := by
    rw [twoTo_63]
    split <;> omega
  simp only [ofCode, isNegative, code, decide_eq_true_eq, whole, UInt64.ofNat_toNat]

/-- A finite number is the nearest one to every ratio that it stands for. -/
theorem ofRatio_eq {negative : Bool} {num den : Nat} (finite : x.isFinite = true)
    (sign : x.isNegative = negative) (pos : 0 < den)
    (stands : num * twoTo 1074 = x.units * den) : ofRatio negative num den = x := by
  have inRange : x.code < Format.double.infinity := of_decide_eq_true finite
  rw [ofRatio, Format.round_of_units inRange.le pos stands, ← sign, ofCode_code]

/-- What is not zero has units. -/
theorem units_pos (nonzero : x.isZero = false) : 0 < x.units := by
  have codePos : 0 < x.code := Nat.pos_of_ne_zero (beq_eq_false_iff_ne.mp nonzero)
  unfold units Format.units
  split
  · exact codePos
  · exact Nat.mul_pos (Nat.add_pos_left (twoTo_pos _) _) (twoTo_pos _)

/-- **Whole numbers survive as integers**, except that a zero has no sign then. -/
theorem ofInt_of_toInt? {n : Int} (whole : x.toInt? = some n)
    (unsigned : x.isZero = true → x.isNegative = false) : ofInt n = x := by
  unfold toInt? at whole
  split at whole
  · rename_i isWhole
    obtain ⟨finite, divides⟩ := Bool.and_eq_true_iff.mp isWhole
    obtain ⟨q, isMultiple⟩ := Nat.dvd_of_mod_eq_zero (eq_of_beq divides)
    have scalePos := twoTo_pos 1074
    obtain rfl := Option.some.inj whole
    have value : x.scaled / twoTo 1074 = if x.isNegative then -(q : Int) else q := by
      have nonzero : (twoTo 1074 : Int) ≠ 0 := Int.natCast_ne_zero.mpr scalePos.ne'
      unfold scaled
      rw [isMultiple, Nat.cast_mul]
      split
      · rw [← Int.mul_neg, Int.mul_ediv_cancel_left _ nonzero]
      · rw [Int.mul_ediv_cancel_left _ nonzero]
    have magnitude : (x.scaled / twoTo 1074).natAbs = q := by
      rw [value]
      split <;> omega
    have sign : x.isNegative = decide (x.scaled / twoTo 1074 < 0) := by
      rw [value]
      cases negative : x.isNegative with
      | false => exact (decide_eq_false (by simp)).symm
      | true =>
          have nonzero : x.isZero = false := by
            by_contra isZero
            rw [unsigned (Bool.eq_true_of_not_eq_false isZero)] at negative
            cases negative
          have qPos : 0 < q := by
            have pos := units_pos nonzero
            rw [isMultiple] at pos
            exact Nat.pos_of_mul_pos_left pos
          refine (decide_eq_true ?_).symm
          rw [if_pos rfl]
          omega
    refine ofRatio_eq finite sign Nat.one_pos ?_
    rw [magnitude, isMultiple, Nat.mul_one, Nat.mul_comm]
  · cases whole

end Binary64

namespace Binary32

variable {x : Binary32}

/-- A number in single precision is made of its sign and its pattern. -/
theorem ofCode_code (x : Binary32) : ofCode x.isNegative x.code = x := by
  obtain ⟨bits⟩ := x
  have inWord : bits.toNat < 2 ^ 32 := bits.toNat_lt
  have whole : (if twoTo 31 ≤ bits.toNat then twoTo 31 + bits.toNat % twoTo 31
      else bits.toNat % twoTo 31) = bits.toNat := by
    rw [twoTo_31]
    split <;> omega
  simp only [ofCode, isNegative, code, decide_eq_true_eq, whole, UInt32.ofNat_toNat]

/-- Double precision has every finite number of single precision. -/
theorem exists_widen (finite : x.code < Format.single.infinity) :
    ∃ y : Binary64, x.widen = y ∧ y.isFinite = true ∧ y.isNegative = x.isNegative ∧
      y.units = x.units * twoTo 925 := by
  obtain ⟨m, j, isUnits, digits, bound⟩ := Format.units_eq finite
  have fits : m < twoTo (Format.double.fraction + 1) := by
    refine digits.trans_le (twoTo_le_twoTo ?_)
    decide
  obtain ⟨code, inRange, stands⟩ := Format.exists_code (f := .double) (j := j + 925) fits (by
    have top : Format.single.top = 255 := rfl
    have top' : Format.double.top = 2047 := rfl
    omega)
  have small : code < twoTo 63 := inRange.trans (by decide)
  let y := Binary64.ofCode x.isNegative code
  have sameCode : y.code = code := Binary64.code_ofCode _ small
  have isFinite : y.isFinite = true := by
    rw [Binary64.isFinite, sameCode]
    exact decide_eq_true inRange
  have sign : y.isNegative = x.isNegative := Binary64.isNegative_ofCode _ small
  have sameUnits : y.units = x.units * twoTo 925 := by
    rw [Binary64.units, sameCode, stands, twoTo_add, units, isUnits, Nat.mul_assoc]
  refine ⟨y, ?_, isFinite, sign, sameUnits⟩
  have number : x.isNaN = false := decide_eq_false (Nat.not_lt_of_le finite.le)
  rw [widen, number, if_neg Bool.false_ne_true, if_neg finite.ne]
  refine Binary64.ofRatio_eq isFinite sign (twoTo_pos 149) ?_
  have scales : twoTo 1074 = twoTo 925 * twoTo 149 := twoTo_add 925 149
  rw [sameUnits, scales, Nat.mul_assoc]

/-- **Single precision survives double precision.** -/
theorem narrow_widen (number : x.isNaN = false) : x.widen.narrow = x := by
  have inRange : x.code ≤ Format.single.infinity := Nat.le_of_not_lt (of_decide_eq_false number)
  rcases inRange.lt_or_eq with finite | infinite
  · obtain ⟨y, widened, isFinite, sign, sameUnits⟩ := exists_widen finite
    have notNaN : y.isNaN = false :=
      decide_eq_false (Nat.not_lt_of_le (of_decide_eq_true isFinite).le)
    have scales : twoTo 1074 = twoTo 925 * twoTo 149 := twoTo_add 925 149
    have rounded : Format.single.round y.units (twoTo 1074) = x.code := by
      refine Format.round_of_units inRange (twoTo_pos 1074) ?_
      change y.units * twoTo 149 = x.units * twoTo 1074
      rw [sameUnits, scales, Nat.mul_assoc]
    rw [widened, Binary64.narrow, notNaN, if_neg Bool.false_ne_true, if_pos isFinite, sign, rounded,
      ofCode_code]
  · have small : Format.double.infinity < twoTo 63 := by decide
    let y := Binary64.ofCode x.isNegative Format.double.infinity
    have sameCode : y.code = Format.double.infinity := Binary64.code_ofCode _ small
    have widened : x.widen = y := by
      rw [widen, number, if_neg Bool.false_ne_true, if_pos infinite]
    have notNaN : y.isNaN = false := by
      rw [Binary64.isNaN, sameCode]
      exact decide_eq_false (Nat.lt_irrefl _)
    have notFinite : y.isFinite = false := by
      rw [Binary64.isFinite, sameCode]
      exact decide_eq_false (Nat.lt_irrefl _)
    have sign : y.isNegative = x.isNegative := Binary64.isNegative_ofCode _ small
    rw [widened, Binary64.narrow, notNaN, if_neg Bool.false_ne_true, notFinite,
      if_neg Bool.false_ne_true, sign, ← infinite, ofCode_code]

end Binary32

end Tabula
