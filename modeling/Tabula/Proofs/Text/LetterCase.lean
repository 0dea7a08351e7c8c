import Mathlib.Data.List.Basic
import Mathlib.Data.String.Basic
import Tabula.Text.LetterCase

/-! # Names in any ASCII case

Duplicates are looked for in full lower case, while an engine ignores the case of ASCII letters only.
The first folding is the coarser one: a capital ASCII letter and its small form have the same lower
case, and are alike to the letters around them (`Tabula.Text.lowerChars_map_toLower`), so names that
are one name for the engine are the same in lower case (`Tabula.Text.lower_eq_of_sameName`). The
converse holds of names in ASCII (`Tabula.Text.sameName_of_lower_eq`), but not of `É` and `é`.
-/

namespace Tabula.Text

variable {c : Char}

/-- A capital letter of ASCII is told by its place, and its small form is 32 places later. -/
theorem toLower_cases (c : Char) :
    c.toLower = c ∧ ¬(65 ≤ c.toNat ∧ c.toNat ≤ 90) ∨
      (65 ≤ c.toNat ∧ c.toNat ≤ 90) ∧ c.toLower.toNat = c.toNat + 32 := by
  have places : (c.val ≥ 'A'.val ∧ c.val ≤ 'Z'.val) ↔ 65 ≤ c.toNat ∧ c.toNat ≤ 90 :=
    and_congr UInt32.le_iff_toNat_le UInt32.le_iff_toNat_le
  by_cases capital : c.val ≥ 'A'.val ∧ c.val ≤ 'Z'.val
  · refine Or.inr ⟨places.mp capital, ?_⟩
    have small : c.toLower.val = c.val + ('a'.val - 'A'.val) :=
      congrArg Char.val (dif_pos capital : c.toLower = _)
    have shift : ('a'.val - 'A'.val).toNat = 32 := by decide
    have within := places.mp capital
    rw [Char.toNat, small, UInt32.toNat_add, shift]
    change (c.toNat + 32) % 2 ^ 32 = c.toNat + 32
    omega
  · exact Or.inl ⟨dif_neg capital, places.not.mp capital⟩

/-! ## Characters -/

/-- A character is found in a table of ranges just if it is in one of them. -/
theorem inRanges_eq_true_iff {ranges : Array (Nat × Nat)} :
    inRanges ranges c = true ↔ ∃ r ∈ ranges.toList, r.1 ≤ c.toNat ∧ c.toNat ≤ r.2 := by
  simp only [inRanges, ← Array.any_toList, List.any_eq_true, Bool.and_eq_true, decide_eq_true_eq]

/-- Casing looks through no letter of ASCII. -/
theorem isCaseIgnorable_toLower (c : Char) : isCaseIgnorable c.toLower = isCaseIgnorable c := by
  have noLetter : ∀ r ∈ caseIgnorableRanges.toList,
      r.2 < 65 ∨ 122 < r.1 ∨ 90 < r.1 ∧ r.2 < 97 := by decide +kernel
  rcases toLower_cases c with ⟨same, -⟩ | ⟨capital, small⟩
  · rw [same]
  · rw [Bool.eq_iff_iff, isCaseIgnorable, isCaseIgnorable, inRanges_eq_true_iff,
      inRanges_eq_true_iff, small]
    constructor <;>
    · rintro ⟨r, member, within⟩
      have outside := noLetter r member
      omega

/-- Every letter of ASCII is cased. -/
theorem isCased_toLower (c : Char) : inRanges casedRanges c.toLower = inRanges casedRanges c := by
  have letters : (65, 90) ∈ casedRanges.toList ∧ (97, 122) ∈ casedRanges.toList := by
    decide +kernel
  rcases toLower_cases c with ⟨same, -⟩ | ⟨capital, small⟩
  · rw [same]
  · rw [inRanges_eq_true_iff.mpr ⟨_, letters.1, capital⟩,
      inRanges_eq_true_iff.mpr ⟨_, letters.2, by rw [small]; omega⟩]

/-- In ASCII, full lower case is that of the engine. -/
theorem lowerChar_of_ascii (ascii : c.toNat < 128) : lowerChar c = [c.toLower] := by
  obtain ⟨runs, isTable, beyond⟩ : ∃ runs, lowerRuns.toList = ⟨65, 90, 1, 32⟩ :: runs ∧
      ∀ r ∈ runs, 128 ≤ r.first := ⟨lowerRuns.toList.tail, rfl, by decide +kernel⟩
  have notDotted : c ≠ 'İ' := by
    rintro rfl
    exact absurd ascii (by decide)
  have later : runs.find? (·.holds c.toNat) = none := by
    refine List.find?_eq_none.mpr fun r member => ?_
    have place := beyond r member
    have before : ¬ r.first ≤ c.toNat := by omega
    simp only [CaseRun.holds, before, decide_false, Bool.false_and, Bool.false_eq_true,
      not_false_eq_true]
  rw [lowerChar, if_neg notDotted, ← Array.find?_toList, isTable, List.find?_cons, later]
  rcases toLower_cases c with ⟨same, notCapital⟩ | ⟨capital, small⟩
  · have outside : CaseRun.holds ⟨65, 90, 1, 32⟩ c.toNat = false := by
      simp only [CaseRun.holds, Nat.mod_one, beq_self_eq_true, Bool.and_true, Bool.and_eq_false_iff,
        decide_eq_false_iff_not]
      omega
    rw [outside, same]
  · have within : CaseRun.holds ⟨65, 90, 1, 32⟩ c.toNat = true := by
      simp only [CaseRun.holds, Nat.mod_one, beq_self_eq_true, Bool.and_true, Bool.and_eq_true,
        decide_eq_true_eq]
      exact capital
    rw [within]
    have shifted : ((c.toNat : Int) + 32).toNat = c.toLower.toNat := by omega
    simp only [shifted, Char.ofNat_toNat]

private theorem lowerChar_toLower (c : Char) : lowerChar c.toLower = lowerChar c := by
  rcases toLower_cases c with ⟨same, -⟩ | ⟨capital, small⟩
  · rw [same]
  · have fixed : c.toLower.toLower = c.toLower := by
      rcases toLower_cases c.toLower with ⟨same, -⟩ | ⟨capital', -⟩
      · exact same
      · omega
    rw [lowerChar_of_ascii (c := c) (by omega), lowerChar_of_ascii (by omega), fixed]

private theorem toLower_eq_sigma (c : Char) : c.toLower = 'Σ' ↔ c = 'Σ' := by
  have place : 'Σ'.toNat = 931 := by decide
  rcases toLower_cases c with ⟨same, -⟩ | ⟨capital, small⟩
  · rw [same]
  · constructor
    · intro sigma
      rw [sigma] at small
      omega
    · rintro rfl
      omega

/-! ## Texts -/

private theorem meetsCased_map_toLower (cs : List Char) :
    meetsCased (cs.map Char.toLower) = meetsCased cs := by
  have same : isCaseIgnorable ∘ Char.toLower = isCaseIgnorable := by
    funext c
    rw [Function.comp_apply, isCaseIgnorable_toLower]
  unfold meetsCased
  rw [List.dropWhile_map, same]
  cases cs.dropWhile isCaseIgnorable with
  | nil => rfl
  | cons c rest => exact isCased_toLower c

/-- A character goes to the same lower case among small letters as among capitals. -/
theorem lowerChars_map_toLower (before cs : List Char) :
    lowerChars (before.map Char.toLower) (cs.map Char.toLower) = lowerChars before cs := by
  induction cs generalizing before with
  | nil => rfl
  | cons c rest ih =>
      have later := ih (c :: before)
      rw [List.map_cons] at later
      simp only [List.map_cons, lowerChars, toLower_eq_sigma, meetsCased_map_toLower,
        lowerChar_toLower, later]

private theorem lower_asciiLower (s : String) : lower (asciiLower s) = lower s := by
  unfold lower asciiLower
  rw [String.toList_map]
  exact congrArg String.ofList (lowerChars_map_toLower [] s.toList)

/-- Names that are one name for the engine are the same in lower case. -/
theorem lower_eq_of_sameName {a b : String} (same : sameName a b = true) : lower a = lower b := by
  rw [← lower_asciiLower a, ← lower_asciiLower b, sameName_iff.mp same]

/-- Names that are not the same in lower case are two names for the engine. -/
theorem sameName_eq_false {a b : String} (apart : lower a ≠ lower b) : sameName a b = false := by
  by_contra same
  exact apart (lower_eq_of_sameName (Bool.eq_true_of_not_eq_false same))

/-- Two spellings of one name are the same to any other name. -/
theorem sameName_congr {a b : String} (same : sameName a b = true) (c : String) :
    sameName a c = sameName b c := by
  rw [sameName, sameName, sameName_iff.mp same]

/-! ## Texts in ASCII -/

/-- Whether every character of the text is one of ASCII. -/
def IsAscii (s : String) : Prop :=
  ∀ c ∈ s.toList, c.toNat < 128

instance (s : String) : Decidable (IsAscii s) :=
  List.decidableBAll (fun c : Char => c.toNat < 128) s.toList

private theorem lowerChars_of_ascii {cs : List Char} (ascii : ∀ c ∈ cs, c.toNat < 128)
    (before : List Char) : lowerChars before cs = cs.map Char.toLower := by
  induction cs generalizing before with
  | nil => rfl
  | cons c rest ih =>
      have here := ascii c List.mem_cons_self
      have later := ih (fun other member => ascii other (List.mem_cons_of_mem c member))
      have notSigma : c ≠ 'Σ' := by
        rintro rfl
        exact absurd here (by decide)
      rw [lowerChars, later, if_neg notSigma, lowerChar_of_ascii here]
      rfl

private theorem lower_of_isAscii {s : String} (ascii : IsAscii s) : lower s = asciiLower s := by
  refine String.toList_injective ?_
  rw [lower, String.toList_ofList, lowerChars_of_ascii ascii, asciiLower, String.toList_map]

/-- A text of small letters and other characters of ASCII is its own lower case. -/
theorem lower_eq_self {s : String} (ascii : IsAscii s) (small : asciiLower s = s) : lower s = s :=
  (lower_of_isAscii ascii).trans small

/-- In ASCII, names that are the same in lower case are one name for the engine. -/
theorem sameName_of_lower_eq {a b : String} (asciiA : IsAscii a) (asciiB : IsAscii b)
    (same : lower a = lower b) : sameName a b = true := by
  rw [lower_of_isAscii asciiA, lower_of_isAscii asciiB] at same
  exact sameName_iff.mpr same

end Tabula.Text
