import Mathlib.Data.String.Basic

/-! # The byte order of texts

Names are put in the order of their bytes. A text is compared by its characters instead, which is
the same: the bytes of a character say its place by the number of bytes first and then six bits at a
time, the highest first, so a smaller character has smaller bytes whatever follows
(`Tabula.Text.encodeChar_lt`). Two texts are therefore in the order of their bytes exactly when they
are in the order of their characters (`Tabula.Text.bytes_le_bytes`).
-/

namespace Tabula.Text

/-- The bytes of a text. -/
def bytes (s : String) : List UInt8 :=
  s.toUTF8.toList

private theorem toList_loop (array : ByteArray) (i : Nat) (before : List UInt8) :
    ByteArray.toList.loop array i before = before.reverse ++ array.data.toList.drop i := by
  fun_induction ByteArray.toList.loop array i before with
  | case1 i before inside ih =>
      have inList : i < array.data.toList.length := inside
      have here : array.get! i = array.data.toList[i] :=
        getElem!_pos array.data i inside
      rw [ih, List.drop_eq_getElem_cons inList, here, List.reverse_cons, List.append_assoc]
      rfl
  | case2 i before outside =>
      rw [List.drop_eq_nil_of_le (Nat.le_of_not_lt outside), List.append_nil]

/-- The bytes of a text are those of its characters, one after the other. -/
theorem bytes_eq_flatMap (s : String) : bytes s = s.toList.flatMap String.utf8EncodeChar := by
  have encoded : s.toByteArray = (s.toList.flatMap String.utf8EncodeChar).toByteArray :=
    String.utf8Encode_toList.symm
  rw [bytes, String.toUTF8_eq_toByteArray, ByteArray.toList, toList_loop, encoded,
    List.toList_data_toByteArray]
  rfl

/-! ## Codes of numbers -/

/-- The first byte decides. -/
theorem cons_lt_cons_of_lt {m n : Nat} (less : m < n) (fits : n < 256) (rest rest' : List UInt8) :
    UInt8.ofNat m :: rest < UInt8.ofNat n :: rest' := by
  refine List.Lex.rel (UInt8.lt_iff_toNat_lt.mpr ?_)
  rw [UInt8.toNat_ofNat', UInt8.toNat_ofNat']
  omega

/-- A code of the numbers below a bound in which the smaller number has the smaller bytes, whatever
follows either. -/
def Increasing (bound : Nat) (code : Nat → List UInt8) : Prop :=
  ∀ m n rest rest', m < n → n < bound → code m ++ rest < code n ++ rest'

/-- One byte, as long as it does not overflow. -/
theorem increasing_lead (bound base : Nat) (fits : bound + base ≤ 256) :
    Increasing bound fun n => [UInt8.ofNat (n % bound + base)] := by
  intro m n rest rest' less below
  change UInt8.ofNat (m % bound + base) :: rest < UInt8.ofNat (n % bound + base) :: rest'
  rw [Nat.mod_eq_of_lt below, Nat.mod_eq_of_lt (Nat.lt_trans less below)]
  exact cons_lt_cons_of_lt (Nat.add_lt_add_right less base) (by omega) rest rest'

/-- A code of the higher part of a number followed by its six lowest bits. -/
theorem Increasing.snoc {bound : Nat} {code : Nat → List UInt8}
    (increasing : Increasing bound code) :
    Increasing (64 * bound) fun n => code (n / 64) ++ [UInt8.ofNat (n % 64 + 128)] := by
  intro m n rest rest' less below
  simp only [List.append_assoc]
  by_cases high : m / 64 = n / 64
  · rw [high]
    exact List.append_left_lt (cons_lt_cons_of_lt (by omega) (by omega) rest rest')
  · exact increasing _ _ _ _ (by omega) (by omega)

/-! ## Characters and texts -/

/-- A smaller character has smaller bytes, whatever follows either. -/
theorem encodeChar_lt {c d : Char} (less : c < d) (rest rest' : List UInt8) :
    String.utf8EncodeChar c ++ rest < String.utf8EncodeChar d ++ rest' := by
  have bounded : d.val.toNat < 0x110000 := by
    rcases d.valid with low | high
    · exact Nat.lt_trans low (by decide)
    · exact high.2
  have lessNat : c.val.toNat < d.val.toNat := less
  have two := (increasing_lead 32 0xc0 (by decide)).snoc
  have three := (increasing_lead 16 0xe0 (by decide)).snoc.snoc
  have four := (increasing_lead 8 0xf0 (by decide)).snoc.snoc.snoc
  simp only [Nat.div_div_eq_div_mul, Nat.reduceMul, List.cons_append, List.nil_append]
    at two three four
  simp only [String.utf8EncodeChar]
  generalize c.val.toNat = m at lessNat
  generalize d.val.toNat = n at lessNat bounded
  -- Characters of as many bytes are compared by their codes, others by their first bytes.
  by_cases one : n ≤ 0x7f
  · rw [if_pos one, if_pos (by omega)]
    exact cons_lt_cons_of_lt lessNat (by omega) rest rest'
  · rw [if_neg one]
    by_cases upToTwo : n ≤ 0x7ff
    · rw [if_pos upToTwo]
      split
      · exact cons_lt_cons_of_lt (by omega) (by omega) _ _
      · rw [if_pos (by omega)]
        exact two m n rest rest' lessNat (by omega)
    · rw [if_neg upToTwo]
      by_cases upToThree : n ≤ 0xffff
      · rw [if_pos upToThree]
        split
        · exact cons_lt_cons_of_lt (by omega) (by omega) _ _
        · split
          · exact cons_lt_cons_of_lt (by omega) (by omega) _ _
          · rw [if_pos (by omega)]
            exact three m n rest rest' lessNat (by omega)
      · rw [if_neg upToThree]
        split
        · exact cons_lt_cons_of_lt (by omega) (by omega) _ _
        · split
          · exact cons_lt_cons_of_lt (by omega) (by omega) _ _
          · split
            · exact cons_lt_cons_of_lt (by omega) (by omega) _ _
            · exact four m n rest rest' lessNat (by omega)

private theorem flatMap_encodeChar_lt {cs ds : List Char} (less : cs < ds) :
    cs.flatMap String.utf8EncodeChar < ds.flatMap String.utf8EncodeChar := by
  induction less with
  | @nil d ds =>
      obtain ⟨byte, more, encoded⟩ :=
        List.exists_cons_of_ne_nil (@String.utf8EncodeChar_ne_nil d)
      rw [List.flatMap_nil, List.flatMap_cons, encoded]
      exact List.nil_lt_cons _ _
  | cons less ih =>
      rw [List.flatMap_cons, List.flatMap_cons]
      exact List.append_left_lt ih
  | rel less =>
      rw [List.flatMap_cons, List.flatMap_cons]
      exact encodeChar_lt less _ _

/-- The order of texts is the order of their bytes. -/
theorem bytes_lt_bytes {s t : String} : bytes s < bytes t ↔ s < t := by
  have forward : ∀ {s t : String}, s < t → bytes s < bytes t := by
    intro s t less
    rw [bytes_eq_flatMap, bytes_eq_flatMap]
    exact flatMap_encodeChar_lt less
  refine ⟨fun less => ?_, forward⟩
  rcases lt_trichotomy s t with smaller | same | greater
  · exact smaller
  · subst same
    exact absurd less (List.lt_irrefl _)
  · exact absurd (forward greater) (List.lt_asymm less)

/-- Texts are in the order of their bytes. -/
theorem bytes_le_bytes {s t : String} : bytes s ≤ bytes t ↔ s ≤ t :=
  not_congr bytes_lt_bytes

/-- No two texts have the same bytes. -/
theorem bytes_injective : Function.Injective bytes := by
  intro s t same
  have notLess : ¬ bytes s < bytes t := same ▸ List.lt_irrefl _
  have notGreater : ¬ bytes t < bytes s := same ▸ List.lt_irrefl _
  rw [bytes_lt_bytes] at notLess notGreater
  exact le_antisymm (not_lt.mp notGreater) (not_lt.mp notLess)

end Tabula.Text
