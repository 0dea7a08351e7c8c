import Mathlib.Data.List.Forall2
import Tabula.Engine.Constraint
import Tabula.Proofs.Value.RoundTrip

/-! # What columns keep of fields

A column takes values of any storage class and turns some of them into its own. What a field holds
is read back from its column if it is not turned into what the field's type does not read
(`Tabula.Column.Keeps`), and only then (`Tabula.Column.read_iff_keeps`). Two things keep a column from
storing NULL: that the engine assigns its values, or that it may not hold it.
-/

namespace Tabula

/-! ## Numbers -/

/-- A number other than negative zero. -/
def Binary64.IsPlain (x : Binary64) : Prop :=
  x.isNaN = false ∧ x ≠ .ofCode true 0

/-- A number other than negative zero. -/
def Binary32.IsPlain (x : Binary32) : Prop :=
  x.isNaN = false ∧ x ≠ .ofCode true 0

namespace Binary64

variable {x : Binary64}

/-- A plain zero has no sign. -/
theorem IsPlain.unsigned (plain : x.IsPlain) (isZero : x.isZero = true) :
    x.isNegative = false := by
  by_contra negative
  refine plain.2 ?_
  rw [← ofCode_code x, Bool.eq_true_of_not_eq_false negative, eq_of_beq isZero]

private theorem IsPlain.eq_zero (plain : x.IsPlain) (isZero : x.isZero = true) : x = zero := by
  rw [← ofCode_code x, plain.unsigned isZero, eq_of_beq isZero]
  rfl

/-- A real is kept as it is, or as the whole number that it is. -/
theorem wholeValue_cases (x : Binary64) :
    x.wholeValue = .real x ∨ ∃ n, x.toInt? = some n ∧ x.wholeValue = .integer (.ofInt n) ∧
      (Int64.ofInt n).toInt = n := by
  unfold wholeValue
  split
  · rename_i n whole
    split
    · rename_i inRange
      obtain ⟨least, most⟩ := Bool.and_eq_true_iff.mp inRange
      have least : -twoTo 63 < n := of_decide_eq_true least
      have most : n < twoTo 63 - 1 := of_decide_eq_true most
      refine Or.inr ⟨n, whole, rfl, Int64.toInt_ofInt_of_le ?_ ?_⟩
      · rw [twoTo_63] at least
        omega
      · rw [twoTo_63] at most
        omega
    · exact Or.inl rfl
  · exact Or.inl rfl

end Binary64

/-- A plain real stays plain when it is widened. -/
theorem Binary32.IsPlain.widen {x : Binary32} (plain : x.IsPlain) : x.widen.IsPlain := by
  have back := narrow_widen plain.1
  constructor
  · by_contra isNaN
    have narrowed : x.widen.narrow = .nan := by
      rw [Binary64.narrow, if_pos (Bool.eq_true_of_not_eq_false isNaN)]
    have number := plain.1
    rw [← back, narrowed] at number
    cases number
  · intro negative
    refine plain.2 ?_
    rw [← back, negative]
    decide +kernel

/-! ## Scalars -/

namespace Scalar

/-- Whether what a field of the type holds is free of NaN and of negative zero. -/
def IsPlain : (t : Scalar) → t.Carrier → Prop
  | single, x => Binary32.IsPlain x
  | double, x => Binary64.IsPlain x
  | value, v => ∀ x, v = Value.real x → x.IsPlain
  | _, _ => True

variable {t : Scalar} {x : t.Carrier}

/-- A plain scalar is bound as it is written. -/
theorem bound_write (plain : t.IsPlain x) : (t.write x).bound = t.write x := by
  have real {y : Binary64} (plain : y.IsPlain) : (Value.real y).bound = .real y := by
    rw [Value.bound, plain.1, if_neg Bool.false_ne_true]
  cases t with
  | single => exact real (Binary32.IsPlain.widen plain)
  | double => exact real plain
  | value =>
      change Value at x
      cases x with
      | real y => exact real (plain y rfl)
      | _ => rfl
  | _ => rfl

end Scalar

namespace StorageType

/-- What a column of the storage class gives back as it was: truth values and whole numbers unless
they become texts or real numbers, real numbers unless they become texts, and texts unless they
become numbers. -/
def Keeps (k : StorageType) : (t : Scalar) → t.Carrier → Prop
  | .bool, _ => k = integer ∨ k = blob
  | .int _, _ => k = integer ∨ k = blob
  | .single, _ => k ≠ text
  | .double, _ => k ≠ text
  | .text, s => k = text ∨ k = blob ∨ Numeral.ofText? s = none
  | .bytes, _ => True
  | .value, v => k.store v = v

/-- Whether the value is a number. -/
def IsNumeric (v : Value) : Prop :=
  (∃ n, v = .integer n) ∨ ∃ x, v = .real x

private theorem isNumeric_wholeValue (x : Binary64) : IsNumeric x.wholeValue := by
  rcases x.wholeValue_cases with same | ⟨n, -, same, -⟩
  · exact Or.inr ⟨x, same⟩
  · exact Or.inl ⟨_, same⟩

/-- A text is kept by a column of numbers unless it is one. -/
theorem store_text {k : StorageType} (numeric : k = integer ∨ k = real) (s : String) :
    (Numeral.ofText? s = none ∧ k.store (.text s) = .text s) ∨
      (Numeral.ofText? s ≠ none ∧ IsNumeric (k.store (.text s))) := by
  cases isNumeral : Numeral.ofText? s with
  | none =>
      refine Or.inl ⟨rfl, ?_⟩
      rcases numeric with rfl | rfl <;> simp only [store, isNumeral, Option.map_none]
  | some n =>
      refine Or.inr ⟨Option.some_ne_none n, ?_⟩
      rcases numeric with rfl | rfl
      · simp only [store, isNumeral, Option.map_some]
        unfold Numeral.value
        split_ifs
        · exact Or.inl ⟨_, rfl⟩
        · exact isNumeric_wholeValue _
      · simp only [store, isNumeral]
        exact Or.inr ⟨_, rfl⟩

variable {k : StorageType}

private theorem store_null : k.store .null = .null := by
  cases k <;> rfl

/-- No column makes NULL of a value. -/
theorem store_ne_null {v : Value} (full : v ≠ .null) : k.store v ≠ .null := by
  have number {w : Value} (isNumeric : IsNumeric w) : w ≠ .null := by
    rcases isNumeric with ⟨n, rfl⟩ | ⟨x, rfl⟩ <;> exact Value.noConfusion
  have text {k : StorageType} (numeric : k = integer ∨ k = real) (s : String) :
      k.store (.text s) ≠ .null := by
    rcases store_text numeric s with ⟨-, same⟩ | ⟨-, isNumeric⟩
    · rw [same]
      exact Value.noConfusion
    · exact number isNumeric
  cases v with
  | null => exact absurd rfl full
  | integer n => cases k <;> exact Value.noConfusion
  | blob b => cases k <;> exact Value.noConfusion
  | real x =>
      cases k with
      | integer => exact number (isNumeric_wholeValue x)
      | _ => exact Value.noConfusion
  | text s =>
      cases k with
      | integer => exact text (Or.inl rfl) s
      | real => exact text (Or.inr rfl) s
      | text | blob => exact Value.noConfusion

/-- A real number is read again from every column that does not make a text of it. -/
theorem readDouble_store {x : Binary64} (plain : x.IsPlain) (kept : k ≠ text) :
    Scalar.readDouble (k.store (.real x)) = .ok x := by
  cases k with
  | text => exact absurd rfl kept
  | blob => rfl
  | real =>
      refine congrArg Except.ok ?_
      split
      · rename_i isZero
        exact (plain.eq_zero isZero).symm
      · rfl
  | integer =>
      change Scalar.readDouble x.wholeValue = .ok x
      rcases x.wholeValue_cases with same | ⟨n, whole, same, inRange⟩
      · rw [same]
        rfl
      · rw [same, Scalar.readDouble, inRange, Binary64.ofInt_of_toInt? whole plain.unsigned]

/-- What is not NULL is read again from a column if the column keeps it, and only then. -/
theorem read_store_iff {t : Scalar} {x : t.Carrier} (plain : t.IsPlain x) :
    t.read (k.store (t.write x)) = .ok x ↔ k.Keeps t x := by
  cases t with
  | bool =>
      have back : Scalar.read .bool (Scalar.write .bool x) = .ok x := by cases x <;> rfl
      cases k with
      | integer => exact iff_of_true back (Or.inl rfl)
      | blob => exact iff_of_true back (Or.inr rfl)
      | text | real =>
          refine iff_of_false error_ne_ok ?_
          rintro (absurd | absurd) <;> cases absurd
  | int w =>
      have back : Scalar.read (.int w) (Scalar.write (.int w) x) = .ok x := dif_pos x.property
      cases k with
      | integer => exact iff_of_true back (Or.inl rfl)
      | blob => exact iff_of_true back (Or.inr rfl)
      | text | real =>
          refine iff_of_false error_ne_ok ?_
          rintro (absurd | absurd) <;> cases absurd
  | single =>
      by_cases kept : k = text
      · subst kept
        exact iff_of_false error_ne_ok (not_not_intro rfl)
      · refine iff_of_true ?_ kept
        change (Scalar.readDouble (k.store (.real (Binary32.widen x)))).map Binary64.narrow = .ok x
        rw [readDouble_store (Binary32.IsPlain.widen plain) kept]
        exact congrArg Except.ok (Binary32.narrow_widen plain.1)
  | double =>
      by_cases kept : k = text
      · subst kept
        exact iff_of_false error_ne_ok (not_not_intro rfl)
      · refine iff_of_true ?_ kept
        change (Scalar.readDouble (k.store (.real x))).map id = .ok x
        rw [readDouble_store plain kept]
        rfl
  | text =>
      have number {v : Value} (isNumeric : IsNumeric v) : Scalar.read .text v ≠ .ok x := by
        rcases isNumeric with ⟨n, rfl⟩ | ⟨y, rfl⟩ <;> exact error_ne_ok
      have inNumbers (numeric : k = integer ∨ k = real) (other : k ≠ text) (other' : k ≠ blob) :
          Scalar.read .text (k.store (.text x)) = .ok x ↔ k.Keeps .text x := by
        rcases store_text numeric x with ⟨noNumeral, same⟩ | ⟨isNumeral, isNumeric⟩
        · rw [same]
          exact iff_of_true rfl (Or.inr (Or.inr noNumeral))
        · refine iff_of_false (number isNumeric) ?_
          rintro (absurd | absurd | absurd)
          · exact other absurd
          · exact other' absurd
          · exact isNumeral absurd
      cases k with
      | text => exact iff_of_true rfl (Or.inl rfl)
      | blob => exact iff_of_true rfl (Or.inr (Or.inl rfl))
      | integer => exact inNumbers (Or.inl rfl) nofun nofun
      | real => exact inNumbers (Or.inr rfl) nofun nofun
  | bytes => cases k <;> exact iff_of_true rfl trivial
  | value =>
      exact ⟨fun same => Except.ok.inj same, fun same => congrArg Except.ok same⟩

end StorageType

/-! ## Columns -/

namespace FieldType

/-- Whether what a field holds is free of NaN and of negative zero. -/
def IsPlain : (t : FieldType) → t.Carrier → Prop
  | ⟨s, false⟩, x => s.IsPlain x
  | ⟨s, true⟩, x => ∀ y, x = some y → s.IsPlain y

/-- A plain value is bound as it is written. -/
theorem bound_write {t : FieldType} {x : t.Carrier} (plain : t.IsPlain x) :
    (t.write x).bound = t.write x := by
  obtain ⟨s, optional⟩ := t
  cases optional with
  | false => exact Scalar.bound_write plain
  | true =>
      change Option s.Carrier at x
      cases x with
      | none => rfl
      | some y => exact Scalar.bound_write (plain y rfl)

end FieldType

namespace Column

/-- Whether the column stores NULL where NULL is given: it may hold it, or it is the key without
being the position of the row. -/
def AcceptsNull (c : Column) : Prop :=
  Table.isRowid c = false ∧ (c.nullable = true ∨ c.primaryKey = true)

/-- What a column gives back as it was. An optional value that is there must not be NULL itself. -/
def Keeps (c : Column) : (t : FieldType) → t.Carrier → Prop
  | ⟨s, false⟩, x =>
    (s.write x = .null → c.AcceptsNull) ∧ (s.write x ≠ .null → c.storage.Keeps s x)
  | ⟨s, true⟩, x =>
    (x = none → c.AcceptsNull) ∧ ∀ y, x = some y → s.write y ≠ .null ∧ c.storage.Keeps s y

/-- What an insertion leaves in a column of the value that the column makes of a given one: this
value, or where it is NULL, NULL exactly if the column accepts it. -/
def Stores (c : Column) (v w : Value) : Prop :=
  (v ≠ .null → w = v) ∧ (v = .null → (w = .null ↔ c.AcceptsNull))

section

variable {c : Column} {s : Scalar}

private theorem keeps_iff_of_null {x : s.Carrier} (isNull : s.write x = .null) :
    c.Keeps ⟨s, false⟩ x ↔ c.AcceptsNull :=
  ⟨fun keeps => keeps.1 isNull, fun accepts => ⟨fun _ => accepts, fun full => absurd isNull full⟩⟩

private theorem keeps_iff_of_ne_null {x : s.Carrier} (full : s.write x ≠ .null) :
    c.Keeps ⟨s, false⟩ x ↔ c.storage.Keeps s x :=
  ⟨fun keeps => keeps.2 full, fun keeps => ⟨fun isNull => absurd isNull full, fun _ => keeps⟩⟩

private theorem keeps_none_iff : c.Keeps ⟨s, true⟩ (none : Option s.Carrier) ↔ c.AcceptsNull :=
  ⟨fun keeps => keeps.1 rfl, fun accepts => ⟨fun _ => accepts, nofun⟩⟩

private theorem keeps_some_iff {y : s.Carrier} :
    c.Keeps ⟨s, true⟩ (some y) ↔ s.write y ≠ .null ∧ c.storage.Keeps s y := by
  refine ⟨fun keeps => keeps.2 y rfl, fun both => ⟨nofun, fun z same => ?_⟩⟩
  exact Option.some.inj same ▸ both

end

/-- **What a field holds is read back from its column if the column keeps it, and only then.** -/
theorem read_iff_keeps {c : Column} {t : FieldType} {x : t.Carrier} {w : Value}
    (plain : t.IsPlain x) (stores : c.Stores (c.storage.store (t.write x)) w) :
    t.read w = .ok x ↔ c.Keeps t x := by
  obtain ⟨s, optional⟩ := t
  cases optional with
  | false =>
      by_cases isNull : s.write x = .null
      · -- only a value as it is can be NULL
        obtain rfl := Scalar.eq_value_of_write isNull
        have stored : w = .null ↔ c.AcceptsNull :=
          stores.2 ((congrArg c.storage.store isNull).trans StorageType.store_null)
        have empty : x = Value.null := isNull
        rw [keeps_iff_of_null isNull, ← stored, empty]
        exact ⟨fun same => Except.ok.inj same, fun same => congrArg Except.ok same⟩
      · have stored : w = c.storage.store (s.write x) :=
          stores.1 (StorageType.store_ne_null isNull)
        rw [keeps_iff_of_ne_null isNull, stored]
        exact StorageType.read_store_iff plain
  | true =>
      change Option s.Carrier at x
      cases x with
      | none =>
          have stored : w = .null ↔ c.AcceptsNull := stores.2 StorageType.store_null
          exact FieldType.read_eq_none_iff.trans (stored.trans keeps_none_iff.symm)
      | some y =>
          refine FieldType.read_eq_some_iff.trans (Iff.trans ?_ keeps_some_iff.symm)
          by_cases isNull : s.write y = .null
          · obtain rfl := Scalar.eq_value_of_write isNull
            refine iff_of_false (fun back => ?_) fun keeps => keeps.1 isNull
            have same : w = y := Except.ok.inj back.2
            exact back.1 (same.trans isNull)
          · have stored : w = c.storage.store (s.write y) :=
              stores.1 (StorageType.store_ne_null isNull)
            rw [stored, and_iff_right (StorageType.store_ne_null isNull), and_iff_right isNull]
            exact StorageType.read_store_iff (plain y rfl)

/-- A column of the storage class of its field's type keeps everything that the field can hold. -/
theorem keeps_of_own {c : Column} {t : FieldType} (own : t.scalar.storage? = some c.storage)
    (nullable : t.optional = true → c.AcceptsNull) (x : t.Carrier) : c.Keeps t x := by
  obtain ⟨s, optional⟩ := t
  have other : s ≠ .value := by
    rintro rfl
    cases own
  have keeps (y : s.Carrier) : c.storage.Keeps s y := by
    cases s with
    | value => exact absurd rfl other
    | bytes => trivial
    | bool | int => exact Or.inl (Option.some.inj own).symm
    | text => exact Or.inl (Option.some.inj own).symm
    | single | double =>
        have isReal : .real = c.storage := Option.some.inj own
        exact isReal ▸ nofun
  cases optional with
  | false => exact ⟨fun isNull => absurd isNull (Scalar.write_ne_null other x), fun _ => keeps x⟩
  | true => exact ⟨fun _ => nullable rfl, fun y _ => ⟨Scalar.write_ne_null other y, keeps y⟩⟩

end Column

/-! ## Rows -/

namespace Record

/-- Whether what the fields of a record hold is free of NaN and of negative zero. -/
def IsPlain : (rs : List RecordColumn) → Record rs → Prop
  | [], _ => True
  | r :: rs, (x, rest) => r.type.IsPlain x ∧ IsPlain rs rest

/-- Whether each column gives back what its field holds. -/
def Keeps : List Column → (rs : List RecordColumn) → Record rs → Prop
  | c :: cs, r :: rs, (x, rest) => c.Keeps r.type x ∧ Keeps cs rs rest
  | _, _, _ => True

/-- A record is read back from the stored row if the columns keep it, and only then. -/
theorem read_iff_keeps {cs : List Column} {rs : List RecordColumn} {r : Record rs} {ws : Row}
    (plain : IsPlain rs r) (lengths : cs.length = rs.length)
    (stored : List.Forall₂ (fun p w => p.1.Stores (p.1.storage.store p.2.bound) w)
      (cs.zip (write rs r)) ws) (before : Row) :
    read (before ++ ws) before.length rs = .ok r ↔ Keeps cs rs r := by
  induction rs generalizing cs ws before with
  | nil =>
      refine iff_of_true rfl ?_
      cases cs <;> exact trivial
  | cons first rs ih =>
      obtain ⟨x, rest⟩ := r
      obtain ⟨c, cs, rfl⟩ := List.exists_cons_of_length_eq_add_one lengths
      obtain ⟨w, ws, stores, others, rfl⟩ := List.forall₂_cons_left_iff.mp stored
      change c.Stores (c.storage.store (first.type.write x).bound) w at stores
      rw [FieldType.bound_write plain.1] at stores
      have there := ih plain.2 (Nat.succ.inj lengths) others (before ++ [w])
      exact read_cons_eq_ok.trans (and_congr (Column.read_iff_keeps plain.1 stores) there)

end Record

end Tabula
