import Tabula.Proofs.Number.Rounding
import Tabula.Proofs.Outcome
import Tabula.Value.Row

/-! # Fields come back from their values

What a field holds is read back from the value that is written for it, if it is no NaN
(`Tabula.FieldType.read_write`), and so is a record from any row that holds its values
(`Tabula.Record.read_write`). What stands before the place that is read moves errors only
(`Tabula.Row.read_shift`).
-/

namespace Tabula

/-! ## Single values -/

namespace Scalar

/-- Whether what a field of the type holds is free of NaN. -/
def IsNumber : (t : Scalar) → t.Carrier → Prop
  | single, x => Binary32.isNaN x = false
  | double, x => Binary64.isNaN x = false
  | _, _ => True

/-- What is free of NaN is read as it was written. -/
theorem read_write {t : Scalar} {x : t.Carrier} (number : t.IsNumber x) :
    t.read (t.write x) = .ok x := by
  cases t with
  | bool => cases x <;> rfl
  | int w => exact dif_pos x.property
  | single => exact congrArg Except.ok (Binary32.narrow_widen number)
  | double | text | bytes | value => rfl

/-- Only values as they are can be NULL. -/
theorem write_ne_null {t : Scalar} (other : t ≠ value) (x : t.Carrier) : t.write x ≠ .null := by
  cases t with
  | value => exact absurd rfl other
  | _ => intro isNull; cases isNull

/-- Only a value of the engine is written as NULL by itself. -/
theorem eq_value_of_write {t : Scalar} {x : t.Carrier} (isNull : t.write x = .null) : t = value := by
  by_contra other
  exact write_ne_null other x isNull

private theorem ne_value_of_ofTypeText? {text : String} {t : Scalar}
    (named : ofTypeText? text = some t) : t ≠ value := by
  unfold ofTypeText? at named
  have member : t ∈ Scalar.named := List.mem_of_find?_eq_some named
  rintro rfl
  revert member
  decide

end Scalar

namespace FieldType

/-- Whether what a field of the type holds is free of NaN. -/
def IsNumber : (t : FieldType) → t.Carrier → Prop
  | ⟨s, false⟩, x => s.IsNumber x
  | ⟨s, true⟩, x => ∀ y, x = some y → s.IsNumber y

private theorem read_of_ne_null {s : Scalar} {v : Value} (full : v ≠ .null) :
    read ⟨s, true⟩ v = (s.read v).map some := by
  cases v with
  | null => exact absurd rfl full
  | _ => rfl

/-- Nothing is read just from NULL, if it may be absent. -/
theorem read_eq_none_iff {s : Scalar} {v : Value} :
    read ⟨s, true⟩ v = .ok (none : Option s.Carrier) ↔ v = .null := by
  by_cases empty : v = .null
  · subst empty
    exact iff_of_true rfl rfl
  · refine iff_of_false ?_ empty
    rw [read_of_ne_null empty]
    cases s.read v <;> nofun

/-- Something is read just from what is not NULL and is read as it without the option. -/
theorem read_eq_some_iff {s : Scalar} {v : Value} {y : s.Carrier} :
    read ⟨s, true⟩ v = .ok (some y) ↔ v ≠ .null ∧ s.read v = .ok y := by
  by_cases empty : v = .null
  · subst empty
    exact iff_of_false nofun fun both => both.1 rfl
  · rw [read_of_ne_null empty, and_iff_right empty]
    refine ⟨fun reads => ?_, fun reads => congrArg (Except.map some) reads⟩
    obtain ⟨_, isRead, same⟩ := map_eq_ok reads
    exact Option.some.inj same ▸ isRead

/-- What a field holds comes back from its value. -/
theorem read_write {t : FieldType} (other : t.scalar ≠ .value) {x : t.Carrier}
    (number : t.IsNumber x) : t.read (t.write x) = .ok x := by
  obtain ⟨s, optional⟩ := t
  cases optional with
  | false => exact Scalar.read_write number
  | true =>
      change Option s.Carrier at x
      cases x with
      | none => rfl
      | some y =>
          exact read_eq_some_iff.mpr ⟨Scalar.write_ne_null other y, Scalar.read_write (number y rfl)⟩

/-- No type that is told from a text is that of the values of the engine. -/
theorem ne_value_of_ofText? {text : String} {t : FieldType} (named : ofText? text = some t) :
    t.scalar ≠ .value := by
  unfold ofText? at named
  obtain ⟨s, isScalar, rfl⟩ := Option.map_eq_some_iff.mp named
  exact Scalar.ne_value_of_ofTypeText? isScalar

end FieldType

/-! ## Rows with something around them -/

/-- The error as it is when more values stand before the row. -/
def RowError.shift (n : Nat) : RowError → RowError
  | outOfBounds index length => outOfBounds (index + n) (length + n)
  | value column index cause => value column (index + n) cause

/-- With a row before it, a row is read at places moved by its length, in its errors too. -/
theorem Row.read_shift (before row : Row) (t : FieldType) (index : Nat) (column : String) :
    Row.read (before ++ row) t (before.length + index) column =
      (row.read t index column).mapError (RowError.shift before.length) := by
  have place : (before ++ row)[before.length + index]? = row[index]? := by
    rw [List.getElem?_append_right (Nat.le_add_right _ _), Nat.add_sub_cancel_left]
  unfold Row.read Row.value
  rw [place, List.length_append]
  cases row[index]? with
  | none =>
      simp only [bind, Except.bind, Except.mapError, RowError.shift, Nat.add_comm]
  | some v =>
      simp only [bind, Except.bind]
      cases t.read v with
      | ok x => rfl
      | error e => simp only [Except.mapError, RowError.shift, Nat.add_comm]

namespace Record

/-- Whether what the fields of a record hold is free of NaN. -/
def IsNumber : (cs : List RecordColumn) → Record cs → Prop
  | [], _ => True
  | c :: cs, (x, rest) => c.type.IsNumber x ∧ IsNumber cs rest

/-- A record is read column by column. -/
theorem read_cons_eq_ok {r : RecordColumn} {rs : List RecordColumn} {x : r.type.Carrier}
    {rest : Record rs} {before ws : Row} {w : Value} :
    read (before ++ w :: ws) before.length (r :: rs) = .ok (x, rest) ↔
      r.type.read w = .ok x ∧ read (before ++ [w] ++ ws) (before ++ [w]).length rs = .ok rest := by
  have here : (before ++ w :: ws)[before.length]? = some w := by
    rw [List.getElem?_append_right (Nat.le_refl _), Nat.sub_self]
    rfl
  rw [List.length_append, List.append_assoc, read, Row.read, Row.value, here]
  change _ ↔ _ ∧ read (before ++ w :: ws) (before.length + 1) rs = .ok rest
  simp only [bind, Except.bind]
  cases r.type.read w with
  | error e => exact iff_of_false error_ne_ok fun both => error_ne_ok both.1
  | ok y =>
      cases read (before ++ w :: ws) (before.length + 1) rs with
      | error e => exact iff_of_false error_ne_ok fun both => error_ne_ok both.2
      | ok z =>
          constructor
          · intro same
            obtain ⟨rfl, rfl⟩ := Prod.mk.inj (Except.ok.inj same)
            exact ⟨rfl, rfl⟩
          · rintro ⟨sameHere, sameThere⟩
            rw [Except.ok.inj sameHere, Except.ok.inj sameThere]
            rfl

/-- A record comes back from any row that holds its values. -/
theorem read_write {cs : List RecordColumn} (named : ∀ c ∈ cs, c.type.scalar ≠ .value)
    {r : Record cs} (number : IsNumber cs r) (before after : Row) :
    read (before ++ (write cs r ++ after)) before.length cs = .ok r := by
  induction cs generalizing before with
  | nil => rfl
  | cons c cs ih =>
      have back := FieldType.read_write (named c List.mem_cons_self) number.1
      have others := ih (fun c member => named c (List.mem_cons_of_mem _ member)) number.2
        (before ++ [c.type.write r.1])
      exact read_cons_eq_ok.mpr ⟨back, others⟩

end Record

end Tabula
