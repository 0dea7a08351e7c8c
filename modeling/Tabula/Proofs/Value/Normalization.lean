import Tabula.Proofs.Value.RoundTrip

/-! # Reading and writing again

A field that is read from a value and written again has a normal form of it: a second reading and
writing changes nothing more (`Tabula.Scalar.read_again`, `Tabula.Record.read_again`). Reading is
more generous than writing, so the first time can change the value, in a few ways only
(`Tabula.Scalar.Turns`); apart from NULL, what is written has the storage class of the type
(`Tabula.FieldType.write_of_read`). Single precision knows one NaN, so that values are compared with
every NaN for the same (`Tabula.Value.Alike`).
-/

namespace Tabula

/-- Whether two values are the same, with every NaN for the same. -/
inductive Value.Alike : Value → Value → Prop where
  | refl (v : Value) : Alike v v
  | nan {x y : Binary64} (left : x.isNaN = true) (right : y.isNaN = true) :
      Alike (.real x) (.real y)

/-! ## Numbers that are none -/

private theorem Binary32.widen_of_isNaN {x : Binary32} (isNaN : x.isNaN = true) : x.widen = .nan :=
  if_pos isNaN

private theorem Binary64.narrow_of_isNaN {x : Binary64} (isNaN : x.isNaN = true) :
    x.narrow = .nan :=
  if_pos isNaN

/-- Single precision loses nothing of what it was widened from, but for the pattern of a NaN. -/
theorem Binary32.widen_narrow_widen (x : Binary32) : x.widen.narrow.widen = x.widen := by
  cases isNaN : x.isNaN with
  | false => rw [narrow_widen isNaN]
  | true =>
      rw [widen_of_isNaN isNaN]
      decide +kernel

/-! ## Single values -/

namespace Scalar

/-- What a value becomes that a field of a type is read from, where the field is written as another
one: a number of the other storage class or precision, bytes of a text, and one for what is true. -/
inductive Turns : Scalar → Value → Value → Prop where
  | truth {n : Int64} (nonzero : n ≠ 0) : Turns bool (.integer n) (.integer 1)
  | single (n : Int64) : Turns single (.integer n) (.real (Binary64.ofInt n.toInt).narrow.widen)
  | double (n : Int64) : Turns double (.integer n) (.real (Binary64.ofInt n.toInt))
  | rounded {x : Binary64} (number : x.isNaN = false) (between : ∀ y : Binary32, y.widen ≠ x) :
      Turns single (.real x) (.real x.narrow.widen)
  | bytes (s : String) : Turns bytes (.text s) (.blob s.toUTF8.toList)

variable {t : Scalar}

private theorem storage?_write (other : t ≠ value) (x : t.Carrier) :
    (t.write x).storage? = t.storage? := by
  cases t with
  | value => exact absurd rfl other
  | _ => rfl

/-- A number of double precision is kept by single precision, or rounded. -/
theorem turns_narrow (x : Binary64) :
    (Value.real x.narrow.widen).Alike (.real x) ∨
      Turns .single (.real x) (.real x.narrow.widen) := by
  cases isNaN : x.isNaN with
  | true =>
      rw [Binary64.narrow_of_isNaN isNaN]
      exact Or.inl (.nan (by decide +kernel) isNaN)
  | false =>
      by_cases single : ∃ y : Binary32, y.widen = x
      · obtain ⟨y, rfl⟩ := single
        rw [Binary32.widen_narrow_widen]
        exact Or.inl (.refl _)
      · exact Or.inr (.rounded isNaN fun y same => single ⟨y, same⟩)

/-- What was read from a value is written as that value, or as what it turns into. -/
theorem write_of_read {v : Value} {x : t.Carrier} (reads : t.read v = .ok x) :
    (t.write x).Alike v ∨ t.Turns v (t.write x) := by
  cases t with
  | bool =>
      cases v with
      | integer n =>
          obtain rfl := Except.ok.inj reads
          by_cases zero : n = 0
          · subst zero
            exact Or.inl (.refl _)
          · have set : (n != 0) = true := bne_iff_ne.mpr zero
            change (Value.integer (if (n != 0) = true then 1 else 0)).Alike _ ∨
              Turns .bool _ (.integer (if (n != 0) = true then 1 else 0))
            rw [if_pos set]
            exact Or.inr (.truth zero)
      | _ => cases reads
  | int w =>
      cases v with
      | integer n =>
          change (if h : w.Holds n then Except.ok _ else _) = _ at reads
          split at reads
          · obtain rfl := Except.ok.inj reads
            exact Or.inl (.refl _)
          · cases reads
      | _ => cases reads
  | single =>
      cases v with
      | real y =>
          obtain rfl := Except.ok.inj reads
          exact turns_narrow y
      | integer n =>
          obtain rfl := Except.ok.inj reads
          exact Or.inr (.single n)
      | _ => cases reads
  | double =>
      cases v with
      | real y =>
          obtain rfl := Except.ok.inj reads
          exact Or.inl (.refl _)
      | integer n =>
          obtain rfl := Except.ok.inj reads
          exact Or.inr (.double n)
      | _ => cases reads
  | text =>
      cases v with
      | text s =>
          obtain rfl := Except.ok.inj reads
          exact Or.inl (.refl _)
      | _ => cases reads
  | bytes =>
      cases v with
      | blob b =>
          obtain rfl := Except.ok.inj reads
          exact Or.inl (.refl _)
      | text s =>
          obtain rfl := Except.ok.inj reads
          exact Or.inr (.bytes s)
      | _ => cases reads
  | value =>
      obtain rfl := Except.ok.inj reads
      exact Or.inl (.refl _)

/-- What a field is written as is read again, and written in the same way. -/
theorem read_again (x : t.Carrier) : ∃ y, t.read (t.write x) = .ok y ∧ t.write y = t.write x := by
  cases t with
  | single =>
      exact ⟨Binary64.narrow (Binary32.widen x), rfl,
        congrArg Value.real (Binary32.widen_narrow_widen x)⟩
  | double => exact ⟨x, rfl, rfl⟩
  | _ => exact ⟨x, read_write trivial, rfl⟩

end Scalar

namespace FieldType

private theorem optional_of_read {s : Scalar} {v : Value} {x : Option s.Carrier}
    (reads : read ⟨s, true⟩ v = .ok x) :
    (v = .null ∧ x = none) ∨ v ≠ .null ∧ ∃ y, s.read v = .ok y ∧ x = some y := by
  cases x with
  | none => exact Or.inl ⟨read_eq_none_iff.mp reads, rfl⟩
  | some y =>
      obtain ⟨full, isRead⟩ := read_eq_some_iff.mp reads
      exact Or.inr ⟨full, y, isRead, rfl⟩

variable {t : FieldType}

/-- What was read from a value is written as NULL if that was NULL, which only an optional type
reads; otherwise as a value of the storage class of the type, and as the value itself or as what it
turns into. -/
theorem write_of_read (other : t.scalar ≠ .value) {v : Value} {x : t.Carrier}
    (reads : t.read v = .ok x) :
    (t.write x = .null ↔ t.optional = true ∧ v = .null) ∧
      (t.write x ≠ .null → (t.write x).storage? = t.scalar.storage?) ∧
      ((t.write x).Alike v ∨ t.scalar.Turns v (t.write x)) := by
  obtain ⟨s, optional⟩ := t
  cases optional with
  | false =>
      have full : write ⟨s, false⟩ x ≠ .null := Scalar.write_ne_null other x
      exact ⟨iff_of_false full fun both => absurd both.1 Bool.false_ne_true,
        fun _ => Scalar.storage?_write other x, Scalar.write_of_read reads⟩
  | true =>
      rcases optional_of_read reads with ⟨rfl, rfl⟩ | ⟨notNull, y, isRead, rfl⟩
      · exact ⟨iff_of_true rfl ⟨rfl, rfl⟩, fun full => absurd rfl full, Or.inl (.refl _)⟩
      · have full : write ⟨s, true⟩ (some y) ≠ .null := Scalar.write_ne_null other y
        exact ⟨iff_of_false full fun both => notNull both.2,
          fun _ => Scalar.storage?_write other y, Scalar.write_of_read isRead⟩

/-- What is written is read as something that is written in the same way. -/
theorem read_again (other : t.scalar ≠ .value) (x : t.Carrier) :
    ∃ y, t.read (t.write x) = .ok y ∧ t.write y = t.write x := by
  obtain ⟨s, optional⟩ := t
  cases optional with
  | false => exact Scalar.read_again x
  | true =>
      change Option s.Carrier at x
      cases x with
      | none => exact ⟨none, rfl, rfl⟩
      | some y =>
          obtain ⟨z, isRead, same⟩ := Scalar.read_again y
          exact ⟨some z, read_eq_some_iff.mpr ⟨Scalar.write_ne_null other y, isRead⟩, same⟩

end FieldType

/-! ## Records -/

namespace Record

variable {cs : List RecordColumn} {r : Record cs}

/-- Each column of a record is read from the value at its place, and written at that place. -/
theorem place_of_read (before : Row) {row : Row}
    (reads : read (before ++ row) before.length cs = .ok r) {i : Nat} {c : RecordColumn}
    (column : cs[i]? = some c) :
    ∃ v x, row[i]? = some v ∧ c.type.read v = .ok x ∧
      (write cs r)[i]? = some (c.type.write x) := by
  induction cs generalizing before row i with
  | nil => cases column
  | cons first cs ih =>
      obtain ⟨x, rest⟩ := r
      cases row with
      | nil =>
          have short : (before ++ [])[before.length]? = none :=
            List.getElem?_eq_none (by rw [List.append_nil])
          rw [read, Row.read, Row.value, short] at reads
          cases reads
      | cons v row =>
          obtain ⟨here, there⟩ := read_cons_eq_ok.mp reads
          cases i with
          | zero =>
              obtain rfl := Option.some.inj column
              exact ⟨v, x, rfl, here, rfl⟩
          | succ i => exact ih _ there column

/-- The values of a record are read again, and written in the same way. -/
theorem read_again (named : ∀ c ∈ cs, c.type.scalar ≠ .value) (r : Record cs) (before : Row) :
    ∃ again, read (before ++ write cs r) before.length cs = .ok again ∧
      write cs again = write cs r := by
  induction cs generalizing before with
  | nil => exact ⟨(), rfl, rfl⟩
  | cons c cs ih =>
      obtain ⟨x, rest⟩ := r
      obtain ⟨y, here, same⟩ := FieldType.read_again (named c List.mem_cons_self) x
      obtain ⟨again, there, others⟩ := ih (fun c member => named c (List.mem_cons_of_mem _ member))
        rest (before ++ [c.type.write x])
      refine ⟨(y, again), read_cons_eq_ok.mpr ⟨here, there⟩, ?_⟩
      change c.type.write y :: write cs again = c.type.write x :: write cs rest
      rw [same, others]

end Record

end Tabula
